import AtomicStyle.Complaint
import AtomicStyle.Config.Overrides

/-!
# The fields of a settings document

A document sets fields by name, in any order and each at most once. How a name and a value are read
depends on the format; what is done with them does not.
-/

namespace AtomicStyle

inductive Field where
  | rem
  | colors
  | fonts
deriving DecidableEq, Repr

inductive ColorField where
  | lighten
  | darken
  | palette
deriving DecidableEq, Repr

namespace Field

/-- The field of a name; the unit has two names. -/
def ofName? : String → Option Field
  | "rem" | "remUnit" => some rem
  | "colors" => some colors
  | "fonts" => some fonts
  | _ => none

def name : Field → String
  | rem => "rem"
  | colors => "colors"
  | fonts => "fonts"

end Field

namespace ColorField

def ofName? : String → Option ColorField
  | "lighten" => some lighten
  | "darken" => some darken
  | "palette" => some palette
  | _ => none

def name : ColorField → String
  | lighten => "lighten"
  | darken => "darken"
  | palette => "palette"

end ColorField

/-- How the values of the fields are read from parts of a document of one format. -/
structure FieldReader (Part ε : Type) where
  number : Part → Except ε (Option Float)
  adjustment : Part → Except ε (Option Adjustment)
  declarations : Part → Except ε (Option Declarations)

variable {Part Key φ σ ε : Type}

def ColorOverrides.read (r : FieldReader Part ε) (o : ColorOverrides) (part : Part) :
    ColorField → Except ε ColorOverrides
  | .lighten => do return { o with lighten := ← r.adjustment part }
  | .darken => do return { o with darken := ← r.adjustment part }
  | .palette => do return { o with palette := ← r.declarations part }

/-- Reads one field at the top, `colors` being how the colour settings are read. -/
def Overrides.read (r : FieldReader Part ε) (colors : Part → Except ε (Option ColorOverrides))
    (o : Overrides) (part : Part) : Field → Except ε Overrides
  | .rem => do return { o with rem := ← r.number part }
  | .colors => do return { o with colors := ← colors part }
  | .fonts => do return { o with fonts := ← r.declarations part }

/-- Reads fields in the order of a document. A field that was `seen` may not come again. -/
def readFields [DecidableEq φ] (field : Key → Except ε φ) (twice : φ → ε)
    (set : σ → Part → φ → Except ε σ) : List (Key × Part) → List φ → σ → Except ε σ
  | [], _, state => .ok state
  | (key, part) :: rest, seen, state => do
    let f ← field key
    if f ∈ seen then .error (twice f)
    else readFields field twice set rest (f :: seen) (← set state part f)

/-- Reads fields by position, as many as there are parts for. -/
def readPositions (set : σ → Part → φ → Except ε σ) : List φ → List Part → σ → Except ε σ
  | f :: fields, part :: parts, state => do
    readPositions set fields parts (← set state part f)
  | _, _, state => .ok state

end AtomicStyle
