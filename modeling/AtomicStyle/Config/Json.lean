import AtomicStyle.Config.Field
import AtomicStyle.Json.Content

/-!
# Configurations as JSON documents

A configuration is written as an object with the members `rem`, `colors` and `fonts`, in this order,
and settings are read from such an object or from an array of the three in order. A member that is
`null` counts as left out.
-/

namespace AtomicStyle

namespace Adjustment

/-- A share as a number, and no adjustment as `false`. -/
def toJson : Adjustment → Json.Value
  | ratio share => .number (.float share)
  | disabled => .bool false

/-- Reads what `toJson` writes; any number will do for a share. -/
def ofJson : Json.Value → Except Json.ReadError Adjustment
  | .number n => .ok (.ratio n.toFloat)
  | .bool false => .ok .disabled
  | .bool true => .error (.unfit .adjustmentTrue)
  | _ => .error (.unfit .notAdjustment)

end Adjustment

def Declarations.toJson (ds : Declarations) : Json.Value :=
  .object (ds.toList.map fun entry => (entry.1, .text entry.2))

def ColorSettings.toJson (c : ColorSettings) : Json.Value :=
  .object
    [("lighten", c.lighten.toJson), ("darken", c.darken.toJson), ("palette", c.palette.toJson)]

def Config.toJson (c : Config) : Json.Value :=
  .object [("rem", .number (.float c.rem)), ("colors", c.colors.toJson), ("fonts", c.fonts.toJson)]

namespace Json

def readDeclarations : List (String × Draft) → Declarations → Except ReadError Declarations
  | [], ds => .ok ds
  | (name, d) :: rest, ds => do readDeclarations rest (ds.insert name (← d.readString))

def fieldReader : FieldReader Draft ReadError where
  number
    | .null => .ok none
    | .number n => .ok (some n.toFloat)
    | d => .error (d.mismatch .number)
  adjustment
    | .null => .ok none
    | d => do return some (← Adjustment.ofJson (← d.readWhole))
  declarations
    | .null => .ok none
    | .object members flaw => do Draft.atFlaw (some (← readDeclarations members ∅)) flaw
    | d => .error (d.mismatch .map)

/-- Reads a record from an object or from an array of its fields. -/
def readRecord {φ σ : Type} [DecidableEq φ] (within : Section) (ofName? : String → Option φ)
    (name : φ → String) (fields : List φ) (set : σ → Draft → φ → Except ReadError σ)
    (wanted : Wanted) (empty : σ) : Draft → Except ReadError σ
  | .object members flaw => do
    let field (key : String) : Except ReadError φ :=
      match ofName? key with
      | some f => .ok f
      | none => .error (.unfit (.unknownField key within))
    let twice (f : φ) : ReadError := .unfit (.duplicateField (name f))
    Draft.atFlaw (← readFields field twice set members [] empty) flaw
  | .array items flaw => do
    let state ← readPositions set fields items empty
    if fields.length < items.length then .error (.flaw .malformed) else Draft.atFlaw state flaw
  | d => .error (d.mismatch wanted)

def readColors : Draft → Except ReadError (Option ColorOverrides)
  | .null => .ok none
  | d => do
    return some (← readRecord .colors ColorField.ofName? ColorField.name
      [.lighten, .darken, .palette] (ColorOverrides.read fieldReader) .colorSettings {} d)

def readOverrides : Draft → Except ReadError Overrides :=
  readRecord .top Field.ofName? Field.name [.rem, .colors, .fonts]
    (Overrides.read fieldReader readColors) .settings {}

end Json

def Overrides.ofJson (source : String) : Except Json.ReadError Overrides := do
  let document := Json.Document.read source
  document.finish (← Json.readOverrides document.content)

end AtomicStyle
