import AtomicStyle.Compiled
import AtomicStyle.Config.Overrides
import AtomicStyle.Rule.Json

/-!
# Registries

A registry holds the sizes, colours and styles of all builds so far. A build adds to it and takes
nothing away; what it writes under a name that is already there takes the place of the old value.
Styles are made by a factory, which may refuse a sheet: sizes and colours stay added then.
-/

namespace AtomicStyle

/-- Makes the styles of a sheet, one for each rule, or refuses. -/
structure Factory (Handle ε : Type) where
  create : Sheet → Except ε (NameMap Handle)

namespace Factory

def rules : Factory Rule Empty := ⟨.ok⟩

/-- A rule as a value of JSON, in which a number that is not finite is `null`. -/
def jsonOfRule (rule : Rule) : Json.Value :=
  NameMap.toJson
    (fun value =>
      match value with
      | .number x => if x.isFinite then .number (.float x) else .null
      | .text s => .text s) rule

/-- Makes each rule a value of JSON. -/
def json : Factory Json.Value Empty := ⟨fun sheet => .ok (sheet.map fun _ rule => jsonOfRule rule)⟩

end Factory

inductive BuildError (ε : Type) where
  | palette (error : PaletteError)
  | materialize (cause : ε)

namespace BuildError

variable {ε : Type}

/-- The wording of the error; a text that no answer exists for has none. -/
def message? : BuildError ε → Option String
  | palette (.invalidColor name _) => some ("palette entry '" ++ name ++ "' is not a valid color")
  | palette .splitCharacter => none
  | materialize _ => some "style factory failed to materialize the sheet"

end BuildError

/-- The sizes, colours and styles of all builds so far. -/
structure Registry (Handle : Type) where
  sizes : NameMap Float
  colors : NameMap String
  styles : NameMap Handle

namespace Registry

variable {Handle ε : Type}

def empty : Registry Handle := ⟨∅, ∅, ∅⟩

def isEmpty (r : Registry Handle) : Bool :=
  r.sizes.isEmpty && r.colors.isEmpty && r.styles.isEmpty

/-- Adds a compiled result. Sizes and colours are added before the factory is asked for styles. -/
def commit (r : Registry Handle) (c : Compiled) (factory : Factory Handle ε) :
    Registry Handle × Run (BuildError ε) Unit :=
  let sized : Registry Handle :=
    { r with sizes := r.sizes ∪ c.sizes, colors := r.colors ∪ c.colors }
  match factory.create c.sheet with
  | .error e => (sized, .fail (.materialize e))
  | .ok styles =>
    ({ sized with styles := r.styles ∪ styles }, .leave [.committed styles.size])

/-- Compiles a configuration with a vocabulary of one's own and adds the result. -/
def buildWith (r : Registry Handle) (config : Config) (vocabulary : Vocabulary)
    (factory : Factory Handle ε) : Registry Handle × Run (BuildError ε) Unit :=
  let compiled := config.compileWith vocabulary
  match compiled.outcome with
  | .error e => (r, ⟨.error (.palette e), compiled.notes⟩)
  | .ok c =>
    let (r, run) := r.commit c factory
    (r, ⟨run.outcome, compiled.notes ++ run.notes⟩)

/-- Compiles a configuration with the standard vocabulary and adds the result. -/
def build (r : Registry Handle) (config : Config) (factory : Factory Handle ε) :
    Registry Handle × Run (BuildError ε) Unit :=
  r.buildWith config Vocabulary.standard factory

/-- A registry as an object, with a form for the styles. -/
def toJson (style : Handle → Json.Value) (r : Registry Handle) : Json.Value :=
  .object
    [("sizes", r.sizes.toJson fun x => .number (.float x)), ("colors", r.colors.toJson .text),
      ("styles", r.styles.toJson style)]

end Registry

def Compiled.toJson (c : Compiled) : Json.Value :=
  .object
    [("sizes", c.sizes.toJson fun x => .number (.float x)), ("colors", c.colors.toJson .text),
      ("sheet", c.sheet.toJson Rule.toJson)]

end AtomicStyle
