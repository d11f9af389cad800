import AtomicStyle.Config.Field
import AtomicStyle.Decimal.Layout
import AtomicStyle.Yaml.Node
import AtomicStyle.Yaml.Schema

/-!
# Configurations as YAML documents

Settings are read from a mapping. The first thing in the document that is wrong is reported: a value
that does not fit with the path to it, a fault without more.
-/

namespace AtomicStyle.Yaml

inductive ReadError where
  /-- The document is not well formed, or a value lacks the kind that its tag asks for. -/
  | broken
  /-- The value at a path does not fit; the path of the document itself is empty. -/
  | unfit (path : String) (c : Complaint)

def wording : Wording where
  nothing := "unit value"
  real := { Decimal.plain with pointZero := true : Decimal.Layout }.render

def ReadError.message? : ReadError → Option String
  | broken => none
  | unfit path c =>
    some (if path.isEmpty then c.message wording else path ++ ": " ++ c.message wording)

/-- A node with the path to it and the path to the mapping around it. -/
structure Place where
  around : String
  path : String
  node : Node

/-- The path of the value of a key. -/
def childPath (around : String) : Node → String
  | .scalar _ text _ => if around.isEmpty then text else around ++ "." ++ text
  | _ => if around.isEmpty then "?" else around ++ ".?"

/-- The places of the values of a mapping, with their keys. -/
def places (around : String) (pairs : List (Node × Node)) : List (Node × Place) :=
  pairs.map fun pair => (pair.1, ⟨around, childPath around pair.1, pair.2⟩)

def mismatch (wanted : Wanted) (path : String) : Node → ReadError
  | .scalar tag text style =>
    match meaning? tag text style with
    | some found => .unfit path (.wrongType found wanted)
    | none => .broken
  | .sequence .. => .unfit path (.wrongType .sequence wanted)
  | .mapping .. => .unfit path (.wrongType .map wanted)
  | .reference _ | .broken => .broken

variable (d : Document)

/-- Whether a node stands for a value that is left out. -/
def isAbsent : Node → Except ReadError Bool
  | .scalar tag text style =>
    if style ≠ .plain then .ok false
    else
      match tag with
      | none => .ok (text.isEmpty || isNull text)
      | some t =>
        if t ≠ standardTag "null" then .ok false
        else if isNull text then .ok true
        else .error .broken
  | .broken => .error .broken
  | _ => .ok false

def readOptional {α : Type} (read : Place → Except ReadError α) (p : Place) :
    Except ReadError (Option α) := do
  let node := d.follow p.node
  if ← isAbsent node then return none else return some (← read { p with node })

/-- Reads a text, which any scalar is. -/
def readText (wanted : Wanted) (path : String) (node : Node) : Except ReadError String :=
  match d.follow node with
  | .scalar _ text _ => .ok text
  | node => .error (mismatch wanted path node)

/-- Reads a number from a plain scalar, or from a literal one with the tag for it. -/
def readNumber (p : Place) : Except ReadError Float :=
  let error : Except ReadError Float := .error (mismatch .number p.path p.node)
  match p.node with
  | .scalar tag text style =>
    if style = .plain ∨ (style = .literal ∧ tag = some (standardTag "float")) then
      match real? text.toList with
      | some x => .ok x
      | none => error
    else error
  | _ => error

def readPairs : List (Node × Place) → Declarations → Except ReadError Declarations
  | [], ds => .ok ds
  | (key, p) :: rest, ds => do
    let name ← readText d .text p.around key
    readPairs rest (ds.insert name (← readText d .text p.path p.node))

/-- Fails at a collection that is not closed. -/
def ifClosed {α : Type} (closed : Bool) (a : α) : Except ReadError α :=
  if closed then .ok a else .error .broken

/-- The pairs of a mapping, for which an empty plain scalar counts as one without pairs. -/
def pairsOf (wanted : Wanted) (p : Place) :
    Except ReadError (List (Node × Place) × Bool) :=
  match p.node with
  | .mapping _ pairs closed => .ok (places p.path pairs, closed)
  | .scalar _ "" .plain => .ok ([], true)
  | node => .error (mismatch wanted p.path node)

def readDeclarations (p : Place) : Except ReadError Declarations := do
  let (pairs, closed) ← pairsOf .map p
  ifClosed closed (← readPairs d pairs ∅)

section Content

/-- Follows an alias, which may be done a hundred times for each piece of the document. -/
def followCounted (node : Node) : StateT Nat (Except ReadError) Node := do
  match node with
  | .reference _ =>
    let count := (← get) + 1
    if 100 * d.pieces.length < count then throw .broken
    set count
    return d.follow node
  | _ => return node

/-- A value without a tag of the document's own. -/
def refuseLocal (tag : Option String) : Except ReadError Unit :=
  if tag.any isLocalTag then .error .broken else .ok ()

/-- Reads a whole value, at most `depth` collections deep, and returns its meaning if it is a
scalar. -/
def readContent : (depth : Nat) → String → Node → StateT Nat (Except ReadError) (Option Found)
  | depth, path, node => do
    match ← followCounted d node with
    | .scalar tag text style =>
      refuseLocal tag
      match meaning? tag text style with
      | none => throw .broken
      | some (.wide n) => throw (.unfit path (.wrongType (.wide n) .anything))
      | some found => return some found
    | .sequence tag items closed =>
      refuseLocal tag
      match depth with
      | 0 => throw .broken
      | depth + 1 =>
        for (item, i) in items.zipIdx do
          let _ ← readContent depth (path ++ "[" ++ Nat.repr i ++ "]") item
        ifClosed closed none
    | .mapping tag pairs closed =>
      refuseLocal tag
      match depth with
      | 0 => throw .broken
      | depth + 1 =>
        for (key, value) in pairs do
          let _ ← readContent depth path key
          let _ ← readContent depth (childPath path key) value
        ifClosed closed none
    | .reference _ | .broken => throw .broken

/-- Collections may be nested 128 deep, of which two are around an adjustment. -/
def adjustmentDepth : Nat := 126

/-- Reads an adjustment: any number, or `false`. What does not fit is reported for the mapping
around it. -/
def readAdjustment (p : Place) : Except ReadError Adjustment := do
  let (found, _) ← (readContent d adjustmentDepth p.path p.node).run 0
  match found with
  | some (.integer n) =>
    return .ratio (if n < 0 then -Float.ofNat n.natAbs else Float.ofNat n.natAbs)
  | some (.real x) => return .ratio x
  | some (.boolean false) => return .disabled
  | some (.boolean true) => throw (.unfit p.around .adjustmentTrue)
  | _ => throw (.unfit p.around .notAdjustment)

end Content

def fieldReader : FieldReader Place ReadError where
  number := readOptional d readNumber
  adjustment := readOptional d (readAdjustment d)
  declarations := readOptional d (readDeclarations d)

def readRecord {φ σ : Type} [DecidableEq φ] (within : Section) (ofName? : String → Option φ)
    (name : φ → String) (set : σ → Place → φ → Except ReadError σ) (wanted : Wanted) (empty : σ)
    (p : Place) : Except ReadError σ := do
  let field (key : Node) : Except ReadError φ := do
    let text ← readText d .settingName p.path key
    match ofName? text with
    | some f => return f
    | none => throw (.unfit p.path (.unknownField text within))
  let twice (f : φ) : ReadError := .unfit p.path (.duplicateField (name f))
  let (pairs, closed) ← pairsOf wanted p
  ifClosed closed (← readFields field twice set pairs [] empty)

def readColors : Place → Except ReadError (Option ColorOverrides) :=
  readOptional d (readRecord d .colors ColorField.ofName? ColorField.name
    (ColorOverrides.read (fieldReader d)) .colorSettings {})

def readOverrides (node : Node) : Except ReadError Overrides :=
  readRecord d .top Field.ofName? Field.name
    (Overrides.read (fieldReader d) (readColors d)) .settings {} ⟨"", "", d.follow node⟩

end Yaml

/-- Reads settings from a YAML document. A text without any document leaves everything out. -/
def Overrides.ofYaml (source : String) : Except Yaml.ReadError Overrides := do
  let d := Yaml.Document.read source
  match d.root? with
  | none => return {}
  | some node =>
    let o ← Yaml.readOverrides d node
    if d.complete then return o else throw .broken

end AtomicStyle
