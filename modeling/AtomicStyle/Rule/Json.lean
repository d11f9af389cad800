import AtomicStyle.Json.Content
import AtomicStyle.Rule

/-!
# Rules as JSON documents

A rule is written as an object with its properties in the order of their names.
-/

namespace AtomicStyle

def RuleValue.toJson : RuleValue → Json.Value
  | number x => .number (.float x)
  | text s => .text s

def RuleValue.ofJson : Json.Value → Except Json.ReadError RuleValue
  | .number n => .ok (.number n.toFloat)
  | .text s => .ok (.text s)
  | _ => .error (.unfit .notRuleValue)

/-- A map as an object, its entries in the order of their names. -/
def NameMap.toJson {α : Type} (value : α → Json.Value) (map : NameMap α) : Json.Value :=
  .object (map.toList.map fun entry => (entry.1, value entry.2))

namespace Rule

def toJson (rule : Rule) : Json.Value := NameMap.toJson RuleValue.toJson rule

def readMembers : List (String × Json.Draft) → Rule → Except Json.ReadError Rule
  | [], rule => .ok rule
  | (name, d) :: rest, rule => do
    readMembers rest (rule.insert name (← RuleValue.ofJson (← d.readWhole)))

def ofDraft : Json.Draft → Except Json.ReadError Rule
  | .object members flaw => do Json.Draft.atFlaw (← readMembers members ∅) flaw
  | d => .error (d.mismatch .map)

def ofJson (source : String) : Except Json.ReadError Rule := do
  let document := Json.Document.read source
  document.finish (← ofDraft document.content)

end Rule

end AtomicStyle
