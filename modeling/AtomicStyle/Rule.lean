import AtomicStyle.NameMap

/-!
# Style rules

A rule gives properties their values, and a sheet gives rules their names.
-/

namespace AtomicStyle

inductive RuleValue where
  | number (value : Float)
  | text (value : String)

/-- A style rule: properties and their values. -/
abbrev Rule := NameMap RuleValue

/-- A style sheet: rules by name. -/
abbrev Sheet := NameMap Rule

namespace Rule

/-- The rule that sets one property. -/
def single (property : String) (value : RuleValue) : Rule := (∅ : Rule).insert property value

/-- The rule that sets each property to the last of the values given for it. -/
def ofProperties (properties : List (String × RuleValue)) : Rule := NameMap.ofEntries properties

end Rule

end AtomicStyle
