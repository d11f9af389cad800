import AtomicStyle.Rule

/-!
# Vocabularies

The names of a style sheet come from tables. A group of a table is a name with the properties it
sets. In a fixed table the properties have their final values, in a scaled table multiples of the
base unit. Order counts: of two groups with one name the later is the one that holds.
-/

namespace AtomicStyle

structure Group (α : Type) where
  name : String
  properties : List (String × α)

abbrev Table (α : Type) := List (Group α)

/-- The tables that a sheet is built from. -/
structure Vocabulary where
  fixed : List (Table RuleValue)
  scaled : List (Table Float)

namespace Vocabulary

/-- Groups that set one property each, to a text. -/
def texts (property : String) (values : List (String × String)) : Table RuleValue :=
  values.map fun entry => ⟨entry.1, [(property, .text entry.2)]⟩

/-- Groups that set one property each, to a number. -/
def numbers (property : String) (values : List (String × Float)) : Table RuleValue :=
  values.map fun entry => ⟨entry.1, [(property, .number entry.2)]⟩

/-- Groups for one property in steps: the letters followed by `first`, `first + 1` and so on. -/
def ladder (letters property : String) (first : Nat) (steps : List Float) : Table Float :=
  steps.mapIdx fun i step => ⟨letters ++ Nat.repr (first + i), [(property, step)]⟩

end Vocabulary

end AtomicStyle
