import Std.Data.ExtTreeMap

/-!
# Maps by name

Sizes, colours, rules and sheets are maps from names. A map is walked in the order of its names,
which are compared character by character, and two maps are equal as soon as they hold the same
value at every name.
-/

namespace AtomicStyle

abbrev NameMap (α : Type) := Std.ExtTreeMap String α compare

namespace NameMap

variable {α : Type}

/-- The map of a list of entries; of two entries with one name the later counts. -/
def ofEntries (entries : List (String × α)) : NameMap α :=
  entries.foldl (fun map entry => map.insert entry.1 entry.2) ∅

/-- The map with further entries, the later of two with one name counting. -/
def insertAll (map : NameMap α) (entries : List (String × α)) : NameMap α :=
  entries.foldl (fun map entry => map.insert entry.1 entry.2) map

end NameMap

end AtomicStyle
