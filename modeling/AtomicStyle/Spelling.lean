import AtomicStyle.NameMap
import AtomicStyle.Trace

/-!
# Spelling

A name with hyphens can also be written with underscores. The second spelling is added to a map
after everything else, so it takes the place of an entry that had that spelling before.
-/

namespace AtomicStyle

def hyphenated (name : String) : Bool := name.toList.contains '-'

/-- The name with each hyphen written as an underscore. -/
def underscored (name : String) : String :=
  String.ofList (name.toList.map fun c => if c = '-' then '_' else c)

namespace NameMap

variable {α : Type}

/-- The entries whose names have hyphens, in the order of the names. -/
def hyphenatedEntries (map : NameMap α) : List (String × α) :=
  map.toList.filter fun entry => hyphenated entry.1

/-- The map with each hyphenated name also under its spelling with underscores. -/
def withUnderscores (map : NameMap α) : NameMap α :=
  map.insertAll (map.hyphenatedEntries.map fun entry => (underscored entry.1, entry.2))

def respellings (map : NameMap α) : List Note :=
  map.hyphenatedEntries.map fun entry => .respelled entry.1 (underscored entry.1)

/-- Adds the spellings with underscores and notes each. -/
def respell {ε : Type} (map : NameMap α) : Run ε (NameMap α) :=
  ⟨.ok map.withUnderscores, map.respellings⟩

end NameMap

end AtomicStyle
