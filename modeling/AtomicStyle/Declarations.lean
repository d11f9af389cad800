/-!
# Declarations

A palette and a list of fonts are names with texts, in the order in which they are declared. Each
name is declared once: a later declaration of it changes the text and keeps the place.
-/

namespace AtomicStyle

/-- Names with texts in the order of declaration, no name twice. -/
structure Declarations where
  toList : List (String × String)
  nodup : (toList.map Prod.fst).Nodup

namespace Declarations

/-- Declares a name in a list of declarations. -/
def declare (name text : String) : List (String × String) → List (String × String)
  | [] => [(name, text)]
  | (n, t) :: rest => if n = name then (name, text) :: rest else (n, t) :: declare name text rest

theorem mem_names_declare {name text n : String} {entries : List (String × String)} :
    n ∈ (declare name text entries).map Prod.fst ↔ n = name ∨ n ∈ entries.map Prod.fst := by
  induction entries with
  | nil => simp [declare]
  | cons entry rest ih =>
    obtain ⟨m, t⟩ := entry
    by_cases h : m = name
    · simp [declare, h]
    · simp only [declare, if_neg h, List.map_cons, List.mem_cons, ih]
      exact or_left_comm

theorem nodup_declare (name text : String) {entries : List (String × String)}
    (h : (entries.map Prod.fst).Nodup) : ((declare name text entries).map Prod.fst).Nodup := by
  induction entries with
  | nil => simp [declare]
  | cons entry rest ih =>
    obtain ⟨m, t⟩ := entry
    simp only [List.map_cons, List.nodup_cons] at h
    by_cases hm : m = name
    · simp only [declare, if_pos hm, List.map_cons, List.nodup_cons]
      exact hm ▸ h
    · simp only [declare, if_neg hm, List.map_cons, List.nodup_cons]
      refine ⟨fun hmem => ?_, ih h.2⟩
      rcases mem_names_declare.1 hmem with h' | h'
      · exact hm h'
      · exact h.1 h'

def empty : Declarations := ⟨[], by simp⟩

instance : EmptyCollection Declarations := ⟨empty⟩

instance : Inhabited Declarations := ⟨empty⟩

/-- Declares a name, in its old place if it has one. -/
def insert (ds : Declarations) (name text : String) : Declarations :=
  ⟨declare name text ds.toList, nodup_declare name text ds.nodup⟩

def insertAll (ds : Declarations) (entries : List (String × String)) : Declarations :=
  entries.foldl (fun ds entry => ds.insert entry.1 entry.2) ds

/-- The declarations of a list, made one after the other. -/
def ofList (entries : List (String × String)) : Declarations := empty.insertAll entries

def declares (ds : Declarations) (name : String) : Bool := ds.toList.any fun entry => entry.1 = name

def find? (ds : Declarations) (name : String) : Option String :=
  (ds.toList.find? fun entry => entry.1 = name).map Prod.snd

/-- The declarations followed by those of `others` whose names are still free. -/
def orElse (ds others : Declarations) : Declarations :=
  others.toList.foldl
    (fun ds entry => if ds.declares entry.1 then ds else ds.insert entry.1 entry.2) ds

end Declarations

end AtomicStyle
