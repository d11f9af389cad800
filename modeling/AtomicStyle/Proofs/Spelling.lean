import AtomicStyle.Proofs.NameMap
import AtomicStyle.Spelling
import Mathlib.Data.Set.Finite.Lemmas
import Mathlib.Order.Bounds.Basic

/-!
# Both spellings

A spelling with underscores has no hyphens, so adding the spellings to a map leaves its hyphenated
names as they are. Several hyphenated names can have one spelling: they are rivals for it, and the
greatest of them gives it its value (`getElem?_withUnderscores_of_isGreatest`). So each hyphenated
name has a twin, and the twins all agree exactly if rivals do (`BothSpellings`). What is added for a
spelling depends on the names of that spelling alone (`getElem?_withUnderscores_congr`), and once it
is added it is there for good (`withUnderscores_idem`).
-/

namespace AtomicStyle

variable {α β : Type}

theorem not_hyphenated_underscored (name : String) : ¬ hyphenated (underscored name) := by
  simp only [hyphenated, underscored, String.toList_ofList, List.contains_eq_mem, List.mem_map,
    decide_eq_true_eq, not_exists, not_and]
  rintro c - h
  split_ifs at h with hc
  · exact absurd h (by decide)
  · exact hc h

theorem underscored_of_not_hyphenated {name : String} (h : ¬ hyphenated name) :
    underscored name = name := by
  have hmap : (name.toList.map fun c => if c = '-' then '_' else c) = name.toList.map id := by
    refine List.map_congr_left fun c hc => if_neg ?_
    rintro rfl
    exact h (List.contains_iff_mem.2 hc)
  rw [underscored, hmap, List.map_id, String.ofList_toList]

theorem toList_underscored (name : String) :
    (underscored name).toList = name.toList.map fun c => if c = '-' then '_' else c :=
  String.toList_ofList

/-- A spelling is put together from the spellings of the parts of a name. -/
theorem underscored_eq_append_iff {name front back : String} :
    underscored name = front ++ back ↔
      ∃ start rest, name = start ++ rest ∧ underscored start = front ∧ underscored rest = back := by
  simp only [← String.toList_inj, String.toList_append, toList_underscored]
  constructor
  · intro h
    obtain ⟨start, rest, hname, hfront, hback⟩ := List.map_eq_append_iff.1 h
    exact ⟨String.ofList start, String.ofList rest, by simpa using hname, by simpa using hfront,
      by simpa using hback⟩
  · rintro ⟨start, rest, hname, hfront, hback⟩
    rw [hname, List.map_append, hfront, hback]

namespace NameMap

theorem getElem?_withUnderscores (map : NameMap α) (name : String) :
    map.withUnderscores[name]? =
      (map.toList.reverse.findSome? fun entry =>
        if hyphenated entry.1 ∧ underscored entry.1 = name then some entry.2 else none).or
      map[name]? := by
  rw [withUnderscores, getElem?_insertAll, hyphenatedEntries,
    lastValue_map (fun entry => underscored entry.1) Prod.snd, ← List.filter_reverse,
    List.find?_filter, List.find?_eq_findSome?_guard, List.map_findSome?]
  congr 2
  funext entry
  by_cases h : hyphenated entry.1 ∧ underscored entry.1 = name <;> simp [Option.guard, h]

/-- The hyphenated names of a map that have a spelling. -/
def rivals (map : NameMap α) (spelling : String) : Set String :=
  {name | name ∈ map ∧ hyphenated name ∧ underscored name = spelling}

theorem exists_isGreatest_rivals {map : NameMap α} {spelling : String}
    (h : (map.rivals spelling).Nonempty) : ∃ name, IsGreatest (map.rivals spelling) name := by
  have hfinite : (map.rivals spelling).Finite :=
    map.keys.finite_toSet.subset fun name hname => Std.ExtTreeMap.mem_keys.2 hname.1
  obtain ⟨name, hname, hmax⟩ := Set.exists_max_image _ id hfinite h
  exact ⟨name, hname, hmax⟩

theorem getElem?_withUnderscores_of_hyphenated (map : NameMap α) {name : String}
    (h : hyphenated name) : map.withUnderscores[name]? = map[name]? := by
  rw [getElem?_withUnderscores, findSome?_reverse_toList_eq_none, Option.none_or]
  rintro n v -
  refine if_neg ?_
  rintro ⟨-, rfl⟩
  exact not_hyphenated_underscored n h

theorem getElem?_withUnderscores_of_isGreatest {map : NameMap α} {spelling name : String}
    (h : IsGreatest (map.rivals spelling) name) : map.withUnderscores[spelling]? = map[name]? := by
  obtain ⟨⟨hmem, hname⟩, hmax⟩ := h
  obtain ⟨v, hv⟩ := Option.isSome_iff_exists.1 (Std.ExtTreeMap.mem_iff_isSome_getElem?.1 hmem)
  rw [getElem?_withUnderscores, findSome?_reverse_toList hv (if_pos hname), hv, Option.some_or]
  intro n w hn hlt
  refine if_neg fun hrival => ?_
  have hle : n ≤ name := hmax ⟨mem_of_getElem? hn, hrival⟩
  exact absurd hlt (not_lt.2 hle)

theorem getElem?_withUnderscores_of_rivals_eq_empty {map : NameMap α} {spelling : String}
    (h : map.rivals spelling = ∅) : map.withUnderscores[spelling]? = map[spelling]? := by
  rw [getElem?_withUnderscores, findSome?_reverse_toList_eq_none, Option.none_or]
  intro n v hn
  refine if_neg fun hrival => ?_
  have hmem : n ∈ map.rivals spelling := ⟨mem_of_getElem? hn, hrival⟩
  simp [h] at hmem

theorem rivals_withUnderscores (map : NameMap α) (spelling : String) :
    map.withUnderscores.rivals spelling = map.rivals spelling := by
  ext name
  simp only [rivals, Set.mem_ofPred_eq, and_congr_left_iff, Std.ExtTreeMap.mem_iff_isSome_getElem?]
  rintro ⟨h, -⟩
  rw [getElem?_withUnderscores_of_hyphenated map h]

theorem mem_withUnderscores {map : NameMap α} {name : String} :
    name ∈ map.withUnderscores ↔
      name ∈ map ∨ ∃ origin ∈ map, hyphenated origin ∧ underscored origin = name := by
  rw [withUnderscores, mem_insertAll, or_comm, List.map_map, List.mem_map]
  refine or_congr_right ⟨?_, ?_⟩
  · rintro ⟨⟨origin, a⟩, hentry, rfl⟩
    obtain ⟨hmem, h⟩ := List.mem_filter.1 hentry
    exact ⟨origin, mem_of_getElem? (Std.ExtTreeMap.mem_toList_iff_getElem?_eq_some.1 hmem), h, rfl⟩
  · rintro ⟨origin, hmem, h, rfl⟩
    obtain ⟨a, ha⟩ := Option.isSome_iff_exists.1 (Std.ExtTreeMap.mem_iff_isSome_getElem?.1 hmem)
    exact ⟨(origin, a), List.mem_filter.2 ⟨Std.ExtTreeMap.mem_toList_iff_getElem?_eq_some.2 ha, h⟩,
      rfl⟩

theorem mem_withUnderscores_congr {map : NameMap α} {other : NameMap β}
    (h : ∀ name, name ∈ map ↔ name ∈ other) (name : String) :
    name ∈ map.withUnderscores ↔ name ∈ other.withUnderscores := by
  simp only [mem_withUnderscores, h]

/-- Each name of the other map is a name of this one. -/
def Covers (map : NameMap α) (other : NameMap β) : Prop := ∀ name ∈ other, name ∈ map

theorem Covers.withUnderscores {map : NameMap α} {other : NameMap β} (h : map.Covers other) :
    map.withUnderscores.Covers other.withUnderscores := by
  intro name hmem
  rw [mem_withUnderscores] at hmem ⊢
  rcases hmem with hmem | ⟨origin, hmem, hname⟩
  · exact .inl (h name hmem)
  · exact .inr ⟨origin, h origin hmem, hname⟩

/-- The maps hold the same under all names with a spelling. -/
def AgreesOn (spelling : String) (map other : NameMap α) : Prop :=
  ∀ name, underscored name = spelling → map[name]? = other[name]?

theorem getElem?_withUnderscores_congr {map other : NameMap α} {name : String}
    (h : AgreesOn (underscored name) map other) :
    map.withUnderscores[name]? = other.withUnderscores[name]? := by
  by_cases hname : hyphenated name
  · rw [getElem?_withUnderscores_of_hyphenated map hname,
      getElem?_withUnderscores_of_hyphenated other hname, h name rfl]
  · rw [underscored_of_not_hyphenated hname] at h
    have hrivals : map.rivals name = other.rivals name := by
      ext rival
      simp only [rivals, Set.mem_ofPred_eq, Std.ExtTreeMap.mem_iff_isSome_getElem?]
      constructor
      · rintro ⟨hmem, hrival⟩
        exact ⟨h rival hrival.2 ▸ hmem, hrival⟩
      · rintro ⟨hmem, hrival⟩
        exact ⟨h rival hrival.2 ▸ hmem, hrival⟩
    rcases (map.rivals name).eq_empty_or_nonempty with hempty | hne
    · rw [getElem?_withUnderscores_of_rivals_eq_empty hempty,
        getElem?_withUnderscores_of_rivals_eq_empty (hrivals ▸ hempty),
        h name (underscored_of_not_hyphenated hname)]
    · obtain ⟨rival, hrival⟩ := exists_isGreatest_rivals hne
      rw [getElem?_withUnderscores_of_isGreatest hrival,
        getElem?_withUnderscores_of_isGreatest (hrivals ▸ hrival), h rival hrival.1.2.2]

/-- A name that shares its spelling with no other name is found under both of its spellings. -/
theorem getElem?_withUnderscores_of_sole {map : NameMap α} {name n : String} (hmem : name ∈ map)
    (hsole : ∀ other ∈ map, underscored other = underscored name → other = name)
    (hn : n = name ∨ n = underscored name) : map.withUnderscores[n]? = map[name]? := by
  by_cases hname : hyphenated name
  · rcases hn with rfl | rfl
    · exact getElem?_withUnderscores_of_hyphenated map hname
    · refine getElem?_withUnderscores_of_isGreatest ⟨⟨hmem, hname, rfl⟩, ?_⟩
      rintro rival ⟨hrival, -, hspelling⟩
      exact (hsole rival hrival hspelling).le
  · have hself := underscored_of_not_hyphenated hname
    obtain rfl : n = name := by rwa [hself, or_self] at hn
    refine getElem?_withUnderscores_of_rivals_eq_empty ?_
    rw [Set.eq_empty_iff_forall_notMem]
    rintro rival ⟨hrival, hhyph, hspelling⟩
    obtain rfl := hsole rival hrival (hspelling.trans hself.symm)
    exact hname hhyph

/-- How a map with second spellings holds them. -/
structure BothSpellings (map : NameMap α) : Prop where
  /-- The twin of a hyphenated name is there and holds what the greatest of its rivals holds. -/
  twin : ∀ name ∈ map, hyphenated name → underscored name ∈ map ∧
    ∃ rival, IsGreatest (map.rivals (underscored name)) rival ∧
      map[underscored name]? = map[rival]?
  /-- Twins hold the same throughout exactly if rivals for one spelling do. -/
  agree_iff : (∀ name ∈ map, hyphenated name → map[underscored name]? = map[name]?) ↔
    ∀ spelling, ∀ name ∈ map.rivals spelling, ∀ rival ∈ map.rivals spelling,
      map[name]? = map[rival]?

theorem exists_rival {map : NameMap α} {name : String} (hmem : name ∈ map.withUnderscores)
    (h : hyphenated name) :
    ∃ rival, IsGreatest (map.withUnderscores.rivals (underscored name)) rival ∧
      map.withUnderscores[underscored name]? = map.withUnderscores[rival]? := by
  obtain ⟨rival, hrival⟩ := exists_isGreatest_rivals ⟨name, hmem, h, rfl⟩
  refine ⟨rival, hrival, ?_⟩
  rw [getElem?_withUnderscores_of_hyphenated map hrival.1.2.1]
  rw [rivals_withUnderscores] at hrival
  exact getElem?_withUnderscores_of_isGreatest hrival

theorem bothSpellings_withUnderscores (map : NameMap α) : BothSpellings map.withUnderscores where
  twin name hmem h := by
    obtain ⟨rival, hrival, heq⟩ := exists_rival hmem h
    refine ⟨?_, rival, hrival, heq⟩
    rw [Std.ExtTreeMap.mem_iff_isSome_getElem?, heq, ← Std.ExtTreeMap.mem_iff_isSome_getElem?]
    exact hrival.1.1
  agree_iff := by
    constructor
    · rintro hagree spelling name ⟨hname, hhyph, rfl⟩ rival ⟨hrival, hrhyph, hspelling⟩
      rw [← hagree name hname hhyph, ← hagree rival hrival hrhyph, hspelling]
    · intro hsame name hmem h
      obtain ⟨rival, hrival, heq⟩ := exists_rival hmem h
      rw [heq]
      exact hsame _ rival hrival.1 name ⟨hmem, h, rfl⟩

theorem withUnderscores_eq_self_iff {map : NameMap α} :
    map.withUnderscores = map ↔ ∀ name ∈ map, hyphenated name → underscored name ∈ map ∧
      ∃ rival, IsGreatest (map.rivals (underscored name)) rival ∧
        map[underscored name]? = map[rival]? := by
  constructor
  · intro h
    have htwin := (bothSpellings_withUnderscores map).twin
    rwa [h] at htwin
  · intro htwin
    refine Std.ExtTreeMap.ext_getElem? fun name => ?_
    rcases (map.rivals name).eq_empty_or_nonempty with hempty | ⟨origin, horigin, hhyph, rfl⟩
    · exact getElem?_withUnderscores_of_rivals_eq_empty hempty
    · obtain ⟨-, rival, hrival, heq⟩ := htwin origin horigin hhyph
      rw [getElem?_withUnderscores_of_isGreatest hrival, heq]

theorem withUnderscores_idem (map : NameMap α) :
    map.withUnderscores.withUnderscores = map.withUnderscores :=
  withUnderscores_eq_self_iff.2 (bothSpellings_withUnderscores map).twin

/-- The names are those of the map and the spellings of those with hyphens. A name with hyphens
holds what it held, and any other what the greatest of its rivals holds if it has some. Nothing
changes exactly if all spellings are there and hold this already. -/
theorem withUnderscores_characterized (map : NameMap α) :
    (∀ name, name ∈ map.withUnderscores ↔
        name ∈ map ∨ ∃ origin ∈ map, hyphenated origin ∧ underscored origin = name) ∧
      (∀ name, hyphenated name → map.withUnderscores[name]? = map[name]?) ∧
      (∀ name, ¬ hyphenated name →
        (∃ rival, IsGreatest (map.rivals name) rival ∧
          map.withUnderscores[name]? = map[rival]?) ∨
        map.rivals name = ∅ ∧ map.withUnderscores[name]? = map[name]?) ∧
      map.withUnderscores.withUnderscores = map.withUnderscores ∧
      (map.withUnderscores = map ↔ ∀ name ∈ map, hyphenated name → underscored name ∈ map ∧
        ∃ rival, IsGreatest (map.rivals (underscored name)) rival ∧
          map[underscored name]? = map[rival]?) := by
  refine ⟨fun name => mem_withUnderscores,
    fun name => getElem?_withUnderscores_of_hyphenated map, fun name _ => ?_,
    withUnderscores_idem map, withUnderscores_eq_self_iff⟩
  rcases (map.rivals name).eq_empty_or_nonempty with hempty | hne
  · exact .inr ⟨hempty, getElem?_withUnderscores_of_rivals_eq_empty hempty⟩
  · obtain ⟨rival, hrival⟩ := exists_isGreatest_rivals hne
    exact .inl ⟨rival, hrival, getElem?_withUnderscores_of_isGreatest hrival⟩

/-- A hyphen comes before an underscore, so of the two rivals the second is the greater. -/
example : (ofEntries [("a-b_c", 1), ("a_b-c", 2), ("a_b_c", 3)]).withUnderscores["a_b_c"]? =
    some 2 := rfl

end NameMap

end AtomicStyle
