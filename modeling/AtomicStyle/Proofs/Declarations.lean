import AtomicStyle.Declarations
import AtomicStyle.Proofs.NameMap
import Mathlib.Data.List.Induction
import Mathlib.Data.List.Nodup

/-!
# Looking declarations up

No name is declared twice, so it makes no difference from which end a name is looked up. Taken
together with others, declarations come first and are followed by what they leave free
(`toList_orElse`); made again one after the other, they are the same (`insertAll_toList`). A name
that is declared again has its last text (`find?_insertAll`) in its first place (`names_ofList`),
and names keep their order among each other whatever is declared between them (`filter_insertAll`).
-/

namespace AtomicStyle

namespace Declarations

theorem find?_eq_some_iff_mem {ds : Declarations} {name text : String} :
    ds.find? name = some text ↔ (name, text) ∈ ds.toList := by
  obtain ⟨entries, hnodup⟩ := ds
  simp only [find?]
  induction entries with
  | nil => simp
  | cons entry entries ih =>
    obtain ⟨n, t⟩ := entry
    obtain ⟨hfresh, hnodup⟩ := List.nodup_cons.1 hnodup
    rw [List.find?_cons, List.mem_cons, Prod.mk.injEq]
    by_cases hn : n = name
    · subst hn
      have hmem : (n, text) ∉ entries := fun h =>
        hfresh (List.mem_map.2 ⟨(n, text), h, rfl⟩)
      simp [hmem, eq_comm]
    · simp [hn, Ne.symm hn, ih hnodup]

theorem find?_eq_none_iff {ds : Declarations} {name : String} :
    ds.find? name = none ↔ ¬ ds.declares name := by
  simp only [find?, declares, Option.map_eq_none_iff, List.find?_eq_none, List.any_eq_true,
    not_exists, not_and]

theorem eq_of_mem {ds : Declarations} {entry other : String × String} (hentry : entry ∈ ds.toList)
    (hother : other ∈ ds.toList) (h : entry.1 = other.1) : entry = other :=
  List.inj_on_of_nodup_map ds.nodup hentry hother h

theorem lastValue_toList (ds : Declarations) (name : String) :
    lastValue ds.toList name = ds.find? name :=
  Option.ext fun _ => (lastValue_eq_some_iff_mem ds.nodup).trans find?_eq_some_iff_mem.symm

theorem declares_iff {ds : Declarations} {name : String} :
    ds.declares name ↔ name ∈ ds.toList.map Prod.fst := by
  simp [declares]

theorem declare_of_not_mem {name text : String} :
    ∀ {entries : List (String × String)}, name ∉ entries.map Prod.fst →
      declare name text entries = entries ++ [(name, text)]
  | [], _ => rfl
  | (n, t) :: entries, h => by
    rw [List.map_cons, List.mem_cons, not_or] at h
    rw [declare, if_neg (Ne.symm h.1), declare_of_not_mem h.2, List.cons_append]

theorem toList_insert_of_not_declares {ds : Declarations} {name text : String}
    (h : ¬ ds.declares name) : (ds.insert name text).toList = ds.toList ++ [(name, text)] :=
  declare_of_not_mem (mt declares_iff.2 h)

theorem toList_foldl_insert :
    ∀ {entries : List (String × String)} (ds : Declarations), (entries.map Prod.fst).Nodup →
      (entries.foldl
        (fun ds entry => if ds.declares entry.1 then ds else ds.insert entry.1 entry.2) ds).toList =
        ds.toList ++ entries.filter fun entry => !ds.declares entry.1
  | [], ds, _ => by simp
  | (n, t) :: entries, ds, h => by
    obtain ⟨hfresh, hnodup⟩ := List.nodup_cons.1 h
    rw [List.foldl_cons, toList_foldl_insert _ hnodup]
    by_cases hn : ds.declares n
    · simp [hn]
    · have hinsert : (ds.insert n t).toList = ds.toList ++ [(n, t)] :=
        toList_insert_of_not_declares hn
      have hrest : (entries.filter fun entry => !(ds.insert n t).declares entry.1) =
          entries.filter fun entry => !ds.declares entry.1 := by
        refine List.filter_congr fun entry hentry => ?_
        have hne : n ≠ entry.1 := fun heq => hfresh (List.mem_map.2 ⟨entry, hentry, heq.symm⟩)
        simp [declares, hinsert, hne]
      simp only [hn, Bool.false_eq_true, ↓reduceIte, hinsert, hrest, List.append_assoc,
        List.filter_cons, Bool.not_false, List.singleton_append]

theorem toList_orElse (ds others : Declarations) :
    (ds.orElse others).toList =
      ds.toList ++ others.toList.filter fun entry => !ds.declares entry.1 :=
  toList_foldl_insert ds others.nodup

theorem mem_orElse {ds others : Declarations} {entry : String × String} :
    entry ∈ (ds.orElse others).toList ↔
      entry ∈ ds.toList ∨ (entry ∈ others.toList ∧ ¬ ds.declares entry.1) := by
  simp [toList_orElse]

theorem mem_orElse_of_agree {ds others : Declarations} {entry : String × String}
    (h : ∀ text, ds.find? entry.1 = some text → text = entry.2) (hentry : entry ∈ others.toList) :
    entry ∈ (ds.orElse others).toList := by
  rw [mem_orElse]
  by_cases hname : ds.declares entry.1
  · obtain ⟨⟨name, text⟩, hmem, rfl⟩ := List.mem_map.1 (declares_iff.1 hname)
    obtain rfl := h text (find?_eq_some_iff_mem.2 hmem)
    exact .inl hmem
  · exact .inr ⟨hentry, hname⟩

theorem eq_of_toList_eq {ds others : Declarations} (h : ds.toList = others.toList) :
    ds = others := by
  obtain ⟨entries, hnodup⟩ := ds
  obtain ⟨entries', hnodup'⟩ := others
  obtain rfl := h
  rfl

theorem filter_not_declares_eq_nil {ds others : Declarations}
    (h : ∀ name, others.declares name → ds.declares name) :
    (others.toList.filter fun entry => !ds.declares entry.1) = [] := by
  rw [List.filter_eq_nil_iff]
  intro entry hentry
  simp [h entry.1 (declares_iff.2 (List.mem_map_of_mem hentry))]

theorem toList_insertAll : ∀ {entries : List (String × String)} {ds : Declarations},
    ((ds.toList ++ entries).map Prod.fst).Nodup →
      (ds.insertAll entries).toList = ds.toList ++ entries
  | [], ds, _ => (List.append_nil _).symm
  | (n, t) :: entries, ds, h => by
    have hfresh : ¬ ds.declares n := by
      rw [declares_iff]
      simp only [List.map_append, List.map_cons, List.nodup_append, List.mem_cons] at h
      exact fun hmem => h.2.2 n hmem n (.inl rfl) rfl
    have hinsert : (ds.insert n t).toList = ds.toList ++ [(n, t)] :=
      toList_insert_of_not_declares hfresh
    have hnodup : (((ds.insert n t).toList ++ entries).map Prod.fst).Nodup := by
      rwa [hinsert, List.append_assoc, List.singleton_append]
    rw [insertAll, List.foldl_cons, ← insertAll, toList_insertAll hnodup, hinsert,
      List.append_assoc, List.singleton_append]

/-- Declarations made one after the other in their order are the declarations. -/
theorem insertAll_toList (ds : Declarations) : (∅ : Declarations).insertAll ds.toList = ds :=
  eq_of_toList_eq (toList_insertAll ds.nodup)

theorem declares_insert {ds : Declarations} {n t name : String} :
    (ds.insert n t).declares name ↔ name = n ∨ ds.declares name := by
  rw [declares_iff, declares_iff]
  exact mem_names_declare

theorem declares_orElse_right {ds others : Declarations} {name : String}
    (h : others.declares name) : (ds.orElse others).declares name := by
  rw [declares_iff] at h ⊢
  obtain ⟨entry, hentry, rfl⟩ := List.mem_map.1 h
  rw [toList_orElse, List.map_append, List.mem_append]
  by_cases hname : ds.declares entry.1
  · exact .inl (declares_iff.1 hname)
  · exact .inr (List.mem_map_of_mem (List.mem_filter.2 ⟨hentry, by simp [hname]⟩))

section Lookup

theorem find?_declare (n t name : String) (entries : List (String × String)) :
    ((declare n t entries).find? fun entry => entry.1 = name) =
      if n = name then some (n, t) else entries.find? fun entry => entry.1 = name := by
  induction entries with
  | nil => by_cases h : n = name <;> simp [declare, h]
  | cons entry entries ih =>
    obtain ⟨m, u⟩ := entry
    by_cases hm : m = n
    · subst hm
      by_cases h : m = name <;> simp [declare, h]
    · by_cases h : m = name
      · subst h
        simp [declare, hm, Ne.symm hm]
      · simpa [declare, hm, h] using ih

theorem find?_insert (ds : Declarations) (n t name : String) :
    (ds.insert n t).find? name = if n = name then some t else ds.find? name := by
  rw [find?, insert, find?_declare]
  by_cases h : n = name <;> simp [h, find?]

theorem find?_insertAll (entries : List (String × String)) (ds : Declarations) (name : String) :
    (ds.insertAll entries).find? name = (lastValue entries name).or (ds.find? name) := by
  induction entries generalizing ds with
  | nil => rfl
  | cons entry entries ih =>
    rw [insertAll, List.foldl_cons, ← insertAll, ih, find?_insert, lastValue_cons, Option.or_assoc]
    by_cases h : entry.1 = name <;> simp [h]

theorem find?_orElse (ds others : Declarations) (name : String) :
    (ds.orElse others).find? name = (ds.find? name).or (others.find? name) := by
  ext text
  rw [find?_eq_some_iff_mem, mem_orElse, Option.or_eq_some_iff, find?_eq_none_iff,
    find?_eq_some_iff_mem, find?_eq_some_iff_mem, and_comm]

/-- Declaring over others and overriding others give each name the same text. -/
theorem find?_insertAll_eq_orElse (others : Declarations) (entries : List (String × String))
    (name : String) :
    (others.insertAll entries).find? name = ((ofList entries).orElse others).find? name := by
  have hempty : empty.find? name = none := rfl
  rw [find?_insertAll, find?_orElse, ofList, find?_insertAll, hempty, Option.or_none]

theorem mem_toList_congr {ds others : Declarations}
    (h : ∀ name, ds.find? name = others.find? name) (entry : String × String) :
    entry ∈ ds.toList ↔ entry ∈ others.toList := by
  rw [← find?_eq_some_iff_mem, ← find?_eq_some_iff_mem, h]

end Lookup

section Order

variable {keep : String → Bool}

theorem filter_declare (n t : String) (entries : List (String × String)) :
    ((declare n t entries).filter fun entry => keep entry.1) =
      if keep n then declare n t (entries.filter fun entry => keep entry.1)
      else entries.filter fun entry => keep entry.1 := by
  induction entries with
  | nil => by_cases h : keep n <;> simp [declare, h]
  | cons entry entries ih =>
    obtain ⟨m, u⟩ := entry
    by_cases hm : m = n
    · subst hm
      by_cases h : keep m <;> simp [declare, h]
    · by_cases h : keep m
      · simp only [declare, if_neg hm, List.filter_cons, h, ih, if_true]
        split_ifs <;> rfl
      · simp [declare, hm, h, ih]

/-- The order in which some names are declared does not depend on where the others stand. -/
theorem filter_insertAll (entries : List (String × String)) {ds others : Declarations}
    (h : (ds.toList.filter fun entry => keep entry.1) =
      others.toList.filter fun entry => keep entry.1) :
    ((ds.insertAll entries).toList.filter fun entry => keep entry.1) =
      (others.insertAll entries).toList.filter fun entry => keep entry.1 := by
  induction entries generalizing ds others with
  | nil => exact h
  | cons entry entries ih =>
    refine ih ?_
    simp only [insert, filter_declare, h]

/-- Declaring over others and overriding others differ in the places of the others only. -/
theorem filter_insertAll_eq_orElse (keep : String → Bool) {others : Declarations}
    (entries : List (String × String)) (h : ∀ entry ∈ others.toList, keep entry.1 = false) :
    ((others.insertAll entries).toList.filter fun entry => keep entry.1) =
      ((ofList entries).orElse others).toList.filter fun entry => keep entry.1 := by
  have hothers : (others.toList.filter fun entry => keep entry.1) = [] := by
    rw [List.filter_eq_nil_iff]
    intro entry hentry
    simp [h entry hentry]
  have hrest : ((others.toList.filter fun entry => !(ofList entries).declares entry.1).filter
      fun entry => keep entry.1) = [] := by
    rw [List.filter_comm, hothers, List.filter_nil]
  rw [toList_orElse, List.filter_append, hrest, List.append_nil, ofList]
  exact filter_insertAll entries hothers

end Order

section Names

theorem names_declare_of_mem {n t : String} : ∀ {entries : List (String × String)},
    n ∈ entries.map Prod.fst → (declare n t entries).map Prod.fst = entries.map Prod.fst
  | [], h => by simp at h
  | (m, u) :: entries, h => by
    by_cases hm : m = n
    · rw [declare, if_pos hm, List.map_cons, List.map_cons, hm]
    · have hmem : n ∈ entries.map Prod.fst :=
        (List.mem_cons.1 h).resolve_left (Ne.symm hm)
      rw [declare, if_neg hm, List.map_cons, List.map_cons, names_declare_of_mem hmem]

/-- Names stand where they are declared first. -/
theorem names_ofList (entries : List (String × String)) :
    (ofList entries).toList.map Prod.fst = (entries.map Prod.fst).eraseDups := by
  induction entries using List.reverseRecOn with
  | nil => rfl
  | append_singleton entries entry ih =>
    obtain ⟨n, t⟩ := entry
    have hinsert : (ofList (entries ++ [(n, t)])).toList = declare n t (ofList entries).toList := by
      rw [ofList, insertAll, List.foldl_append]
      rfl
    rw [hinsert, List.map_append, List.eraseDups_append, ← ih]
    by_cases hmem : n ∈ entries.map Prod.fst
    · have hdeclared : n ∈ (ofList entries).toList.map Prod.fst := by
        rwa [ih, List.mem_eraseDups]
      rw [names_declare_of_mem hdeclared]
      simp [List.removeAll, hmem]
    · have hfresh : n ∉ (ofList entries).toList.map Prod.fst := by
        rwa [ih, List.mem_eraseDups]
      rw [declare_of_not_mem hfresh, List.map_append]
      simp [List.removeAll, hmem, List.eraseDups_cons]

theorem find?_ofList (entries : List (String × String)) (name : String) :
    (ofList entries).find? name = lastValue entries name := by
  have hempty : empty.find? name = none := rfl
  rw [ofList, find?_insertAll, hempty, Option.or_none]

/-- Declarations are known by the order of their names and by what stands under each. -/
theorem eq_of_names_eq {ds others : Declarations}
    (hnames : ds.toList.map Prod.fst = others.toList.map Prod.fst)
    (hfind : ∀ name, ds.find? name = others.find? name) : ds = others := by
  have hlist (ds : Declarations) :
      ((ds.toList.map Prod.fst).map fun name => (name, (ds.find? name).getD "")) = ds.toList := by
    rw [List.map_map]
    refine (List.map_congr_left fun entry hentry => ?_).trans (List.map_id ds.toList)
    rw [Function.comp_apply, find?_eq_some_iff_mem.2 hentry, Option.getD_some, id]
  refine eq_of_toList_eq ?_
  rw [← hlist ds, ← hlist others, hnames]
  simp only [hfind]

end Names

end Declarations

end AtomicStyle
