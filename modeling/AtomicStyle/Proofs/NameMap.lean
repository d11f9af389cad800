import AtomicStyle.NameMap
import Mathlib.Data.String.Basic

/-!
# What a map holds after writing

Entries that are written one after the other leave at each name the last value given for it
(`getElem?_insertAll`). A map is walked in the order of its names, so of several entries that
write to one place the one with the greatest name stays (`findSome?_reverse_toList`).
-/

namespace AtomicStyle

variable {α β σ : Type}

/-- What a walk from the end of a list finds is what the last element that yields something
yields. -/
theorem findSome?_reverse_eq_some_iff {σ : Type*} {f : σ → Option β} {xs : List σ} {b : β} :
    xs.reverse.findSome? f = some b ↔
      ∃ before x after, xs = before ++ x :: after ∧ f x = some b ∧ ∀ y ∈ after, f y = none := by
  rw [List.findSome?_eq_some_iff]
  constructor
  · rintro ⟨later, x, earlier, heq, hx, hlater⟩
    refine ⟨earlier.reverse, x, later.reverse, ?_, hx, fun y hy => ?_⟩
    · rw [← List.reverse_inj, heq]
      simp
    · exact hlater y (List.mem_reverse.1 hy)
  · rintro ⟨before, x, after, rfl, hx, hafter⟩
    refine ⟨after.reverse, x, before.reverse, by simp, hx, fun y hy => ?_⟩
    exact hafter y (List.mem_reverse.1 hy)

/-- The last value that a list of entries gives for a name. -/
def lastValue (entries : List (String × α)) (name : String) : Option α :=
  entries.reverse.lookup name

section LastValue

@[simp] theorem lastValue_nil (name : String) : lastValue ([] : List (String × α)) name = none :=
  rfl

theorem lastValue_append (xs ys : List (String × α)) (name : String) :
    lastValue (xs ++ ys) name = (lastValue ys name).or (lastValue xs name) := by
  simp only [lastValue, List.reverse_append, List.lookup_append]

theorem lastValue_singleton (entry : String × α) (name : String) :
    lastValue [entry] name = if entry.1 = name then some entry.2 else none := by
  obtain ⟨n, a⟩ := entry
  by_cases h : n = name
  · simp [lastValue, h]
  · simp [lastValue, h, Ne.symm h]

theorem lastValue_cons (entry : String × α) (entries : List (String × α)) (name : String) :
    lastValue (entry :: entries) name =
      (lastValue entries name).or (if entry.1 = name then some entry.2 else none) := by
  rw [← List.singleton_append, lastValue_append, lastValue_singleton]

/-- Of the values that a list of things gives under their names the last counts. -/
theorem lastValue_map (named : σ → String) (f : σ → α) (xs : List σ) (name : String) :
    lastValue (xs.map fun x => (named x, f x)) name =
      (xs.reverse.find? fun x => named x = name).map f := by
  induction xs with
  | nil => simp
  | cons x xs ih =>
    rw [List.map_cons, lastValue_cons, ih, List.reverse_cons, List.find?_append]
    rcases xs.reverse.find? fun x => named x = name with _ | y
    · by_cases h : named x = name <;> simp [h]
    · simp

theorem lastValue_map_snd (f : α → β) (entries : List (String × α)) (name : String) :
    lastValue (entries.map fun entry => (entry.1, f entry.2)) name =
      (lastValue entries name).map f := by
  induction entries with
  | nil => simp
  | cons entry entries ih =>
    rw [List.map_cons, lastValue_cons, lastValue_cons, ih]
    rcases lastValue entries name with _ | a
    · by_cases h : entry.1 = name <;> simp [h]
    · simp

theorem lastValue_flatMap (g : σ → List (String × α)) (xs : List σ) (name : String) :
    lastValue (xs.flatMap g) name = xs.reverse.findSome? fun x => lastValue (g x) name := by
  induction xs with
  | nil => simp
  | cons x xs ih =>
    rw [List.flatMap_cons, lastValue_append, ih, List.reverse_cons, List.findSome?_append]
    simp

theorem lastValue_flatMap_eq_some_iff_last {g : σ → List (String × α)} {xs : List σ}
    {name : String} {a : α} :
    lastValue (xs.flatMap g) name = some a ↔
      ∃ before x after, xs = before ++ x :: after ∧ lastValue (g x) name = some a ∧
        ∀ y ∈ after, lastValue (g y) name = none := by
  rw [lastValue_flatMap, findSome?_reverse_eq_some_iff]

theorem lastValue_map_eq_some_iff {named : σ → String} {f : σ → α} {xs : List σ} {name : String}
    {a : α} (hinj : ∀ x ∈ xs, ∀ y ∈ xs, named x = named y → x = y) :
    lastValue (xs.map fun x => (named x, f x)) name = some a ↔
      ∃ x ∈ xs, named x = name ∧ f x = a := by
  rw [lastValue_map, Option.map_eq_some_iff]
  constructor
  · rintro ⟨x, hx, hvalue⟩
    have hname := List.find?_some hx
    exact ⟨x, List.mem_reverse.1 (List.mem_of_find?_eq_some hx), of_decide_eq_true hname, hvalue⟩
  · rintro ⟨x, hx, hname, hvalue⟩
    have hsome : (xs.reverse.find? fun x => named x = name).isSome := by
      rw [List.find?_isSome]
      exact ⟨x, List.mem_reverse.2 hx, decide_eq_true hname⟩
    obtain ⟨y, hy⟩ := Option.isSome_iff_exists.1 hsome
    have hnamed := List.find?_some hy
    obtain rfl := hinj x hx y (List.mem_reverse.1 (List.mem_of_find?_eq_some hy))
      (hname.trans (of_decide_eq_true hnamed).symm)
    exact ⟨x, hy, hvalue⟩

theorem isSome_lastValue_iff {entries : List (String × α)} {name : String} :
    (lastValue entries name).isSome ↔ name ∈ entries.map Prod.fst := by
  rw [lastValue, List.lookup_isSome_iff, List.mem_map]
  simp only [List.mem_reverse, beq_iff_eq, eq_comm (a := name)]

theorem lastValue_flatMap_eq_some_iff {g : σ → List (String × α)} {xs : List σ} {name : String}
    {a : α} (h : ∀ x ∈ xs, ∀ y ∈ xs, name ∈ (g x).map Prod.fst → name ∈ (g y).map Prod.fst →
      x = y) :
    lastValue (xs.flatMap g) name = some a ↔ ∃ x ∈ xs, lastValue (g x) name = some a := by
  rw [lastValue_flatMap]
  constructor
  · intro hsome
    obtain ⟨x, hx, hxa⟩ := List.exists_of_findSome?_eq_some hsome
    exact ⟨x, List.mem_reverse.1 hx, hxa⟩
  · rintro ⟨x, hx, hxa⟩
    have hisSome : (xs.reverse.findSome? fun x => lastValue (g x) name).isSome := by
      rw [List.findSome?_isSome_iff]
      exact ⟨x, List.mem_reverse.2 hx, by simp [hxa]⟩
    obtain ⟨b, hb⟩ := Option.isSome_iff_exists.1 hisSome
    obtain ⟨y, hy, hyb⟩ := List.exists_of_findSome?_eq_some hb
    have hname {z : σ} {c : α} (hz : lastValue (g z) name = some c) :
        name ∈ (g z).map Prod.fst := isSome_lastValue_iff.1 (by simp [hz])
    obtain rfl := h x hx y (List.mem_reverse.1 hy) (hname hxa) (hname hyb)
    rw [hb, ← hyb, hxa]

/-- Things that do not write a name can be left out where it is looked up. -/
theorem lastValue_flatMap_filter {g : σ → List (String × α)} {keep : σ → Bool} {xs : List σ}
    {name : String} (h : ∀ x ∈ xs, keep x = false → name ∉ (g x).map Prod.fst) :
    lastValue ((xs.filter keep).flatMap g) name = lastValue (xs.flatMap g) name := by
  induction xs with
  | nil => rfl
  | cons x xs ih =>
    obtain ⟨hx, hxs⟩ := List.forall_mem_cons.1 h
    rw [List.flatMap_cons, lastValue_append, ← ih hxs]
    by_cases hkeep : keep x
    · rw [List.filter_cons_of_pos hkeep, List.flatMap_cons, lastValue_append]
    · have hnone : lastValue (g x) name = none := by
        rw [← Option.not_isSome_iff_eq_none, isSome_lastValue_iff]
        exact hx (Bool.eq_false_iff.2 hkeep)
      rw [List.filter_cons_of_neg hkeep, hnone, Option.or_none]

theorem lastValue_eq_some_iff_mem {name : String} {a : α} :
    ∀ {entries : List (String × α)}, (entries.map Prod.fst).Nodup →
      (lastValue entries name = some a ↔ (name, a) ∈ entries)
  | [], _ => by simp
  | (n, b) :: entries, h => by
    obtain ⟨hfresh, hnodup⟩ := List.nodup_cons.1 h
    have ih : lastValue entries name = some a ↔ (name, a) ∈ entries :=
      lastValue_eq_some_iff_mem hnodup
    rw [lastValue_cons, Option.or_eq_some_iff, ih, List.mem_cons, Prod.mk.injEq]
    by_cases hn : n = name
    · subst hn
      have hmem (c : α) : (n, c) ∉ entries := fun hc =>
        hfresh (List.mem_map.2 ⟨(n, c), hc, rfl⟩)
      have hnone : lastValue entries n = none :=
        Option.eq_none_iff_forall_ne_some.2 fun c hc =>
          hmem c ((lastValue_eq_some_iff_mem hnodup).1 hc)
      simp [hmem, hnone, eq_comm]
    · simp [hn, Ne.symm hn]

end LastValue

namespace NameMap

theorem mem_of_getElem? {map : NameMap α} {name : String} {a : α} (h : map[name]? = some a) :
    name ∈ map :=
  (Std.ExtTreeMap.getElem?_eq_some_iff.1 h).fst

theorem not_mem_of_getElem? {map : NameMap α} {name : String} (h : map[name]? = none) :
    name ∉ map :=
  (getElem?_eq_none_iff map name).1 h

theorem getElem?_insertAll (map : NameMap α) (entries : List (String × α)) (name : String) :
    (map.insertAll entries)[name]? = (lastValue entries name).or map[name]? := by
  induction entries generalizing map with
  | nil => simp [insertAll]
  | cons entry entries ih =>
    have hinsert : map.insertAll (entry :: entries) =
        insertAll (map.insert entry.1 entry.2) entries := rfl
    rw [hinsert, ih, lastValue_cons, Option.or_assoc, Std.ExtTreeMap.getElem?_insert]
    by_cases h : entry.1 = name <;> simp [h]

theorem getElem?_ofEntries (entries : List (String × α)) (name : String) :
    (ofEntries entries)[name]? = lastValue entries name := by
  have hempty : ofEntries entries = insertAll ∅ entries := rfl
  rw [hempty, getElem?_insertAll]
  simp

theorem mem_insertAll {map : NameMap α} {entries : List (String × α)} {name : String} :
    name ∈ map.insertAll entries ↔ name ∈ entries.map Prod.fst ∨ name ∈ map := by
  rw [Std.ExtTreeMap.mem_iff_isSome_getElem?, getElem?_insertAll, Option.isSome_or,
    Bool.or_eq_true, isSome_lastValue_iff, Std.ExtTreeMap.mem_iff_isSome_getElem?]

theorem mem_ofEntries {entries : List (String × α)} {name : String} :
    name ∈ ofEntries entries ↔ name ∈ entries.map Prod.fst := by
  rw [Std.ExtTreeMap.mem_iff_isSome_getElem?, getElem?_ofEntries, isSome_lastValue_iff]

theorem pairwise_lt_toList (map : NameMap α) :
    map.toList.Pairwise fun left right => left.1 < right.1 :=
  Std.ExtTreeMap.ordered_keys_toList.imp compare_lt_iff_lt.1

/-- Walking a map from its greatest name downwards, the first entry that yields a value is found. -/
theorem findSome?_reverse_toList {map : NameMap α} {f : String × α → Option β} {name : String}
    {a : α} {b : β} (hmem : map[name]? = some a) (hf : f (name, a) = some b)
    (hmax : ∀ n v, map[n]? = some v → name < n → f (n, v) = none) :
    map.toList.reverse.findSome? f = some b := by
  have hentry : (name, a) ∈ map.toList := Std.ExtTreeMap.mem_toList_iff_getElem?_eq_some.2 hmem
  obtain ⟨before, after, heq⟩ := List.append_of_mem hentry
  have hsorted := map.pairwise_lt_toList
  rw [heq, List.pairwise_append, List.pairwise_cons] at hsorted
  rw [heq, List.findSome?_eq_some_iff]
  refine ⟨after.reverse, (name, a), before.reverse, by simp, hf, ?_⟩
  rintro ⟨n, v⟩ h
  have hafter := List.mem_reverse.1 h
  refine hmax n v (Std.ExtTreeMap.mem_toList_iff_getElem?_eq_some.1 ?_) (hsorted.2.1.1 _ hafter)
  rw [heq]
  exact List.mem_append_right _ (List.mem_cons_of_mem _ hafter)

theorem findSome?_reverse_toList_eq_none {map : NameMap α} {f : String × α → Option β}
    (h : ∀ n v, map[n]? = some v → f (n, v) = none) :
    map.toList.reverse.findSome? f = none := by
  rw [List.findSome?_eq_none_iff]
  rintro ⟨n, v⟩ hmem
  exact h n v (Std.ExtTreeMap.mem_toList_iff_getElem?_eq_some.1 (List.mem_reverse.1 hmem))

theorem lastValue_toList (map : NameMap α) (name : String) :
    lastValue map.toList name = map[name]? := by
  have hnodup : (map.toList.map Prod.fst).Nodup :=
    List.pairwise_map.2 (map.pairwise_lt_toList.imp fun hlt => ne_of_lt hlt)
  exact Option.ext fun _ =>
    (lastValue_eq_some_iff_mem hnodup).trans Std.ExtTreeMap.mem_toList_iff_getElem?_eq_some

end NameMap

end AtomicStyle
