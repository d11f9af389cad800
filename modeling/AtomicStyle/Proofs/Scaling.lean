import AtomicStyle.Proofs.Sizes

/-!
# What scaling leaves

Groups are scaled in the order of their tables. In the sheet a group takes the place of the whole
rule that its name had before, while in the sizes each of its properties takes the place of the size
before. So the last group of a name makes the rule, and the last one that is not empty the size; an
empty group clears the one and leaves the other (`last_group_scales`).
-/

namespace AtomicStyle

variable {α : Type}

/-- The last group of which something holds, in the order of the tables. -/
def Table.LastOf (tables : List (Table α)) (p : Group α → Prop) (group : Group α) : Prop :=
  ∃ before after, tables.flatten = before ++ group :: after ∧ p group ∧ ∀ later ∈ after, ¬ p later

namespace Sheet

variable {name : String}

theorem lastGroup?_eq_some_iff {tables : List (Table α)} {group : Group α} :
    lastGroup? tables name = some group ↔ Table.LastOf tables (·.name = name) group := by
  unfold lastGroup? Table.LastOf
  rw [List.find?_eq_findSome?_guard, findSome?_reverse_eq_some_iff]
  constructor
  · rintro ⟨before, last, after, heq, hlast, hafter⟩
    obtain ⟨rfl, hname⟩ := Option.guard_eq_some_iff.1 hlast
    refine ⟨before, after, heq, of_decide_eq_true hname, fun later hlater => ?_⟩
    have hnone := Option.guard_eq_none_iff.1 (hafter later hlater)
    exact of_decide_eq_false hnone
  · rintro ⟨before, after, heq, hname, hafter⟩
    refine ⟨before, group, after, heq, ?_, fun later hlater => ?_⟩
    · exact Option.guard_eq_some_iff.2 ⟨rfl, decide_eq_true hname⟩
    · exact Option.guard_eq_none_iff.2 (decide_eq_false (hafter later hlater))

variable {tables : List (Table Float)} {rem : Float}

theorem getElem?_addScaled (sheet : Sheet) (tables : List (Table Float)) (rem : Float)
    (name : String) :
    (addScaled sheet tables rem)[name]? =
      ((lastGroup? tables name).map (scaledRule rem)).or sheet[name]? := by
  rw [addScaled, NameMap.getElem?_insertAll, lastValue_map, lastGroup?]

theorem lastMultiple?_eq_some_iff {multiple : Float} :
    lastMultiple? tables name = some multiple ↔
      ∃ group, Table.LastOf tables (fun g => g.name = name ∧ g.properties ≠ []) group ∧
        ∃ property, group.properties.getLast? = some (property, multiple) := by
  have hnone (group : Group Float) :
      (if group.name = name then group.properties.getLast?.map Prod.snd else none) = none ↔
        ¬ (group.name = name ∧ group.properties ≠ []) := by
    by_cases h : group.name = name <;> simp [h]
  unfold lastMultiple? Table.LastOf
  rw [findSome?_reverse_eq_some_iff]
  simp only [hnone]
  constructor
  · rintro ⟨before, group, after, heq, hgroup, hafter⟩
    split at hgroup
    · rename_i hname
      obtain ⟨⟨property, last⟩, hlast, rfl⟩ := Option.map_eq_some_iff.1 hgroup
      have hne : group.properties ≠ [] := by
        rintro hnil
        simp [hnil] at hlast
      exact ⟨group, ⟨before, after, heq, ⟨hname, hne⟩, hafter⟩, property, hlast⟩
    · cases hgroup
  · rintro ⟨group, ⟨before, after, heq, ⟨hname, -⟩, hafter⟩, property, hlast⟩
    refine ⟨before, group, after, heq, ?_, hafter⟩
    rw [if_pos hname, hlast, Option.map_some]

theorem getElem?_scaledSizes_eq_some_iff {size : Float} :
    (scaledSizes tables rem)[name]? = some size ↔
      ∃ group, Table.LastOf tables (fun g => g.name = name ∧ g.properties ≠ []) group ∧
        ∃ property multiple, group.properties.getLast? = some (property, multiple) ∧
          multiple * rem = size := by
  rw [getElem?_scaledSizes, Option.map_eq_some_iff]
  constructor
  · rintro ⟨multiple, hmultiple, hsize⟩
    obtain ⟨group, hgroup, property, hlast⟩ := lastMultiple?_eq_some_iff.1 hmultiple
    exact ⟨group, hgroup, property, multiple, hlast, hsize⟩
  · rintro ⟨group, hgroup, property, multiple, hlast, hsize⟩
    exact ⟨multiple, lastMultiple?_eq_some_iff.2 ⟨group, hgroup, property, hlast⟩, hsize⟩

theorem last_group_scales (sheet : Sheet) (tables : List (Table Float)) (rem : Float)
    (name : String) :
    (name ∉ Table.names tables →
        (addScaled sheet tables rem)[name]? = sheet[name]? ∧
          (scaledSizes tables rem)[name]? = none) ∧
      (name ∈ Table.names tables → ∃ group, Table.LastOf tables (·.name = name) group ∧
        ∃ rule, (addScaled sheet tables rem)[name]? = some rule ∧
          ∀ property, rule[property]? =
            (lastValue group.properties property).map fun multiple => .number (multiple * rem)) ∧
      (name ∈ scaledSizes tables rem ↔
        ∃ group ∈ tables.flatten, group.name = name ∧ group.properties ≠ []) ∧
      ∀ size, (scaledSizes tables rem)[name]? = some size ↔
        ∃ group, Table.LastOf tables (fun g => g.name = name ∧ g.properties ≠ []) group ∧
          ∃ property multiple, group.properties.getLast? = some (property, multiple) ∧
            multiple * rem = size := by
  refine ⟨fun h => ⟨?_, ?_⟩, fun h => ?_, mem_scaledSizes,
    fun size => getElem?_scaledSizes_eq_some_iff⟩
  · rw [getElem?_addScaled, lastGroup?_eq_none_iff.2 h, Option.map_none, Option.none_or]
  · rw [getElem?_eq_none_iff]
    exact fun hsize => h (mem_names_of_mem_scaledSizes hsize)
  · rcases hlast : lastGroup? tables name with _ | group
    · exact absurd h (lastGroup?_eq_none_iff.1 hlast)
    · refine ⟨group, lastGroup?_eq_some_iff.1 hlast, scaledRule rem group, ?_, fun property => ?_⟩
      · rw [getElem?_addScaled, hlast, Option.map_some, Option.some_or]
      · exact congrFun (reading_scaledRule rem group) property

/-- The second group is empty, so it leaves the size of the first, and a rule without properties. -/
def emptied : List (Table Float) := [[⟨"pa1", [("padding", 1), ("margin", 2)]⟩], [⟨"pa1", []⟩]]

theorem last_group_scales_emptied :
    "pa1" ∈ Table.names emptied ∧ (scaledSizes emptied 16)["pa1"]? = some (2 * 16) ∧
      ∃ rule, (addScaled ∅ emptied 16)["pa1"]? = some rule ∧
        ∀ property : String, rule[property]? = none := by
  have hmem : "pa1" ∈ Table.names emptied := by decide
  obtain ⟨-, hrule, -, hsize⟩ := last_group_scales ∅ emptied 16 "pa1"
  refine ⟨hmem, (hsize _).2 ?_, ?_⟩
  · exact ⟨_, ⟨[], [⟨"pa1", []⟩], rfl, by simp, by simp⟩, "margin", 2, rfl, rfl⟩
  · obtain ⟨group, hgroup, rule, hname, hvalues⟩ := hrule hmem
    have hlast := lastGroup?_eq_some_iff.2 hgroup
    obtain rfl : ⟨"pa1", []⟩ = group := Option.some.inj hlast
    exact ⟨rule, hname, fun property => by rw [hvalues]; rfl⟩

end Sheet

end AtomicStyle
