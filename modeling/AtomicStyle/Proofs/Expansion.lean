import AtomicStyle.Proofs.NameMap
import AtomicStyle.Proofs.Palette

/-!
# What a palette generates

The colours of a palette are written entry by entry, so each name holds what the last entry that
generates it gives for it (`outcome_expand_of_readable`). Which names an entry generates depends on
its own name and on the two adjustments, not on its text. So the place of an entry counts only if
another entry generates one of its names (`Rearranged.expanded_eq`).
-/

namespace AtomicStyle

namespace Palette

/-- The tenths between none and all, in percent. -/
def tenths : List Nat := [10, 20, 30, 40, 50, 60, 70, 80, 90]

theorem alphaSteps_eq : alphaSteps = tenths := rfl

/-- The names that a colour generates. -/
def familyNames (settings : ColorSettings) (name : String) : List String :=
  name :: (settings.lighten.share?.toList.map fun _ => "light-" ++ name) ++
    (settings.darken.share?.toList.map fun _ => "dark-" ++ name) ++
    tenths.map fun percent => name ++ "-" ++ Nat.repr percent

/-- What an entry generates; nothing if its text is no colour. -/
def generated (settings : ColorSettings) (entry : String × String) : List (String × String) :=
  match Color.parse entry.2 with
  | .ok base => family settings entry.1 entry.2 base
  | .error _ => []

variable {settings other : ColorSettings}

theorem familyNames_congr (hlighten : settings.lighten = other.lighten)
    (hdarken : settings.darken = other.darken) : familyNames settings = familyNames other := by
  funext name
  rw [familyNames, familyNames, hlighten, hdarken]

theorem generated_congr (hlighten : settings.lighten = other.lighten)
    (hdarken : settings.darken = other.darken) : generated settings = generated other := by
  funext entry
  simp only [generated, family, hlighten, hdarken]

theorem map_fst_family (settings : ColorSettings) (name value : String) (base : Color) :
    (family settings name value base).map Prod.fst = familyNames settings name := by
  simp only [family, familyNames, translucent, alphaSteps_eq, List.map_append, List.map_cons,
    List.map_map]
  rfl

theorem generated_eq_family {entry : String × String} {base : Color}
    (h : Color.parse entry.2 = .ok base) :
    generated settings entry = family settings entry.1 entry.2 base := by
  simp only [generated, h]

theorem mem_familyNames_of_mem_generated {entry : String × String} {name : String}
    (h : name ∈ (generated settings entry).map Prod.fst) : name ∈ familyNames settings entry.1 := by
  rw [generated] at h
  split at h
  · rwa [map_fst_family] at h
  · simp at h

theorem outcome_expandFrom_of_readable :
    ∀ {entries : List (String × String)}, Readable entries → ∀ expanded : NameMap String,
      (expandFrom settings entries expanded).outcome =
        .ok (expanded.insertAll (entries.flatMap (generated settings)))
  | [], _, _ => rfl
  | entry :: entries, h, expanded => by
    obtain ⟨base, hbase⟩ := h entry List.mem_cons_self
    rw [outcome_expandFrom_cons hbase, outcome_expandFrom_of_readable h.tail, List.flatMap_cons,
      generated_eq_family hbase]
    simp only [NameMap.insertAll, List.foldl_append]

theorem readable_of_outcome_expandFrom :
    ∀ {entries : List (String × String)} {expanded colors : NameMap String},
      (expandFrom settings entries expanded).outcome = .ok colors → Readable entries
  | [], _, _, _ => readable_nil
  | entry :: entries, expanded, colors, h => by
    rcases hparse : Color.parse entry.2 with failure | base
    · rcases failure with source | _ <;>
        simp [expandFrom, expandEntry, Run.outcome_bind, hparse, Run.fail, Except.bind] at h
    · rw [outcome_expandFrom_cons hparse] at h
      exact (readable_of_outcome_expandFrom h).cons hparse

/-- No other entry of the palette generates a name that an entry of one of the owners generates. -/
def Uncontested (settings : ColorSettings) (owners : List String) : Prop :=
  ∀ entry ∈ settings.palette.toList, entry.1 ∈ owners →
    ∀ other ∈ settings.palette.toList, other ≠ entry →
      ∀ name ∈ familyNames settings entry.1, name ∉ familyNames settings other.1

instance (settings : ColorSettings) (owners : List String) :
    Decidable (Uncontested settings owners) :=
  inferInstanceAs (Decidable (∀ entry ∈ settings.palette.toList, entry.1 ∈ owners →
    ∀ other ∈ settings.palette.toList, other ≠ entry →
      ∀ name ∈ familyNames settings entry.1, name ∉ familyNames settings other.1))

end Palette

namespace ColorSettings

/-- The names that a palette generates, with their values. -/
def expanded (settings : ColorSettings) : NameMap String :=
  .ofEntries (settings.palette.toList.flatMap (Palette.generated settings))

theorem outcome_expand_of_readable {settings : ColorSettings}
    (h : Palette.Readable settings.palette.toList) :
    settings.expand.outcome = .ok settings.expanded :=
  Palette.outcome_expandFrom_of_readable h ∅

theorem readable_of_outcome_expand {settings : ColorSettings} {colors : NameMap String}
    (h : settings.expand.outcome = .ok colors) : Palette.Readable settings.palette.toList :=
  Palette.readable_of_outcome_expandFrom h

theorem eq_expanded_of_outcome {settings : ColorSettings} {colors : NameMap String}
    (h : settings.expand.outcome = .ok colors) : colors = settings.expanded := by
  rw [outcome_expand_of_readable (readable_of_outcome_expand h)] at h
  exact (Except.ok.inj h).symm

theorem exists_of_mem_expanded {settings : ColorSettings} {name : String}
    (h : name ∈ settings.expanded) :
    ∃ entry ∈ settings.palette.toList, name ∈ Palette.familyNames settings entry.1 := by
  rw [expanded, NameMap.mem_ofEntries, List.map_flatMap, List.mem_flatMap] at h
  obtain ⟨entry, hentry, hname⟩ := h
  exact ⟨entry, hentry, Palette.mem_familyNames_of_mem_generated hname⟩

section Order

/-- Settings whose palettes have the same entries, in the same order but for the entries of some
names, which may stand anywhere. -/
structure Rearranged (moved : List String) (s t : ColorSettings) : Prop where
  lighten : s.lighten = t.lighten
  darken : s.darken = t.darken
  mem_iff : ∀ entry, entry ∈ s.palette.toList ↔ entry ∈ t.palette.toList
  order : (s.palette.toList.filter fun entry => entry.1 ∉ moved) =
    t.palette.toList.filter fun entry => entry.1 ∉ moved

variable {s t : ColorSettings} {moved : List String}

theorem Rearranged.readable_iff (h : Rearranged moved s t) :
    Palette.Readable s.palette.toList ↔ Palette.Readable t.palette.toList := by
  simp only [Palette.Readable, h.mem_iff]

theorem Rearranged.answered_iff (h : Rearranged moved s t) :
    Palette.Answered s.palette.toList ↔ Palette.Answered t.palette.toList := by
  simp only [Palette.Answered, h.mem_iff]

/-- It makes no difference where an entry stands that has its names for itself. -/
theorem Rearranged.expanded_eq (h : Rearranged moved s t) (hsole : Palette.Uncontested s moved) :
    s.expanded = t.expanded := by
  refine Std.ExtTreeMap.ext_getElem? fun name => ?_
  rw [expanded, expanded, NameMap.getElem?_ofEntries, NameMap.getElem?_ofEntries,
    ← Palette.generated_congr h.lighten h.darken]
  by_cases hmoved : ∃ entry ∈ s.palette.toList, entry.1 ∈ moved ∧
      name ∈ Palette.familyNames s entry.1
  · obtain ⟨entry, hentry, hname, hfamily⟩ := hmoved
    have honly : ∀ x ∈ s.palette.toList, name ∈ (Palette.generated s x).map Prod.fst →
        x = entry := by
      intro x hx hxname
      by_contra hne
      exact hsole entry hentry hname x hx hne name hfamily
        (Palette.mem_familyNames_of_mem_generated hxname)
    ext value
    rw [lastValue_flatMap_eq_some_iff, lastValue_flatMap_eq_some_iff]
    · simp only [h.mem_iff]
    · intro x hx y hy hxname hyname
      rw [honly x ((h.mem_iff x).2 hx) hxname, honly y ((h.mem_iff y).2 hy) hyname]
    · intro x hx y hy hxname hyname
      rw [honly x hx hxname, honly y hy hyname]
  · have hsilent : ∀ x ∈ s.palette.toList, decide (x.1 ∉ moved) = false →
        name ∉ (Palette.generated s x).map Prod.fst := by
      intro x hx hxmoved hxname
      simp only [decide_eq_false_iff_not, not_not] at hxmoved
      exact hmoved ⟨x, hx, hxmoved, Palette.mem_familyNames_of_mem_generated hxname⟩
    rw [← lastValue_flatMap_filter hsilent,
      ← lastValue_flatMap_filter fun x hx => hsilent x ((h.mem_iff x).2 hx), h.order]

end Order

end ColorSettings

end AtomicStyle
