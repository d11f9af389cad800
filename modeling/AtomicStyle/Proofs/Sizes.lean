import AtomicStyle.Proofs.Names

/-!
# Sizes and styles

The sizes of scaled groups stand in a map of their own beside the sheet. A size is the last value
that any group of its name gives, while the rule of the sheet is all of the last group and may be
hidden by colours and fonts (`getElem?_scaledSizes`, `reading?_addScaled`). So the two tell the same
number only of a name whose last group is not empty and that shares its spelling with no other
group, no colour rule and no font rule; of such a name they do, under both spellings
(`sizes_sheet_agree`).
-/

namespace AtomicStyle

variable {α σ : Type}

theorem lastValue_of_getLast? {entries : List (String × α)} {name : String} {a : α}
    (h : entries.getLast? = some (name, a)) : lastValue entries name = some a := by
  obtain ⟨before, rfl⟩ := List.getLast?_eq_some_iff.1 h
  simp [lastValue_append, lastValue_singleton]

theorem lastValue_map_same (name n : String) (f : σ → α) (xs : List σ) :
    lastValue (xs.map fun x => (n, f x)) name = if n = name then xs.getLast?.map f else none := by
  rw [lastValue_map]
  by_cases h : n = name
  · simp only [h, decide_true, if_true, ← List.head?_reverse]
    rcases xs.reverse with _ | ⟨x, rest⟩ <;> rfl
  · simp [h]

namespace Sheet

variable {tables : List (Table Float)} {name : String}

/-- The last multiple of the unit that scaled tables give a name; an empty group gives none. -/
def lastMultiple? (tables : List (Table Float)) (name : String) : Option Float :=
  tables.flatten.reverse.findSome? fun group =>
    if group.name = name then group.properties.getLast?.map Prod.snd else none

theorem getElem?_scaledSizes (tables : List (Table Float)) (rem : Float) (name : String) :
    (scaledSizes tables rem)[name]? = (lastMultiple? tables name).map (· * rem) := by
  have hgroup (group : Group Float) :
      lastValue ((scaledProperties rem group).map fun property => (group.name, property.2)) name =
        (if group.name = name then group.properties.getLast?.map Prod.snd else none).map
          (· * rem) := by
    rw [lastValue_map_same, scaledProperties, List.getLast?_map]
    by_cases h : group.name = name <;> simp [h, Function.comp_def]
  rw [scaledSizes, NameMap.getElem?_ofEntries, lastValue_flatMap, lastMultiple?, List.map_findSome?]
  simp only [hgroup, Function.comp_def]

theorem lastMultiple?_of_lastGroup? {group : Group Float} {property : String} {multiple : Float}
    (h : lastGroup? tables name = some group)
    (hlast : group.properties.getLast? = some (property, multiple)) :
    lastMultiple? tables name = some multiple := by
  obtain ⟨hname, later, earlier, heq, hlater⟩ := List.find?_eq_some_iff_append.1 h
  rw [lastMultiple?, List.findSome?_eq_some_iff]
  refine ⟨later, group, earlier, heq, ?_, fun other hother => ?_⟩
  · rw [if_pos (of_decide_eq_true hname), hlast]
    rfl
  · exact if_neg (by simpa using hlater other hother)

end Sheet

namespace Compiled

variable {config : Config} {vocabulary : Vocabulary} {colors : NameMap String} {name : String}

/-- Only groups of its own name have the spelling of a name, and no colour rule or font rule. -/
structure Unshared (config : Config) (vocabulary : Vocabulary) (colors : NameMap String)
    (name : String) : Prop where
  fixed : ∀ other ∈ Table.names vocabulary.fixed, underscored other = underscored name →
    other = name
  scaled : ∀ other ∈ Table.names vocabulary.scaled, underscored other = underscored name →
    other = name
  colors : ∀ color ∈ colors, ∀ other ∈ Sheet.colorNames color,
    underscored other ≠ underscored name
  fonts : ∀ font ∈ config.fonts.toList.map Prod.fst, underscored ("ff-" ++ font) ≠ underscored name

theorem Unshared.eq_of_mem_layers (h : Unshared config vocabulary colors name) {other : String}
    (hother : other ∈ layers config vocabulary colors)
    (hspelling : underscored other = underscored name) : other = name := by
  rcases mem_layers.1 hother with ⟨font, hfont, rfl⟩ | ⟨color, hcolor, hname⟩ | hscaled | hfixed
  · exact absurd hspelling (h.fonts font hfont)
  · exact absurd hspelling (h.colors color hcolor other hname)
  · exact h.scaled other hscaled hspelling
  · exact h.fixed other hfixed hspelling

theorem Unshared.layered?_eq (h : Unshared config vocabulary colors name) {group : Group Float}
    (hgroup : Sheet.lastGroup? vocabulary.scaled name = some group) :
    layered? config vocabulary colors name = some fun property =>
      (lastValue group.properties property).map fun multiple =>
        .number (multiple * config.rem) := by
  have hfont : Sheet.fontReading? config.fonts name = none :=
    Sheet.fontReading?_eq_none fun font hfont heq => h.fonts font hfont (heq ▸ rfl)
  have hcolor : Sheet.colorReading? colors name = none :=
    Sheet.colorReading?_eq_none fun color hcolor hname => h.colors color hcolor name hname rfl
  rw [layered?, hfont, hcolor, Option.none_or, Option.none_or, Sheet.scaledReading?, hgroup,
    Option.map_some, Option.some_or]

theorem sizes_sheet_agree (config : Config) (vocabulary : Vocabulary)
    (h : Palette.Readable config.colors.palette.toList) :
    ∃ colors compiled, config.colors.expand.outcome = .ok colors ∧
      (config.compileWith vocabulary).outcome = .ok compiled ∧
      ∀ name group property multiple,
        Sheet.lastGroup? vocabulary.scaled name = some group →
        group.properties.getLast? = some (property, multiple) →
        Unshared config vocabulary colors name →
        ∀ n, n = name ∨ n = underscored name →
          compiled.sizes[n]? = some (multiple * config.rem) ∧
            ∃ rule, compiled.sheet[n]? = some rule ∧
              rule[property]? = some (.number (multiple * config.rem)) := by
  obtain ⟨colors, hcolors, hcompiled⟩ := exists_outcome_compileWith config vocabulary h
  refine ⟨colors, _, hcolors, hcompiled, ?_⟩
  intro name group property multiple hgroup hlast hunshared n hn
  have hsize : (Sheet.scaledSizes vocabulary.scaled config.rem)[name]? =
      some (multiple * config.rem) := by
    rw [Sheet.getElem?_scaledSizes, Sheet.lastMultiple?_of_lastGroup? hgroup hlast,
      Option.map_some]
  have hrule : Sheet.reading? (layers config vocabulary colors) name = some fun property =>
      (lastValue group.properties property).map fun multiple =>
        .number (multiple * config.rem) := by
    rw [reading?_layers, hunshared.layered?_eq hgroup]
  obtain ⟨rule, hname, hreading⟩ := Option.map_eq_some_iff.1 hrule
  refine ⟨?_, rule, ?_, ?_⟩
  · rw [ofColors, NameMap.getElem?_withUnderscores_of_sole (NameMap.mem_of_getElem? hsize) ?_ hn,
      hsize]
    intro other hother
    exact hunshared.scaled other (Sheet.mem_names_of_mem_scaledSizes hother)
  · rw [ofColors, NameMap.getElem?_withUnderscores_of_sole (NameMap.mem_of_getElem? hname) ?_ hn,
      hname]
    intro other hother
    exact hunshared.eq_of_mem_layers hother
  · have hproperty := congrFun hreading property
    rwa [lastValue_of_getLast? hlast] at hproperty

/-- Corners that are declared as a fixed group and as two scaled ones, beside an empty group. -/
def corners : Vocabulary where
  fixed := [[⟨"br--top", [("flex", .number 1)]⟩]]
  scaled := [[⟨"br--top", [("borderBottomRightRadius", 3)]⟩],
    [⟨"br--top", [("borderBottomLeftRadius", 1), ("borderBottomRightRadius", 2)]⟩, ⟨"none", []⟩]]

theorem sizes_sheet_agree_corners :
    Palette.Readable Config.new.colors.palette.toList ∧
      ∃ colors compiled, (Config.new.compileWith corners).outcome = .ok compiled ∧
        Unshared Config.new corners colors "br--top" ∧
        compiled.sizes["br__top"]? = some (2 * 16) ∧
        ∃ rule, compiled.sheet["br__top"]? = some rule ∧
          rule["borderBottomRightRadius"]? = some (.number (2 * 16)) := by
  have hread := ColorSettings.readable_standard
  obtain ⟨colors, compiled, hcolors, hcompiled, hagree⟩ :=
    sizes_sheet_agree Config.new corners hread
  have hfamilies : ∀ entry ∈ Config.new.colors.palette.toList,
      ∀ color ∈ Palette.familyNames Config.new.colors entry.1,
        ∀ other ∈ Sheet.colorNames color, underscored other ≠ underscored "br--top" := by
    decide +kernel
  have hunshared : Unshared Config.new corners colors "br--top" :=
    { fixed := by decide +kernel
      scaled := by decide +kernel
      colors := by
        intro color hcolor
        rw [ColorSettings.eq_expanded_of_outcome hcolors] at hcolor
        obtain ⟨entry, hentry, hfamily⟩ := ColorSettings.exists_of_mem_expanded hcolor
        exact hfamilies entry hentry color hfamily
      fonts := by decide +kernel }
  obtain ⟨hsize, hrule⟩ :=
    hagree "br--top" _ _ _ rfl rfl hunshared "br__top" (.inr (by decide +kernel))
  exact ⟨hread, colors, compiled, hcompiled, hunshared, hsize, hrule⟩

end Compiled

end AtomicStyle
