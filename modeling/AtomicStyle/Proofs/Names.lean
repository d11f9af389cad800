import AtomicStyle.Proofs.Compiled

/-!
# The names of a sheet

A sheet holds the names that its layers write and no others (`mem_layers`): those of the groups of
the vocabulary, three for each colour, and one for each font.
-/

namespace AtomicStyle

variable {α : Type}

/-- The names of the groups in some tables. -/
def Table.names (tables : List (Table α)) : List String := tables.flatten.map Group.name

namespace Sheet

/-- The names under which a colour is written: as background, as text and as border. -/
def colorNames (color : String) : List String := ["bg-" ++ color, color, "b--" ++ color]

theorem mem_addFixed {sheet : Sheet} {tables : List (Table RuleValue)} {name : String} :
    name ∈ addFixed sheet tables ↔ name ∈ Table.names tables ∨ name ∈ sheet := by
  rw [addFixed, NameMap.mem_insertAll, List.map_map]
  rfl

theorem mem_addScaled {sheet : Sheet} {tables : List (Table Float)} {rem : Float} {name : String} :
    name ∈ addScaled sheet tables rem ↔ name ∈ Table.names tables ∨ name ∈ sheet := by
  rw [addScaled, NameMap.mem_insertAll, List.map_map]
  rfl

theorem mem_addColors {sheet : Sheet} {colors : NameMap String} {name : String} :
    name ∈ addColors sheet colors ↔
      (∃ color ∈ colors, name ∈ colorNames color) ∨ name ∈ sheet := by
  rw [addColors, NameMap.mem_insertAll, List.map_flatMap, List.mem_flatMap]
  refine or_congr_left ⟨?_, ?_⟩
  · rintro ⟨⟨color, value⟩, hentry, hname⟩
    have hcolor := Std.ExtTreeMap.mem_toList_iff_getElem?_eq_some.1 hentry
    exact ⟨color, NameMap.mem_of_getElem? hcolor, hname⟩
  · rintro ⟨color, hcolor, hname⟩
    obtain ⟨value, hvalue⟩ :=
      Option.isSome_iff_exists.1 (Std.ExtTreeMap.mem_iff_isSome_getElem?.1 hcolor)
    exact ⟨(color, value), Std.ExtTreeMap.mem_toList_iff_getElem?_eq_some.2 hvalue, hname⟩

theorem mem_addFonts {sheet : Sheet} {fonts : Declarations} {name : String} :
    name ∈ addFonts sheet fonts ↔
      (∃ font ∈ fonts.toList.map Prod.fst, "ff-" ++ font = name) ∨ name ∈ sheet := by
  rw [addFonts, NameMap.mem_insertAll, List.map_map, List.mem_map]
  simp only [List.mem_map, fontRule, Function.comp_apply, exists_exists_and_eq_and]

/-- A name has a size if some scaled group with that name is not empty, whatever the unit is. -/
theorem mem_scaledSizes {tables : List (Table Float)} {rem : Float} {name : String} :
    name ∈ scaledSizes tables rem ↔
      ∃ group ∈ tables.flatten, group.name = name ∧ group.properties ≠ [] := by
  rw [scaledSizes, NameMap.mem_ofEntries, List.map_flatMap, List.mem_flatMap]
  refine exists_congr fun group => and_congr_right fun _ => ?_
  rw [scaledProperties, List.map_map, List.map_map, List.mem_map]
  constructor
  · rintro ⟨property, hmem, hname⟩
    exact ⟨hname, List.ne_nil_of_mem hmem⟩
  · rintro ⟨hname, hne⟩
    obtain ⟨property, hmem⟩ := List.exists_mem_of_ne_nil _ hne
    exact ⟨property, hmem, hname⟩

theorem mem_names_of_mem_scaledSizes {tables : List (Table Float)} {rem : Float} {name : String}
    (h : name ∈ scaledSizes tables rem) : name ∈ Table.names tables := by
  obtain ⟨group, hgroup, hname, -⟩ := mem_scaledSizes.1 h
  exact List.mem_map.2 ⟨group, hgroup, hname⟩

theorem fontReading?_congr {fonts other : Declarations} {name : String}
    (h : ∀ font, "ff-" ++ font = name → fonts.find? font = other.find? font) :
    fontReading? fonts name = fontReading? other name := by
  rw [fontReading?, fontReading?]
  rcases hfont : after? "ff-" name with _ | font
  · rfl
  · rw [Option.bind_some, Option.bind_some, h font (after?_eq_some_iff.1 hfont)]

theorem colorReading?_congr {colors other : NameMap String} {name : String}
    (h : ∀ color, name ∈ colorNames color → colors[color]? = other[color]?) :
    colorReading? colors name = colorReading? other name := by
  rw [colorReading?, colorReading?, h name (by simp [colorNames])]
  rcases hsurface : surface? name with _ | ⟨color, property⟩
  · rfl
  · have hname : name ∈ colorNames color := by
      rcases surface?_eq_some_iff.1 hsurface with ⟨rfl, -⟩ | ⟨rfl, -⟩ <;> simp [colorNames]
    rw [Option.bind_some, Option.bind_some, h color hname]

theorem fontReading?_eq_none {fonts : Declarations} {name : String}
    (h : ∀ font ∈ fonts.toList.map Prod.fst, "ff-" ++ font ≠ name) :
    fontReading? fonts name = none := by
  rw [fontReading?, Option.map_eq_none_iff, Option.bind_eq_none_iff]
  intro font hfont
  rw [Declarations.find?_eq_none_iff, Declarations.declares_iff]
  exact fun hmem => h font hmem (after?_eq_some_iff.1 hfont)

theorem colorReading?_eq_none {colors : NameMap String} {name : String}
    (h : ∀ color ∈ colors, name ∉ colorNames color) : colorReading? colors name = none := by
  have hempty : colorReading? colors name = colorReading? ∅ name := by
    refine colorReading?_congr fun color hname => ?_
    rw [Std.ExtTreeMap.getElem?_empty, getElem?_eq_none_iff]
    exact fun hcolor => h color hcolor hname
  rw [hempty]
  simp [colorReading?]

theorem lastGroup?_eq_none_iff {tables : List (Table α)} {name : String} :
    lastGroup? tables name = none ↔ name ∉ Table.names tables := by
  rw [lastGroup?, List.find?_eq_none, Table.names, List.mem_map, not_exists]
  simp only [List.mem_reverse, decide_eq_true_eq, not_and]

theorem scaledReading?_eq_none {tables : List (Table Float)} {name : String}
    (h : name ∉ Table.names tables) (rem : Float) : scaledReading? tables rem name = none := by
  rw [scaledReading?, lastGroup?_eq_none_iff.2 h, Option.map_none]

/-- Rules that say the same of each property are the same. -/
theorem getElem?_eq_of_reading? {sheet other : Sheet} {name : String}
    (h : reading? sheet name = reading? other name) : sheet[name]? = other[name]? := by
  have hinj : Function.Injective Rule.reading := fun rule rule' heq =>
    Std.ExtTreeMap.ext_getElem? fun property => congrFun heq property
  exact Option.map_injective hinj h

end Sheet

theorem Compiled.mem_layers {config : Config} {vocabulary : Vocabulary} {colors : NameMap String}
    {name : String} :
    name ∈ layers config vocabulary colors ↔
      (∃ font ∈ config.fonts.toList.map Prod.fst, "ff-" ++ font = name) ∨
        (∃ color ∈ colors, name ∈ Sheet.colorNames color) ∨
          name ∈ Table.names vocabulary.scaled ∨ name ∈ Table.names vocabulary.fixed := by
  simp only [layers, Sheet.mem_addFonts, Sheet.mem_addColors, Sheet.mem_addScaled,
    Sheet.mem_addFixed, Std.ExtTreeMap.not_mem_empty, or_false]

end AtomicStyle
