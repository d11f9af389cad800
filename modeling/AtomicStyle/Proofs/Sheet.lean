import AtomicStyle.Proofs.Declarations
import AtomicStyle.Sheet
import Mathlib.Tactic.SplitIfs

/-!
# What each layer says

A rule is known by what it says of each property, its reading, and a layer of a sheet by the
readings it gives to names. The layers of groups and of fonts give each name the reading that was
written last. The layer of colours writes up to two rules under one name, since a name can be a
colour and the background or border of another colour: the greater of the two colours' names decides
(`reading?_addColors`).
-/

namespace AtomicStyle

variable {α β : Type}

/-- What a rule says of each property. -/
abbrev Reading := String → Option RuleValue

def Reading.only (property : String) (value : RuleValue) : Reading := fun p =>
  if p = property then some value else none

def Rule.reading (rule : Rule) : Reading := fun property => rule[property]?

theorem Rule.reading_ofProperties (properties : List (String × RuleValue)) :
    (Rule.ofProperties properties).reading = lastValue properties := by
  funext property
  exact NameMap.getElem?_ofEntries properties property

theorem Rule.reading_single (property : String) (value : RuleValue) :
    (Rule.single property value).reading = Reading.only property value := by
  funext p
  rw [Rule.reading, Rule.single, Std.ExtTreeMap.getElem?_insert]
  by_cases h : property = p
  · simp [Reading.only, h]
  · simp [Reading.only, h, Ne.symm h]

/-- What follows `start` in a name that begins with it. -/
def after? (start name : String) : Option String :=
  if start.toList <+: name.toList then some (String.ofList (name.toList.drop start.toList.length))
  else none

theorem after?_eq_some_iff {start name rest : String} :
    after? start name = some rest ↔ start ++ rest = name := by
  have hlist : start ++ rest = name ↔ start.toList ++ rest.toList = name.toList := by
    rw [← String.toList_append, String.toList_inj]
  rw [after?, hlist]
  constructor
  · intro h
    split_ifs at h with hpre
    obtain ⟨cs, hcs⟩ := hpre
    rw [Option.some.injEq, ← String.toList_inj, String.toList_ofList, ← hcs,
      List.drop_left] at h
    rw [← h, hcs]
  · intro h
    rw [if_pos ⟨rest.toList, h⟩, ← h, List.drop_left, String.ofList_toList]

/-- Names that are all written with one beginning are looked up by what follows it. -/
theorem lastValue_map_append (start : String) (f : α → β) (entries : List (String × α))
    (name : String) :
    lastValue (entries.map fun entry => (start ++ entry.1, f entry.2)) name =
      (after? start name).bind fun rest => (lastValue entries rest).map f := by
  induction entries with
  | nil => simp
  | cons entry entries ih =>
    rw [List.map_cons, lastValue_cons, ih]
    rcases hrest : after? start name with _ | rest
    · have hne : start ++ entry.1 ≠ name := fun h => by
        rw [after?_eq_some_iff.2 h] at hrest
        cases hrest
      simp [hne]
    · obtain rfl := after?_eq_some_iff.1 hrest
      rw [Option.bind_some, Option.bind_some, lastValue_cons]
      rcases lastValue entries rest with _ | a
      · by_cases h : entry.1 = rest
        · simp [h]
        · have hne : start ++ entry.1 ≠ start ++ rest := mt (String.append_right_inj start).1 h
          simp [h, hne]
      · simp

namespace Sheet

/-- What the rule of a name says, if the sheet has one. -/
def reading? (sheet : Sheet) (name : String) : Option Reading := sheet[name]?.map Rule.reading

theorem reading?_insertAll (sheet : Sheet) (entries : List (String × Rule)) (name : String) :
    reading? (sheet.insertAll entries) name =
      ((lastValue entries name).map Rule.reading).or (reading? sheet name) := by
  rw [reading?, NameMap.getElem?_insertAll, reading?]
  rcases lastValue entries name with _ | rule <;> simp

section Groups

/-- The last group with a name, in the order of the tables. -/
def lastGroup? (tables : List (Table α)) (name : String) : Option (Group α) :=
  tables.flatten.reverse.find? fun group => group.name = name

/-- What fixed tables say of a name: the properties of its last group, each with its last value. -/
def fixedReading? (tables : List (Table RuleValue)) (name : String) : Option Reading :=
  (lastGroup? tables name).map fun group => lastValue group.properties

/-- What scaled tables say of a name: the properties of its last group, each with its last multiple
of the unit. -/
def scaledReading? (tables : List (Table Float)) (rem : Float) (name : String) : Option Reading :=
  (lastGroup? tables name).map fun group property =>
    (lastValue group.properties property).map fun multiple => .number (multiple * rem)

theorem reading?_addFixed (sheet : Sheet) (tables : List (Table RuleValue)) (name : String) :
    reading? (addFixed sheet tables) name =
      (fixedReading? tables name).or (reading? sheet name) := by
  rw [addFixed, reading?_insertAll, lastValue_map, Option.map_map, fixedReading?, lastGroup?]
  congr 2
  funext group
  exact Rule.reading_ofProperties group.properties

theorem reading_scaledRule (rem : Float) (group : Group Float) :
    (scaledRule rem group).reading = fun property =>
      (lastValue group.properties property).map fun multiple => .number (multiple * rem) := by
  funext property
  rw [scaledRule, scaledProperties, List.map_map, Rule.reading_ofProperties]
  exact lastValue_map_snd (fun multiple => RuleValue.number (multiple * rem)) _ property

theorem reading?_addScaled (sheet : Sheet) (tables : List (Table Float)) (rem : Float)
    (name : String) :
    reading? (addScaled sheet tables rem) name =
      (scaledReading? tables rem name).or (reading? sheet name) := by
  rw [addScaled, reading?_insertAll, lastValue_map, Option.map_map, scaledReading?, lastGroup?]
  congr 2
  funext group
  exact reading_scaledRule rem group

end Groups

section Fonts

/-- What fonts say of a name: after `ff-` comes the font whose family is set. -/
def fontReading? (fonts : Declarations) (name : String) : Option Reading :=
  ((after? "ff-" name).bind fonts.find?).map fun family => .only "fontFamily" (.text family)

theorem reading?_addFonts (sheet : Sheet) (fonts : Declarations) (name : String) :
    reading? (addFonts sheet fonts) name =
      (fontReading? fonts name).or (reading? sheet name) := by
  have hlast : lastValue (fonts.toList.map fontRule) name =
      (after? "ff-" name).bind fun font =>
        (fonts.find? font).map fun family => Rule.single "fontFamily" (.text family) := by
    simp only [← Declarations.lastValue_toList]
    exact lastValue_map_append "ff-" (fun family => Rule.single "fontFamily" (.text family))
      fonts.toList name
  rw [addFonts, reading?_insertAll, hlast, fontReading?]
  rcases after? "ff-" name with _ | font
  · rfl
  · rcases h : fonts.find? font with _ | family
    · simp [h]
    · simp [h, Rule.reading_single]

end Fonts

section Colors

/-- The colour that a name is the background or border of, and the property that this sets. -/
def surface? (name : String) : Option (String × String) :=
  ((after? "bg-" name).map (·, "backgroundColor")).or ((after? "b--" name).map (·, "borderColor"))

/-- What colours say of a name. If it is a colour itself and also the surface of another one, the
greater of their two names decides. -/
def colorReading? (colors : NameMap String) (name : String) : Option Reading :=
  let asText := colors[name]?.map fun value => Reading.only "color" (.text value)
  let asSurface := (surface? name).bind fun surface =>
    colors[surface.1]?.map fun value => (surface.1, Reading.only surface.2 (.text value))
  match asText, asSurface with
  | some reading, some (color, other) => if color < name then some reading else some other
  | some reading, none => some reading
  | none, some (_, other) => some other
  | none, none => none

theorem after?_border_of_background {name color : String} (h : after? "bg-" name = some color) :
    after? "b--" name = none := by
  rw [after?_eq_some_iff] at h
  rw [after?, if_neg]
  rintro ⟨cs, hcs⟩
  rw [← h, String.toList_append] at hcs
  simp at hcs

theorem surface?_eq_some_iff {name color property : String} :
    surface? name = some (color, property) ↔
      ("bg-" ++ color = name ∧ property = "backgroundColor") ∨
        ("b--" ++ color = name ∧ property = "borderColor") := by
  rw [← after?_eq_some_iff, ← after?_eq_some_iff, surface?]
  rcases hbg : after? "bg-" name with _ | m
  · rcases after? "b--" name with _ | m <;> simp [eq_comm]
  · simp [after?_border_of_background hbg, eq_comm]

theorem surface?_ne_self {name color property : String}
    (h : surface? name = some (color, property)) : color ≠ name := by
  rintro rfl
  rcases surface?_eq_some_iff.1 h with ⟨h, -⟩ | ⟨h, -⟩
  · exact absurd (String.append_eq_right_iff.1 h) (by decide)
  · exact absurd (String.append_eq_right_iff.1 h) (by decide)

theorem lastValue_colorRules (color value name : String) :
    lastValue (colorRules (color, value)) name =
      (if color = name then some (.single "color" (.text value)) else none).or
        ((surface? name).bind fun surface =>
          if surface.1 = color then some (.single surface.2 (.text value)) else none) := by
  have hself {start : String} (hstart : start ≠ "") : start ++ color ≠ color := fun h =>
    hstart (String.append_eq_right_iff.1 h)
  simp only [colorRules, lastValue_cons, lastValue_nil, Option.none_or]
  by_cases hname : color = name
  · subst hname
    simp [hself (show "bg-" ≠ "" by decide), hself (show "b--" ≠ "" by decide)]
  · simp only [← after?_eq_some_iff, surface?]
    rcases hbg : after? "bg-" name with _ | m
    · rcases after? "b--" name with _ | m <;> simp [hname]
    · simp [hname, after?_border_of_background hbg]

theorem lastValue_colorRules_eq_none {color value name : String} (hne : color ≠ name)
    (hsurface : ∀ property, surface? name ≠ some (color, property)) :
    lastValue (colorRules (color, value)) name = none := by
  rw [lastValue_colorRules, if_neg hne, Option.none_or]
  rcases h : surface? name with _ | ⟨m, property⟩
  · rfl
  · refine if_neg ?_
    rintro rfl
    exact hsurface property h

section Walk

variable {colors : NameMap String} {name : String}

/-- The last rule that the colours write under a name, in the order of their own names. -/
def lastColorRule? (colors : NameMap String) (name : String) : Option Rule :=
  colors.toList.reverse.findSome? fun entry => lastValue (colorRules entry) name

theorem lastColorRule?_of_text {value : String} (hvalue : colors[name]? = some value)
    (hless : ∀ color property, surface? name = some (color, property) → color ∈ colors →
      color < name) : lastColorRule? colors name = some (.single "color" (.text value)) := by
  refine NameMap.findSome?_reverse_toList hvalue (by simp [lastValue_colorRules]) ?_
  intro color v hcolor hlt
  refine lastValue_colorRules_eq_none hlt.ne' fun property hsurface => ?_
  exact lt_asymm hlt (hless color property hsurface (NameMap.mem_of_getElem? hcolor))

theorem lastColorRule?_of_surface {color property value : String}
    (hsurface : surface? name = some (color, property)) (hvalue : colors[color]? = some value)
    (hless : name ∈ colors → name < color) :
    lastColorRule? colors name = some (.single property (.text value)) := by
  refine NameMap.findSome?_reverse_toList hvalue ?_ ?_
  · simp [lastValue_colorRules, hsurface, surface?_ne_self hsurface]
  · intro other v hother hlt
    refine lastValue_colorRules_eq_none ?_ fun p hp => ?_
    · rintro rfl
      exact lt_asymm hlt (hless (NameMap.mem_of_getElem? hother))
    · rw [hsurface, Option.some.injEq, Prod.mk.injEq] at hp
      exact hlt.ne hp.1

theorem lastColorRule?_eq_none (hname : name ∉ colors)
    (hsurface : ∀ color property, surface? name = some (color, property) → color ∉ colors) :
    lastColorRule? colors name = none := by
  refine NameMap.findSome?_reverse_toList_eq_none fun color v hcolor =>
    lastValue_colorRules_eq_none ?_ fun property hp => ?_
  · rintro rfl
    exact hname (NameMap.mem_of_getElem? hcolor)
  · exact hsurface color property hp (NameMap.mem_of_getElem? hcolor)

theorem reading_lastColorRule? (colors : NameMap String) (name : String) :
    (lastColorRule? colors name).map Rule.reading = colorReading? colors name := by
  rw [colorReading?]
  rcases hsurface : surface? name with _ | ⟨color, property⟩
  · rcases hname : colors[name]? with _ | value
    · rw [lastColorRule?_eq_none (NameMap.not_mem_of_getElem? hname) (by simp [hsurface])]
      rfl
    · rw [lastColorRule?_of_text hname (by simp [hsurface])]
      simp [Rule.reading_single]
  · have hunique {P : String → Prop} (h : P color) :
        ∀ c p, surface? name = some (c, p) → P c := by
      intro c p hc
      rw [hsurface, Option.some.injEq, Prod.mk.injEq] at hc
      exact hc.1 ▸ h
    rcases hcolor : colors[color]? with _ | other
    · have hmem : color ∉ colors := NameMap.not_mem_of_getElem? hcolor
      rcases hname : colors[name]? with _ | value
      · rw [lastColorRule?_eq_none (NameMap.not_mem_of_getElem? hname) (hunique hmem)]
        simp [hcolor]
      · rw [lastColorRule?_of_text hname (hunique fun h => absurd h hmem)]
        simp [hcolor, Rule.reading_single]
    · rcases hname : colors[name]? with _ | value
      · rw [lastColorRule?_of_surface hsurface hcolor fun h =>
          absurd h (NameMap.not_mem_of_getElem? hname)]
        simp [hcolor, Rule.reading_single]
      · rcases lt_or_gt_of_ne (surface?_ne_self hsurface) with hlt | hgt
        · rw [lastColorRule?_of_text hname (hunique fun _ => hlt)]
          simp [hcolor, hlt, Rule.reading_single]
        · rw [lastColorRule?_of_surface hsurface hcolor fun _ => hgt]
          simp [hcolor, not_lt_of_gt hgt, Rule.reading_single]

end Walk

theorem reading?_addColors (sheet : Sheet) (colors : NameMap String) (name : String) :
    reading? (addColors sheet colors) name =
      (colorReading? colors name).or (reading? sheet name) := by
  rw [addColors, reading?_insertAll, lastValue_flatMap, ← reading_lastColorRule?]
  rfl

end Colors

end Sheet

end AtomicStyle
