import AtomicStyle.Proofs.Producer
import AtomicStyle.Proofs.Registry

/-!
# Building in parts

Building one configuration and then another leaves what building both together leaves, provided that
no two producers write names of one spelling (`buildWith_together`). A spelling that only the first
configuration has is not touched by the second build, and a spelling that the second has is written
by it as by the combined build, whatever the first wrote there.
-/

namespace AtomicStyle

variable {α : Type}

namespace NameMap

theorem union_assoc (a b c : NameMap α) : a ∪ b ∪ c = a ∪ (b ∪ c) := by
  refine Std.ExtTreeMap.ext_getElem? fun name => ?_
  simp only [Std.ExtTreeMap.getElem?_union, Option.or_assoc]

/-- How a map is made of two: for each spelling it is one of them, and of the second if that one has
the spelling at all. -/
structure MadeOf (whole old new : NameMap α) : Prop where
  covers : whole.Covers old
  spelled : ∀ spelling, AgreesOn spelling whole new ∨
    (AgreesOn spelling ∅ new ∧ AgreesOn spelling whole old)

theorem getElem?_withUnderscores_of_silent {map : NameMap α} {name : String}
    (h : AgreesOn (underscored name) ∅ map) : map.withUnderscores[name]? = none := by
  rw [← getElem?_withUnderscores_congr h, getElem?_eq_none_iff, mem_withUnderscores]
  simp

theorem MadeOf.union_withUnderscores {whole old new : NameMap α} (h : whole.MadeOf old new) :
    old.withUnderscores ∪ new.withUnderscores = whole.withUnderscores := by
  refine Std.ExtTreeMap.ext_getElem? fun name => ?_
  rw [Std.ExtTreeMap.getElem?_union]
  rcases h.spelled (underscored name) with hnew | ⟨hsilent, hold⟩
  · rw [← getElem?_withUnderscores_congr hnew]
    rcases hwhole : whole.withUnderscores[name]? with _ | a
    · rw [Option.none_or, getElem?_eq_none_iff]
      exact fun hmem => not_mem_of_getElem? hwhole (h.covers.withUnderscores name hmem)
    · rw [Option.some_or]
  · rw [getElem?_withUnderscores_of_silent hsilent, Option.none_or,
      getElem?_withUnderscores_congr hold]

end NameMap

namespace Config

/-- Two configurations with the same settings that give shared names the same meaning. -/
structure Compatible (a b : Config) : Prop where
  rem : a.rem = b.rem
  lighten : a.colors.lighten = b.colors.lighten
  darken : a.colors.darken = b.colors.darken
  palette : ∀ name value value', a.colors.palette.find? name = some value →
    b.colors.palette.find? name = some value' → value = value'
  fonts : ∀ name family family', a.fonts.find? name = some family →
    b.fonts.find? name = some family' → family = family'

/-- The colours and fonts of the first configuration, and then those that only the second has. -/
def together (a b : Config) : Config where
  rem := a.rem
  colors := { a.colors with palette := a.colors.palette.orElse b.colors.palette }
  fonts := a.fonts.orElse b.fonts

variable {a b whole : Config} {vocabulary : Vocabulary}

theorem partOf_together_left (a b : Config) : a.PartOf (a.together b) where
  rem := rfl
  lighten := rfl
  darken := rfl
  palette _ hentry := Declarations.mem_orElse.2 (.inl hentry)
  fonts _ hentry := Declarations.mem_orElse.2 (.inl hentry)

theorem Compatible.partOf_together_right (h : a.Compatible b) : b.PartOf (a.together b) where
  rem := h.rem.symm
  lighten := h.lighten.symm
  darken := h.darken.symm
  palette := fun ⟨name, value⟩ hentry =>
    Declarations.mem_orElse_of_agree (fun value' hvalue' =>
      h.palette name value' value hvalue' (Declarations.find?_eq_some_iff_mem.2 hentry)) hentry
  fonts := fun ⟨name, family⟩ hentry =>
    Declarations.mem_orElse_of_agree (fun family' hfamily' =>
      h.fonts name family' family hfamily' (Declarations.find?_eq_some_iff_mem.2 hentry)) hentry

theorem mem_producers_together {p : Producer} (hp : p ∈ (a.together b).producers) :
    p ∈ a.producers ∨ p ∈ b.producers := by
  cases p with
  | vocabulary => exact .inl vocabulary_mem_producers
  | color name =>
    simp only [color_mem_producers] at hp ⊢
    obtain ⟨text, htext⟩ := hp
    exact (Declarations.mem_orElse.1 htext).imp (⟨text, ·⟩) fun hmem => ⟨text, hmem.1⟩
  | font name =>
    simp only [font_mem_producers] at hp ⊢
    obtain ⟨text, htext⟩ := hp
    exact (Declarations.mem_orElse.1 htext).imp (⟨text, ·⟩) fun hmem => ⟨text, hmem.1⟩

theorem readable_together (ha : Palette.Readable a.colors.palette.toList)
    (hb : Palette.Readable b.colors.palette.toList) :
    Palette.Readable (a.together b).colors.palette.toList := by
  intro entry hentry
  rcases Declarations.mem_orElse.1 hentry with hmem | ⟨hmem, -⟩
  · exact ha entry hmem
  · exact hb entry hmem

section Parts

variable (ha : a.PartOf whole) (hb : b.PartOf whole) (hapart : whole.Apart vocabulary)
  (hcover : ∀ p ∈ whole.producers, p ∈ a.producers ∨ p ∈ b.producers)

include hb hapart hcover

/-- The second part has the owner of a spelling, or it is silent there and the first part has it. -/
theorem owner_cases (spelling : String) :
    (∀ p ∈ whole.producers, whole.Claims vocabulary spelling p → p ∈ b.producers) ∨
      (∀ p ∈ b.producers, ¬ b.Claims vocabulary spelling p) ∧
        ∀ p ∈ whole.producers, whole.Claims vocabulary spelling p → p ∈ a.producers := by
  by_cases h : ∀ p ∈ whole.producers, whole.Claims vocabulary spelling p → p ∈ b.producers
  · exact .inl h
  · push Not at h
    obtain ⟨owner, howner, hclaims, hnot⟩ := h
    refine .inr ⟨fun p hp hpclaims => ?_, fun p hp hpclaims => ?_⟩
    · have heq := hapart.owner_unique (hb.mem_producers hp) howner (hb.claims_iff.1 hpclaims)
        hclaims
      exact hnot (heq ▸ hp)
    · obtain rfl := hapart.owner_unique hp howner hpclaims hclaims
      exact (hcover p hp).resolve_right hnot

include ha

theorem madeOf_expanded : whole.colors.expanded.MadeOf a.colors.expanded b.colors.expanded where
  covers := ha.covers_expanded
  spelled spelling := by
    rcases owner_cases hb hapart hcover spelling with howned | ⟨hsilent, howned⟩
    · exact .inl (hb.agreesOn_expanded howned hapart)
    · exact .inr ⟨agreesOn_empty_expanded hsilent, ha.agreesOn_expanded howned hapart⟩

theorem madeOf_layers :
    (Compiled.layers whole vocabulary whole.colors.expanded).MadeOf
      (Compiled.layers a vocabulary a.colors.expanded)
      (Compiled.layers b vocabulary b.colors.expanded) where
  covers := ha.covers_layers
  spelled spelling := by
    rcases owner_cases hb hapart hcover spelling with howned | ⟨hsilent, howned⟩
    · exact .inl (hb.agreesOn_layers howned hapart)
    · exact .inr ⟨agreesOn_empty_layers hsilent, ha.agreesOn_layers howned hapart⟩

end Parts

end Config

namespace Registry

/-- Results that make up a whole one can be merged one after the other. -/
theorem merge_merge (r : Registry Rule) {a b whole : Compiled}
    (hsizes : a.sizes ∪ b.sizes = whole.sizes) (hcolors : a.colors ∪ b.colors = whole.colors)
    (hsheet : a.sheet ∪ b.sheet = whole.sheet) :
    (r.merge a (some a.sheet)).merge b (some b.sheet) = r.merge whole (some whole.sheet) := by
  simp only [merge, Option.elim_some, NameMap.union_assoc, hsizes, hcolors, hsheet]

theorem buildWith_rules (r : Registry Rule) {config : Config} (vocabulary : Vocabulary)
    (h : Palette.Readable config.colors.palette.toList) :
    (r.buildWith config vocabulary Factory.rules).2.outcome = .ok () ∧
      (r.buildWith config vocabulary Factory.rules).1 =
        r.merge (Compiled.ofColors config vocabulary config.colors.expanded)
          (some (Compiled.ofColors config vocabulary config.colors.expanded).sheet) := by
  have hcompiled := Compiled.outcome_compileWith_of_readable config vocabulary h
  rw [buildWith_of_ok r Factory.rules hcompiled, commit_of_created r rfl]
  exact ⟨rfl, rfl⟩

theorem buildWith_together (r : Registry Rule) (vocabulary : Vocabulary) {a b : Config}
    (h : a.Compatible b) (ha : Palette.Readable a.colors.palette.toList)
    (hb : Palette.Readable b.colors.palette.toList) (hapart : (a.together b).Apart vocabulary) :
    let first := r.buildWith a vocabulary Factory.rules
    let second := first.1.buildWith b vocabulary Factory.rules
    let whole := r.buildWith (a.together b) vocabulary Factory.rules
    first.2.outcome = .ok () ∧ second.2.outcome = .ok () ∧ whole.2.outcome = .ok () ∧
      second.1 = whole.1 := by
  intro first second whole
  obtain ⟨hfirst, hfirstmade⟩ := buildWith_rules r vocabulary ha
  obtain ⟨hsecond, hsecondmade⟩ := buildWith_rules first.1 vocabulary hb
  obtain ⟨hwhole, hwholemade⟩ := buildWith_rules r vocabulary (Config.readable_together ha hb)
  have hleft := Config.partOf_together_left a b
  have hright := h.partOf_together_right
  have hcover (p : Producer) (hp : p ∈ (a.together b).producers) :=
    Config.mem_producers_together hp
  refine ⟨hfirst, hsecond, hwhole, ?_⟩
  rw [hsecondmade, hfirstmade, hwholemade]
  refine merge_merge r ?_ ?_ ?_
  · refine NameMap.MadeOf.union_withUnderscores ⟨fun _ hmem => hmem, fun _ => .inl fun _ _ => ?_⟩
    rw [hright.rem]
  · exact (Config.madeOf_expanded hleft hright hapart hcover).union_withUnderscores
  · exact (Config.madeOf_layers hleft hright hapart hcover).union_withUnderscores

end Registry

namespace Config

/-- A dark red and a font. -/
def reddish : Config where
  rem := 16
  colors := ⟨.disabled, .ratio 0.2, .ofList [("dark-red", "#7f0000")]⟩
  fonts := .ofList [("sans", "Helvetica")]

/-- A blue, the same dark red and another font. -/
def bluish : Config where
  rem := 16
  colors := ⟨.disabled, .ratio 0.2, .ofList [("blue", "rgb(0 0 255)"), ("dark-red", "#7f0000")]⟩
  fonts := .ofList [("mono", "Menlo")]

/-- A fixed group and two scaled ones, of which one is empty. -/
def smallVocabulary : Vocabulary where
  fixed := [[⟨"flx-i", [("flex", .number 1)]⟩]]
  scaled := [[⟨"pa-1", [("padding", 0.25)]⟩, ⟨"none", []⟩]]

theorem compatible_reddish_bluish : reddish.Compatible bluish where
  rem := rfl
  lighten := rfl
  darken := rfl
  palette name value value' h h' := by
    have hmem : (name, value) ∈ [("dark-red", "#7f0000")] :=
      Declarations.find?_eq_some_iff_mem.1 h
    obtain ⟨rfl, rfl⟩ := Prod.mk.inj (List.mem_singleton.1 hmem)
    exact Option.some.inj h'
  fonts name family family' h h' := by
    have hmem : (name, family) ∈ [("sans", "Helvetica")] :=
      Declarations.find?_eq_some_iff_mem.1 h
    have hmem' : (name, family') ∈ [("mono", "Menlo")] :=
      Declarations.find?_eq_some_iff_mem.1 h'
    simp only [List.mem_singleton, Prod.mk.injEq] at hmem hmem'
    exact absurd (hmem.1.symm.trans hmem'.1) (by decide)

end Config

theorem Registry.buildWith_reddish_bluish :
    Config.reddish.Compatible Config.bluish ∧
      Palette.Readable Config.reddish.colors.palette.toList ∧
      Palette.Readable Config.bluish.colors.palette.toList ∧
      (Config.reddish.together Config.bluish).Apart Config.smallVocabulary ∧
      ((empty.buildWith Config.reddish Config.smallVocabulary Factory.rules).1.buildWith
          Config.bluish Config.smallVocabulary Factory.rules).1 =
        (empty.buildWith (Config.reddish.together Config.bluish) Config.smallVocabulary
          Factory.rules).1 := by
  have hreddish : Palette.Readable Config.reddish.colors.palette.toList := by
    intro entry h
    obtain rfl := List.mem_singleton.1 h
    exact ⟨_, rfl⟩
  have hbluish : Palette.Readable Config.bluish.colors.palette.toList := by
    intro entry h
    have hentry : entry ∈ [("blue", "rgb(0 0 255)"), ("dark-red", "#7f0000")] := h
    simp only [List.mem_cons, List.not_mem_nil, or_false] at hentry
    rcases hentry with rfl | rfl
    · exact ⟨_, rfl⟩
    · exact ⟨_, rfl⟩
  have hapart : (Config.reddish.together Config.bluish).Apart Config.smallVocabulary := by
    decide +kernel
  obtain ⟨-, -, -, heq⟩ := buildWith_together empty Config.smallVocabulary
    Config.compatible_reddish_bluish hreddish hbluish hapart
  exact ⟨Config.compatible_reddish_bluish, hreddish, hbluish, hapart, heq⟩

end AtomicStyle
