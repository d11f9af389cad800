import AtomicStyle.Compiled
import AtomicStyle.Proofs.Expansion
import AtomicStyle.Proofs.Sheet
import AtomicStyle.Proofs.Spelling

/-!
# What a compilation holds

A compilation succeeds exactly if its palette expands, and then holds three maps with their second
spellings. Under a hyphenated name the sheet says what the highest layer with that name says; under
any other name it says what the greatest of the hyphenated names with that spelling says, and only
without such a name what the layers say (`reading?_compileWith`).

In all three maps each hyphenated name has a twin, but the twins agree only if rivals for a spelling
do (`bothSpellings_compileWith`): the colours `a-b` and `a_b` both claim `a_b_10`
(`twins_disagree`).
-/

namespace AtomicStyle

namespace Compiled

variable (config : Config) (vocabulary : Vocabulary)

/-- The result for the colours that the palette generates. -/
def ofColors (colors : NameMap String) : Compiled where
  sizes := (Sheet.scaledSizes vocabulary.scaled config.rem).withUnderscores
  colors := colors.withUnderscores
  sheet := (layers config vocabulary colors).withUnderscores

theorem outcome_compileWith :
    (config.compileWith vocabulary).outcome =
      config.colors.expand.outcome.map (ofColors config vocabulary) := by
  simp only [Config.compileWith, Run.outcome_bind, Run.leave, Except.bind, NameMap.respell]
  rcases config.colors.expand.outcome with e | colors <;> rfl

theorem exists_outcome_compileWith (h : Palette.Readable config.colors.palette.toList) :
    ∃ colors, config.colors.expand.outcome = .ok colors ∧
      (config.compileWith vocabulary).outcome = .ok (ofColors config vocabulary colors) := by
  obtain ⟨colors, hcolors⟩ := ColorSettings.exists_outcome_expand h
  refine ⟨colors, hcolors, ?_⟩
  rw [outcome_compileWith, hcolors]
  rfl

theorem outcome_compileWith_of_readable (h : Palette.Readable config.colors.palette.toList) :
    (config.compileWith vocabulary).outcome =
      .ok (ofColors config vocabulary config.colors.expanded) := by
  rw [outcome_compileWith, ColorSettings.outcome_expand_of_readable h]
  rfl

theorem outcome_compileWith_of_firstRejected {name : String} {source : ColorError}
    (h : Palette.FirstRejected config.colors.palette.toList name source) :
    (config.compileWith vocabulary).outcome = .error (.invalidColor name source) := by
  rw [outcome_compileWith, ColorSettings.outcome_expand_of_firstRejected h]
  rfl

/-- If all texts have an answer, a compilation fails exactly if one of them is no colour. -/
theorem exists_invalidColor_iff (h : Palette.Answered config.colors.palette.toList) :
    (∃ name source, (config.compileWith vocabulary).outcome =
        .error (.invalidColor name source)) ↔
      ¬ Palette.Readable config.colors.palette.toList := by
  rcases Palette.readable_or_firstRejected h with hread | ⟨name, source, hfirst⟩
  · obtain ⟨colors, -, hcompiled⟩ := exists_outcome_compileWith config vocabulary hread
    simp [hcompiled, hread]
  · obtain ⟨entry, hentry, hreject⟩ := hfirst.exists_rejected
    refine iff_of_true ⟨name, source, ?_⟩ fun hread => hread.not_rejected hentry source hreject
    exact outcome_compileWith_of_firstRejected config vocabulary hfirst

theorem exists_eq_ofColors {config : Config} {vocabulary : Vocabulary} {c : Compiled}
    (h : (config.compileWith vocabulary).outcome = .ok c) :
    ∃ colors, config.colors.expand.outcome = .ok colors ∧
      c = ofColors config vocabulary colors := by
  rw [outcome_compileWith] at h
  rcases hcolors : config.colors.expand.outcome with e | colors
  · rw [hcolors] at h
    cases h
  · rw [hcolors] at h
    cases h
    exact ⟨colors, rfl, rfl⟩

theorem eq_ofColors_expanded {config : Config} {vocabulary : Vocabulary} {c : Compiled}
    (h : (config.compileWith vocabulary).outcome = .ok c) :
    c = ofColors config vocabulary config.colors.expanded := by
  obtain ⟨colors, hcolors, rfl⟩ := exists_eq_ofColors h
  rw [ColorSettings.eq_expanded_of_outcome hcolors]

/-- What the layers say of a name: fonts before colours, colours before scaled groups, and these
before fixed ones. -/
def layered? (colors : NameMap String) (name : String) : Option Reading :=
  (Sheet.fontReading? config.fonts name).or <|
    (Sheet.colorReading? colors name).or <|
      (Sheet.scaledReading? vocabulary.scaled config.rem name).or <|
        Sheet.fixedReading? vocabulary.fixed name

theorem reading?_layers (colors : NameMap String) (name : String) :
    Sheet.reading? (layers config vocabulary colors) name =
      layered? config vocabulary colors name := by
  have hempty : Sheet.reading? ∅ name = none := by simp [Sheet.reading?]
  rw [layers, Sheet.reading?_addFonts, Sheet.reading?_addColors, Sheet.reading?_addScaled,
    Sheet.reading?_addFixed, hempty, Option.or_none, layered?]

/-- The hyphenated names of the layers that have a spelling. -/
def spelled (colors : NameMap String) (spelling : String) : Set String :=
  {name | (layered? config vocabulary colors name).isSome ∧ hyphenated name ∧
    underscored name = spelling}

theorem rivals_layers (colors : NameMap String) (spelling : String) :
    (layers config vocabulary colors).rivals spelling =
      spelled config vocabulary colors spelling := by
  ext name
  simp only [NameMap.rivals, spelled, Set.mem_ofPred_eq, Std.ExtTreeMap.mem_iff_isSome_getElem?,
    ← reading?_layers, Sheet.reading?, Option.isSome_map]

/-- What stands in the sheet under a name says what the layers say under the name it comes from. -/
theorem reading?_ofColors {colors : NameMap String} {name origin : String}
    (h : (layers config vocabulary colors).withUnderscores[name]? =
      (layers config vocabulary colors)[origin]?) :
    Sheet.reading? (ofColors config vocabulary colors).sheet name =
      layered? config vocabulary colors origin := by
  rw [← reading?_layers, Sheet.reading?, ofColors, h]
  rfl

theorem reading?_compileWith (h : Palette.Readable config.colors.palette.toList) :
    ∃ colors compiled, config.colors.expand.outcome = .ok colors ∧
      (config.compileWith vocabulary).outcome = .ok compiled ∧
      ∀ name,
        (hyphenated name →
          Sheet.reading? compiled.sheet name = layered? config vocabulary colors name) ∧
        (¬ hyphenated name →
          (∃ greatest, IsGreatest (spelled config vocabulary colors name) greatest ∧
            Sheet.reading? compiled.sheet name = layered? config vocabulary colors greatest) ∨
          (spelled config vocabulary colors name = ∅ ∧
            Sheet.reading? compiled.sheet name = layered? config vocabulary colors name)) := by
  obtain ⟨colors, hcolors, hcompiled⟩ := exists_outcome_compileWith config vocabulary h
  refine ⟨colors, ofColors config vocabulary colors, hcolors, hcompiled,
    fun name => ⟨fun hname => ?_, fun _ => ?_⟩⟩
  · apply reading?_ofColors
    exact NameMap.getElem?_withUnderscores_of_hyphenated _ hname
  · rw [← rivals_layers]
    rcases (NameMap.rivals (layers config vocabulary colors) name).eq_empty_or_nonempty with
      hempty | hrivals
    · refine .inr ⟨hempty, ?_⟩
      apply reading?_ofColors
      exact NameMap.getElem?_withUnderscores_of_rivals_eq_empty hempty
    · obtain ⟨greatest, hgreatest⟩ := NameMap.exists_isGreatest_rivals hrivals
      refine .inl ⟨greatest, hgreatest, ?_⟩
      apply reading?_ofColors
      exact NameMap.getElem?_withUnderscores_of_isGreatest hgreatest

/-- Colours that contend for names: two of them for spellings, and one is named like the background
of another. -/
def contested : Config where
  rem := 16
  colors :=
    { lighten := .ratio 0.2
      darken := .ratio 0.2
      palette := .ofList [("a-b", "#000000"), ("a_b", "#ffffff"), ("bg-a-b", "#ff0000")] }
  fonts := ∅

theorem readable_contested : Palette.Readable contested.colors.palette.toList :=
  .cons rfl (.cons rfl (.cons rfl Palette.readable_nil))

theorem reading?_contested :
    Palette.Readable contested.colors.palette.toList ∧
      ∃ compiled, (contested.compileWith ⟨[], []⟩).outcome = .ok compiled ∧
        Sheet.reading? compiled.sheet "bg-a-b" = some (.only "color" (.text "#ff0000")) := by
  obtain ⟨colors, compiled, hcolors, hcompiled, hlookup⟩ :=
    reading?_compileWith contested ⟨[], []⟩ readable_contested
  refine ⟨readable_contested, compiled, hcompiled, ?_⟩
  rw [(hlookup "bg-a-b").1 (by decide)]
  cases hcolors
  rfl

variable {config vocabulary}

theorem bothSpellings_compileWith {compiled : Compiled}
    (h : (config.compileWith vocabulary).outcome = .ok compiled) :
    NameMap.BothSpellings compiled.sizes ∧ NameMap.BothSpellings compiled.colors ∧
      NameMap.BothSpellings compiled.sheet := by
  rw [outcome_compileWith] at h
  rcases hcolors : config.colors.expand.outcome with e | colors
  · rw [hcolors] at h
    cases h
  · rw [hcolors] at h
    cases h
    exact ⟨NameMap.bothSpellings_withUnderscores _, NameMap.bothSpellings_withUnderscores _,
      NameMap.bothSpellings_withUnderscores _⟩

theorem bothSpellings_contested :
    ∃ compiled, (contested.compileWith Vocabulary.standard).outcome = .ok compiled ∧
      NameMap.BothSpellings compiled.sizes ∧ NameMap.BothSpellings compiled.colors ∧
      NameMap.BothSpellings compiled.sheet := by
  obtain ⟨compiled, h⟩ :
      ∃ compiled, (contested.compileWith Vocabulary.standard).outcome = .ok compiled := ⟨_, rfl⟩
  exact ⟨compiled, h, bothSpellings_compileWith h⟩

theorem twins_disagree :
    ∃ compiled, contested.compile.outcome = .ok compiled ∧ hyphenated "a-b-10" ∧
      compiled.colors["a-b-10"]? = some "rgba(0, 0, 0, 0.1)" ∧
      compiled.colors[underscored "a-b-10"]? = some "rgba(255, 255, 255, 0.1)" := by
  refine ⟨_, rfl, ?_, ?_, ?_⟩
  · decide
  · decide +kernel
  · decide +kernel

end Compiled

end AtomicStyle
