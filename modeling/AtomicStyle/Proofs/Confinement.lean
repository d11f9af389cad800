import AtomicStyle.Proofs.Names

/-!
# What a setting can change

Two configurations that differ in one setting only compile to results that differ only where that
setting has a say (`confined_compileWith`): fonts under `ff-` and `ff_`, the unit under names that
are spelled like scaled groups, and colours under names that are spelled like the rules of generated
colours. A second spelling carries a difference from one name to another, so it is all names of one
spelling that have to be kept apart from the setting.
-/

namespace AtomicStyle

/-- Only `ff-` and `ff_` are spelled `ff_`. -/
theorem eq_of_underscored_eq_ff {start : String} (h : underscored start = "ff_") :
    start = "ff-" ∨ start = "ff_" := by
  have hletter {c : Char} (hc : (if c = '-' then '_' else c) = 'f') : c = 'f' := by
    split_ifs at hc with hhyphen
    · exact absurd hc (by decide)
    · exact hc
  have hchars : (start.toList.map fun c => if c = '-' then '_' else c) = ['f', 'f', '_'] := by
    rw [← toList_underscored, h]
    rfl
  simp only [List.map_eq_cons_iff, List.map_eq_nil_iff] at hchars
  obtain ⟨c, _, hstart, hc, d, _, rfl, hd, e, _, rfl, he, rfl⟩ := hchars
  obtain rfl := hletter hc
  obtain rfl := hletter hd
  rw [← String.ofList_toList (s := start), hstart]
  split_ifs at he with hhyphen
  · subst hhyphen
    exact .inl rfl
  · subst he
    exact .inr rfl

namespace Compiled

variable {a b : Config} {vocabulary : Vocabulary} {colors colors' : NameMap String} {name : String}

/-- Where fonts, colours and scaled groups say the same of all names of a spelling, sheets hold the
same. -/
theorem getElem?_sheet_congr
    (hfonts : ∀ other, underscored other = underscored name →
      Sheet.fontReading? a.fonts other = Sheet.fontReading? b.fonts other)
    (hcolors : ∀ other, underscored other = underscored name →
      Sheet.colorReading? colors other = Sheet.colorReading? colors' other)
    (hscaled : ∀ other, underscored other = underscored name →
      Sheet.scaledReading? vocabulary.scaled a.rem other =
        Sheet.scaledReading? vocabulary.scaled b.rem other) :
    (ofColors a vocabulary colors).sheet[name]? = (ofColors b vocabulary colors').sheet[name]? := by
  refine NameMap.getElem?_withUnderscores_congr fun other hspelling => ?_
  apply Sheet.getElem?_eq_of_reading?
  rw [reading?_layers, reading?_layers, layered?, layered?, hfonts other hspelling,
    hcolors other hspelling, hscaled other hspelling]

/-- Names that begin neither with `ff-` nor with `ff_` have no spelling in common with a font. -/
theorem fontReading?_eq_none_of_begins (fonts : Declarations)
    (hname : ∀ rest, name ≠ "ff-" ++ rest ∧ name ≠ "ff_" ++ rest) {other : String}
    (hspelling : underscored other = underscored name) : Sheet.fontReading? fonts other = none := by
  refine Sheet.fontReading?_eq_none fun font _ hfont => ?_
  have hff : underscored name = "ff_" ++ underscored font := by
    rw [← hspelling, ← hfont, underscored_eq_append_iff]
    exact ⟨"ff-", font, rfl, rfl, rfl⟩
  obtain ⟨start, rest, hrest, hstart, -⟩ := underscored_eq_append_iff.1 hff
  rcases eq_of_underscored_eq_ff hstart with rfl | rfl
  · exact (hname rest).1 hrest
  · exact (hname rest).2 hrest

theorem scaledReading?_eq_none_of_spelling {tables : List (Table Float)}
    (hname : ∀ group ∈ Table.names tables, underscored group ≠ underscored name) {other : String}
    (hspelling : underscored other = underscored name) (rem : Float) :
    Sheet.scaledReading? tables rem other = none :=
  Sheet.scaledReading?_eq_none (fun hgroup => hname other hgroup hspelling) rem

theorem colorReading?_eq_none_of_spelling
    (hname : ∀ color ∈ colors, ∀ written ∈ Sheet.colorNames color,
      underscored written ≠ underscored name) {other : String}
    (hspelling : underscored other = underscored name) : Sheet.colorReading? colors other = none :=
  Sheet.colorReading?_eq_none fun color hcolor hwritten =>
    hname color hcolor other hwritten hspelling

theorem confined_compileWith (vocabulary : Vocabulary) {a b : Config} {x y : Compiled}
    (hx : (a.compileWith vocabulary).outcome = .ok x)
    (hy : (b.compileWith vocabulary).outcome = .ok y) :
    (a.rem = b.rem → a.colors = b.colors →
      x.sizes = y.sizes ∧ x.colors = y.colors ∧
        ∀ name, (∀ rest, name ≠ "ff-" ++ rest ∧ name ≠ "ff_" ++ rest) →
          x.sheet[name]? = y.sheet[name]?) ∧
      (a.colors = b.colors → a.fonts = b.fonts →
        x.colors = y.colors ∧ (∀ name, name ∈ x.sizes ↔ name ∈ y.sizes) ∧
          (∀ name, name ∈ x.colors ↔ name ∈ y.colors) ∧
          (∀ name, name ∈ x.sheet ↔ name ∈ y.sheet) ∧
          ∀ name, (∀ group ∈ Table.names vocabulary.scaled, underscored group ≠ underscored name) →
            x.sheet[name]? = y.sheet[name]?) ∧
      (a.rem = b.rem → a.fonts = b.fonts →
        x.sizes = y.sizes ∧ ∃ colors colors', a.colors.expand.outcome = .ok colors ∧
          b.colors.expand.outcome = .ok colors' ∧
          ∀ name, (∀ color, color ∈ colors ∨ color ∈ colors' →
              ∀ written ∈ Sheet.colorNames color, underscored written ≠ underscored name) →
            x.sheet[name]? = y.sheet[name]?) := by
  obtain ⟨colors, hcolors, rfl⟩ := exists_eq_ofColors hx
  obtain ⟨colors', hcolors', rfl⟩ := exists_eq_ofColors hy
  refine ⟨fun hrem hsame => ?_, fun hsame hfonts => ?_, fun hrem hfonts => ?_⟩
  · rw [hsame, hcolors', Except.ok.injEq] at hcolors
    subst hcolors
    refine ⟨by rw [ofColors, ofColors, hrem], rfl, fun name hname => ?_⟩
    refine getElem?_sheet_congr (fun other hspelling => ?_) (fun _ _ => rfl) fun _ _ => by rw [hrem]
    rw [fontReading?_eq_none_of_begins a.fonts hname hspelling,
      fontReading?_eq_none_of_begins b.fonts hname hspelling]
  · rw [hsame, hcolors', Except.ok.injEq] at hcolors
    subst hcolors
    refine ⟨rfl, ?_, fun _ => Iff.rfl, ?_, fun name hname => ?_⟩
    · refine NameMap.mem_withUnderscores_congr fun name => ?_
      rw [Sheet.mem_scaledSizes, Sheet.mem_scaledSizes]
    · refine NameMap.mem_withUnderscores_congr fun name => ?_
      rw [mem_layers, mem_layers, hfonts]
    · refine getElem?_sheet_congr (fun _ _ => by rw [hfonts]) (fun _ _ => rfl)
        fun other hspelling => ?_
      rw [scaledReading?_eq_none_of_spelling hname hspelling,
        scaledReading?_eq_none_of_spelling hname hspelling]
  · refine ⟨by rw [ofColors, ofColors, hrem], colors, colors', hcolors, hcolors',
      fun name hname => ?_⟩
    refine getElem?_sheet_congr (fun _ _ => by rw [hfonts]) (fun other hspelling => ?_)
      fun _ _ => by rw [hrem]
    rw [colorReading?_eq_none_of_spelling (fun color h => hname color (.inl h)) hspelling,
      colorReading?_eq_none_of_spelling (fun color h => hname color (.inr h)) hspelling]

/-- The standard configuration beside three that each change one setting of it. -/
theorem confined_compileWith_new :
    ∃ compiled fonts unit colors,
      (Config.new.compileWith Vocabulary.standard).outcome = .ok compiled ∧
      ((Config.new.font "sans" "Helvetica").compileWith Vocabulary.standard).outcome = .ok fonts ∧
      ((Config.new.setRem (0 / 0)).compileWith Vocabulary.standard).outcome = .ok unit ∧
      ((Config.new.setLighten .disabled).compileWith Vocabulary.standard).outcome = .ok colors ∧
      compiled.colors = fonts.colors ∧ compiled.sheet["white"]? = unit.sheet["white"]? ∧
      compiled.sizes = colors.sizes := by
  have hread := ColorSettings.readable_standard
  obtain ⟨_, -, hcompiled⟩ := exists_outcome_compileWith Config.new Vocabulary.standard hread
  obtain ⟨_, -, hfonts⟩ :=
    exists_outcome_compileWith (Config.new.font "sans" "Helvetica") Vocabulary.standard hread
  obtain ⟨_, -, hunit⟩ :=
    exists_outcome_compileWith (Config.new.setRem (0 / 0)) Vocabulary.standard hread
  obtain ⟨_, -, hcolors⟩ :=
    exists_outcome_compileWith (Config.new.setLighten .disabled) Vocabulary.standard hread
  refine ⟨_, _, _, _, hcompiled, hfonts, hunit, hcolors, ?_, ?_, ?_⟩
  · exact ((confined_compileWith Vocabulary.standard hcompiled hfonts).1 rfl rfl).2.1
  · obtain ⟨-, -, -, -, hsheet⟩ :=
      (confined_compileWith Vocabulary.standard hcompiled hunit).2.1 rfl rfl
    exact hsheet "white" (by decide +kernel)
  · exact ((confined_compileWith Vocabulary.standard hcompiled hcolors).2.2 rfl rfl).1

end Compiled

end AtomicStyle
