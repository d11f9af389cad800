import AtomicStyle.Proofs.Confinement

/-!
# When the order of declarations counts

The order in which colours and fonts are declared decides who holds a name that several of them
generate, and nothing else (`order_of_contested`). Fonts never contend for a name, and a palette in
which no two colours do compiles to the same in any order.
-/

namespace AtomicStyle

theorem Declarations.find?_congr_of_perm {ds others : Declarations}
    (h : ds.toList.Perm others.toList) (name : String) : ds.find? name = others.find? name := by
  ext text
  rw [find?_eq_some_iff_mem, find?_eq_some_iff_mem, h.mem_iff]

/-- At most one entry of a palette generates the name. -/
def Palette.Sole (settings : ColorSettings) (name : String) : Prop :=
  ∀ x ∈ settings.palette.toList, ∀ y ∈ settings.palette.toList,
    name ∈ familyNames settings x.1 → name ∈ familyNames settings y.1 → x = y

namespace ColorSettings

/-- Colour settings that differ in the order of their palettes at most. -/
structure Permuted (s t : ColorSettings) : Prop where
  lighten : s.lighten = t.lighten
  darken : s.darken = t.darken
  palette : s.palette.toList.Perm t.palette.toList

variable {s t : ColorSettings}

theorem Permuted.readable (h : s.Permuted t) (hread : Palette.Readable s.palette.toList) :
    Palette.Readable t.palette.toList :=
  fun entry hentry => hread entry (h.palette.mem_iff.2 hentry)

theorem Permuted.mem_expanded_iff (h : s.Permuted t) {name : String} :
    name ∈ s.expanded ↔ name ∈ t.expanded := by
  rw [expanded, expanded, NameMap.mem_ofEntries, NameMap.mem_ofEntries, List.map_flatMap,
    List.map_flatMap, Palette.generated_congr h.lighten h.darken]
  exact (h.palette.flatMap_right _).mem_iff

theorem Permuted.getElem?_expanded (h : s.Permuted t) {name : String}
    (hsole : Palette.Sole s name) : s.expanded[name]? = t.expanded[name]? := by
  have hunique : ∀ x ∈ s.palette.toList, ∀ y ∈ s.palette.toList,
      name ∈ (Palette.generated s x).map Prod.fst → name ∈ (Palette.generated s y).map Prod.fst →
        x = y := fun x hx y hy hxname hyname =>
    hsole x hx y hy (Palette.mem_familyNames_of_mem_generated hxname)
      (Palette.mem_familyNames_of_mem_generated hyname)
  rw [expanded, expanded, NameMap.getElem?_ofEntries, NameMap.getElem?_ofEntries,
    ← Palette.generated_congr h.lighten h.darken]
  ext value
  rw [lastValue_flatMap_eq_some_iff hunique, lastValue_flatMap_eq_some_iff]
  · simp only [h.palette.mem_iff]
  · intro x hx y hy
    exact hunique x (h.palette.mem_iff.2 hx) y (h.palette.mem_iff.2 hy)

end ColorSettings

namespace Config

/-- Configurations that differ in the order of their colours and fonts at most. -/
structure Permuted (a b : Config) : Prop where
  rem : a.rem = b.rem
  colors : a.colors.Permuted b.colors
  fonts : a.fonts.toList.Perm b.fonts.toList

variable {a b : Config}

theorem Permuted.ofColors_eq (h : a.Permuted b) (vocabulary : Vocabulary)
    (colors : NameMap String) :
    Compiled.ofColors a vocabulary colors = Compiled.ofColors b vocabulary colors := by
  have hfonts (name : String) : Sheet.fontReading? a.fonts name = Sheet.fontReading? b.fonts name :=
    Sheet.fontReading?_congr fun font _ => Declarations.find?_congr_of_perm h.fonts font
  have hsheet : (Compiled.ofColors a vocabulary colors).sheet =
      (Compiled.ofColors b vocabulary colors).sheet := by
    refine Std.ExtTreeMap.ext_getElem? fun name => ?_
    exact Compiled.getElem?_sheet_congr (fun other _ => hfonts other) (fun _ _ => rfl)
      fun _ _ => by rw [h.rem]
  rw [Compiled.mk.injEq]
  exact ⟨by rw [Compiled.ofColors, Compiled.ofColors, h.rem], rfl, hsheet⟩

theorem order_of_contested (vocabulary : Vocabulary) (h : a.Permuted b)
    (hread : Palette.Readable a.colors.palette.toList) :
    (∃ colors colors', a.colors.expand.outcome = .ok colors ∧
        b.colors.expand.outcome = .ok colors' ∧ (∀ name, name ∈ colors ↔ name ∈ colors') ∧
        ∀ name, Palette.Sole a.colors name → colors[name]? = colors'[name]?) ∧
      (a.colors = b.colors → ∃ compiled, (a.compileWith vocabulary).outcome = .ok compiled ∧
        (b.compileWith vocabulary).outcome = .ok compiled) ∧
      ((∀ name, Palette.Sole a.colors name) →
        ∃ compiled, (a.compileWith vocabulary).outcome = .ok compiled ∧
          (b.compileWith vocabulary).outcome = .ok compiled) := by
  have hread' := h.colors.readable hread
  have hcompile := Compiled.outcome_compileWith_of_readable a vocabulary hread
  have hcompile' := Compiled.outcome_compileWith_of_readable b vocabulary hread'
  rw [← h.ofColors_eq] at hcompile'
  refine ⟨⟨_, _, ColorSettings.outcome_expand_of_readable hread,
    ColorSettings.outcome_expand_of_readable hread', fun _ => h.colors.mem_expanded_iff,
    fun _ => h.colors.getElem?_expanded⟩, fun hcolors => ?_, fun hsole => ?_⟩
  · rw [← hcolors] at hcompile'
    exact ⟨_, hcompile, hcompile'⟩
  · have hexpanded : a.colors.expanded = b.colors.expanded :=
      Std.ExtTreeMap.ext_getElem? fun name => h.colors.getElem?_expanded (hsole name)
    rw [← hexpanded] at hcompile'
    exact ⟨_, hcompile, hcompile'⟩

/-- Two colours and two fonts. -/
def paired : Config where
  rem := 16
  colors := ⟨.ratio 0.2, .disabled, .ofList [("a-b", "#f00"), ("a_b", "blue")]⟩
  fonts := .ofList [("sans", "Helvetica"), ("mono", "Menlo")]

/-- The same two colours and two fonts the other way round. -/
def pairedBack : Config where
  rem := 16
  colors := ⟨.ratio 0.2, .disabled, .ofList [("a_b", "blue"), ("a-b", "#f00")]⟩
  fonts := .ofList [("mono", "Menlo"), ("sans", "Helvetica")]

theorem order_of_contested_paired :
    paired.Permuted pairedBack ∧ Palette.Readable paired.colors.palette.toList ∧
      (∀ name, Palette.Sole paired.colors name) ∧
      ∃ compiled, (paired.compileWith Vocabulary.standard).outcome = .ok compiled ∧
        (pairedBack.compileWith Vocabulary.standard).outcome = .ok compiled := by
  have hpermuted : paired.Permuted pairedBack := ⟨rfl, ⟨rfl, rfl, by decide⟩, by decide⟩
  have hread : Palette.Readable paired.colors.palette.toList :=
    .cons rfl (.cons rfl Palette.readable_nil)
  have hfamilies : ∀ x ∈ paired.colors.palette.toList, ∀ y ∈ paired.colors.palette.toList,
      ∀ name ∈ Palette.familyNames paired.colors x.1,
        name ∈ Palette.familyNames paired.colors y.1 → x = y := by
    decide +kernel
  have hsole (name : String) : Palette.Sole paired.colors name :=
    fun x hx y hy => hfamilies x hx y hy name
  obtain ⟨-, -, heq⟩ := order_of_contested Vocabulary.standard hpermuted hread
  exact ⟨hpermuted, hread, hsole, heq hsole⟩

end Config

end AtomicStyle
