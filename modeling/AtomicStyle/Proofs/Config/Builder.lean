import AtomicStyle.Config.Overrides
import AtomicStyle.Proofs.Compiled

/-!
# Built configurations and overridden ones

The same settings can be given to the builder functions one after the other, or all together as
overrides. The builder starts with white and black and adds the colours after them, while overrides
put their own colours first, so the two palettes differ in their order, but they hold the same texts
under the same names. What is compiled of them is the same too, unless another colour contends with
white or black for a name (`built_agrees_with_complete`).
-/

namespace AtomicStyle

section Settings

variable (rem : Float) (lighten darken : Adjustment) (colors fonts : List (String × String))

/-- Overrides that set everything. -/
def Overrides.complete : Overrides where
  rem := some rem
  colors := some
    { lighten := some lighten
      darken := some darken
      palette := some (.ofList colors) }
  fonts := some (.ofList fonts)

namespace Config

/-- How configurations agree that hold the same, but may have white and black in other places. -/
structure Agree (a b : Config) : Prop where
  palette : ∀ name, a.colors.palette.find? name = b.colors.palette.find? name
  fonts : ∀ name, a.fonts.find? name = b.fonts.find? name
  /-- If each text has an answer, one of them fails to compile exactly if the other does. -/
  rejected_iff : Palette.Answered a.colors.palette.toList →
    ((∃ name source, a.compile.outcome = .error (.invalidColor name source)) ↔
      ∃ name source, b.compile.outcome = .error (.invalidColor name source))
  /-- If both compile, they compile to the same, unless a name of white or black is contested. -/
  compiled_eq : ∀ x y, a.compile.outcome = .ok x → b.compile.outcome = .ok y →
    Palette.Uncontested a.colors ["white", "black"] → x = y

/-- What the builder functions make of the standard configuration, with one call for each colour and
for each font. -/
def built : Config :=
  let set := ((new.setRem rem).setLighten lighten).setDarken darken
  let colored := colors.foldl (fun c entry => c.color entry.1 entry.2) set
  fonts.foldl (fun c entry => c.font entry.1 entry.2) colored

theorem foldl_color (entries : List (String × String)) (c : Config) :
    entries.foldl (fun c entry => c.color entry.1 entry.2) c =
      { c with colors := { c.colors with palette := c.colors.palette.insertAll entries } } := by
  induction entries generalizing c with
  | nil => rfl
  | cons entry entries ih => exact ih (c.color entry.1 entry.2)

theorem foldl_font (entries : List (String × String)) (c : Config) :
    entries.foldl (fun c entry => c.font entry.1 entry.2) c =
      { c with fonts := c.fonts.insertAll entries } := by
  induction entries generalizing c with
  | nil => rfl
  | cons entry entries ih => exact ih (c.font entry.1 entry.2)

theorem built_eq :
    built rem lighten darken colors fonts =
      ⟨rem, ⟨lighten, darken, ColorSettings.standard.palette.insertAll colors⟩, .ofList fonts⟩ := by
  rw [built, foldl_color, foldl_font]
  rfl

theorem toConfig_complete :
    (Overrides.complete rem lighten darken colors fonts).toConfig =
      ⟨rem, ⟨lighten, darken, (Declarations.ofList colors).orElse ColorSettings.standard.palette⟩,
        .ofList fonts⟩ := rfl

theorem rearranged_built :
    ColorSettings.Rearranged ["white", "black"] (built rem lighten darken colors fonts).colors
      (Overrides.complete rem lighten darken colors fonts).toConfig.colors := by
  have hstandard : ∀ entry ∈ ColorSettings.standard.palette.toList,
      decide (entry.1 ∉ ["white", "black"]) = false := by decide
  rw [built_eq, toConfig_complete]
  exact
    { lighten := rfl
      darken := rfl
      mem_iff := Declarations.mem_toList_congr (Declarations.find?_insertAll_eq_orElse _ colors)
      order := Declarations.filter_insertAll_eq_orElse (· ∉ ["white", "black"]) colors hstandard }

theorem built_agrees_with_complete :
    Agree (built rem lighten darken colors fonts)
      (Overrides.complete rem lighten darken colors fonts).toConfig := by
  have hmoved := rearranged_built rem lighten darken colors fonts
  have hbuilt := built_eq rem lighten darken colors fonts
  exact
    { palette := by
        rw [hbuilt]
        exact Declarations.find?_insertAll_eq_orElse _ colors
      fonts := by
        rw [hbuilt]
        exact fun _ => rfl
      rejected_iff := by
        intro hanswered
        have hanswered' := hmoved.answered_iff.1 hanswered
        rw [compile, compile, Compiled.exists_invalidColor_iff _ _ hanswered,
          Compiled.exists_invalidColor_iff _ _ hanswered', hmoved.readable_iff]
      compiled_eq := by
        intro x y hx hy hsole
        rw [Compiled.eq_ofColors_expanded hx, Compiled.eq_ofColors_expanded hy,
          ← hmoved.expanded_eq hsole, hbuilt]
        rfl }

end Config

end Settings

namespace Config

/-- Colours of which one is declared twice, one has a name that another generates, and one is the
white of the standard palette with another text. -/
def brandColors : List (String × String) :=
  [("brand", "#336699"), ("white", "#fafafa"), ("brand-10", "red"), ("brand", "#369")]

def brandFonts : List (String × String) := [("sans", "Helvetica"), ("sans", "Arial")]

theorem built_agrees_with_complete_brand :
    let a := built 10 (.ratio 0.2) .disabled brandColors brandFonts
    let b := (Overrides.complete 10 (.ratio 0.2) .disabled brandColors brandFonts).toConfig
    Palette.Answered a.colors.palette.toList ∧ Palette.Uncontested a.colors ["white", "black"] ∧
      a.colors.palette.toList ≠ b.colors.palette.toList ∧
      ∃ x, a.compile.outcome = .ok x ∧ b.compile.outcome = .ok x := by
  intro a b
  have hread : Palette.Readable a.colors.palette.toList :=
    .cons rfl (.cons rfl (.cons rfl (.cons rfl Palette.readable_nil)))
  have hmoved := rearranged_built 10 (.ratio 0.2) .disabled brandColors brandFonts
  have hsole : Palette.Uncontested a.colors ["white", "black"] := by decide +kernel
  obtain ⟨_, _, hx⟩ := Compiled.exists_outcome_compileWith a Vocabulary.standard hread
  obtain ⟨_, _, hy⟩ :=
    Compiled.exists_outcome_compileWith b Vocabulary.standard (hmoved.readable_iff.1 hread)
  have hagree := built_agrees_with_complete 10 (.ratio 0.2) .disabled brandColors brandFonts
  refine ⟨hread.answered, hsole, by decide, _, hx, ?_⟩
  rw [hagree.compiled_eq _ _ hx hy hsole]
  exact hy

end Config

end AtomicStyle
