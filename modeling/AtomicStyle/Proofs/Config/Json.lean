import AtomicStyle.Config.Json
import AtomicStyle.Proofs.Declarations
import AtomicStyle.Proofs.Json.Draft

/-!
# Written configurations read back

A configuration that is written as a document is read as settings that hold all of it but the
numbers that are not finite (`ofJson_render_toJson`), so put onto another configuration they make it
again, the other one filling up what could not be written and what the first does not name
(`ofJson_toJson_onto`).
-/

namespace AtomicStyle

/-- The digits that are written for the number are read as the number. -/
def Json.Restores (x : Float) : Prop :=
  ∃ n, readNumber (Decimal.document.chars x) = .ok (n, []) ∧ n.toFloat = x

namespace Adjustment

/-- The adjustment as far as a document can hold it. -/
def finite? : Adjustment → Option Adjustment
  | ratio share => if share.isFinite then some (ratio share) else none
  | disabled => some disabled

/-- The adjustment, or another one where its share is not finite. -/
def orElse (a other : Adjustment) : Adjustment :=
  match a with
  | ratio share => if share.isFinite then ratio share else other
  | disabled => disabled

theorem getD_finite? (a other : Adjustment) : a.finite?.getD other = a.orElse other := by
  rcases a with share | _
  · by_cases hfinite : share.isFinite
    · simp [finite?, orElse, hfinite]
    · simp [finite?, orElse, hfinite]
  · rfl

theorem orElse_eq_self {a other : Adjustment} (h : ∀ x ∈ a.share?, x.isFinite) :
    a.orElse other = a := by
  rcases a with share | _
  · exact if_pos (h share rfl)
  · rfl

end Adjustment

namespace Config

/-- The numbers of a configuration: its unit, and the shares that are made. -/
def numbers (c : Config) : List Float :=
  c.rem :: (c.colors.lighten.share?.toList ++ c.colors.darken.share?.toList)

def Finite (c : Config) : Prop := ∀ x ∈ c.numbers, x.isFinite

theorem rem_mem_numbers (c : Config) : c.rem ∈ c.numbers := List.mem_cons_self

theorem mem_numbers_of_lighten {c : Config} {x : Float} (h : x ∈ c.colors.lighten.share?) :
    x ∈ c.numbers := by
  simp [numbers, Option.mem_def.1 h]

theorem mem_numbers_of_darken {c : Config} {x : Float} (h : x ∈ c.colors.darken.share?) :
    x ∈ c.numbers := by
  simp [numbers, Option.mem_def.1 h]

/-- The settings that a document of the configuration holds. -/
def settings (c : Config) : Overrides where
  rem := if c.rem.isFinite then some c.rem else none
  colors := some
    { lighten := c.colors.lighten.finite?
      darken := c.colors.darken.finite?
      palette := some c.colors.palette }
  fonts := some c.fonts

/-- Every name of the other configuration is a name of this one. -/
def Names (c d : Config) : Prop :=
  (∀ name, d.colors.palette.declares name → c.colors.palette.declares name) ∧
    ∀ name, d.fonts.declares name → c.fonts.declares name

/-- The configurations that can be made: the standard one, settings filled up from it, and what the
builder functions make of a configuration. -/
inductive Made : Config → Prop
  | new : Made new
  | ofOverrides (o : Overrides) : Made o.toConfig
  | setRem {c : Config} (h : Made c) (rem : Float) : Made (c.setRem rem)
  | setLighten {c : Config} (h : Made c) (lighten : Adjustment) : Made (c.setLighten lighten)
  | setDarken {c : Config} (h : Made c) (darken : Adjustment) : Made (c.setDarken darken)
  | color {c : Config} (h : Made c) (name value : String) : Made (c.color name value)
  | font {c : Config} (h : Made c) (name family : String) : Made (c.font name family)

/-- A configuration that is `c` where `c` can be written, and `d` where it cannot, with the names
that `c` does not have from `d`. -/
structure Fills (c d filled : Config) : Prop where
  rem : filled.rem = if c.rem.isFinite then c.rem else d.rem
  lighten : filled.colors.lighten = c.colors.lighten.orElse d.colors.lighten
  darken : filled.colors.darken = c.colors.darken.orElse d.colors.darken
  palette : filled.colors.palette.toList = c.colors.palette.toList ++
    d.colors.palette.toList.filter fun entry => !c.colors.palette.declares entry.1
  fonts : filled.fonts.toList = c.fonts.toList ++
    d.fonts.toList.filter fun entry => !c.fonts.declares entry.1

end Config

namespace Json

section Parts

variable (depth : Nat)

theorem exists_rereads_of_restores {x : Float} (hfinite : x.isFinite) (h : Restores x) :
    ∃ n, (Value.number (.float x)).Rereads depth (.number n) ∧ n.toFloat = x := by
  obtain ⟨n, hread, hn⟩ := h
  refine ⟨n, .number ?_, hn⟩
  rwa [Number.chars, if_pos hfinite]

theorem exists_rereads_number {x : Float} (h : x.isFinite → Restores x) :
    ∃ d, (Value.number (.float x)).Rereads depth d ∧
      fieldReader.number d = .ok (if x.isFinite then some x else none) := by
  by_cases hfinite : x.isFinite
  · obtain ⟨n, hrereads, hn⟩ := exists_rereads_of_restores depth hfinite (h hfinite)
    refine ⟨.number n, hrereads, ?_⟩
    rw [if_pos hfinite, ← hn]
    rfl
  · refine ⟨.null, .notFinite (Bool.eq_false_iff.2 hfinite), ?_⟩
    rw [if_neg hfinite]
    rfl

theorem exists_rereads_adjustment {a : Adjustment}
    (h : ∀ x ∈ a.share?, x.isFinite → Restores x) :
    ∃ d, a.toJson.Rereads depth d ∧ fieldReader.adjustment d = .ok a.finite? := by
  rcases a with x | _
  · by_cases hfinite : x.isFinite
    · obtain ⟨n, hrereads, hn⟩ := exists_rereads_of_restores depth hfinite (h x rfl hfinite)
      refine ⟨.number n, hrereads, ?_⟩
      rw [Adjustment.finite?, if_pos hfinite, ← hn]
      rfl
    · refine ⟨.null, .notFinite (Bool.eq_false_iff.2 hfinite), ?_⟩
      rw [Adjustment.finite?, if_neg hfinite]
      rfl
  · exact ⟨.bool false, .bool false, rfl⟩

theorem membersReread_texts (entries : List (String × String)) :
    MembersReread depth (entries.map fun entry => (entry.1, .text entry.2))
      (entries.map fun entry => (entry.1, .text entry.2)) := by
  induction entries with
  | nil => exact .nil
  | cons entry entries ih => exact .cons entry.1 (.text entry.2) ih

theorem readDeclarations_texts : ∀ (entries : List (String × String)) (ds : Declarations),
    readDeclarations (entries.map fun entry => (entry.1, .text entry.2)) ds =
      .ok (ds.insertAll entries)
  | [], _ => rfl
  | (name, text) :: entries, ds => readDeclarations_texts entries (ds.insert name text)

theorem exists_rereads_declarations (ds : Declarations) :
    ∃ d, ds.toJson.Rereads (depth + 1) d ∧ fieldReader.declarations d = .ok (some ds) := by
  refine ⟨_, .object (membersReread_texts depth ds.toList), ?_⟩
  simp only [fieldReader, readDeclarations_texts, Declarations.insertAll_toList]
  rfl

theorem exists_rereads_colors {c : ColorSettings}
    (hlighten : ∀ x ∈ c.lighten.share?, x.isFinite → Restores x)
    (hdarken : ∀ x ∈ c.darken.share?, x.isFinite → Restores x) :
    ∃ d, c.toJson.Rereads (depth + 2) d ∧
      readColors d = .ok (some ⟨c.lighten.finite?, c.darken.finite?, some c.palette⟩) := by
  obtain ⟨lighten, hlighten, hlighten'⟩ := exists_rereads_adjustment (depth + 1) hlighten
  obtain ⟨darken, hdarken, hdarken'⟩ := exists_rereads_adjustment (depth + 1) hdarken
  obtain ⟨palette, hpalette, hpalette'⟩ := exists_rereads_declarations depth c.palette
  refine ⟨_, .object (.cons _ hlighten (.cons _ hdarken (.cons _ hpalette .nil))), ?_⟩
  simp only [readColors, readRecord, readFields, ColorField.ofName?, ColorOverrides.read,
    hlighten', hdarken', hpalette']
  rfl

theorem exists_rereads_config {c : Config} (h : ∀ x ∈ c.numbers, x.isFinite → Restores x) :
    ∃ d, c.toJson.Rereads (depth + 3) d ∧ readOverrides d = .ok c.settings := by
  obtain ⟨rem, hrem, hrem'⟩ := exists_rereads_number (depth + 2) (h c.rem c.rem_mem_numbers)
  obtain ⟨colors, hcolors, hcolors'⟩ := exists_rereads_colors depth
    (fun x hx => h x (Config.mem_numbers_of_lighten hx))
    (fun x hx => h x (Config.mem_numbers_of_darken hx))
  obtain ⟨fonts, hfonts, hfonts'⟩ := exists_rereads_declarations (depth + 1) c.fonts
  refine ⟨_, .object (.cons _ hrem (.cons _ hcolors (.cons _ hfonts .nil))), ?_⟩
  simp only [readOverrides, readRecord, readFields, Field.ofName?, Overrides.read, hrem', hcolors',
    hfonts']
  rfl

end Parts

end Json

theorem Overrides.ofJson_render_toJson {c : Config}
    (h : ∀ x ∈ c.numbers, x.isFinite → Json.Restores x) :
    Overrides.ofJson c.toJson.render = .ok c.settings := by
  obtain ⟨d, hrereads, hread⟩ := Json.exists_rereads_config 124 h
  simp only [Overrides.ofJson, Json.read_render hrereads, hread]
  rfl

namespace Config

theorem fills_settings_onto (c d : Config) : c.Fills d (c.settings.onto d) where
  rem := by
    by_cases hfinite : c.rem.isFinite
    · simp [Overrides.onto, settings, hfinite]
    · simp [Overrides.onto, settings, hfinite]
  lighten := Adjustment.getD_finite? c.colors.lighten d.colors.lighten
  darken := Adjustment.getD_finite? c.colors.darken d.colors.darken
  palette := Declarations.toList_orElse c.colors.palette d.colors.palette
  fonts := Declarations.toList_orElse c.fonts d.fonts

theorem names_of_made {c : Config} (h : c.Made) : c.Names Config.new := by
  induction h with
  | new => exact ⟨fun _ => id, fun _ => id⟩
  | ofOverrides o =>
    exact ⟨fun _ => Declarations.declares_orElse_right, fun _ => Declarations.declares_orElse_right⟩
  | setRem _ _ ih => exact ih
  | setLighten _ _ ih => exact ih
  | setDarken _ _ ih => exact ih
  | color _ _ _ ih =>
    exact ⟨fun name hname => Declarations.declares_insert.2 (.inr (ih.1 name hname)), ih.2⟩
  | font _ _ _ ih =>
    exact ⟨ih.1, fun name hname => Declarations.declares_insert.2 (.inr (ih.2 name hname))⟩

theorem Fills.eq_of_names {c d filled : Config} (h : c.Fills d filled) (hfinite : c.Finite)
    (hnames : c.Names d) : filled = c := by
  obtain ⟨hrem, hlighten, hdarken, hpalette, hfonts⟩ := h
  rw [if_pos (hfinite c.rem c.rem_mem_numbers)] at hrem
  rw [Adjustment.orElse_eq_self fun x hx => hfinite x (mem_numbers_of_lighten hx)] at hlighten
  rw [Adjustment.orElse_eq_self fun x hx => hfinite x (mem_numbers_of_darken hx)] at hdarken
  rw [Declarations.filter_not_declares_eq_nil hnames.1, List.append_nil] at hpalette
  rw [Declarations.filter_not_declares_eq_nil hnames.2, List.append_nil] at hfonts
  obtain ⟨rem, ⟨lighten, darken, palette⟩, fonts⟩ := filled
  obtain ⟨rem', ⟨lighten', darken', palette'⟩, fonts'⟩ := c
  obtain rfl : rem = rem' := hrem
  obtain rfl : lighten = lighten' := hlighten
  obtain rfl : darken = darken' := hdarken
  obtain rfl := Declarations.eq_of_toList_eq hpalette
  obtain rfl := Declarations.eq_of_toList_eq hfonts
  rfl

/-- Nothing is filled up if all numbers are finite and the other configuration has no names of its
own, and the standard one has none that a configuration made from it would lack. -/
theorem ofJson_toJson_onto (c d : Config) (h : ∀ x ∈ c.numbers, x.isFinite → Json.Restores x) :
    ∃ o, Overrides.ofJson c.toJson.render = .ok o ∧
      c.Fills d (o.onto d) ∧
      (c.Finite → c.Names d → o.onto d = c) ∧
      (c.Made → c.Names Config.new ∧ (c.Finite → o.toConfig = c)) := by
  have hfills := fills_settings_onto c
  refine ⟨c.settings, Overrides.ofJson_render_toJson h, hfills d, (hfills d).eq_of_names,
    fun hmade => ⟨names_of_made hmade, fun hfinite => ?_⟩⟩
  exact (hfills Config.new).eq_of_names hfinite (names_of_made hmade)

/-- A colour whose name has to be escaped, no darker variants, and a unit of ten. -/
def quoted : Config := ((new.setRem 10).setDarken .disabled).color "say \"é\"\n" "#369"

theorem ofJson_toJson_quoted :
    (∀ x ∈ quoted.numbers, x.isFinite → Json.Restores x) ∧ quoted.Made ∧ quoted.Finite ∧
      ∃ o, Overrides.ofJson quoted.toJson.render = .ok o ∧ quoted.Fills new (o.onto new) ∧
        o.toConfig = quoted := by
  have hnumbers : quoted.numbers = [10, 0.2] := rfl
  have hrestores : ∀ x ∈ quoted.numbers, x.isFinite → Json.Restores x := by
    intro x hx _
    rw [hnumbers, List.mem_pair] at hx
    rcases hx with rfl | rfl
    · exact ⟨.float 10, rfl, rfl⟩
    · exact ⟨.float 0.2, rfl, rfl⟩
  have hfinite : quoted.Finite := by
    intro x hx
    rw [hnumbers, List.mem_pair] at hx
    rcases hx with rfl | rfl <;> rfl
  have hmade : quoted.Made := ((Made.new.setRem 10).setDarken .disabled).color _ _
  obtain ⟨o, hread, hfills, -, hself⟩ := ofJson_toJson_onto quoted new hrestores
  exact ⟨hrestores, hmade, hfinite, o, hread, hfills, (hself hmade).2 hfinite⟩

end Config

end AtomicStyle
