import AtomicStyle.Config.Overrides
import AtomicStyle.Proofs.Declarations

/-!
# What overrides take and what they leave

Overrides decide each setting that they set and leave the others as they were. Their own entries
come first in a palette or a list of fonts, followed by those entries of the other configuration
whose names they do not have. Nothing else is left open, so merging again changes nothing, and
overrides that are put on top of each other come in their order (`onto_layers`).
-/

namespace AtomicStyle

variable {α : Type}

/-- What a setting becomes: what it is set to, or what it was if it is left out. -/
structure Takes (set : Option α) (old new : α) : Prop where
  of_some : ∀ a, set = some a → new = a
  of_none : set = none → new = old

theorem takes_getD (set : Option α) (old : α) : Takes set old (set.getD old) where
  of_some a h := by rw [h, Option.getD_some]
  of_none h := by rw [h, Option.getD_none]

theorem Takes.unique {set : Option α} {old new new' : α} (h : Takes set old new)
    (h' : Takes set old new') : new = new' := by
  rcases set with _ | a
  · exact (h.of_none rfl).trans (h'.of_none rfl).symm
  · exact (h.of_some a rfl).trans (h'.of_some a rfl).symm

theorem Takes.again {set : Option α} {old new : α} (h : Takes set old new) : Takes set new new :=
  ⟨h.of_some, fun _ => rfl⟩

namespace Declarations

/-- The entries that are set, if any are. -/
def entries (set : Option Declarations) : List (String × String) := set.elim [] toList

/-- The entries of a list whose names none of `others` has. -/
def unnamed (others list : List (String × String)) : List (String × String) :=
  list.filter fun entry => entry.1 ∉ others.map Prod.fst

section Unnamed

variable (others list : List (String × String))

theorem unnamed_append (list' : List (String × String)) :
    unnamed others (list ++ list') = unnamed others list ++ unnamed others list' :=
  List.filter_append list list'

theorem unnamed_self : unnamed list list = [] := by
  rw [unnamed, List.filter_eq_nil_iff]
  intro entry hentry
  simp [List.mem_map_of_mem hentry]

theorem unnamed_unnamed (others' : List (String × String)) :
    unnamed others (unnamed others' list) = unnamed (others ++ others') list := by
  rw [unnamed, unnamed, unnamed, List.filter_filter]
  refine List.filter_congr fun entry _ => ?_
  simp only [List.map_append, List.mem_append, not_or, Bool.decide_and]

/-- Entries that were put in front leave the same behind them when they are put in front again. -/
theorem unnamed_append_unnamed : unnamed others (others ++ unnamed others list) =
    unnamed others list := by
  have hidem : unnamed others (unnamed others list) = unnamed others list := by
    rw [unnamed, unnamed, List.filter_filter]
    exact List.filter_congr fun entry _ => Bool.and_self _
  rw [unnamed_append, unnamed_self, List.nil_append, hidem]

end Unnamed

theorem toList_override (set : Option Declarations) (others : Declarations) :
    (override set others).toList = entries set ++ unnamed (entries set) others.toList := by
  have hentries : (set.getD ∅).toList = entries set := by
    rcases set with _ | ds <;> rfl
  rw [override, toList_orElse, unnamed, hentries, List.append_cancel_left_eq]
  refine List.filter_congr fun entry _ => ?_
  rw [Bool.eq_iff_iff, Bool.not_eq_true', Bool.eq_false_iff, decide_eq_true_eq, ne_eq, declares_iff,
    hentries]

end Declarations

namespace Overrides

open Declarations

/-- The adjustment that is set, which it need not be where other colour settings are. -/
def lighten? (o : Overrides) : Option Adjustment := o.colors.bind ColorOverrides.lighten

def darken? (o : Overrides) : Option Adjustment := o.colors.bind ColorOverrides.darken

def palette? (o : Overrides) : Option Declarations := o.colors.bind ColorOverrides.palette

/-- A configuration that has the settings of overrides, and those of `d` where they set nothing. -/
structure Merges (o : Overrides) (d merged : Config) : Prop where
  rem : Takes o.rem d.rem merged.rem
  lighten : Takes o.lighten? d.colors.lighten merged.colors.lighten
  darken : Takes o.darken? d.colors.darken merged.colors.darken
  palette : merged.colors.palette.toList =
    entries o.palette? ++ unnamed (entries o.palette?) d.colors.palette.toList
  fonts : merged.fonts.toList = entries o.fonts ++ unnamed (entries o.fonts) d.fonts.toList

variable {o : Overrides} {d merged merged' : Config}

theorem Merges.unique (h : o.Merges d merged) (h' : o.Merges d merged') : merged = merged' := by
  obtain ⟨rem, ⟨lighten, darken, palette⟩, fonts⟩ := merged
  obtain ⟨rem', ⟨lighten', darken', palette'⟩, fonts'⟩ := merged'
  obtain rfl : rem = rem' := h.rem.unique h'.rem
  obtain rfl : lighten = lighten' := h.lighten.unique h'.lighten
  obtain rfl : darken = darken' := h.darken.unique h'.darken
  obtain rfl := eq_of_toList_eq (h.palette.trans h'.palette.symm)
  obtain rfl := eq_of_toList_eq (h.fonts.trans h'.fonts.symm)
  rfl

/-- A merged configuration is what the same overrides make of it. -/
theorem Merges.again (h : o.Merges d merged) : o.Merges merged merged where
  rem := h.rem.again
  lighten := h.lighten.again
  darken := h.darken.again
  palette := by rw [h.palette, unnamed_append_unnamed]
  fonts := by rw [h.fonts, unnamed_append_unnamed]

/-- Colour settings that are left out set nothing. -/
theorem getD_colors (o : Overrides) : o.colors.getD {} = ⟨o.lighten?, o.darken?, o.palette?⟩ := by
  obtain ⟨rem, colors, fonts⟩ := o
  rcases colors with _ | colors <;> rfl

theorem merges_onto (o : Overrides) (d : Config) : o.Merges d (o.onto d) := by
  have hcolors : (o.onto d).colors =
      ColorOverrides.onto ⟨o.lighten?, o.darken?, o.palette?⟩ d.colors := by
    rw [onto, getD_colors]
  exact
    { rem := takes_getD o.rem d.rem
      lighten := by
        rw [hcolors]
        exact takes_getD o.lighten? d.colors.lighten
      darken := by
        rw [hcolors]
        exact takes_getD o.darken? d.colors.darken
      palette := by
        rw [hcolors]
        exact toList_override o.palette? d.colors.palette
      fonts := toList_override o.fonts d.fonts }

theorem onto_layers (o under : Overrides) (d : Config) :
    (∀ merged, o.Merges d merged ↔ merged = o.onto d) ∧
      ((o.onto d).colors.palette.toList.map Prod.fst).Nodup ∧
      ((o.onto d).fonts.toList.map Prod.fst).Nodup ∧
      o.onto (o.onto d) = o.onto d ∧
      (o.onto (under.onto d)).colors.palette.toList = entries o.palette? ++
        unnamed (entries o.palette?) (entries under.palette?) ++
          unnamed (entries o.palette? ++ entries under.palette?) d.colors.palette.toList ∧
      (o.onto (under.onto d)).fonts.toList = entries o.fonts ++
        unnamed (entries o.fonts) (entries under.fonts) ++
          unnamed (entries o.fonts ++ entries under.fonts) d.fonts.toList := by
  have honto := merges_onto o d
  have htop := merges_onto o (under.onto d)
  have hunder := merges_onto under d
  refine ⟨fun merged => ⟨fun h => h.unique honto, ?_⟩, (o.onto d).colors.palette.nodup,
    (o.onto d).fonts.nodup, ?_, ?_, ?_⟩
  · rintro rfl
    exact honto
  · exact (merges_onto o (o.onto d)).unique honto.again
  · rw [htop.palette, hunder.palette, unnamed_append, unnamed_unnamed, List.append_assoc]
  · rw [htop.fonts, hunder.fonts, unnamed_append, unnamed_unnamed, List.append_assoc]

/-- A name of the other configuration that is set keeps the place where it is set. -/
example :
    let palette := Declarations.ofList [("white", "#fafafa"), ("brand", "#369")]
    let o : Overrides := { colors := some { palette := some palette } }
    (o.onto Config.new).colors.palette.toList =
      [("white", "#fafafa"), ("brand", "#369"), ("black", "#000000")] := rfl

end Overrides

end AtomicStyle
