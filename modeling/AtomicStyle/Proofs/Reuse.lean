import AtomicStyle.Proofs.Color.Written
import AtomicStyle.Proofs.Variants

/-!
# Generated colours are colours

Whatever a palette generates is the text of a colour again: a lighter or darker variant is read with
the channels it was written with, and a translucent one with those of the colour it is a variant of.
So a palette that takes its texts from what another palette generates expands (`expand_again`).
-/

namespace AtomicStyle

namespace Palette

/-- What a variant of a colour may be read as once it is written. -/
def Variant.ReadAs (variant : Variant) (base read : Color) : Prop :=
  match variant with
  | itself => read = base
  | lighter share =>
    read = .opaqueOf (base.lighten share).red (base.lighten share).green (base.lighten share).blue
  | darker share =>
    read = .opaqueOf (base.darken share).red (base.darken share).green (base.darken share).blue
  | translucent _ => read.red = base.red ∧ read.green = base.green ∧ read.blue = base.blue

variable {settings : ColorSettings} {text : String} {base : Color}

theorem exists_parse_textOf {variant : Variant} (hbase : Color.parse text = .ok base)
    (hasked : variant.Asked settings) :
    ∃ read, Color.parse (variant.textOf text base) = .ok read ∧ variant.ReadAs base read := by
  cases variant with
  | itself => exact ⟨base, hbase, rfl⟩
  | lighter share => exact ⟨_, Color.parse_hex (base.lighten share), rfl⟩
  | darker share => exact ⟨_, Color.parse_hex (base.darken share), rfl⟩
  | translucent percent =>
    obtain ⟨alpha, hread⟩ :=
      Color.exists_parse_rgba (base.withAlpha (Float.ofNat percent / 100))
    rw [rgba_withAlpha text base hasked] at hread
    exact ⟨_, hread, rfl, rfl, rfl⟩

theorem Generates.exists_parse {entry : String × String} {name value : String}
    (h : Generates settings entry name value) : ∃ read, Color.parse value = .ok read := by
  obtain ⟨base, hbase, variant, hasked, -, rfl⟩ := h
  obtain ⟨read, hread, -⟩ := exists_parse_textOf hbase hasked
  exact ⟨read, hread⟩

end Palette

namespace ColorSettings

open Palette

theorem exists_generates_of_expanded {settings : ColorSettings}
    (h : Readable settings.palette.toList) {name value : String}
    (hvalue : settings.expanded[name]? = some value) :
    ∃ entry ∈ settings.palette.toList, Generates settings entry name value := by
  obtain ⟨before, entry, after, heq, hgenerates, -⟩ := (getElem?_expanded_eq_some_iff h).1 hvalue
  exact ⟨entry, by simp [heq], hgenerates⟩

theorem expand_again (settings : ColorSettings) (h : Readable settings.palette.toList) :
    (∀ c : Color, Color.parse c.hex = .ok (.opaqueOf c.red c.green c.blue)) ∧
      ∃ colors, settings.expand.outcome = .ok colors ∧
        (∀ name value : String, colors[name]? = some value →
          ∃ entry ∈ settings.palette.toList, ∃ base, Color.parse entry.2 = .ok base ∧
            ∃ variant : Variant, variant.Asked settings ∧ variant.nameOf entry.1 = name ∧
              variant.textOf entry.2 base = value ∧
              ∃ read, Color.parse value = .ok read ∧ variant.ReadAs base read) ∧
        ∀ other : ColorSettings,
          (∀ entry ∈ other.palette.toList,
            (∃ name : String, colors[name]? = some entry.2) ∨
              ∃ base, Color.parse entry.2 = .ok base) →
          ∃ more, other.expand.outcome = .ok more := by
  refine ⟨Color.parse_hex, settings.expanded, outcome_expand_of_readable h, ?_, ?_⟩
  · intro name value hvalue
    obtain ⟨entry, hentry, base, hbase, variant, hasked, hname, rfl⟩ :=
      exists_generates_of_expanded h hvalue
    exact ⟨entry, hentry, base, hbase, variant, hasked, hname, rfl,
      exists_parse_textOf hbase hasked⟩
  · intro other hother
    refine exists_outcome_expand fun entry hentry => ?_
    rcases hother entry hentry with ⟨name, hvalue⟩ | hcolor
    · obtain ⟨source, -, hgenerates⟩ := exists_generates_of_expanded h hvalue
      exact hgenerates.exists_parse
    · exact hcolor

/-- Variants by a share that is no number and by one that is not finite. -/
def unbounded : ColorSettings where
  lighten := .ratio (0 / 0)
  darken := .ratio (1 / 0)
  palette := .ofList [("red", "#ff0000")]

theorem expand_again_unbounded :
    Readable unbounded.palette.toList ∧ ∃ colors, unbounded.expand.outcome = .ok colors ∧
      ∀ name value : String, colors[name]? = some value →
        ∃ read, Color.parse value = .ok read := by
  have hread : Readable unbounded.palette.toList := .cons rfl readable_nil
  obtain ⟨-, colors, hcolors, hvalues, -⟩ := expand_again unbounded hread
  refine ⟨hread, colors, hcolors, fun name value hvalue => ?_⟩
  obtain ⟨-, -, -, -, -, -, -, -, read, hparse, -⟩ := hvalues name value hvalue
  exact ⟨read, hparse⟩

end ColorSettings

end AtomicStyle
