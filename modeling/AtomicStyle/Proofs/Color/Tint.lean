import AtomicStyle.Color.Lightness
import AtomicStyle.Proofs.Decimal.Binary64

/-!
# What tinting preserves

A colour that is made lighter or darker keeps its opacity, whatever the ratio is, and stays grey if
it was grey and black if it was black: a grey has no saturation, and black no lightness to take a
share of. However often a colour is tinted, its opacity is the last one that it was given, kept
between zero and one (`tinting_keeps`).
-/

namespace AtomicStyle

/-- What becomes of a number that is kept between zero and one. -/
inductive Clamped : Float → Float → Prop
  | below {x : Float} (h : x < 0) : Clamped x 0
  | above {x : Float} (h : 1 < x) : Clamped x 1
  | within {x : Float} (hlow : 0 ≤ x) (hhigh : x ≤ 1) : Clamped x x
  | notANumber {x : Float} (h : x.isNaN) : Clamped x x

theorem clamped_clamp (x : Float) : Clamped x (clamp 0 1 x) := by
  unfold clamp
  by_cases hlow : x < 0
  · have hzero : ¬ (1 : Float) < 0 := by decide +kernel
    rw [if_pos hlow, if_neg hzero]
    exact .below hlow
  · by_cases hhigh : 1 < x
    · rw [if_neg hlow, if_pos hhigh]
      exact .above hhigh
    · rw [if_neg hlow, if_neg hhigh]
      rcases hnan : x.isNaN
      · exact .within (Binary64.le_of_not_lt hnan rfl hlow) (Binary64.le_of_not_lt rfl hnan hhigh)
      · exact .notANumber hnan

namespace Hsl

theorem beq_share (b : UInt8) : ((share b : Float) == share b) = true := by
  have hlt : b.toNat < Nat.pow 2 53 := Nat.lt_of_lt_of_le b.toNat_lt (by decide)
  have hfull : Parts.isDivisor (Parts.ofFloat (Float.ofNat 255)) := by decide +kernel
  exact Binary64.beq_self (Binary64.isNaN_div (Binary64.isNaN_ofNat hlt) hfull)

/-- Three equal shares have no saturation. -/
theorem ofShares_self {x : Float} (h : (x == x) = true) :
    ofShares x x x = ⟨whole 0, whole 0, Shade.round ((x + x) / whole 2 * whole 100)⟩ := by
  have hlarger : larger x x = x := ite_self _
  have hsmaller : smaller x x = x := ite_self _
  unfold ofShares
  simp only [hlarger, hsmaller]
  exact if_pos h

/-- Without saturation the three channels are those of the lightness. -/
theorem channels_of_saturation_zero (hue lightness : Float) :
    (Hsl.mk hue (whole 0) lightness).channels =
      (toChannel (unit lightness), toChannel (unit lightness), toChannel (unit lightness)) := by
  have hzero : ((unit (whole 0) : Float) == whole 0) = true := by decide +kernel
  exact if_pos hzero

/-- Zero has no share but zeros and what is no number, and these are all written as black. -/
theorem toChannel_of_zero (ratio : Float) :
    toChannel (unit (0 + 0 * ratio)) = 0 ∧ toChannel (unit (0 - 0 * ratio)) = 0 := by
  rcases Binary64.zero_mul_cases ratio with h | h | h
  · rw [h]
    decide +kernel
  · rw [h]
    decide +kernel
  · rw [h]
    decide +kernel

end Hsl

namespace Color

/-- The three channels are equal. -/
def IsGrey (c : Color) : Prop := c.red = c.green ∧ c.green = c.blue

/-- All channels are zero. -/
def IsBlack (c : Color) : Prop := c.red = 0 ∧ c.green = 0 ∧ c.blue = 0

theorem alpha_lighten (c : Color) (ratio : Float) : (c.lighten ratio).alpha = c.alpha := rfl

theorem alpha_darken (c : Color) (ratio : Float) : (c.darken ratio).alpha = c.alpha := rfl

/-- Another lightness leaves a grey colour grey. -/
theorem IsGrey.withLightness {c : Color} (h : c.IsGrey) (lightness : Float) :
    (c.withChannels { Hsl.ofColor c with lightness := lightness }.channels).IsGrey := by
  obtain ⟨hred, hgreen⟩ := h
  rw [Hsl.ofColor, hred, hgreen, Hsl.ofShares_self (Hsl.beq_share c.blue),
    Hsl.channels_of_saturation_zero]
  exact ⟨rfl, rfl⟩

theorem IsGrey.lighten {c : Color} (h : c.IsGrey) (ratio : Float) : (c.lighten ratio).IsGrey :=
  h.withLightness _

theorem IsGrey.darken {c : Color} (h : c.IsGrey) (ratio : Float) : (c.darken ratio).IsGrey :=
  h.withLightness _

theorem ofColor_of_isBlack {c : Color} (h : c.IsBlack) :
    Hsl.ofColor c = (⟨Hsl.whole 0, Hsl.whole 0, 0⟩ : Hsl Float) := by
  have hlightness :
      Shade.round ((Hsl.share 0 + Hsl.share 0) / Hsl.whole 2 * Hsl.whole 100) = (0 : Float) := by
    decide +kernel
  obtain ⟨hred, hgreen, hblue⟩ := h
  rw [Hsl.ofColor, hred, hgreen, hblue, Hsl.ofShares_self (Hsl.beq_share 0), hlightness]

theorem IsBlack.lighten {c : Color} (h : c.IsBlack) (ratio : Float) :
    (c.lighten ratio).IsBlack := by
  obtain ⟨hzero, -⟩ := Hsl.toChannel_of_zero ratio
  rw [Color.lighten, ofColor_of_isBlack h, Hsl.lighten, Hsl.channels_of_saturation_zero]
  exact ⟨hzero, hzero, hzero⟩

theorem IsBlack.darken {c : Color} (h : c.IsBlack) (ratio : Float) : (c.darken ratio).IsBlack := by
  obtain ⟨-, hzero⟩ := Hsl.toChannel_of_zero ratio
  rw [Color.darken, ofColor_of_isBlack h, Hsl.darken, Hsl.channels_of_saturation_zero]
  exact ⟨hzero, hzero, hzero⟩

end Color

/-- A step in which a colour is made from another one. -/
inductive Tint where
  | lighten (ratio : Float)
  | darken (ratio : Float)
  | withAlpha (alpha : Float)

namespace Tint

def apply (c : Color) : Tint → Color
  | lighten ratio => c.lighten ratio
  | darken ratio => c.darken ratio
  | withAlpha alpha => c.withAlpha alpha

/-- The opacity that a step asks for. -/
def alpha? : Tint → Option Float
  | withAlpha alpha => some alpha
  | _ => none

theorem isGrey_apply {c : Color} (h : c.IsGrey) : ∀ t : Tint, (t.apply c).IsGrey
  | lighten ratio => h.lighten ratio
  | darken ratio => h.darken ratio
  | withAlpha _ => h

theorem isBlack_apply {c : Color} (h : c.IsBlack) : ∀ t : Tint, (t.apply c).IsBlack
  | lighten ratio => h.lighten ratio
  | darken ratio => h.darken ratio
  | withAlpha _ => h

theorem alpha_apply (c : Color) : ∀ t : Tint,
    (t.apply c).alpha = t.alpha?.elim c.alpha (clamp 0 1)
  | lighten _ | darken _ | withAlpha _ => rfl

end Tint

namespace Color

/-- The colour after a sequence of steps. -/
def tinted (c : Color) (tints : List Tint) : Color := tints.foldl Tint.apply c

theorem IsGrey.tinted {c : Color} (h : c.IsGrey) (tints : List Tint) : (c.tinted tints).IsGrey := by
  induction tints generalizing c with
  | nil => exact h
  | cons t tints ih => exact ih (t.isGrey_apply h)

theorem IsBlack.tinted {c : Color} (h : c.IsBlack) (tints : List Tint) :
    (c.tinted tints).IsBlack := by
  induction tints generalizing c with
  | nil => exact h
  | cons t tints ih => exact ih (t.isBlack_apply h)

theorem alpha_tinted_of_none {c : Color} {tints : List Tint} (h : ∀ t ∈ tints, t.alpha? = none) :
    (c.tinted tints).alpha = c.alpha := by
  induction tints generalizing c with
  | nil => rfl
  | cons t tints ih =>
    obtain ⟨hfirst, hrest⟩ := List.forall_mem_cons.1 h
    have hstep : (t.apply c).alpha = c.alpha := by rw [Tint.alpha_apply, hfirst, Option.elim_none]
    exact (ih hrest).trans hstep

theorem alpha_tinted_append (c : Color) (before after : List Tint) (alpha : Float)
    (h : ∀ t ∈ after, t.alpha? = none) :
    (c.tinted (before ++ .withAlpha alpha :: after)).alpha = clamp 0 1 alpha := by
  rw [tinted, List.foldl_append, List.foldl_cons]
  exact alpha_tinted_of_none h

theorem tinting_keeps (c : Color) :
    (∀ ratio, (c.lighten ratio).alpha = c.alpha ∧ (c.darken ratio).alpha = c.alpha) ∧
    (c.IsGrey → ∀ ratio, (c.lighten ratio).IsGrey ∧ (c.darken ratio).IsGrey) ∧
    (c.IsBlack → ∀ ratio, (c.lighten ratio).IsBlack ∧ (c.darken ratio).IsBlack) ∧
    ∀ tints : List Tint,
      (c.IsGrey → (c.tinted tints).IsGrey) ∧
      (c.IsBlack → (c.tinted tints).IsBlack) ∧
      (∀ before alpha after, tints = before ++ .withAlpha alpha :: after →
        (∀ t ∈ after, t.alpha? = none) → Clamped alpha (c.tinted tints).alpha) ∧
      ((∀ t ∈ tints, t.alpha? = none) → (c.tinted tints).alpha = c.alpha) := by
  refine ⟨fun ratio => ⟨c.alpha_lighten ratio, c.alpha_darken ratio⟩,
    fun h ratio => ⟨h.lighten ratio, h.darken ratio⟩,
    fun h ratio => ⟨h.lighten ratio, h.darken ratio⟩,
    fun tints => ⟨fun h => h.tinted tints, fun h => h.tinted tints, ?_, alpha_tinted_of_none⟩⟩
  rintro before alpha after rfl hafter
  rw [alpha_tinted_append c before after alpha hafter]
  exact clamped_clamp alpha

end Color

end AtomicStyle
