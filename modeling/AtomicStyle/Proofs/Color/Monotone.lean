import AtomicStyle.Proofs.Color.Exact
import Mathlib.Algebra.Order.Group.MinMax
import Mathlib.Algebra.Order.Ring.Abs

/-!
# More lightness makes no channel darker

Over the rationals each channel grows with the lightness. At one hue and saturation it is the
lightness and a fixed part of the distance to the nearer of black and white, and this distance never
changes faster than the lightness (`channelAt_upper_mono`). So a greater share of lightness leaves
no channel smaller when a colour is lightened, and none greater when it is darkened
(`below_lightenBy_darkenBy`).
-/

namespace AtomicStyle

namespace Hsl

/-- The distance of a lightness to the nearer of black and white. -/
def reach (l : ℚ) : ℚ := min l (1 - l)

theorem abs_reach_sub_le {l l' : ℚ} (h : l ≤ l') : |reach l' - reach l| ≤ l' - l := by
  have hsub : |reach l' - reach l| ≤ max |l' - l| |1 - l' - (1 - l)| :=
    abs_min_sub_min_le_max l' (1 - l') l (1 - l)
  have hleft : |l' - l| = l' - l := abs_of_nonneg (sub_nonneg.2 h)
  have hright : |1 - l' - (1 - l)| = l' - l := by
    rw [show 1 - l' - (1 - l) = -(l' - l) by ring, abs_neg, hleft]
  rwa [hleft, hright, max_self] at hsub

theorem exists_channelAt_upper_eq {t : ℚ} (ht : -1 ≤ t ∧ t ≤ 2) :
    ∃ k : ℚ, |k| ≤ 1 ∧ ∀ s l,
      channelAt (whole 2 * l - upper s l) (upper s l) t = l + k * (s * reach l) := by
  obtain ⟨w, hnonneg, hle, heq⟩ := exists_channelAt_eq ht
  refine ⟨2 * w - 1, abs_le.2 ⟨by linarith, by linarith⟩, fun s l => ?_⟩
  have htwo : (whole 2 : ℚ) = 2 := rfl
  rw [heq, upper_eq, htwo, reach]
  ring

/-- A channel grows with the lightness at any hue and saturation. -/
theorem channelAt_upper_mono {t : ℚ} (ht : -1 ≤ t ∧ t ≤ 2) {s : ℚ} (hs : 0 ≤ s ∧ s ≤ 1)
    {l l' : ℚ} (h : l ≤ l') :
    channelAt (whole 2 * l - upper s l) (upper s l) t ≤
      channelAt (whole 2 * l' - upper s l') (upper s l') t := by
  obtain ⟨k, hk, heq⟩ := exists_channelAt_upper_eq ht
  have hks : |k * s| ≤ 1 := by
    rw [abs_mul, abs_of_nonneg hs.1]
    exact mul_le_one₀ hk hs.1 hs.2
  have hdiff : |k * s * (reach l' - reach l)| ≤ l' - l :=
    calc |k * s * (reach l' - reach l)| = |k * s| * |reach l' - reach l| := abs_mul _ _
      _ ≤ 1 * (l' - l) := mul_le_mul hks (abs_reach_sub_le h) (abs_nonneg _) zero_le_one
      _ = l' - l := one_mul _
  obtain ⟨hlow, -⟩ := abs_le.1 hdiff
  rw [heq, heq]
  linarith

/-- The channels grow with the lightness, all else being equal. -/
theorem channels_mono {hue saturation : ℚ} (hhue : 0 ≤ hue ∧ hue ≤ 360) {l l' : ℚ}
    (h : l ≤ l') :
    (Hsl.mk hue saturation l).channels ≤ (Hsl.mk hue saturation l').channels := by
  have hunit := unit_mono h
  have hturn := div_turn_mem hhue
  have hchannel {t : ℚ} (ht : -1 ≤ t ∧ t ≤ 2) :=
    toChannel_mono (channelAt_upper_mono ht (unit_mem saturation) hunit)
  unfold channels
  dsimp only
  split_ifs
  · exact ⟨toChannel_mono hunit, toChannel_mono hunit, toChannel_mono hunit⟩
  · have hthird : (whole 1 / whole 3 : ℚ) = 1 / 3 := rfl
    have hhue' : hue / whole 360 = hue / 360 := rfl
    rw [hthird, hhue']
    exact ⟨hchannel ⟨by linarith, by linarith⟩, hchannel ⟨by linarith, by linarith⟩,
      hchannel ⟨by linarith, by linarith⟩⟩

end Hsl

namespace Color

section Shares

variable {α : Type} [Shade α]

/-- The colour with its lightness raised by `ratio` of itself, in numbers of any kind. -/
def lightenBy (c : Color) (ratio : α) : Color :=
  c.withChannels ((Hsl.ofColor c).lighten ratio).channels

/-- The colour with its lightness lowered by `ratio` of itself, in numbers of any kind. -/
def darkenBy (c : Color) (ratio : α) : Color :=
  c.withChannels ((Hsl.ofColor c).darken ratio).channels

end Shares

theorem lighten_eq_lightenBy (c : Color) (ratio : Float) : c.lighten ratio = c.lightenBy ratio :=
  rfl

theorem darken_eq_darkenBy (c : Color) (ratio : Float) : c.darken ratio = c.darkenBy ratio := rfl

example : ((ofNat 0x336699).lightenBy (1 / 5 : ℚ)).hex = ((ofNat 0x336699).lighten 0.2).hex := by
  decide +kernel

/-- No channel of the first colour is greater than the same one of the second. -/
structure Below (c d : Color) : Prop where
  red : c.red ≤ d.red
  green : c.green ≤ d.green
  blue : c.blue ≤ d.blue

theorem below_withChannels {c : Color} {x y : UInt8 × UInt8 × UInt8} (h : x ≤ y) :
    (c.withChannels x).Below (c.withChannels y) :=
  ⟨h.1, h.2.1, h.2.2⟩

theorem below_lightenBy_darkenBy (c : Color) {less more : ℚ} (h : less ≤ more) :
    (c.lightenBy less).Below (c.lightenBy more) ∧ (c.darkenBy more).Below (c.darkenBy less) := by
  obtain ⟨hlightness, -⟩ := Hsl.lightness_mem_ofColor c
  have hshare := mul_le_mul_of_nonneg_left h hlightness
  have hhue := Hsl.hue_mem_ofColor c
  exact ⟨below_withChannels (Hsl.channels_mono hhue (add_le_add_right hshare _)),
    below_withChannels (Hsl.channels_mono hhue (sub_le_sub_left hshare _))⟩

theorem below_lightenBy_darkenBy_steel :
    (1 / 5 : ℚ) ≤ 1 / 2 ∧
      ((ofNat 0x336699).lightenBy (1 / 5 : ℚ)).Below ((ofNat 0x336699).lightenBy (1 / 2 : ℚ)) ∧
      ((ofNat 0x336699).darkenBy (1 / 2 : ℚ)).Below ((ofNat 0x336699).darkenBy (1 / 5 : ℚ)) := by
  have h : (1 / 5 : ℚ) ≤ 1 / 2 := by norm_num
  exact ⟨h, below_lightenBy_darkenBy _ h⟩

end Color

end AtomicStyle
