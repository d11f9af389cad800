import AtomicStyle.Color.Lightness
import Mathlib.Data.Rat.Floor
import Mathlib.Tactic.Linarith
import Mathlib.Tactic.Ring
import Mathlib.Tactic.SplitIfs

/-!
# Lightness over the rationals

The formulas of lightness are read over the rational numbers, where nothing is rounded but to whole
degrees, percents and channels. Hue stays within one turn and lightness between nothing and all of
it (`hue_mem_ofColor`, `lightness_mem_ofColor`), and a channel at any hue is the lightness and a
part of its distance to the nearer of black and white, up or down (`exists_channelAt_eq`).
-/

namespace AtomicStyle

/-- The whole number nearest to `x`, a half going away from zero. -/
def nearest (x : ℚ) : ℤ := if 0 ≤ x then ⌊x + 1 / 2⌋ else ⌈x - 1 / 2⌉

instance : Shade ℚ where
  ofNat n := n
  round x := nearest x
  toByte x := UInt8.ofNat (min ⌊x⌋.toNat 255)
  decidableLT := inferInstance

section Rounding

theorem nearest_mono {x y : ℚ} (h : x ≤ y) : nearest x ≤ nearest y := by
  unfold nearest
  split_ifs with hx hy hy
  · exact Int.floor_mono (by linarith)
  · exact absurd (hx.trans h) hy
  · have hlow : ⌈x - 1 / 2⌉ ≤ 0 := Int.ceil_le.2 (by push_cast; linarith)
    have hhigh : 0 ≤ ⌊y + 1 / 2⌋ := Int.le_floor.2 (by push_cast; linarith)
    exact hlow.trans hhigh
  · exact Int.ceil_mono (by linarith)

theorem nearest_natCast (n : ℕ) : nearest n = n := by
  have hfloor : ⌊(n : ℚ) + 1 / 2⌋ = n := Int.floor_eq_iff.2 ⟨by push_cast; linarith, by
    push_cast; linarith⟩
  rw [nearest, if_pos (Nat.cast_nonneg n), hfloor]

/-- What lies between two whole numbers is rounded to one between them. -/
theorem nearest_mem {x : ℚ} {m n : ℕ} (hm : m ≤ x) (hn : x ≤ n) :
    (m : ℚ) ≤ nearest x ∧ (nearest x : ℚ) ≤ n := by
  have hlow := nearest_mono hm
  have hhigh := nearest_mono hn
  rw [nearest_natCast] at hlow hhigh
  exact ⟨by exact_mod_cast hlow, by exact_mod_cast hhigh⟩

theorem clamp_eq (low high x : ℚ) : clamp low high x = min high (max x low) := by
  simp only [clamp, max_def_lt, min_def_lt]

end Rounding

namespace Hsl

theorem whole_eq (n : ℕ) : (whole n : ℚ) = n := rfl

theorem larger_eq (x y : ℚ) : larger x y = max x y := (max_def_lt x y).symm

theorem smaller_eq (x y : ℚ) : smaller x y = min x y := by
  rw [min_comm]
  exact (min_def_lt y x).symm

theorem share_mem (channel : UInt8) : 0 ≤ (share channel : ℚ) ∧ (share channel : ℚ) ≤ 1 := by
  have hlt : channel.toNat ≤ 255 := Nat.le_of_lt_succ channel.toNat_lt
  have hle : (channel.toNat : ℚ) ≤ 255 := by exact_mod_cast hlt
  have hshare : (share channel : ℚ) = channel.toNat / 255 := rfl
  rw [hshare]
  exact ⟨by positivity, (div_le_one (by norm_num)).2 hle⟩

section Ranges

variable {r g b : ℚ}

/-- Two shares differ by no more than the extremes do. -/
theorem sub_div_mem {x y low high : ℚ} (hx : low ≤ x ∧ x ≤ high) (hy : low ≤ y ∧ y ≤ high)
    (h : low < high) : -1 ≤ (x - y) / (high - low) ∧ (x - y) / (high - low) ≤ 1 := by
  have hpos : 0 < high - low := sub_pos.2 h
  rw [le_div_iff₀ hpos, div_le_iff₀ hpos]
  constructor <;> linarith [hx.1, hx.2, hy.1, hy.2]

theorem sextant_mem {low high : ℚ} (hr : low ≤ r ∧ r ≤ high) (hg : low ≤ g ∧ g ≤ high)
    (hb : low ≤ b ∧ b ≤ high) (h : low < high) :
    0 ≤ sextant r g b high low ∧ sextant r g b high low ≤ 6 := by
  have hpos : 0 < high - low := sub_pos.2 h
  unfold sextant
  simp only [whole_eq]
  split_ifs with hmax hless hmax'
  · obtain ⟨hlow, -⟩ := sub_div_mem hg hb h
    have hneg : (g - b) / (high - low) < 0 := div_neg_of_neg_of_pos (sub_neg.2 hless) hpos
    constructor <;> push_cast <;> linarith
  · obtain ⟨-, hhigh⟩ := sub_div_mem hg hb h
    have hnonneg : 0 ≤ (g - b) / (high - low) :=
      div_nonneg (sub_nonneg.2 (not_lt.1 hless)) hpos.le
    constructor <;> push_cast <;> linarith
  · obtain ⟨hlow, hhigh⟩ := sub_div_mem hb hr h
    constructor <;> push_cast <;> linarith
  · obtain ⟨hlow, hhigh⟩ := sub_div_mem hr hg h
    constructor <;> push_cast <;> linarith

theorem extremes (r g b : ℚ) :
    let high := larger (larger r g) b
    let low := smaller (smaller r g) b
    (low ≤ r ∧ r ≤ high) ∧ (low ≤ g ∧ g ≤ high) ∧ (low ≤ b ∧ b ≤ high) := by
  simp only [larger_eq, smaller_eq]
  simp

theorem hue_mem_ofShares (r g b : ℚ) :
    0 ≤ (ofShares r g b).hue ∧ (ofShares r g b).hue ≤ 360 := by
  obtain ⟨hr, hg, hb⟩ := extremes r g b
  unfold ofShares
  extract_lets high low lightness
  split_ifs with heq
  · simp [whole_eq]
  · have hlt : low < high := lt_of_le_of_ne (hr.1.trans hr.2) fun h => heq (by simp [h])
    have hsextant : 0 ≤ sextant r g b high low ∧ sextant r g b high low ≤ 6 :=
      sextant_mem hr hg hb hlt
    exact nearest_mem (m := 0) (n := 360) (by push_cast [whole_eq]; linarith)
      (by push_cast [whole_eq]; linarith)

theorem lightness_mem_ofShares (hr : 0 ≤ r ∧ r ≤ 1) (hg : 0 ≤ g ∧ g ≤ 1) (hb : 0 ≤ b ∧ b ≤ 1) :
    0 ≤ (ofShares r g b).lightness ∧ (ofShares r g b).lightness ≤ 100 := by
  have hlightness : (ofShares r g b).lightness =
      nearest ((max (max r g) b + min (min r g) b) / 2 * 100) := by
    simp only [← larger_eq, ← smaller_eq]
    unfold ofShares
    extract_lets high low lightness
    split_ifs <;> rfl
  have hhigh : max (max r g) b ≤ 1 := max_le (max_le hr.2 hg.2) hb.2
  have hlow : 0 ≤ min (min r g) b := le_min (le_min hr.1 hg.1) hb.1
  have hle : min (min r g) b ≤ max (max r g) b := (min_le_right _ _).trans (le_max_right _ _)
  rw [hlightness]
  exact nearest_mem (m := 0) (n := 100) (by push_cast; linarith) (by push_cast; linarith)

theorem hue_mem_ofColor (c : Color) :
    0 ≤ (ofColor c : Hsl ℚ).hue ∧ (ofColor c : Hsl ℚ).hue ≤ 360 :=
  hue_mem_ofShares _ _ _

theorem lightness_mem_ofColor (c : Color) :
    0 ≤ (ofColor c : Hsl ℚ).lightness ∧ (ofColor c : Hsl ℚ).lightness ≤ 100 :=
  lightness_mem_ofShares (share_mem c.red) (share_mem c.green) (share_mem c.blue)

end Ranges

section Channels

/-- Degrees as a share of a turn. -/
theorem div_turn_mem {hue : ℚ} (h : 0 ≤ hue ∧ hue ≤ 360) : 0 ≤ hue / 360 ∧ hue / 360 ≤ 1 :=
  ⟨div_nonneg h.1 (by norm_num), (div_le_one (by norm_num)).2 h.2⟩

theorem wrap_mem {t : ℚ} (ht : -1 ≤ t ∧ t ≤ 2) : 0 ≤ wrap t ∧ wrap t ≤ 1 := by
  unfold wrap
  simp only [whole_eq, Nat.cast_zero, Nat.cast_one]
  split_ifs with hneg hover
  · exact ⟨by linarith [ht.1], by linarith⟩
  · exact ⟨by linarith, by linarith [ht.2]⟩
  · exact ⟨not_lt.1 hneg, not_lt.1 hover⟩

theorem channelAt_eq (p q t : ℚ) :
    channelAt p q t =
      if wrap t < 1 / 6 then p + (q - p) * 6 * wrap t
      else if wrap t < 1 / 2 then q
      else if wrap t < 2 / 3 then p + (q - p) * (2 / 3 - wrap t) * 6
      else p := by
  rw [channelAt]
  rfl

/-- The place of a channel between `p` and `q` is a matter of the hue alone. -/
theorem exists_channelAt_eq {t : ℚ} (ht : -1 ≤ t ∧ t ≤ 2) :
    ∃ w : ℚ, 0 ≤ w ∧ w ≤ 1 ∧ ∀ p q, channelAt p q t = p + (q - p) * w := by
  obtain ⟨hnonneg, -⟩ := wrap_mem ht
  simp only [channelAt_eq]
  by_cases hsixth : wrap t < 1 / 6
  · refine ⟨6 * wrap t, by linarith, by linarith, fun p q => ?_⟩
    rw [if_pos hsixth]
    ring
  · by_cases hhalf : wrap t < 1 / 2
    · refine ⟨1, by norm_num, le_rfl, fun p q => ?_⟩
      rw [if_neg hsixth, if_pos hhalf]
      ring
    · by_cases hthird : wrap t < 2 / 3
      · refine ⟨(2 / 3 - wrap t) * 6, by linarith, by linarith, fun p q => ?_⟩
        rw [if_neg hsixth, if_neg hhalf, if_pos hthird]
        ring
      · refine ⟨0, le_rfl, by norm_num, fun p q => ?_⟩
        rw [if_neg hsixth, if_neg hhalf, if_neg hthird]
        ring

theorem upper_eq (s l : ℚ) : upper s l = l + s * min l (1 - l) := by
  unfold upper
  simp only [whole_eq]
  push_cast
  split_ifs with h
  · rw [min_eq_left (by linarith)]
    ring
  · rw [min_eq_right (by linarith)]
    ring

theorem unit_eq (x : ℚ) : unit x = min 100 (max x 0) / 100 := by
  have hclamp : unit x = clamp 0 100 x / 100 := rfl
  rw [hclamp, clamp_eq]

theorem unit_mem (x : ℚ) : 0 ≤ unit x ∧ unit x ≤ 1 := by
  have hnonneg : 0 ≤ min 100 (max x 0) := le_min (by norm_num) (le_max_right x 0)
  have hle : min 100 (max x 0) ≤ 100 := min_le_left _ _
  rw [unit_eq]
  constructor <;> linarith

theorem unit_mono {x y : ℚ} (h : x ≤ y) : unit x ≤ unit y := by
  rw [unit_eq, unit_eq]
  exact div_le_div_of_nonneg_right (min_le_min_left 100 (max_le_max_right 0 h)) (by norm_num)

theorem toByte_mono {x y : ℚ} (h : x ≤ y) : Shade.toByte x ≤ Shade.toByte y := by
  have hfloor : min ⌊x⌋.toNat 255 ≤ min ⌊y⌋.toNat 255 :=
    min_le_min_right 255 (Int.toNat_le_toNat (Int.floor_mono h))
  have hx : min ⌊x⌋.toNat 255 < 256 := by omega
  have hy : min ⌊y⌋.toNat 255 < 256 := by omega
  change UInt8.ofNat _ ≤ UInt8.ofNat _
  rw [UInt8.le_iff_toNat_le, UInt8.toNat_ofNat_of_lt' hx, UInt8.toNat_ofNat_of_lt' hy]
  exact hfloor

theorem toChannel_mono {x y : ℚ} (h : x ≤ y) : toChannel x ≤ toChannel y := by
  have hround : (nearest (x * 255) : ℚ) ≤ nearest (y * 255) := by
    exact_mod_cast nearest_mono (by linarith)
  refine toByte_mono ?_
  change clamp (0 : ℚ) 255 (nearest (x * 255)) ≤ clamp (0 : ℚ) 255 (nearest (y * 255))
  rw [clamp_eq, clamp_eq]
  exact min_le_min_left 255 (max_le_max_right 0 hround)

end Channels

end Hsl

end AtomicStyle
