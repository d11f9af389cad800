import AtomicStyle.Proofs.Color.Exact

/-!
# Ranges of hue, saturation and lightness

Over the rationals a colour has a hue within one turn, and a saturation and a lightness from none
to all. Nothing on the way is divided by zero or less: the same formulas are read over numbers in
which such a division leaves nothing (`Guarded`), and of every colour something is left
(`ofColor_guarded`). On the way back each channel lies between two bounds within the full range, at
any hue of one turn, so none is cut when it is written (`inRange_and_uncut`).
-/

namespace AtomicStyle

/-- A rational number, or nothing, which is what a division by zero or less leaves. -/
inductive Guarded where
  | number (x : ℚ)
  | nothing
  deriving DecidableEq

namespace Guarded

def map₂ (f : ℚ → ℚ → Guarded) : Guarded → Guarded → Guarded
  | number x, number y => f x y
  | _, _ => nothing

/-- The order of numbers; nothing is neither less nor greater than a number. -/
def Less : Guarded → Guarded → Prop
  | number x, number y => x < y
  | _, _ => False

instance : DecidableRel Less
  | number x, number y => inferInstanceAs (Decidable (x < y))
  | number _, nothing | nothing, _ => instDecidableFalse

instance : Shade Guarded where
  add := map₂ fun x y => number (x + y)
  sub := map₂ fun x y => number (x - y)
  mul := map₂ fun x y => number (x * y)
  div := map₂ fun x y => if 0 < y then number (x / y) else nothing
  lt := Less
  beq x y := decide (x = y)
  ofNat n := number n
  round
    | number x => number (nearest x)
    | nothing => nothing
  toByte
    | number x => Shade.toByte x
    | nothing => 0
  decidableLT := inferInstanceAs (DecidableRel Less)

theorem number_div (x : ℚ) {y : ℚ} (h : 0 < y) : number x / number y = number (x / y) := if_pos h

theorem share_eq (channel : UInt8) : (Hsl.share channel : Guarded) = number (Hsl.share channel) :=
  number_div _ (by norm_num)

theorem number_sub (x y : ℚ) : number x - number y = number (x - y) := rfl

theorem number_lt {x y : ℚ} : number x < number y ↔ x < y := Iff.rfl

theorem number_beq (x y : ℚ) : (number x == number y) = (x == y) :=
  decide_eq_decide.2 ⟨number.inj, congrArg number⟩

theorem larger_number (x y : ℚ) :
    Hsl.larger (number x) (number y) = number (Hsl.larger x y) :=
  (apply_ite number _ _ _).symm

theorem smaller_number (x y : ℚ) :
    Hsl.smaller (number x) (number y) = number (Hsl.smaller x y) :=
  (apply_ite number _ _ _).symm

end Guarded

namespace Hsl

section Parts

variable {α : Type} [Shade α]

/-- The greatest of the three shares of a colour. -/
def brightest (c : Color) : α := larger (larger (share c.red) (share c.green)) (share c.blue)

/-- The least of the three shares of a colour. -/
def dimmest (c : Color) : α := smaller (smaller (share c.red) (share c.green)) (share c.blue)

theorem ofColor_eq (c : Color) :
    (ofColor c : Hsl α) =
      if (brightest c : α) == dimmest c then
        ⟨whole 0, whole 0, Shade.round ((brightest c + dimmest c) / whole 2 * whole 100)⟩
      else
        ⟨Shade.round (sextant (share c.red) (share c.green) (share c.blue) (brightest c)
            (dimmest c) * whole 60),
          Shade.round (saturationOf (brightest c) (dimmest c)
            ((brightest c + dimmest c) / whole 2) * whole 100),
          Shade.round ((brightest c + dimmest c) / whole 2 * whole 100)⟩ :=
  rfl

def map {β : Type} (f : α → β) (c : Hsl α) : Hsl β := ⟨f c.hue, f c.saturation, f c.lightness⟩

/-- The greatest share that a channel has at any hue. -/
def top (c : Hsl α) : α := upper (unit c.saturation) (unit c.lightness)

/-- The least share that a channel has at any hue. -/
def bottom (c : Hsl α) : α := whole 2 * unit c.lightness - c.top

/-- How many turns red, green and blue lie from the hue. -/
def turns (c : Hsl α) : List α :=
  [c.hue / whole 360 + whole 1 / whole 3, c.hue / whole 360,
    c.hue / whole 360 - whole 1 / whole 3]

/-- The shares that are written as red, green and blue. -/
def shares (c : Hsl α) : List α :=
  if unit c.saturation == whole 0 then [unit c.lightness, unit c.lightness, unit c.lightness]
  else c.turns.map (channelAt c.bottom c.top)

theorem channels_eq_map_shares (c : Hsl α) :
    [c.channels.1, c.channels.2.1, c.channels.2.2] = c.shares.map toChannel := by
  unfold channels shares
  dsimp only
  split <;> rfl

end Parts

section Divisors

open Guarded

variable {low high : ℚ}

/-- Where the extremes of the shares differ, all that hue and saturation are divided by is
positive. -/
theorem divisors_pos (hlow : 0 ≤ low) (hlt : low < high) (hhigh : high ≤ 1) :
    0 < high - low ∧ 0 < high + low ∧ 0 < 2 - high - low :=
  ⟨by linarith, by linarith, by linarith⟩

theorem saturationOf_eq_or (high low lightness : ℚ) :
    saturationOf high low lightness = (high - low) / (2 - high - low) ∨
      saturationOf high low lightness = (high - low) / (high + low) := by
  unfold saturationOf
  split
  · exact .inl rfl
  · exact .inr rfl

theorem saturationOf_mem (hlow : 0 ≤ low) (hlt : low < high) (hhigh : high ≤ 1) (lightness : ℚ) :
    0 ≤ saturationOf high low lightness ∧ saturationOf high low lightness ≤ 1 := by
  obtain ⟨hdelta, hsum, hrest⟩ := divisors_pos hlow hlt hhigh
  rcases saturationOf_eq_or high low lightness with h | h
  · rw [h]
    exact ⟨div_nonneg hdelta.le hrest.le, (div_le_one hrest).2 (by linarith)⟩
  · rw [h]
    exact ⟨div_nonneg hdelta.le hsum.le, (div_le_one hsum).2 (by linarith)⟩

theorem saturationOf_number (hlow : 0 ≤ low) (hlt : low < high) (hhigh : high ≤ 1)
    (lightness : ℚ) :
    saturationOf (number high) (number low) (number lightness) =
      number (saturationOf high low lightness) := by
  obtain ⟨-, hsum, hrest⟩ := divisors_pos hlow hlt hhigh
  have hhalf : (whole 1 / whole 2 : Guarded) = number (whole 1 / whole 2) :=
    number_div 1 two_pos
  unfold saturationOf
  rw [hhalf]
  by_cases h : whole 1 / whole 2 < lightness
  · rw [if_pos h, if_pos (number_lt.2 h)]
    exact number_div _ hrest
  · rw [if_neg h, if_neg (number_lt.not.2 h)]
    exact number_div _ hsum

/-- White would be divided by zero, were its shares not found equal first. -/
example : saturationOf (number 1) (number 1) (number 1) = nothing := by decide +kernel

theorem sextant_number (r g b : ℚ) (hlt : low < high) :
    sextant (number r) (number g) (number b) (number high) (number low) =
      number (sextant r g b high low) := by
  have hdelta : 0 < high - low := sub_pos.2 hlt
  unfold sextant
  simp only [number_beq, number_sub, number_div _ hdelta, number_lt]
  split_ifs <;> rfl

theorem extremes_mem (c : Color) :
    0 ≤ (dimmest c : ℚ) ∧ (dimmest c : ℚ) ≤ brightest c ∧ (brightest c : ℚ) ≤ 1 := by
  have hred := share_mem c.red
  have hgreen := share_mem c.green
  have hblue := share_mem c.blue
  obtain ⟨hr, -, -⟩ := extremes (share c.red) (share c.green) (share c.blue)
  refine ⟨?_, hr.1.trans hr.2, ?_⟩
  · rw [dimmest, smaller_eq, smaller_eq]
    exact le_min (le_min hred.1 hgreen.1) hblue.1
  · rw [brightest, larger_eq, larger_eq]
    exact max_le (max_le hred.2 hgreen.2) hblue.2

theorem dimmest_lt_brightest {c : Color} (h : (brightest c : ℚ) ≠ dimmest c) :
    (dimmest c : ℚ) < brightest c := by
  obtain ⟨-, hle, -⟩ := extremes_mem c
  exact lt_of_le_of_ne hle h.symm

theorem round_mul_mem {x : ℚ} (hx : 0 ≤ x ∧ x ≤ 1) (n : ℕ) :
    (0 : ℚ) ≤ Shade.round (x * whole n) ∧ Shade.round (x * whole n) ≤ (n : ℚ) := by
  have hfull : x * whole n ≤ n := mul_le_of_le_one_left n.cast_nonneg hx.2
  exact nearest_mem (m := 0) (mul_nonneg hx.1 n.cast_nonneg) hfull

theorem saturation_mem_ofColor (c : Color) :
    0 ≤ (ofColor c : Hsl ℚ).saturation ∧ (ofColor c : Hsl ℚ).saturation ≤ 100 := by
  obtain ⟨hnonneg, -, hone⟩ := extremes_mem c
  rw [ofColor_eq]
  split_ifs with heq
  · simp [whole_eq]
  · have hlt : (dimmest c : ℚ) < brightest c := dimmest_lt_brightest (by simpa using heq)
    exact round_mul_mem (saturationOf_mem hnonneg hlt hone _) 100

/-- No colour is divided by zero or less on its way to hue, saturation and lightness. -/
theorem ofColor_guarded (c : Color) :
    (ofColor c : Hsl Guarded) = (ofColor c : Hsl ℚ).map number := by
  obtain ⟨hnonneg, -, hone⟩ := extremes_mem c
  have hbrightest : (brightest c : Guarded) = number (brightest c) := by
    simp only [brightest, share_eq, larger_number]
  have hdimmest : (dimmest c : Guarded) = number (dimmest c) := by
    simp only [dimmest, share_eq, smaller_number]
  have hlightness : (number (brightest c) + number (dimmest c)) / whole 2 =
      number ((brightest c + dimmest c) / whole 2) :=
    number_div _ two_pos
  rw [ofColor_eq, ofColor_eq, hbrightest, hdimmest, hlightness, number_beq]
  by_cases heq : ((brightest c : ℚ) == dimmest c) = true
  · rw [if_pos heq, if_pos heq]
    rfl
  · have hlt : (dimmest c : ℚ) < brightest c := dimmest_lt_brightest (by simpa using heq)
    rw [if_neg heq, if_neg heq, share_eq, share_eq, share_eq, sextant_number _ _ _ hlt,
      saturationOf_number hnonneg hlt hone]
    rfl

end Divisors

section Bounds

theorem bounds_mem (d : Hsl ℚ) : 0 ≤ d.bottom ∧ d.bottom ≤ d.top ∧ d.top ≤ 1 := by
  obtain ⟨hs, hs'⟩ := unit_mem d.saturation
  obtain ⟨hl, hl'⟩ := unit_mem d.lightness
  have hreach : 0 ≤ min (unit d.lightness) (1 - unit d.lightness) :=
    le_min hl (sub_nonneg.2 hl')
  have hnonneg := mul_nonneg hs hreach
  have hle := mul_le_of_le_one_left hreach hs'
  have htop : d.top =
      unit d.lightness + unit d.saturation * min (unit d.lightness) (1 - unit d.lightness) :=
    upper_eq _ _
  have hbottom : d.bottom = 2 * unit d.lightness - d.top := rfl
  have hblack := min_le_left (unit d.lightness) (1 - unit d.lightness)
  have hwhite := min_le_right (unit d.lightness) (1 - unit d.lightness)
  refine ⟨?_, ?_, ?_⟩ <;> linarith

theorem turn_mem {d : Hsl ℚ} (hhue : 0 ≤ d.hue ∧ d.hue ≤ 360) {t : ℚ} (ht : t ∈ d.turns) :
    -1 ≤ t ∧ t ≤ 2 := by
  have hturn := div_turn_mem hhue
  have hturns : d.turns = [d.hue / 360 + 1 / 3, d.hue / 360, d.hue / 360 - 1 / 3] := rfl
  simp only [hturns, List.mem_cons, List.not_mem_nil, or_false] at ht
  rcases ht with rfl | rfl | rfl
  · constructor <;> linarith
  · constructor <;> linarith
  · constructor <;> linarith

theorem channelAt_mem {p q t : ℚ} (hpq : p ≤ q) (ht : -1 ≤ t ∧ t ≤ 2) :
    p ≤ channelAt p q t ∧ channelAt p q t ≤ q := by
  obtain ⟨w, hnonneg, hle, heq⟩ := exists_channelAt_eq ht
  have hgap : 0 ≤ q - p := sub_nonneg.2 hpq
  have hlow := mul_nonneg hgap hnonneg
  have hhigh := mul_le_of_le_one_right hgap hle
  rw [heq]
  constructor <;> linarith

theorem share_mem_of_mem_shares {d : Hsl ℚ} (hhue : 0 ≤ d.hue ∧ d.hue ≤ 360) {x : ℚ}
    (hx : x ∈ d.shares) : 0 ≤ x ∧ x ≤ 1 := by
  unfold shares at hx
  split_ifs at hx
  · have hgrey : x = unit d.lightness := by simpa using hx
    exact hgrey ▸ unit_mem d.lightness
  · obtain ⟨t, ht, rfl⟩ := List.mem_map.1 hx
    obtain ⟨hbottom, hle, htop⟩ := bounds_mem d
    obtain ⟨hlow, hhigh⟩ := channelAt_mem hle (turn_mem hhue ht)
    exact ⟨hbottom.trans hlow, hhigh.trans htop⟩

theorem clamp_round {x : ℚ} (hx : 0 ≤ x ∧ x ≤ 1) :
    clamp (whole 0) (whole 255) (Shade.round (x * whole 255)) = Shade.round (x * whole 255) := by
  obtain ⟨hnonneg, hle⟩ := round_mul_mem hx 255
  rw [clamp_eq]
  exact (congrArg (min _) (max_eq_left hnonneg)).trans (min_eq_right hle)

theorem wrap_eq (t : ℚ) : wrap t = if t < 0 then t + 1 else if 1 < t then t - 1 else t := rfl

theorem wrap_add_one {t : ℚ} (ht : -1 ≤ t ∧ t ≤ 1) (hne : t ≠ 0) : wrap (t + 1) = wrap t := by
  rcases lt_or_gt_of_ne hne with hneg | hpos
  · rw [wrap_eq, wrap_eq, if_neg (by linarith), if_neg (by linarith), if_pos hneg]
  · rw [wrap_eq, wrap_eq, if_neg (by linarith), if_pos (by linarith), if_neg (by linarith),
      if_neg (by linarith), add_sub_cancel_right]

/-- A channel is the same one turn further. Where the turn begins, the wrap leaves both ends as they
are, and the least share stands at both. -/
theorem channelAt_add_one (p q : ℚ) {t : ℚ} (ht : -1 ≤ t ∧ t ≤ 1) :
    channelAt p q (t + 1) = channelAt p q t := by
  by_cases hzero : t = 0
  · subst hzero
    norm_num [channelAt_eq, wrap_eq]
  · rw [channelAt_eq, channelAt_eq, wrap_add_one ht hzero]

theorem shares_full_turn (saturation lightness : ℚ) :
    (Hsl.mk 360 saturation lightness).shares = (Hsl.mk 0 saturation lightness).shares := by
  have hzero : (Hsl.mk 0 saturation lightness).turns = [1 / 3, 0, -1 / 3] := by
    norm_num [turns, whole_eq]
  have hfull : (Hsl.mk 360 saturation lightness).turns = [1 / 3 + 1, 0 + 1, -1 / 3 + 1] := by
    norm_num [turns, whole_eq]
  refine if_congr Iff.rfl rfl ?_
  rw [hzero, hfull]
  simp only [List.map_cons]
  rw [channelAt_add_one, channelAt_add_one, channelAt_add_one]
  · rfl
  · norm_num
  · norm_num
  · norm_num

theorem channels_full_turn (saturation lightness : ℚ) :
    (Hsl.mk 360 saturation lightness).channels = (Hsl.mk 0 saturation lightness).channels := by
  have hlisted := channels_eq_map_shares (Hsl.mk 360 saturation lightness)
  rw [shares_full_turn, ← channels_eq_map_shares] at hlisted
  obtain ⟨hred, hgreen, hblue, -⟩ := by simpa only [List.cons.injEq] using hlisted
  exact Prod.ext hred (Prod.ext hgreen hblue)

end Bounds

/-- A colour's hue, saturation and lightness lie in their ranges, and nothing on the way to them is
divided by zero or less. -/
structure InRange (c : Color) : Prop where
  /-- What is divided by, where the shares differ and so anything is. -/
  divisors : (brightest c : ℚ) ≠ dimmest c →
    (0 : ℚ) < brightest c - dimmest c ∧ (0 : ℚ) < brightest c + dimmest c ∧
      (0 : ℚ) < 2 - brightest c - dimmest c
  guarded : (ofColor c : Hsl Guarded) = (ofColor c : Hsl ℚ).map .number
  hue : 0 ≤ (ofColor c : Hsl ℚ).hue ∧ (ofColor c : Hsl ℚ).hue ≤ 360
  saturation : 0 ≤ (ofColor c : Hsl ℚ).saturation ∧ (ofColor c : Hsl ℚ).saturation ≤ 100
  lightness : 0 ≤ (ofColor c : Hsl ℚ).lightness ∧ (ofColor c : Hsl ℚ).lightness ≤ 100

/-- The channels of a hue, saturation and lightness lie between bounds within the full range and are
written without being cut, and a full turn of hue is written as none. -/
structure Uncut (d : Hsl ℚ) : Prop where
  bounds : 0 ≤ d.bottom ∧ d.bottom ≤ d.top ∧ d.top ≤ 1
  wrapped : ∀ t ∈ d.turns, 0 ≤ wrap t ∧ wrap t ≤ 1
  between : ∀ t ∈ d.turns,
    d.bottom ≤ channelAt d.bottom d.top t ∧ channelAt d.bottom d.top t ≤ d.top
  written : [d.channels.1, d.channels.2.1, d.channels.2.2] = d.shares.map toChannel
  uncut : ∀ x ∈ d.shares,
    clamp (whole 0) (whole 255) (Shade.round (x * whole 255)) = Shade.round (x * whole 255)
  fullTurn : { d with hue := 360 }.channels = { d with hue := 0 }.channels

theorem inRange_ofColor (c : Color) : InRange c := by
  obtain ⟨hnonneg, -, hone⟩ := extremes_mem c
  exact {
    divisors := fun hne => divisors_pos hnonneg (dimmest_lt_brightest hne) hone
    guarded := ofColor_guarded c
    hue := hue_mem_ofColor c
    saturation := saturation_mem_ofColor c
    lightness := lightness_mem_ofColor c }

/-- Saturation and lightness may be any numbers, since they are brought into range first. -/
theorem uncut_of_hue {d : Hsl ℚ} (hhue : 0 ≤ d.hue ∧ d.hue ≤ 360) : Uncut d where
  bounds := bounds_mem d
  wrapped _ ht := wrap_mem (turn_mem hhue ht)
  between _ ht := channelAt_mem (bounds_mem d).2.1 (turn_mem hhue ht)
  written := channels_eq_map_shares d
  uncut _ hx := clamp_round (share_mem_of_mem_shares hhue hx)
  fullTurn := channels_full_turn d.saturation d.lightness

theorem inRange_and_uncut (c : Color) {d : Hsl ℚ} (hhue : 0 ≤ d.hue ∧ d.hue ≤ 360) :
    InRange c ∧ Uncut d :=
  ⟨inRange_ofColor c, uncut_of_hue hhue⟩

/-- A red with a trace of blue, whose hue is rounded up to a full turn. -/
theorem inRange_and_uncut_red :
    let c := Color.ofNat 0xFF0001
    (ofColor c : Hsl ℚ).hue = 360 ∧ InRange c ∧ Uncut (ofColor c) := by
  have hhue : (ofColor (Color.ofNat 0xFF0001) : Hsl ℚ).hue = 360 := by decide +kernel
  exact ⟨hhue, inRange_and_uncut _ (by rw [hhue]; norm_num)⟩

end Hsl

end AtomicStyle
