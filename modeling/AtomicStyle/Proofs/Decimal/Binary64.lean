import AtomicStyle.Decimal.Basic
import Mathlib

/-!
# Facts about binary64 numbers

The operations take numbers apart and put the result together again, and what is put together is a
number if it was one before (`isNaN_unpack_pack`). So a natural number divided by one that is not
zero is a number (`isNaN_ofNat`, `isNaN_div`). Numbers are compared as in any order as long as none
of them is no number (`le_of_not_lt`), and zero times anything is a zero or no number
(`zero_mul_cases`).
-/

namespace AtomicStyle

open Float.Model (UnpackedFloat)
open Float.Model.UnpackedFloat (Sign packComponents unpackMantissa_packComponents
  unpackExponent_packComponents)

namespace Parts

theorem isNaN_unpack_packComponents {sign : Sign} {exponent : BitVec 11} {mantissa : BitVec 52}
    (h : exponent = -1#11 → mantissa = 0#52) :
    (UnpackedFloat.unpack .binary64 (packComponents .binary64 sign exponent mantissa)).isNaN =
      false := by
  unfold UnpackedFloat.unpack
  simp only [unpackMantissa_packComponents, unpackExponent_packComponents]
  split_ifs with hexponent hmantissa
  · rfl
  · exact absurd (h hexponent) hmantissa
  · rfl
  · rfl
  · rfl

theorem isNaN_unpack_pack {f : Parts} (h : f.isNaN = false) :
    (UnpackedFloat.unpack .binary64 (UnpackedFloat.pack .binary64 f)).isNaN = false := by
  cases f with
  | infinity sign => exact isNaN_unpack_packComponents fun _ => rfl
  | notANumber => cases h
  | zero sign => exact isNaN_unpack_packComponents fun _ => rfl
  | finite sign m e hm =>
    unfold UnpackedFloat.pack
    extract_lets bits biased
    split_ifs with hover hnormal
    · exact isNaN_unpack_packComponents fun _ => rfl
    · refine isNaN_unpack_packComponents fun hones => ?_
      have hbiased : biased + 1 < 2 ^ 11 := Nat.not_le.1 hover
      have hnat := congrArg BitVec.toNat hones
      rw [BitVec.toNat_ofNat] at hnat
      change biased % 2 ^ 11 = 2 ^ 11 - 1 at hnat
      omega
    · exact isNaN_unpack_packComponents fun hones => absurd hones (by decide)

theorem isNaN_roundWithAccuracy (sign : Sign) (m : Nat) (e : Int)
    (accuracy : UnpackedFloat.Accuracy) :
    (UnpackedFloat.roundWithAccuracy .binary64 sign m e accuracy).isNaN = false := by
  unfold UnpackedFloat.roundWithAccuracy
  dsimp only
  split_ifs <;> rfl

/-- Whether a number is finite and not zero. -/
def isDivisor : Parts → Bool
  | .finite .. => true
  | _ => false

theorem isNaN_mul {f g : Parts} (hf : f.isNaN = false) (hg : isDivisor g) :
    (UnpackedFloat.mul .binary64 f g).isNaN = false := by
  cases g with
  | infinity _ | notANumber | zero _ => cases hg
  | finite =>
    cases f with
    | infinity _ | zero _ => rfl
    | notANumber => cases hf
    | finite => exact isNaN_roundWithAccuracy _ _ _ _

theorem isNaN_div {f g : Parts} (hf : f.isNaN = false) (hg : isDivisor g) :
    (UnpackedFloat.div .binary64 f g).isNaN = false := by
  cases g with
  | infinity _ | notANumber | zero _ => cases hg
  | finite =>
    cases f with
    | infinity _ | zero _ => rfl
    | notANumber => cases hf
    | finite => exact isNaN_roundWithAccuracy _ _ _ _

theorem isNaN_ofNat (n : Nat) : (UnpackedFloat.ofNat .binary64 n).isNaN = false := by
  unfold UnpackedFloat.ofNat UnpackedFloat.ofInt UnpackedFloat.normalize
  split
  · exact isNaN_roundWithAccuracy _ _ _ _
  · rfl
  · exact isNaN_roundWithAccuracy _ _ _ _

/-- Only of two finite numbers with one sign does the order depend on more than their kinds. -/
theorem compare_swap (f g : Parts) : g.compare f = (f.compare g).map Ordering.swap := by
  have hfinite (m m' : Nat) (e e' : Int) :
      (compare e' e).then (compare m' m) = ((compare e e').then (compare m m')).swap := by
    rw [Ordering.swap_then, ← Std.OrientedCmp.eq_swap, ← Std.OrientedCmp.eq_swap]
  rcases f with (_ | _) | _ | (_ | _) | ⟨_ | _, m, e, hm⟩ <;>
    rcases g with (_ | _) | _ | (_ | _) | ⟨_ | _, m', e', hm'⟩
  any_goals rfl
  · exact congrArg (fun o => some o.swap) (hfinite m m' e e')
  · exact congrArg some (hfinite m m' e e')

theorem exists_compare {f g : Parts} (hf : f.isNaN = false) (hg : g.isNaN = false) :
    ∃ o, f.compare g = some o := by
  rcases f with (_ | _) | _ | (_ | _) | ⟨_ | _, m, e, hm⟩ <;>
    rcases g with (_ | _) | _ | (_ | _) | ⟨_ | _, m', e', hm'⟩
  any_goals exact ⟨_, rfl⟩
  all_goals first | exact Bool.noConfusion hf | exact Bool.noConfusion hg

end Parts

namespace Binary64

variable {x y : Float}

theorem isNaN_mul (hx : x.isNaN = false) (hy : Parts.isDivisor (Parts.ofFloat y)) :
    (x * y).isNaN = false :=
  Parts.isNaN_unpack_pack (Parts.isNaN_mul hx hy)

theorem isNaN_div (hx : x.isNaN = false) (hy : Parts.isDivisor (Parts.ofFloat y)) :
    (x / y).isNaN = false :=
  Parts.isNaN_unpack_pack (Parts.isNaN_div hx hy)

theorem isNaN_ofNat {n : Nat} (h : n < Nat.pow 2 53) : (Float.ofNat n).isNaN = false := by
  have hofNat : Float.ofNat n = n.toUInt64.toFloat * Float.ofBits 0x3FF0000000000000 := by
    change Float.ofScientific n false 0 = _
    rw [Float.ofScientific, dif_pos ⟨h, by decide⟩]
    rfl
  have hone : Parts.isDivisor (Parts.ofFloat (Float.ofBits 0x3FF0000000000000)) := rfl
  have hword : n.toUInt64.toFloat.isNaN = false := Parts.isNaN_unpack_pack (Parts.isNaN_ofNat _)
  rw [hofNat]
  exact isNaN_mul hword hone

theorem beq_self (h : x.isNaN = false) : (x == x) = true := by
  rw [Float.isNaN_eq_decide_eq_nan] at h
  exact Float.beq_self_iff.2 (of_decide_eq_false h)

theorem lt_iff : x < y ↔ (Parts.ofFloat x).compare (Parts.ofFloat y) = some .lt := by
  change decide ((Parts.ofFloat x).lt (Parts.ofFloat y) = true) = true ↔ _
  rw [decide_eq_true_iff]
  exact beq_iff_eq

theorem le_iff : x ≤ y ↔ ∃ o, (Parts.ofFloat x).compare (Parts.ofFloat y) = some o ∧ o.isLE := by
  change decide ((Parts.ofFloat x).le (Parts.ofFloat y) = true) = true ↔ _
  rw [decide_eq_true_iff]
  exact Option.any_eq_true _ _

theorem le_of_not_lt (hx : x.isNaN = false) (hy : y.isNaN = false) (h : ¬ x < y) : y ≤ x := by
  obtain ⟨o, ho⟩ := Parts.exists_compare (f := Parts.ofFloat x) (g := Parts.ofFloat y) hx hy
  rw [lt_iff, ho] at h
  rw [le_iff, Parts.compare_swap, ho]
  refine ⟨o.swap, rfl, ?_⟩
  cases o with
  | lt => exact absurd rfl h
  | eq => rfl
  | gt => rfl

/-- Zero times anything is a zero, or no number where the other one is not finite. -/
theorem zero_mul_cases (x : Float) : 0 * x = 0 ∨ 0 * x = -0 ∨ 0 * x = Float.nan := by
  have hmul : 0 * x =
      .ofModel (.pack (UnpackedFloat.mul .binary64 (.zero .positive) (Parts.ofFloat x))) := rfl
  rw [hmul]
  cases Parts.ofFloat x with
  | infinity sign => exact .inr (.inr rfl)
  | notANumber => exact .inr (.inr rfl)
  | zero sign =>
    cases sign with
    | negative => exact .inr (.inl rfl)
    | positive => exact .inl rfl
  | finite sign m e hm =>
    cases sign with
    | negative => exact .inr (.inl rfl)
    | positive => exact .inl rfl

end Binary64

end AtomicStyle
