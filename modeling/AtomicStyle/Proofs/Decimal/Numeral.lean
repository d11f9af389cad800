import AtomicStyle.Decimal.Layout
import AtomicStyle.Decimal.Numeral
import Mathlib.Data.List.TakeDrop
import Mathlib.Data.List.TakeWhile
import Mathlib.Tactic.SplitIfs

/-!
# Written numbers are numerals

The digits of a natural number are a numeral for it (`read?_digits`). A number of any kind that is
written without a power of ten is a numeral too (`exists_read?_chars`): digits with at most one
point, which has digits before it, or one of the words for what is not finite.
-/

namespace AtomicStyle

namespace Decimal

theorem isDigit_of_mem_digits {n : Nat} {c : Char} (h : c ∈ digits n) : c.isDigit :=
  Nat.isDigit_of_mem_toDigits (by decide) (by decide) h

theorem ofDigits_digits (n : Nat) : ofDigits (digits n) = n := by
  have hvalue : ofDigits (digits n) = Nat.ofDigitChars 10 (Nat.toDigits 10 n) 0 :=
    Nat.ofDigitChars_eq_foldl.symm
  rw [hvalue, Nat.ofDigitChars_ten_toDigits]

end Decimal

namespace Numeral

open Decimal

theorem span_isDigit_of_digits {ds : List Char} (h : ∀ c ∈ ds, c.isDigit) :
    ds.span Char.isDigit = (ds, []) := by
  have htake : ds.takeWhile Char.isDigit = ds := List.takeWhile_eq_self_iff.2 h
  have hdrop : ds.dropWhile Char.isDigit = [] := List.dropWhile_eq_nil_iff.2 h
  rw [List.span_eq_takeWhile_dropWhile, htake, hdrop]

theorem span_isDigit_point {ds : List Char} (h : ∀ c ∈ ds, c.isDigit) (rest : List Char) :
    (ds ++ '.' :: rest).span Char.isDigit = (ds, '.' :: rest) := by
  have hpoint : ¬ ('.' : Char).isDigit := by decide
  rw [List.span_eq_takeWhile_dropWhile, List.takeWhile_append_of_pos h,
    List.dropWhile_append_of_pos h, List.takeWhile_cons_of_neg hpoint, List.append_nil,
    List.dropWhile_cons_of_neg hpoint]

theorem decimal?_digits {ds : List Char} (hne : ds ≠ []) (h : ∀ c ∈ ds, c.isDigit) :
    decimal? ds = some ⟨ofDigits ds, 0⟩ := by
  simp only [decimal?, span_isDigit_of_digits h]
  simp [fraction, power?, hne]

theorem decimal?_point {whole part : List Char} (hne : whole ≠ [])
    (hwhole : ∀ c ∈ whole, c.isDigit) (hpart : ∀ c ∈ part, c.isDigit) :
    decimal? (whole ++ '.' :: part) = some ⟨ofDigits (whole ++ part), -part.length⟩ := by
  simp only [decimal?, span_isDigit_point hwhole, fraction, span_isDigit_of_digits hpart]
  simp [power?, hne]

/-- Digits, with a point and further digits if there are any. -/
inductive Positional : List Char → Prop
  | whole {ds : List Char} : ds ≠ [] → (∀ c ∈ ds, c.isDigit) → Positional ds
  | point {whole part : List Char} : whole ≠ [] → (∀ c ∈ whole, c.isDigit) →
      (∀ c ∈ part, c.isDigit) → Positional (whole ++ '.' :: part)

theorem Positional.exists_decimal? {cs : List Char} (h : Positional cs) :
    ∃ d, decimal? cs = some d := by
  rcases h with ⟨hne, hds⟩ | ⟨hne, hwhole, hpart⟩
  · exact ⟨_, decimal?_digits hne hds⟩
  · exact ⟨_, decimal?_point hne hwhole hpart⟩

theorem Positional.exists_cons {cs : List Char} (h : Positional cs) :
    ∃ c rest, cs = c :: rest ∧ c.isDigit := by
  rcases h with ⟨hne, hds⟩ | ⟨hne, hwhole, -⟩
  · obtain ⟨c, rest, rfl⟩ := List.exists_cons_of_ne_nil hne
    exact ⟨c, rest, rfl, hds c (by simp)⟩
  · obtain ⟨c, rest, rfl⟩ := List.exists_cons_of_ne_nil hne
    exact ⟨c, _, rfl, hwhole c (by simp)⟩

theorem Positional.mem {cs : List Char} (h : Positional cs) {c : Char} (hc : c ∈ cs) :
    c.isDigit ∨ c = '.' := by
  rcases h with ⟨-, hds⟩ | ⟨-, hwhole, hpart⟩
  · exact .inl (hds c hc)
  · simp only [List.mem_append, List.mem_cons] at hc
    rcases hc with hc | hc | hc
    · exact .inl (hwhole c hc)
    · exact .inr hc
    · exact .inl (hpart c hc)

theorem toLower_of_isDigit {c : Char} (h : c.isDigit) : c.toLower = c := by
  simp only [Char.isDigit, Bool.and_eq_true, decide_eq_true_eq] at h
  unfold Char.toLower
  split_ifs with hupper
  · have hle := UInt32.le_trans hupper.1 h.2
    exact absurd hle (by decide)
  · rfl

/-- A text that begins with a digit is none of the words. -/
theorem read?_of_isDigit {c : Char} (hc : c.isDigit) (cs : List Char) :
    read? (c :: cs) = (decimal? (c :: cs)).map (.finite false) := by
  have hsign : sign (c :: cs) = (false, c :: cs) := by
    unfold sign
    split <;> simp_all
  have hi : c ≠ 'i' := by rintro rfl; simp at hc
  have hn : c ≠ 'n' := by rintro rfl; simp at hc
  unfold read?
  simp [hsign, lower, toLower_of_isDigit hc, hi, hn]

theorem read?_minus {c : Char} (hc : c.isDigit) (cs : List Char) :
    read? ('-' :: c :: cs) = (decimal? (c :: cs)).map (.finite true) := by
  have hi : c ≠ 'i' := by rintro rfl; simp at hc
  have hn : c ≠ 'n' := by rintro rfl; simp at hc
  unfold read?
  simp [sign, lower, toLower_of_isDigit hc, hi, hn]

theorem read?_digits (n : Nat) : read? (digits n) = some (.finite false ⟨n, 0⟩) := by
  have hdigits : ∀ c ∈ digits n, c.isDigit := fun c => isDigit_of_mem_digits
  have hne : digits n ≠ [] := Nat.toDigits_ne_nil
  obtain ⟨c, cs, hcs⟩ := List.exists_cons_of_ne_nil hne
  have hc : c.isDigit := hdigits c (by simp [hcs])
  rw [hcs, read?_of_isDigit hc, ← hcs, decimal?_digits hne hdigits, ofDigits_digits]
  rfl

theorem exists_read?_signed {cs : List Char} (h : Positional cs)
    (sign : Float.Model.UnpackedFloat.Sign) : ∃ n, read? (signed sign cs) = some n := by
  obtain ⟨d, hd⟩ := h.exists_decimal?
  obtain ⟨c, rest, rfl, hc⟩ := h.exists_cons
  cases sign with
  | positive => exact ⟨.finite false d, by simp [signed, Parts.isNegative, read?_of_isDigit hc, hd]⟩
  | negative => exact ⟨.finite true d, by simp [signed, Parts.isNegative, read?_minus hc, hd]⟩

theorem isDigit_of_mem_zeros {n : Nat} {c : Char} (h : c ∈ List.replicate n '0') : c.isDigit := by
  rw [List.eq_of_mem_replicate h]
  decide

theorem positional_place {ds : List Char} (h : ∀ c ∈ ds, c.isDigit) (leading : Int) :
    Positional (plain.place ds leading) := by
  unfold Layout.place
  cases leading with
  | negSucc e =>
    have hpart : ∀ c ∈ List.replicate e '0' ++ ds, c.isDigit :=
      List.forall_mem_append.2 ⟨fun c => isDigit_of_mem_zeros, h⟩
    have hpoint : Positional (['0'] ++ '.' :: (List.replicate e '0' ++ ds)) :=
      .point (by simp) (by simp) hpart
    exact hpoint
  | ofNat e =>
    simp only [plain]
    rcases hfraction : ds.drop (e + 1) with _ | ⟨d, fraction⟩
    · have hlength : ds.length ≤ e + 1 := List.drop_eq_nil_iff.1 hfraction
      have hdigits : ∀ c ∈ ds ++ List.replicate (e + 1 - ds.length) '0', c.isDigit :=
        List.forall_mem_append.2 ⟨h, fun c => isDigit_of_mem_zeros⟩
      have hne : ds ++ List.replicate (e + 1 - ds.length) '0' ≠ [] := by
        intro hnil
        have := congrArg List.length hnil
        simp only [List.length_append, List.length_replicate, List.length_nil] at this
        omega
      simpa using Positional.whole hne hdigits
    · have htake : ∀ c ∈ ds.take (e + 1), c.isDigit := fun c hc => h c (List.mem_of_mem_take hc)
      have hdrop : ∀ c ∈ d :: fraction, c.isDigit := fun c hc =>
        h c (List.mem_of_mem_drop (hfraction ▸ hc))
      have hne : ds.take (e + 1) ≠ [] := by
        rw [Ne, List.take_eq_nil_iff]
        rintro (he | rfl)
        · omega
        · simp at hfraction
      simpa using Positional.point hne htake hdrop

theorem mem_of_mem_stripZeros {ds : List Char} {c : Char} (h : c ∈ stripZeros ds) : c ∈ ds := by
  rw [stripZeros, List.mem_reverse] at h
  exact List.mem_reverse.1 ((List.dropWhile_suffix _).mem h)

theorem positional_positive (mantissa : Nat) (exponent : Int) :
    Positional (plain.positive mantissa exponent) := by
  unfold Layout.positive
  refine positional_place (fun c hc => ?_) _
  exact isDigit_of_mem_digits (mem_of_mem_stripZeros hc)

theorem positional_zero : Positional ['0'] := .whole (by simp) (by simp)

/-- A number without powers of ten is written as a numeral, also one that is not finite. -/
theorem exists_read?_chars (x : Float) : ∃ n, read? (plain.chars x) = some n := by
  unfold Layout.chars
  split
  · exact ⟨.notANumber, rfl⟩
  · rename_i sign _
    cases sign with
    | positive => exact ⟨.infinite false, rfl⟩
    | negative => exact ⟨.infinite true, rfl⟩
  · exact exists_read?_signed positional_zero _
  · exact exists_read?_signed (positional_positive _ _) _

theorem mem_signed {sign : Float.Model.UnpackedFloat.Sign} {cs : List Char} {c : Char}
    (h : c ∈ signed sign cs) : c = '-' ∨ c ∈ cs := by
  unfold signed at h
  split_ifs at h
  · exact List.mem_cons.1 h
  · exact .inr h

/-- The characters of written numbers without powers of ten. -/
def written (c : Char) : Bool := c.isDigit || ['.', '-', 'N', 'a', 'i', 'n', 'f'].contains c

theorem written_of_isDigit {c : Char} (h : c.isDigit) : written c := by
  simp [written, h]

theorem Positional.written_signed {cs : List Char} (h : Positional cs)
    {sign : Float.Model.UnpackedFloat.Sign} {c : Char} (hc : c ∈ signed sign cs) : written c := by
  rcases mem_signed hc with rfl | hmem
  · rfl
  · rcases h.mem hmem with hdigit | rfl
    · exact written_of_isDigit hdigit
    · rfl

theorem written_of_mem_chars {x : Float} {c : Char} (h : c ∈ plain.chars x) : written c := by
  unfold Layout.chars at h
  split at h
  · simp only [List.mem_cons, List.not_mem_nil, or_false] at h
    rcases h with rfl | rfl | rfl <;> rfl
  · have := mem_signed h
    simp only [List.mem_cons, List.not_mem_nil, or_false] at this
    rcases this with rfl | rfl | rfl | rfl <;> rfl
  · exact positional_zero.written_signed h
  · exact (positional_positive _ _).written_signed h

theorem written_of_mem_digits {n : Nat} {c : Char} (h : c ∈ digits n) : written c :=
  written_of_isDigit (isDigit_of_mem_digits h)

end Numeral

end AtomicStyle
