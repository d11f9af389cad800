import AtomicStyle.Json.Number
import Mathlib.Data.List.TakeDrop
import Mathlib.Data.List.TakeWhile
import Mathlib.Tactic.SplitIfs

/-!
# Numbers in front of the rest of a document

A number ends where its digits end: one that is read on its own is read as the same number in front
of a comma or a closing bracket, and leaves just these (`readNumber_append`).
-/

namespace AtomicStyle.Json

/-- Nothing more comes, or what closes a value or separates it from the next. -/
def Closes (rest : List Char) : Prop := ∀ c ∈ rest.head?, c = ',' ∨ c = ']' ∨ c = '\x7d'

theorem closes_nil : Closes [] := by simp [Closes]

theorem Closes.not_isDigit {rest : List Char} (h : Closes rest) :
    ∀ c ∈ rest.head?, c.isDigit = false := by
  intro c hc
  rcases h c hc with rfl | rfl | rfl <;> rfl

theorem Closes.not_mark {rest : List Char} (h : Closes rest) :
    ∀ c ∈ rest.head?, c ≠ '.' ∧ c ≠ 'e' ∧ c ≠ 'E' := by
  intro c hc
  rcases h c hc with rfl | rfl | rfl <;> decide

theorem forall_head?_append {p : Char → Prop} {cs rest : List Char} (hcs : ∀ c ∈ cs.head?, p c)
    (hrest : ∀ c ∈ rest.head?, p c) : ∀ c ∈ (cs ++ rest).head?, p c := by
  rcases cs with _ | ⟨c, cs⟩
  · exact hrest
  · exact hcs

theorem span_append {p : Char → Bool} {rest : List Char} (h : ∀ c ∈ rest.head?, p c = false)
    (cs : List Char) : (cs ++ rest).span p = ((cs.span p).1, (cs.span p).2 ++ rest) := by
  have hrest : rest.takeWhile p = [] ∧ rest.dropWhile p = rest := by
    rcases rest with _ | ⟨c, rest⟩
    · simp
    · simp [h c rfl]
  simp only [List.span_eq_takeWhile_dropWhile]
  induction cs with
  | nil => simp [hrest]
  | cons c cs ih =>
    by_cases hc : p c
    · simpa [hc] using ih
    · simp [hc]

section Parts

variable {negative : Bool} {word : Nat} {rest : List Char}

/-- What is read after the sign of a power, `down` being whether the sign is a minus. -/
def powerDigits (negative : Bool) (word : Nat) (e : Int) (down : Bool) (cs : List Char) :
    Except Flaw (Float × List Char) :=
  let (ds, rest) := cs.span Char.isDigit
  if ds.isEmpty then .error (missingDigit cs)
  else
    let power := Decimal.ofDigits ds
    if power < Nat.pow 2 31 then do
      return (← assemble negative word (if down then e - power else e + power), rest)
    else if word ≠ 0 ∧ !down then .error .malformed
    else .ok (if negative then -0 else 0, rest)

theorem readPower_minus (e : Int) (cs : List Char) :
    readPower negative word e ('-' :: cs) = powerDigits negative word e true cs := rfl

theorem readPower_plus (e : Int) (cs : List Char) :
    readPower negative word e ('+' :: cs) = powerDigits negative word e false cs := rfl

theorem readPower_cons {c : Char} (hminus : c ≠ '-') (hplus : c ≠ '+') (e : Int)
    (cs : List Char) :
    readPower negative word e (c :: cs) = powerDigits negative word e false (c :: cs) := by
  simp [readPower, powerDigits, hminus, hplus]

theorem exists_of_map_eq_ok {ε α β : Type} {attempt : Except ε α} {f : α → β} {b : β}
    (h : (do return f (← attempt)) = (.ok b : Except ε β)) : ∃ a, attempt = .ok a ∧ f a = b := by
  rcases attempt with e | a
  · cases h
  · exact ⟨a, rfl, Except.ok.inj h⟩

theorem powerDigits_append (hrest : Closes rest) {e : Int} {down : Bool} {cs left : List Char}
    {x : Float} (h : powerDigits negative word e down cs = .ok (x, left)) :
    powerDigits negative word e down (cs ++ rest) = .ok (x, left ++ rest) := by
  simp only [powerDigits, span_append hrest.not_isDigit] at h ⊢
  split at h
  · cases h
  · rename_i hds
    rw [if_neg hds]
    split at h
    · rename_i hpower
      obtain ⟨y, hy, hread⟩ := exists_of_map_eq_ok h
      cases hread
      rw [if_pos hpower, hy]
      rfl
    · rename_i hpower
      rw [if_neg hpower]
      split at h
      · cases h
      · rename_i hword
        cases h
        rw [if_neg hword]

theorem readPower_append (hrest : Closes rest) {e : Int} {cs left : List Char} {x : Float}
    (h : readPower negative word e cs = .ok (x, left)) :
    readPower negative word e (cs ++ rest) = .ok (x, left ++ rest) := by
  rcases cs with _ | ⟨c, cs⟩
  · cases h
  · by_cases hminus : c = '-'
    · subst hminus
      rw [readPower_minus] at h
      rw [List.cons_append, readPower_minus]
      exact powerDigits_append hrest h
    · by_cases hplus : c = '+'
      · subst hplus
        rw [readPower_plus] at h
        rw [List.cons_append, readPower_plus]
        exact powerDigits_append hrest h
      · rw [readPower_cons hminus hplus] at h
        rw [List.cons_append, readPower_cons hminus hplus]
        exact powerDigits_append hrest h

theorem readScale_of_not_mark (e : Int) {cs : List Char}
    (h : ∀ c ∈ cs.head?, c ≠ 'e' ∧ c ≠ 'E') :
    readScale negative word e cs = do return (← assemble negative word e, cs) := by
  rcases cs with _ | ⟨c, cs⟩
  · rfl
  · obtain ⟨hlower, hupper⟩ := h c rfl
    simp [readScale, hlower, hupper]

theorem readScale_append (hrest : Closes rest) {e : Int} {cs left : List Char} {x : Float}
    (h : readScale negative word e cs = .ok (x, left)) :
    readScale negative word e (cs ++ rest) = .ok (x, left ++ rest) := by
  by_cases hmark : ∀ c ∈ cs.head?, c ≠ 'e' ∧ c ≠ 'E'
  · rw [readScale_of_not_mark e hmark] at h
    obtain ⟨y, hy, hread⟩ := exists_of_map_eq_ok h
    cases hread
    rw [readScale_of_not_mark e (forall_head?_append hmark fun c hc => (hrest.not_mark c hc).2), hy]
    rfl
  · rcases cs with _ | ⟨c, cs⟩
    · simp at hmark
    · have hc : c = 'e' ∨ c = 'E' := by simpa [or_iff_not_imp_left] using hmark
      rcases hc with rfl | rfl
      · exact readPower_append hrest h
      · exact readPower_append hrest h

theorem readTail_of_not_mark (dropped : Nat) {cs : List Char}
    (h : ∀ c ∈ cs.head?, c ≠ '.' ∧ c ≠ 'e' ∧ c ≠ 'E') :
    readTail negative word dropped cs =
      if 0 < dropped ∨ (negative ∧ (word = 0 ∨ Nat.pow 2 63 < word)) then do
        let (x, rest) ← readScale negative word dropped cs
        return (.float x, rest)
      else .ok (.integer (if negative then -word else word), cs) := by
  rcases cs with _ | ⟨c, cs⟩
  · rfl
  · obtain ⟨hpoint, hlower, hupper⟩ := h c rfl
    simp [readTail, hpoint, hlower, hupper]

/-- A number with a power of ten is a number of binary64. -/
theorem readScale_float_append (hrest : Closes rest) {e : Int} {cs left : List Char} {n : Number}
    (h : (do let (x, rest) ← readScale negative word e cs; return (.float x, rest)) =
      (.ok (n, left) : Except Flaw (Number × List Char))) :
    (do let (x, rest) ← readScale negative word e (cs ++ rest); return (.float x, rest)) =
      (.ok (n, left ++ rest) : Except Flaw (Number × List Char)) := by
  obtain ⟨⟨x, left'⟩, hread, heq⟩ := exists_of_map_eq_ok h
  cases heq
  rw [readScale_append hrest hread]
  rfl

theorem readTail_append (hrest : Closes rest) {dropped : Nat} {cs left : List Char} {n : Number}
    (h : readTail negative word dropped cs = .ok (n, left)) :
    readTail negative word dropped (cs ++ rest) = .ok (n, left ++ rest) := by
  by_cases hmark : ∀ c ∈ cs.head?, c ≠ '.' ∧ c ≠ 'e' ∧ c ≠ 'E'
  · rw [readTail_of_not_mark dropped hmark] at h
    rw [readTail_of_not_mark dropped (forall_head?_append hmark hrest.not_mark)]
    split at h
    · rename_i hscaled
      rw [if_pos hscaled]
      exact readScale_float_append hrest h
    · rename_i hscaled
      cases h
      rw [if_neg hscaled]
  · rcases cs with _ | ⟨c, cs⟩
    · simp at hmark
    · have hc : c = '.' ∨ c = 'e' ∨ c = 'E' := by
        simpa [or_iff_not_imp_left] using hmark
      rcases hc with rfl | rfl | rfl
      · simp only [readTail, List.cons_append, span_append hrest.not_isDigit] at h ⊢
        split at h
        · cases h
        · rename_i hds
          rw [if_neg hds]
          exact readScale_float_append hrest h
      · exact readScale_float_append hrest h
      · exact readScale_float_append hrest h

theorem readUnsigned_of_not_zero {cs : List Char} (h : cs.head? ≠ some '0') :
    readUnsigned negative cs =
      if (cs.span Char.isDigit).1.isEmpty then .error (missingDigit cs)
      else
        readTail negative (gather 0 (cs.span Char.isDigit).1).1
          (gather 0 (cs.span Char.isDigit).1).2.length (cs.span Char.isDigit).2 := by
  rw [readUnsigned.eq_def]
  split
  · exact absurd rfl h
  · rfl

theorem readUnsigned_append (hrest : Closes rest) {cs left : List Char} {n : Number}
    (h : readUnsigned negative cs = .ok (n, left)) :
    readUnsigned negative (cs ++ rest) = .ok (n, left ++ rest) := by
  rcases cs with _ | ⟨c, cs⟩
  · cases h
  · by_cases hzero : c = '0'
    · subst hzero
      rcases cs with _ | ⟨c, cs⟩
      · have hread : readTail negative 0 0 ([] ++ rest) = .ok (n, left ++ rest) :=
          readTail_append hrest h
        rcases rest with _ | ⟨d, rest⟩
        · exact hread
        · simpa [readUnsigned, hrest.not_isDigit d rfl] using hread
      · simp only [readUnsigned, List.cons_append] at h ⊢
        split at h
        · cases h
        · rename_i hdigit
          rw [if_neg hdigit]
          exact readTail_append hrest h
    · rw [readUnsigned_of_not_zero (by simpa using hzero)] at h
      rw [readUnsigned_of_not_zero (by simpa using hzero), span_append hrest.not_isDigit]
      split at h
      · cases h
      · rename_i hds
        rw [if_neg hds]
        exact readTail_append hrest h

end Parts

theorem readNumber_of_not_minus {cs : List Char} (h : cs.head? ≠ some '-') :
    readNumber cs = readUnsigned false cs := by
  rw [readNumber.eq_def]
  split
  · exact absurd rfl h
  · rfl

theorem readNumber_append {rest : List Char} (hrest : Closes rest) {cs left : List Char}
    {n : Number} (h : readNumber cs = .ok (n, left)) :
    readNumber (cs ++ rest) = .ok (n, left ++ rest) := by
  rcases cs with _ | ⟨c, cs⟩
  · cases h
  · by_cases hminus : c = '-'
    · subst hminus
      exact readUnsigned_append hrest h
    · rw [readNumber_of_not_minus (by simpa using hminus)] at h
      rw [readNumber_of_not_minus (by simpa using hminus)]
      exact readUnsigned_append hrest h

/-- A number begins with a minus or a digit. -/
theorem exists_cons_of_readNumber {cs : List Char} {read : Number × List Char}
    (h : readNumber cs = .ok read) : ∃ c tail, cs = c :: tail ∧ (c = '-' ∨ c.isDigit) := by
  rcases cs with _ | ⟨c, cs⟩
  · cases h
  · refine ⟨c, cs, rfl, or_iff_not_imp_left.2 fun hminus => ?_⟩
    rw [readNumber_of_not_minus (by simpa using hminus)] at h
    by_contra hdigit
    have hzero : c ≠ '0' := by
      rintro rfl
      exact hdigit rfl
    rw [readUnsigned_of_not_zero (by simpa using hzero)] at h
    simp [List.span_eq_takeWhile_dropWhile, hdigit] at h

end AtomicStyle.Json
