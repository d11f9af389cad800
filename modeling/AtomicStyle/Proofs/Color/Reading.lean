import AtomicStyle.Color.Reading
import Mathlib.Tactic.SplitIfs

/-!
# What is rejected

Reading a text stops without an answer for one reason only, an angle whose unit would begin inside
a character. Everything else that is wrong with a text is a flaw of the whole text, so a rejection
carries the text itself (`input_of_parse_rejected`).
-/

namespace AtomicStyle.Color

theorem eq_splitCharacter_of_angleWith :
    ∀ (units : List (List Char × (Float32 → Float32))) {cs : List Char} {e : Failure},
      angleWith units cs = .error e → e = .splitCharacter
  | [], cs, e, h => by simp [angleWith] at h
  | (name, degrees) :: units, cs, e, h => by
    simp only [angleWith] at h
    split at h
    · exact eq_splitCharacter_of_angleWith units h
    · cases h
      rfl
    · split_ifs at h
      · split at h
        · cases h
        · exact eq_splitCharacter_of_angleWith units h
      · exact eq_splitCharacter_of_angleWith units h

/-- What follows an attempt without a failure of its own fails only with the attempt. -/
theorem bind_pure_eq_error_iff {α β : Type} {attempt : Except Failure α} {f : α → β} {e : Failure} :
    (do return f (← attempt)) = .error e ↔ attempt = .error e := by
  rcases attempt with e' | a <;> simp [bind, Except.bind, pure, Except.pure]

theorem eq_splitCharacter_of_hueShares? {model : Float32 → Float32 → Float32 → Shares}
    {a : Arguments} {e : Failure} (h : hueShares? model a = .error e) : e = .splitCharacter :=
  eq_splitCharacter_of_angleWith angleUnits (bind_pure_eq_error_iff.1 h)

theorem eq_splitCharacter_of_oklchShares? {a : Arguments} {e : Failure}
    (h : oklchShares? a = .error e) : e = .splitCharacter :=
  eq_splitCharacter_of_angleWith angleUnits (bind_pure_eq_error_iff.1 h)

theorem eq_splitCharacter_of_functionShares {name : List Char} {a : Arguments} {e : Failure}
    (h : functionShares name a = .error e) : e = .splitCharacter := by
  simp only [functionShares] at h
  split at h
  · cases h
  · cases h
  · exact eq_splitCharacter_of_hueShares? (bind_pure_eq_error_iff.1 h)
  · exact eq_splitCharacter_of_hueShares? (bind_pure_eq_error_iff.1 h)
  · exact eq_splitCharacter_of_hueShares? (bind_pure_eq_error_iff.1 h)
  · exact eq_splitCharacter_of_hueShares? (bind_pure_eq_error_iff.1 h)
  · exact eq_splitCharacter_of_hueShares? (bind_pure_eq_error_iff.1 h)
  · exact eq_splitCharacter_of_hueShares? (bind_pure_eq_error_iff.1 h)
  · cases h
  · exact eq_splitCharacter_of_oklchShares? (bind_pure_eq_error_iff.1 h)
  · cases h

theorem eq_splitCharacter_of_readTrimmed {cs : List Char} {e : Failure}
    (h : readTrimmed cs = .error e) : e = .splitCharacter := by
  simp only [readTrimmed] at h
  split_ifs at h
  split at h
  · cases h
  · split at h
    · simp only [ofFunction] at h
      split at h
      · cases h
      · exact eq_splitCharacter_of_functionShares (bind_pure_eq_error_iff.1 h)
    · split at h <;> cases h

/-- A rejection carries the text that is rejected. -/
theorem input_of_parse_rejected {input : String} {error : ColorError}
    (h : parse input = .error (.rejected error)) : error.input = input := by
  simp only [parse] at h
  split at h
  · rename_i e he
    have hsplit := eq_splitCharacter_of_readTrimmed he
    rw [hsplit] at h
    cases h
  · cases h
    rfl
  · cases h

end AtomicStyle.Color
