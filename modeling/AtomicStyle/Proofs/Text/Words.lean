import AtomicStyle.Text.Blank
import Mathlib.Data.List.TakeDrop
import Mathlib.Tactic.SplitIfs

/-!
# Words in a text

A word ends at the first separator, and the separators after it are left out (`words_append`). A
text that neither begins nor ends with a blank has nothing to be trimmed (`trim_eq_self`).
-/

namespace AtomicStyle.Text

theorem dropWhile_eq_self {p : Char → Bool} {cs : List Char}
    (h : ∀ c ∈ cs.head?, p c = false) : cs.dropWhile p = cs := by
  rcases cs with _ | ⟨c, cs⟩
  · rfl
  · exact List.dropWhile_cons_of_neg (by simp [h c rfl])

theorem trim_eq_self {cs : List Char} (hhead : ∀ c ∈ cs.head?, isBlank c = false)
    (hlast : ∀ c ∈ cs.getLast?, isBlank c = false) : trim cs = cs := by
  have hback : ∀ c ∈ cs.reverse.head?, isBlank c = false := by
    rwa [List.head?_reverse]
  rw [trim, dropWhile_eq_self hhead, trimEnd, dropWhile_eq_self hback, List.reverse_reverse]

section Words

variable {isSeparator : Char → Bool} {w : List Char}

theorem words_cons_of_separator {c : Char} (hc : isSeparator c) (cs : List Char) :
    words isSeparator (c :: cs) = words isSeparator cs := by
  rw [words.eq_def]
  simp [hc]

theorem words_cons_of_letter {c d : Char} {cs : List Char} {w : List Char} {ws : List (List Char)}
    (hc : isSeparator c = false) (hd : isSeparator d = false)
    (h : words isSeparator (d :: cs) = w :: ws) :
    words isSeparator (c :: d :: cs) = (c :: w) :: ws := by
  rw [words.eq_def]
  simp [hc, hd, h]

theorem words_word (hne : w ≠ []) (hw : ∀ c ∈ w, isSeparator c = false) :
    words isSeparator w = [w] := by
  induction w with
  | nil => exact absurd rfl hne
  | cons c w ih =>
    obtain ⟨hc, hrest⟩ := List.forall_mem_cons.1 hw
    rcases w with _ | ⟨d, w⟩
    · simp [words, hc]
    · exact words_cons_of_letter hc (hrest d (by simp)) (ih (by simp) hrest)

theorem words_append {c : Char} (hne : w ≠ []) (hw : ∀ c ∈ w, isSeparator c = false)
    (hc : isSeparator c) (cs : List Char) :
    words isSeparator (w ++ c :: cs) = w :: words isSeparator cs := by
  induction w with
  | nil => exact absurd rfl hne
  | cons a w ih =>
    obtain ⟨ha, hrest⟩ := List.forall_mem_cons.1 hw
    rcases w with _ | ⟨b, w⟩
    · have hskip := words_cons_of_separator hc cs
      rw [List.singleton_append, words.eq_def]
      rcases hws : words isSeparator cs with _ | ⟨v, vs⟩
      · simp [ha, hskip, hws]
      · simp [ha, hc, hskip, hws]
    · exact words_cons_of_letter ha (hrest b (by simp)) (ih (by simp) hrest)

end Words

end AtomicStyle.Text
