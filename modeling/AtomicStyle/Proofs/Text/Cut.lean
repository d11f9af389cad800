import AtomicStyle.Text.Blank
import Mathlib.Tactic.SplitIfs

/-!
# Cutting bytes off a text

Bytes cut off the end of a text leave it whole or go through one of its characters, and the latter
happens exactly where the end of the cut lies strictly inside the bytes of a character
(`cutEnd_eq_inside_iff`). A text of single bytes is never cut through.
-/

namespace AtomicStyle.Text

/-- The number of bytes of the UTF-8 form. -/
def byteCount : List Char → Nat
  | [] => 0
  | c :: cs => c.utf8Size + byteCount cs

/-- The last `n` bytes of the text begin inside a character. -/
def Splits (n : Nat) (cs : List Char) : Prop :=
  ∃ front c back, cs = front ++ c :: back ∧ byteCount back < n ∧ n < byteCount back + c.utf8Size

/-- All characters have one byte. -/
def Ascii (cs : List Char) : Prop := ∀ c ∈ cs, c.utf8Size = 1

instance (cs : List Char) : Decidable (Ascii cs) :=
  decidable_of_iff (cs.all fun c => c.utf8Size == 1) (by simp [Ascii])

@[simp] theorem byteCount_nil : byteCount [] = 0 := rfl

@[simp] theorem byteCount_cons (c : Char) (cs : List Char) :
    byteCount (c :: cs) = c.utf8Size + byteCount cs := rfl

theorem byteCount_append (cs ds : List Char) :
    byteCount (cs ++ ds) = byteCount cs + byteCount ds := by
  induction cs with
  | nil => simp
  | cons c cs ih => rw [List.cons_append, byteCount_cons, ih, byteCount_cons, Nat.add_assoc]

@[simp] theorem byteCount_reverse (cs : List Char) : byteCount cs.reverse = byteCount cs := by
  induction cs with
  | nil => rfl
  | cons c cs ih => simp [byteCount_append, ih, Nat.add_comm]

theorem cutBack_eq_inside_iff {n : Nat} {text back : List Char} :
    cutBack n text back = .inside ↔
      ∃ before c after, text = before ++ c :: after ∧ byteCount before < n ∧
        n < byteCount before + c.utf8Size := by
  induction text generalizing n back with
  | nil => cases n <;> simp [cutBack]
  | cons d text ih =>
    cases n with
    | zero => simp [cutBack]
    | succ n =>
      rw [cutBack]
      split_ifs with hd
      · rw [ih]
        constructor
        · rintro ⟨before, c, after, rfl, hlow, hhigh⟩
          refine ⟨d :: before, c, after, rfl, ?_, ?_⟩ <;> rw [byteCount_cons] <;> omega
        · rintro ⟨before, c, after, heq, hlow, hhigh⟩
          rcases before with _ | ⟨b, before⟩
          · obtain ⟨rfl, rfl⟩ := List.cons.inj heq
            simp only [byteCount_nil] at hhigh
            omega
          · obtain ⟨rfl, rfl⟩ := List.cons.inj heq
            rw [byteCount_cons] at hlow hhigh
            exact ⟨before, c, after, rfl, by omega, by omega⟩
      · refine iff_of_true rfl ⟨[], d, text, rfl, ?_, ?_⟩ <;> rw [byteCount_nil] <;> omega

theorem cutEnd_eq_inside_iff {n : Nat} {cs : List Char} : cutEnd n cs = .inside ↔ Splits n cs := by
  rw [cutEnd, cutBack_eq_inside_iff]
  constructor
  · rintro ⟨before, c, after, heq, hlow, hhigh⟩
    refine ⟨after.reverse, c, before.reverse, ?_, ?_, ?_⟩
    · rw [← List.reverse_reverse cs, heq]
      simp
    · rwa [byteCount_reverse]
    · rwa [byteCount_reverse]
  · rintro ⟨front, c, back, rfl, hlow, hhigh⟩
    refine ⟨back.reverse, c, front.reverse, by simp, ?_, ?_⟩
    · rwa [byteCount_reverse]
    · rwa [byteCount_reverse]

theorem eq_append_of_cutBack {n : Nat} {text back front rest : List Char}
    (h : cutBack n text back = .apart front rest) : text.reverse ++ back = front ++ rest := by
  induction text generalizing n back with
  | nil =>
    cases n with
    | zero =>
      cases h
      rfl
    | succ n => cases h
  | cons c text ih =>
    cases n with
    | zero =>
      cases h
      rfl
    | succ n =>
      rw [cutBack] at h
      split_ifs at h
      rw [← ih h]
      simp

theorem eq_append_of_cutEnd {n : Nat} {cs front rest : List Char}
    (h : cutEnd n cs = .apart front rest) : cs = front ++ rest := by
  rw [← eq_append_of_cutBack h, List.append_nil, List.reverse_reverse]

theorem Ascii.append {cs ds : List Char} (hcs : Ascii cs) (hds : Ascii ds) : Ascii (cs ++ ds) :=
  List.forall_mem_append.2 ⟨hcs, hds⟩

theorem Ascii.cons {c : Char} {cs : List Char} (hc : c.utf8Size = 1) (hcs : Ascii cs) :
    Ascii (c :: cs) :=
  List.forall_mem_cons.2 ⟨hc, hcs⟩

theorem Ascii.not_splits {cs : List Char} (h : Ascii cs) (n : Nat) : ¬ Splits n cs := by
  rintro ⟨front, c, back, rfl, hlow, hhigh⟩
  rw [h c (by simp)] at hhigh
  omega

end AtomicStyle.Text
