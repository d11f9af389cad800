import AtomicStyle.Json.Draft
import Mathlib.Tactic.SplitIfs

/-!
# Quoted texts read back

Each character is read back from what stands for it, be it the character itself, a short escape or
the digits of its number (`readText_escaped_append`), and so is every quoted text
(`readQuoted_append`), whatever follows its closing quote.
-/

namespace AtomicStyle.Json

theorem escaped_ne_nil (c : Char) : escaped c ≠ [] := by
  rw [escaped]
  split
  · simp
  · split_ifs <;> simp

/-- The digits of a number below 32, after two zeros, are read as the number. -/
theorem hexWord?_digitChar :
    ∀ n < 0x20, hexWord? '0' '0' (Nat.digitChar (n / 16)) (Nat.digitChar (n % 16)) = some n := by
  decide

theorem readEscape_word {c : Char} (h : c.toNat < 0x20) (rest : List Char) :
    readEscape ('u' :: '0' :: '0' :: Nat.digitChar (c.toNat / 16) ::
      Nat.digitChar (c.toNat % 16) :: rest) = .ok (c, rest) := by
  have hlow : ¬ (0xDC00 ≤ c.toNat ∧ c.toNat ≤ 0xDFFF) := by omega
  have hhigh : ¬ (0xD800 ≤ c.toNat ∧ c.toNat ≤ 0xDBFF) := by omega
  simp only [readEscape, readWord, hexWord?_digitChar _ h, bind, Except.bind, if_neg hlow,
    if_neg hhigh, Char.ofNat_toNat, pure, Except.pure]

theorem readEscape_of_shortEscape? {c letter : Char} (h : shortEscape? c = some letter)
    (rest : List Char) : readEscape (letter :: rest) = .ok (c, rest) := by
  rw [shortEscape?] at h
  split_ifs at h <;> subst_vars <;> cases h <;> rfl

theorem ne_of_shortEscape?_eq_none {c : Char} (h : shortEscape? c = none) : c ≠ '"' ∧ c ≠ '\\' := by
  constructor <;> rintro rfl <;> cases h

/-- What stands for a character is read as the character, before what follows is read. -/
theorem readText_escaped_append (fuel : Nat) (c : Char) (rest : List Char) :
    readText (fuel + 1) (escaped c ++ rest) =
      (readText fuel rest).map fun read => (c :: read.1, read.2) := by
  have hmap (attempt : Except Flaw (List Char × List Char)) :
      (do let read ← attempt; return (c :: read.1, read.2)) =
        attempt.map fun read => (c :: read.1, read.2) := by
    rcases attempt with flaw | read <;> rfl
  rw [escaped]
  split
  · rename_i letter hletter
    simp only [List.cons_append, List.nil_append, readText, readEscape_of_shortEscape? hletter]
    exact hmap _
  · rename_i hnone
    obtain ⟨hquote, hback⟩ := ne_of_shortEscape?_eq_none hnone
    split_ifs with hlow
    · simp only [List.cons_append, List.nil_append, readText, readEscape_word hlow]
      exact hmap _
    · rw [List.singleton_append, readText, if_neg hlow]
      · exact hmap _
      · simpa using hquote
      · simpa using hback

theorem readText_quoted (cs rest : List Char) :
    ∀ fuel, cs.length < fuel →
      readText fuel (cs.flatMap escaped ++ '"' :: rest) = .ok (cs, rest) := by
  induction cs with
  | nil =>
    intro fuel hfuel
    obtain ⟨fuel, rfl⟩ := Nat.exists_eq_add_one.2 hfuel
    rfl
  | cons c cs ih =>
    intro fuel hfuel
    rw [List.length_cons] at hfuel
    obtain ⟨fuel, rfl⟩ := Nat.exists_eq_add_one.2 (Nat.zero_lt_of_lt hfuel)
    rw [List.flatMap_cons, List.append_assoc, readText_escaped_append, ih fuel (by omega)]
    rfl

theorem length_le_length_flatMap_escaped (cs : List Char) :
    cs.length ≤ (cs.flatMap escaped).length := by
  induction cs with
  | nil => simp
  | cons c cs ih =>
    have hpos := List.length_pos_iff.2 (escaped_ne_nil c)
    rw [List.flatMap_cons, List.length_append, List.length_cons]
    omega

theorem readQuoted_append (s : String) (rest : List Char) :
    readQuoted (s.toList.flatMap escaped ++ '"' :: rest) = .ok (s, rest) := by
  have hlength := length_le_length_flatMap_escaped s.toList
  have hfuel : s.toList.length < (s.toList.flatMap escaped ++ '"' :: rest).length := by
    rw [List.length_append, List.length_cons]
    omega
  rw [readQuoted, readText_quoted s.toList rest _ hfuel]
  simp [bind, Except.bind, pure, Except.pure]

end AtomicStyle.Json
