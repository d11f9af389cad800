import AtomicStyle.Proofs.Color.Reading
import AtomicStyle.Proofs.Text.Cut
import Mathlib.Data.List.TakeDrop
import Mathlib.Data.List.TakeWhile

/-!
# Texts without an answer

A number is written in single bytes, so an angle with a unit and a number before it is never cut
through, and an angle is cut through exactly if its last three or its last four bytes begin inside a
character (`angle?_eq_error_iff`). From this follows for which texts reading stops without an
answer: function calls of enough arguments whose angle is such a text
(`parse_eq_splitCharacter_iff`). No text of single bytes is one (`not_splitsAngle_of_ascii`).
-/

namespace AtomicStyle

namespace Text

theorem exists_trimEnd_cons {c : Char} (h : isBlank c = false) (cs : List Char) :
    ∃ rest, trimEnd (c :: cs) = c :: rest := by
  rw [trimEnd, List.reverse_cons, List.dropWhile_append]
  split
  · exact ⟨[], by simp [h]⟩
  · exact ⟨trimEnd cs, by simp [trimEnd]⟩

theorem mem_of_mem_trim {c : Char} {cs : List Char} (h : c ∈ trim cs) : c ∈ cs := by
  rw [trim, trimEnd, List.mem_reverse] at h
  have hback := List.mem_reverse.1 ((List.dropWhile_suffix isBlank).mem h)
  exact (List.dropWhile_suffix isBlank).mem hback

theorem mem_of_words_eq {isSeparator : Char → Bool} {c : Char} {cs word : List Char}
    {ws : List (List Char)} (h : words isSeparator cs = ws) (hword : word ∈ ws) (hc : c ∈ word) :
    c ∈ cs := by
  rw [← h] at hword
  clear h
  induction cs generalizing word with
  | nil => simp [words] at hword
  | cons d cs ih =>
    rw [words.eq_def] at hword
    simp only at hword
    split_ifs at hword
    · exact List.mem_cons_of_mem d (ih hword hc)
    · split at hword
      · split_ifs at hword
        · grind
        · grind
      · grind

end Text

open Text

section Numerals

theorem utf8Size_of_isDigit {c : Char} (h : c.isDigit) : c.utf8Size = 1 := by
  rw [Char.utf8Size_eq_one_iff]
  simp only [Char.isDigit, Bool.and_eq_true, decide_eq_true_eq] at h
  exact UInt32.le_trans h.2 (by decide)

theorem utf8Size_of_toLower {c : Char} (h : c.toLower.utf8Size = 1) : c.utf8Size = 1 := by
  unfold Char.toLower at h
  split_ifs at h with hupper
  · rw [Char.utf8Size_eq_one_iff]
    exact UInt32.le_trans hupper.2 (by decide)
  · exact h

theorem ascii_of_lower {cs word : List Char} (h : cs.map Char.toLower = word) (hword : Ascii word) :
    Ascii cs := by
  intro c hc
  exact utf8Size_of_toLower (hword _ (h ▸ List.mem_map_of_mem hc))

theorem ascii_of_digits {ds : List Char} (h : ∀ d ∈ ds, d.isDigit) : Ascii ds :=
  fun d hd => utf8Size_of_isDigit (h d hd)

/-- A text is of single bytes if all that follows its leading digits is. -/
theorem ascii_of_span_isDigit {cs : List Char} (h : Ascii (cs.span Char.isDigit).2) : Ascii cs := by
  rw [List.span_eq_takeWhile_dropWhile] at h
  rw [← List.takeWhile_append_dropWhile (p := Char.isDigit) (l := cs)]
  exact (ascii_of_digits fun d hd => List.mem_takeWhile_imp hd).append h

namespace Numeral

theorem ascii_of_sign {cs : List Char} (h : Ascii (sign cs).2) : Ascii cs := by
  rw [sign.eq_def] at h
  split at h
  · exact .cons (by decide) h
  · exact .cons (by decide) h
  · exact h

theorem ascii_of_power? {cs : List Char} {e : Int} (h : power? cs = some e) : Ascii cs := by
  rw [power?.eq_def] at h
  split at h
  · simp [Ascii]
  · rename_i mark rest
    simp only at h
    split_ifs at h with hmark hdigits hnegative <;>
    · rw [not_or, Bool.not_eq_true', Bool.not_eq_false] at hdigits
      refine .cons ?_ (ascii_of_sign (ascii_of_digits (List.all_eq_true.1 hdigits.2)))
      rcases hmark with rfl | rfl <;> decide

theorem ascii_of_fraction {cs : List Char} (h : Ascii (fraction cs).2) : Ascii cs := by
  rw [fraction.eq_def] at h
  split at h
  · exact .cons (by decide) (ascii_of_span_isDigit h)
  · exact h

theorem ascii_of_decimal? {cs : List Char} {d : Decimal} (h : decimal? cs = some d) :
    Ascii cs := by
  refine ascii_of_span_isDigit (ascii_of_fraction ?_)
  simp only [decimal?] at h
  split_ifs at h
  rcases hpower : power? (fraction (cs.span Char.isDigit).2).2 with _ | e
  · rw [hpower] at h
    cases h
  · exact ascii_of_power? hpower

theorem ascii_of_read? {cs : List Char} {n : Numeral} (h : read? cs = some n) : Ascii cs := by
  refine ascii_of_sign ?_
  rw [read?] at h
  simp only at h
  split_ifs at h with hinf hnan
  · rcases hinf with hword | hword
    · exact ascii_of_lower hword (by decide)
    · exact ascii_of_lower hword (by decide)
  · exact ascii_of_lower hnan (by decide)
  · obtain ⟨d, hd, -⟩ := Option.map_eq_some_iff.1 h
    exact ascii_of_decimal? hd

theorem ascii_of_float32? {cs : List Char} {x : Float32} (h : float32? cs = some x) : Ascii cs := by
  obtain ⟨n, hn, -⟩ := Option.map_eq_some_iff.1 h
  exact ascii_of_read? hn

end Numeral

end Numerals

namespace Color

section Angles

theorem exists_splits_of_angleWith :
    ∀ (units : List (List Char × (Float32 → Float32))) {cs : List Char} {e : Failure},
      angleWith units cs = .error e → ∃ unit ∈ units, Splits unit.1.length cs
  | [], cs, e, h => by simp [angleWith] at h
  | (name, degrees) :: units, cs, e, h => by
    have hrest (h : angleWith units cs = .error e) :
        ∃ unit ∈ (name, degrees) :: units, Splits unit.1.length cs := by
      obtain ⟨unit, hmem, hsplits⟩ := exists_splits_of_angleWith units h
      exact ⟨unit, List.mem_cons_of_mem _ hmem, hsplits⟩
    simp only [angleWith] at h
    split at h
    · exact hrest h
    · rename_i hcut
      exact ⟨(name, degrees), List.mem_cons_self, cutEnd_eq_inside_iff.1 hcut⟩
    · split_ifs at h
      · split at h
        · cases h
        · exact hrest h
      · exact hrest h

theorem angleWith_of_splits {name : List Char} {degrees : Float32 → Float32}
    {units : List (List Char × (Float32 → Float32))} {cs : List Char}
    (h : Splits name.length cs) :
    angleWith ((name, degrees) :: units) cs = .error .splitCharacter := by
  simp only [angleWith, cutEnd_eq_inside_iff.2 h]

/-- An angle that is not of single bytes does not end in a unit of single bytes after a number. -/
theorem angleWith_of_not_ascii {name : List Char} {degrees : Float32 → Float32}
    {units : List (List Char × (Float32 → Float32))} {cs : List Char} (hname : Ascii name)
    (hcs : ¬ Ascii cs) (h : ¬ Splits name.length cs) :
    angleWith ((name, degrees) :: units) cs = angleWith units cs := by
  simp only [angleWith]
  split
  · rfl
  · rename_i hcut
    exact absurd (cutEnd_eq_inside_iff.1 hcut) h
  · rename_i front back hcut
    split_ifs with hback
    · split
      · rename_i x hx
        rw [eq_append_of_cutEnd hcut] at hcs
        exact absurd ((Numeral.ascii_of_float32? hx).append (ascii_of_lower hback hname)) hcs
      · rfl
    · rfl

theorem angle?_eq_error_iff {cs : List Char} :
    angle? cs = .error .splitCharacter ↔ Splits 3 cs ∨ Splits 4 cs := by
  rw [angle?]
  constructor
  · intro h
    obtain ⟨unit, hmem, hsplits⟩ := exists_splits_of_angleWith angleUnits h
    simp only [angleUnits, List.mem_cons, List.not_mem_nil, or_false] at hmem
    rcases hmem with rfl | rfl | rfl | rfl
    · exact .inl hsplits
    · exact .inr hsplits
    · exact .inl hsplits
    · exact .inr hsplits
  · intro h
    by_cases hthree : Splits 3 cs
    · exact angleWith_of_splits hthree
    · have hfour := h.resolve_left hthree
      have hname : Ascii ['d', 'e', 'g'] := by decide
      rw [angleUnits, angleWith_of_not_ascii hname (fun hcs => hcs.not_splits 4 hfour) hthree]
      exact angleWith_of_splits hfour

end Angles

/-- The angle among the arguments of a function, if the function takes one. -/
def angleArgument? (name : String) (a : Arguments) : Option (List Char) :=
  if name ∈ ["hsl", "hsla", "hwb", "hwba", "hsv", "hsva"] then some a.first
  else if name = "oklch" then some a.third
  else none

/-- The text calls a function with an angle of which the last three or the last four bytes begin
inside a character. -/
def SplitsAngle (input : String) : Prop :=
  ∃ name body a angle, call? (trim input.toList) = some (name, body) ∧ arguments? body = some a ∧
    angleArgument? (String.ofList (lower (trimEnd name))) a = some angle ∧
    (Splits 3 angle ∨ Splits 4 angle)

section Functions

theorem hueShares?_eq_error_iff {model : Float32 → Float32 → Float32 → Shares} {a : Arguments} :
    hueShares? model a = .error .splitCharacter ↔ Splits 3 a.first ∨ Splits 4 a.first :=
  bind_pure_eq_error_iff.trans angle?_eq_error_iff

theorem oklchShares?_eq_error_iff {a : Arguments} :
    oklchShares? a = .error .splitCharacter ↔ Splits 3 a.third ∨ Splits 4 a.third :=
  bind_pure_eq_error_iff.trans angle?_eq_error_iff

theorem functionShares_eq_error_iff {name : List Char} {a : Arguments} :
    functionShares name a = .error .splitCharacter ↔
      ∃ angle, angleArgument? (String.ofList name) a = some angle ∧
        (Splits 3 angle ∨ Splits 4 angle) := by
  have hfirst {model : Float32 → Float32 → Float32 → Shares}
      {f : Option Shares → Except Flaw Shares}
      (hangle : angleArgument? (String.ofList name) a = some a.first) :
      (do return f (← hueShares? model a)) = .error .splitCharacter ↔
        ∃ angle, angleArgument? (String.ofList name) a = some angle ∧
          (Splits 3 angle ∨ Splits 4 angle) := by
    rw [hangle]
    simpa using bind_pure_eq_error_iff.trans hueShares?_eq_error_iff
  simp only [functionShares]
  split <;> rename_i hname
  · simp [pure, Except.pure, hname, angleArgument?]
  · simp [pure, Except.pure, hname, angleArgument?]
  · exact hfirst (by simp [hname, angleArgument?])
  · exact hfirst (by simp [hname, angleArgument?])
  · exact hfirst (by simp [hname, angleArgument?])
  · exact hfirst (by simp [hname, angleArgument?])
  · exact hfirst (by simp [hname, angleArgument?])
  · exact hfirst (by simp [hname, angleArgument?])
  · simp [pure, Except.pure, hname, angleArgument?]
  · refine bind_pure_eq_error_iff.trans (oklchShares?_eq_error_iff.trans ?_)
    simp [hname, angleArgument?]
  · simp_all [pure, Except.pure, angleArgument?]

theorem ofFunction_eq_error_iff {name body : List Char} :
    ofFunction name body = .error .splitCharacter ↔
      ∃ a, arguments? body = some a ∧ functionShares name a = .error .splitCharacter := by
  rw [ofFunction]
  rcases arguments? body with _ | a
  · simp
  · simpa using bind_pure_eq_error_iff

end Functions

section Texts

theorem mem_of_call? {cs name body : List Char} (h : call? cs = some (name, body)) : ')' ∈ cs := by
  rw [call?] at h
  split at h
  · rename_i hlast
    exact List.mem_of_getLast? hlast
  · cases h

theorem angleArgument?_of_call?_hash {digits name body : List Char}
    (h : call? ('#' :: digits) = some (name, body)) (a : Arguments) :
    angleArgument? (String.ofList (lower (trimEnd name))) a = none := by
  rw [call?] at h
  split at h
  · rename_i hspan hlast
    simp only [List.span_eq_takeWhile_dropWhile, Prod.mk.injEq] at hspan
    cases h
    obtain ⟨rest, hrest⟩ := exists_trimEnd_cons (c := '#') (by decide)
      (digits.takeWhile (· ≠ '('))
    rw [← hspan.1, List.takeWhile_cons_of_pos (by decide), hrest]
    simp [angleArgument?, lower, String.ext_iff]
  · cases h

theorem readTrimmed_eq_error_iff {cs : List Char} :
    readTrimmed cs = .error .splitCharacter ↔
      ∃ name body a angle, call? cs = some (name, body) ∧ arguments? body = some a ∧
        angleArgument? (String.ofList (lower (trimEnd name))) a = some angle ∧
        (Splits 3 angle ∨ Splits 4 angle) := by
  simp only [readTrimmed]
  split_ifs with htransparent
  · simp only [false_iff, not_exists]
    rintro name body a angle ⟨hcall, -⟩
    have hmem : ')' ∈ "transparent".toList :=
      htransparent ▸ List.mem_map_of_mem (f := Char.toLower) (mem_of_call? hcall)
    exact absurd hmem (by decide)
  · split
    · simp only [reduceCtorEq, false_iff, not_exists]
      rintro name body a angle ⟨hcall, -, hangle, -⟩
      rw [angleArgument?_of_call?_hash hcall a] at hangle
      cases hangle
    · split
      · rename_i name body hcall
        rw [ofFunction_eq_error_iff]
        simp only [functionShares_eq_error_iff, hcall, Option.some.injEq, Prod.mk.injEq]
        constructor
        · rintro ⟨a, ha, angle, hangle, hsplits⟩
          exact ⟨name, body, a, angle, ⟨rfl, rfl⟩, ha, hangle, hsplits⟩
        · rintro ⟨name, body, a, angle, ⟨rfl, rfl⟩, ha, hangle, hsplits⟩
          exact ⟨a, ha, angle, hangle, hsplits⟩
      · rename_i hcall
        simp only [hcall, reduceCtorEq, false_and, exists_false, iff_false]
        split <;> simp

/-- The texts without an answer are the calls whose angle is cut through a character. -/
theorem parse_eq_splitCharacter_iff {input : String} :
    parse input = .error .splitCharacter ↔ SplitsAngle input := by
  rw [SplitsAngle, ← readTrimmed_eq_error_iff, parse]
  rcases readTrimmed (trim input.toList) with e | flaw | c <;> simp

theorem mem_of_call?_body {c : Char} {cs name body : List Char} (h : call? cs = some (name, body))
    (hc : c ∈ body) : c ∈ cs := by
  rw [call?] at h
  split at h
  · rename_i hspan hlast
    simp only [List.span_eq_takeWhile_dropWhile, Prod.mk.injEq] at hspan
    cases h
    have hsuffix := List.dropWhile_suffix (l := cs) fun x => decide (x ≠ '(')
    rw [hspan.2] at hsuffix
    refine hsuffix.mem ?_
    exact List.mem_cons_of_mem _ ((List.dropLast_sublist _).mem hc)
  · cases h

theorem mem_of_arguments? {body : List Char} {a : Arguments}
    (ha : arguments? body = some a) {c : Char} (hc : c ∈ a.first ∨ c ∈ a.third) : c ∈ body := by
  simp only [arguments?] at ha
  split at ha
  · rename_i x y z hwords
    cases ha
    rcases hc with hc | hc
    · exact mem_of_words_eq hwords (by simp) hc
    · exact mem_of_words_eq hwords (by simp) hc
  · rename_i x y z alpha hwords
    obtain ⟨q, -, rfl⟩ := Option.map_eq_some_iff.1 ha
    rcases hc with hc | hc
    · exact mem_of_words_eq hwords (by simp) hc
    · exact mem_of_words_eq hwords (by simp) hc
  · cases ha

theorem mem_of_angleArgument? {name : String} {a : Arguments} {angle : List Char}
    (h : angleArgument? name a = some angle) {c : Char} (hc : c ∈ angle) :
    c ∈ a.first ∨ c ∈ a.third := by
  rw [angleArgument?] at h
  split_ifs at h <;> cases h
  · exact .inl hc
  · exact .inr hc

/-- A text of single bytes has an answer. -/
theorem not_splitsAngle_of_ascii {input : String} (h : Ascii input.toList) :
    ¬ SplitsAngle input := by
  rintro ⟨name, body, a, angle, hcall, ha, hangle, hsplits⟩
  have hascii : Ascii angle := fun c hc =>
    h c (mem_of_mem_trim (mem_of_call?_body hcall (mem_of_arguments? ha
      (mem_of_angleArgument? hangle hc))))
  exact hsplits.elim (hascii.not_splits 3) (hascii.not_splits 4)

end Texts

end Color

end AtomicStyle
