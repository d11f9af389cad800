import AtomicStyle.Proofs.Decimal.Numeral
import AtomicStyle.Proofs.Json.Draft

/-!
# How far a number reaches

What the reader takes for a number are characters of numbers (`reaches_readNumber`), and what is
written for a finite number has no others (`inNumber_of_mem_document`). In front of a comma or a
bracket such a number is therefore read to its end, or the reading stops within it
(`readValue_digits`).
-/

namespace AtomicStyle.Json

/-- The characters that numbers are made of. -/
def inNumber (c : Char) : Bool := c.isDigit || ['-', '+', '.', 'e', 'E'].contains c

theorem inNumber_of_isDigit {c : Char} (h : c.isDigit) : inNumber c := by
  simp [inNumber, h]

theorem ne_of_inNumber {c d : Char} (hc : inNumber c) (hd : inNumber d = false) : c ≠ d := by
  rintro rfl
  simp_all

theorem isSpace_of_inNumber {c : Char} (hc : inNumber c) : isSpace c = false := by
  simp [isSpace, ne_of_inNumber hc (d := ' ') rfl, ne_of_inNumber hc (d := '\n') rfl,
    ne_of_inNumber hc (d := '\t') rfl, ne_of_inNumber hc (d := '\r') rfl]

theorem Closes.not_inNumber {rest : List Char} (h : Closes rest) :
    ∀ c ∈ rest.head?, inNumber c = false := by
  intro c hc
  rcases h c hc with rfl | rfl | rfl <;> rfl

/-- Only characters of numbers are taken from the text, and the others are left. -/
def Reaches (cs left : List Char) : Prop := ∃ taken, taken ++ left = cs ∧ ∀ c ∈ taken, inNumber c

section Reading

theorem Reaches.refl (cs : List Char) : Reaches cs cs := ⟨[], rfl, by simp⟩

theorem Reaches.cons {c : Char} {cs left : List Char} (hc : inNumber c) (h : Reaches cs left) :
    Reaches (c :: cs) left := by
  obtain ⟨taken, rfl, htaken⟩ := h
  exact ⟨c :: taken, rfl, List.forall_mem_cons.2 ⟨hc, htaken⟩⟩

theorem Reaches.trans {cs middle left : List Char} (h : Reaches cs middle)
    (h' : Reaches middle left) : Reaches cs left := by
  obtain ⟨first, rfl, hfirst⟩ := h
  obtain ⟨second, rfl, hsecond⟩ := h'
  exact ⟨first ++ second, List.append_assoc _ _ _, List.forall_mem_append.2 ⟨hfirst, hsecond⟩⟩

theorem reaches_span (cs : List Char) : Reaches cs (cs.span Char.isDigit).2 := by
  rw [List.span_eq_takeWhile_dropWhile]
  exact ⟨cs.takeWhile Char.isDigit, List.takeWhile_append_dropWhile,
    fun c hc => inNumber_of_isDigit (List.mem_takeWhile_imp hc)⟩

variable {negative : Bool} {word : Nat} {e : Int} {left : List Char} {x : Float} {n : Number}

theorem reaches_powerDigits {down : Bool} {cs : List Char}
    (h : powerDigits negative word e down cs = .ok (x, left)) : Reaches cs left := by
  have hspan := reaches_span cs
  simp only [powerDigits] at h
  split at h
  · cases h
  · split at h
    · obtain ⟨y, -, hread⟩ := exists_of_map_eq_ok h
      cases hread
      exact hspan
    · split at h
      · cases h
      · cases h
        exact hspan

theorem reaches_readPower {cs : List Char} (h : readPower negative word e cs = .ok (x, left)) :
    Reaches cs left := by
  rcases cs with _ | ⟨c, cs⟩
  · cases h
  · by_cases hminus : c = '-'
    · subst hminus
      exact (reaches_powerDigits h).cons rfl
    · by_cases hplus : c = '+'
      · subst hplus
        exact (reaches_powerDigits h).cons rfl
      · rw [readPower_cons hminus hplus] at h
        exact reaches_powerDigits h

theorem reaches_readScale {cs : List Char} (h : readScale negative word e cs = .ok (x, left)) :
    Reaches cs left := by
  by_cases hmark : ∀ c ∈ cs.head?, c ≠ 'e' ∧ c ≠ 'E'
  · rw [readScale_of_not_mark e hmark] at h
    obtain ⟨y, -, hread⟩ := exists_of_map_eq_ok h
    cases hread
    exact .refl _
  · rcases cs with _ | ⟨c, cs⟩
    · simp at hmark
    · have hc : c = 'e' ∨ c = 'E' := by simpa [or_iff_not_imp_left] using hmark
      rcases hc with rfl | rfl
      · exact (reaches_readPower h).cons rfl
      · exact (reaches_readPower h).cons rfl

theorem reaches_readScale_float {cs : List Char}
    (h : (do let (x, rest) ← readScale negative word e cs; return (.float x, rest)) =
      (.ok (n, left) : Except Flaw (Number × List Char))) : Reaches cs left := by
  obtain ⟨⟨y, left'⟩, hread, heq⟩ := exists_of_map_eq_ok h
  cases heq
  exact reaches_readScale hread

theorem reaches_readTail {dropped : Nat} {cs : List Char}
    (h : readTail negative word dropped cs = .ok (n, left)) : Reaches cs left := by
  by_cases hmark : ∀ c ∈ cs.head?, c ≠ '.' ∧ c ≠ 'e' ∧ c ≠ 'E'
  · rw [readTail_of_not_mark dropped hmark] at h
    split at h
    · exact reaches_readScale_float h
    · cases h
      exact .refl _
  · rcases cs with _ | ⟨c, cs⟩
    · simp at hmark
    · have hc : c = '.' ∨ c = 'e' ∨ c = 'E' := by
        simpa [or_iff_not_imp_left] using hmark
      rcases hc with rfl | rfl | rfl
      · have hspan := reaches_span cs
        simp only [readTail] at h
        split at h
        · cases h
        · exact (hspan.trans (reaches_readScale_float h)).cons rfl
      · exact reaches_readScale_float h
      · exact reaches_readScale_float h

theorem reaches_readUnsigned {cs : List Char} (h : readUnsigned negative cs = .ok (n, left)) :
    Reaches cs left := by
  rcases cs with _ | ⟨c, cs⟩
  · cases h
  · by_cases hzero : c = '0'
    · subst hzero
      rcases cs with _ | ⟨c, cs⟩
      · exact Reaches.cons rfl (reaches_readTail h)
      · simp only [readUnsigned] at h
        split at h
        · cases h
        · exact (reaches_readTail h).cons rfl
    · have hspan := reaches_span (c :: cs)
      rw [readUnsigned_of_not_zero (by simpa using hzero)] at h
      split at h
      · cases h
      · exact hspan.trans (reaches_readTail h)

theorem reaches_readNumber {cs : List Char} (h : readNumber cs = .ok (n, left)) :
    Reaches cs left := by
  rcases cs with _ | ⟨c, cs⟩
  · cases h
  · by_cases hminus : c = '-'
    · subst hminus
      exact (reaches_readUnsigned h).cons rfl
    · rw [readNumber_of_not_minus (by simpa using hminus)] at h
      exact reaches_readUnsigned h

/-- What is read of a number in front of `rest` does not reach into `rest`. -/
theorem Reaches.exists_append {cs rest left : List Char} (h : Reaches (cs ++ rest) left)
    (hrest : ∀ c ∈ rest.head?, inNumber c = false) : ∃ within, left = within ++ rest ∧
      within <:+ cs := by
  obtain ⟨taken, heq, htaken⟩ := h
  rcases List.append_eq_append_iff.1 heq with ⟨within, hcs, hleft⟩ | ⟨beyond, htaken', hrest'⟩
  · exact ⟨within, hleft, taken, hcs.symm⟩
  · rcases beyond with _ | ⟨c, beyond⟩
    · exact ⟨[], hrest'.symm, List.nil_suffix⟩
    · have hc : inNumber c := htaken c (by simp [htaken'])
      rw [hrest c (by simp [hrest'])] at hc
      cases hc

end Reading

section Written

open Numeral (isDigit_of_mem_zeros mem_of_mem_stripZeros mem_signed)

/-- Digits stay characters of numbers wherever they are laid out. -/
theorem inNumber_of_mem_place {l : Decimal.Layout} {ds : List Char} (h : ∀ c ∈ ds, c.isDigit)
    (leading : Int) : ∀ c ∈ l.place ds leading, inNumber c := by
  have hds : ∀ c ∈ ds, inNumber c := fun c hc => inNumber_of_isDigit (h c hc)
  have hzeros (n : Nat) : ∀ c ∈ List.replicate n '0', inNumber c :=
    fun c hc => inNumber_of_isDigit (isDigit_of_mem_zeros hc)
  have htail : ∀ c ∈ 'e' :: (if leading < 0 then '-' else '+') :: Decimal.digits leading.natAbs,
      inNumber c := by
    refine List.forall_mem_cons.2 ⟨rfl, List.forall_mem_cons.2 ⟨?_, fun c hc => ?_⟩⟩
    · split_ifs <;> rfl
    · exact inNumber_of_isDigit (Decimal.isDigit_of_mem_digits hc)
  unfold Decimal.Layout.place
  by_cases hpositional : l.positional leading
  · rw [if_pos hpositional]
    cases leading with
    | negSucc e =>
      exact List.forall_mem_cons.2 ⟨rfl, List.forall_mem_cons.2 ⟨rfl,
        List.forall_mem_append.2 ⟨hzeros e, hds⟩⟩⟩
    | ofNat e =>
      dsimp only
      rcases hfraction : ds.drop (e + 1) with _ | ⟨d, fraction⟩
      · refine List.forall_mem_append.2 ⟨List.forall_mem_append.2 ⟨hds, hzeros _⟩, ?_⟩
        split_ifs
        · simp [inNumber]
        · simp
      · have hdrop : ∀ c ∈ d :: fraction, inNumber c := fun c hc =>
          hds c (List.mem_of_mem_drop (hfraction ▸ hc))
        exact List.forall_mem_append.2 ⟨fun c hc => hds c (List.mem_of_mem_take hc),
          List.forall_mem_cons.2 ⟨rfl, hdrop⟩⟩
  · rw [if_neg hpositional]
    rcases ds with _ | ⟨d, _ | ⟨d', fraction⟩⟩
    · exact htail
    · exact List.forall_mem_cons.2 ⟨hds d List.mem_cons_self, htail⟩
    · obtain ⟨hd, hfraction⟩ := List.forall_mem_cons.1 hds
      exact List.forall_mem_cons.2 ⟨hd, List.forall_mem_cons.2 ⟨rfl,
        List.forall_mem_append.2 ⟨hfraction, htail⟩⟩⟩

theorem inNumber_of_mem_document {x : Float} (hfinite : x.isFinite) :
    ∀ c ∈ Decimal.document.chars x, inNumber c := by
  have hsigned {sign : Float.Model.UnpackedFloat.Sign} {cs : List Char}
      (h : ∀ c ∈ cs, inNumber c) : ∀ c ∈ Decimal.signed sign cs, inNumber c := by
    intro c hc
    rcases mem_signed hc with rfl | hmem
    · rfl
    · exact h c hmem
  have hparts : (Parts.ofFloat x).isFinite = true := hfinite
  unfold Decimal.Layout.chars
  split
  · rename_i heq
    rw [heq] at hparts
    cases hparts
  · rename_i heq
    rw [heq] at hparts
    cases hparts
  · exact hsigned (by simp [Decimal.document, inNumber])
  · refine hsigned (inNumber_of_mem_place (fun c hc => ?_) _)
    exact Decimal.isDigit_of_mem_digits (mem_of_mem_stripZeros hc)

theorem document_place_ne_nil (ds : List Char) (leading : Int) :
    Decimal.document.place ds leading ≠ [] := by
  unfold Decimal.Layout.place
  by_cases hpositional : Decimal.document.positional leading
  · rw [if_pos hpositional]
    cases leading with
    | negSucc e => exact List.cons_ne_nil _ _
    | ofNat e =>
      dsimp only
      split <;> simp [Decimal.document]
  · rw [if_neg hpositional]
    rcases ds with _ | ⟨d, _ | ⟨d', fraction⟩⟩ <;> exact List.cons_ne_nil _ _

theorem document_chars_ne_nil (x : Float) : Decimal.document.chars x ≠ [] := by
  have hsigned {sign : Float.Model.UnpackedFloat.Sign} {cs : List Char} (h : cs ≠ []) :
      Decimal.signed sign cs ≠ [] := by
    unfold Decimal.signed
    split_ifs
    · exact List.cons_ne_nil _ _
    · exact h
  unfold Decimal.Layout.chars
  split
  · exact List.cons_ne_nil _ _
  · exact hsigned (List.cons_ne_nil _ _)
  · exact hsigned (List.cons_ne_nil _ _)
  · exact hsigned (document_place_ne_nil _ _)

/-- Characters of numbers are read as a number to their end, or to one of them, or not at all. -/
theorem readValue_digits {cs rest : List Char} (hcs : ∀ c ∈ cs, inNumber c) (hne : cs ≠ [])
    (hrest : Closes rest) (depth : Nat) :
    (∃ flaw, readValue depth (cs ++ rest) = (.flawed flaw, none)) ∨
      (∃ n, readValue depth (cs ++ rest) = (.number n, some rest)) ∨
      ∃ n c left, inNumber c ∧ readValue depth (cs ++ rest) = (.number n, some (c :: left)) := by
  rcases hread : readNumber (cs ++ rest) with flaw | ⟨n, left⟩
  · left
    obtain ⟨c, tail, rfl⟩ := List.exists_cons_of_ne_nil hne
    have hc : inNumber c := hcs c List.mem_cons_self
    rw [List.cons_append] at hread ⊢
    rw [readValue_eq_readAtom (isSpace_of_inNumber hc) (ne_of_inNumber hc rfl)
      (ne_of_inNumber hc rfl)]
    by_cases hbegins : c = '-' ∨ c.isDigit
    · exact ⟨flaw, by simp [readAtom, ne_of_begins hbegins, hbegins, hread, Except.map, atom]⟩
    · refine ⟨.malformed, ?_⟩
      simp [readAtom, ne_of_inNumber hc (d := 'n') rfl, ne_of_inNumber hc (d := 't') rfl,
        ne_of_inNumber hc (d := 'f') rfl, ne_of_inNumber hc (d := '"') rfl, hbegins]
  · right
    obtain ⟨within, rfl, hwithin⟩ := (reaches_readNumber hread).exists_append hrest.not_inNumber
    have hvalue := readValue_number hread depth
    rcases within with _ | ⟨c, within⟩
    · exact .inl ⟨n, hvalue⟩
    · exact .inr ⟨n, c, within ++ rest, hcs c (hwithin.mem List.mem_cons_self), hvalue⟩

end Written

end AtomicStyle.Json
