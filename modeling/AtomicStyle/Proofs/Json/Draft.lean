import AtomicStyle.Proofs.Json.Number
import AtomicStyle.Proofs.Json.Text

/-!
# Written values read back

A value that is written and read again becomes a draft without flaws, in which each number is the
one that its digits are read as (`read_render`). Arrays and objects are read back at any depth that
the reader allows.
-/

namespace AtomicStyle.Json

mutual

/-- The draft that a value becomes when it is written and read again, with arrays and objects at
most `depth` deep. -/
inductive Value.Rereads : (depth : Nat) → Value → Draft → Prop
  | null {depth : Nat} : Value.Rereads depth .null .null
  | bool {depth : Nat} (b : Bool) : Value.Rereads depth (.bool b) (.bool b)
  | number {depth : Nat} {n m : Number} (h : readNumber n.chars = .ok (m, [])) :
    Value.Rereads depth (.number n) (.number m)
  /-- A number that is not finite is written as if there were none. -/
  | notFinite {depth : Nat} {x : Float} (h : x.isFinite = false) :
    Value.Rereads depth (.number (.float x)) .null
  | text {depth : Nat} (s : String) : Value.Rereads depth (.text s) (.text s)
  | array {depth : Nat} {items : List Value} {drafts : List Draft}
    (h : ItemsReread depth items drafts) :
    Value.Rereads (depth + 1) (.array items) (.array drafts none)
  | object {depth : Nat} {members : List (String × Value)} {drafts : List (String × Draft)}
    (h : MembersReread depth members drafts) :
    Value.Rereads (depth + 1) (.object members) (.object drafts none)

inductive ItemsReread : (depth : Nat) → List Value → List Draft → Prop
  | nil {depth : Nat} : ItemsReread depth [] []
  | cons {depth : Nat} {item : Value} {draft : Draft} {items : List Value} {drafts : List Draft}
    (first : item.Rereads depth draft) (rest : ItemsReread depth items drafts) :
    ItemsReread depth (item :: items) (draft :: drafts)

inductive MembersReread : (depth : Nat) → List (String × Value) → List (String × Draft) → Prop
  | nil {depth : Nat} : MembersReread depth [] []
  | cons {depth : Nat} {value : Value} {draft : Draft} {members : List (String × Value)}
    {drafts : List (String × Draft)} (name : String) (first : value.Rereads depth draft)
    (rest : MembersReread depth members drafts) :
    MembersReread depth ((name, value) :: members) ((name, draft) :: drafts)

end

section Atoms

theorem skipSpace_cons {c : Char} (h : isSpace c = false) (rest : List Char) :
    skipSpace (c :: rest) = c :: rest := by
  simp [skipSpace, h]

theorem readLiteral_append (word rest : List Char) :
    readLiteral word (word ++ rest) = .ok rest := by
  induction word with
  | nil => rfl
  | cons c word ih => simp [readLiteral, ih]

theorem readValue_eq_readAtom {c : Char} (hspace : isSpace c = false) (hsquare : c ≠ '[')
    (hcurly : c ≠ '\x7b') (depth : Nat) (rest : List Char) :
    readValue depth (c :: rest) = readAtom (c :: rest) := by
  rcases depth with _ | depth <;> simp [readValue, skipSpace_cons hspace, hsquare, hcurly]

theorem readValue_null (depth : Nat) (rest : List Char) :
    readValue depth (Value.null.chars ++ rest) = (.null, some rest) := by
  have hread : readLiteral "null".toList ('n' :: 'u' :: 'l' :: 'l' :: rest) = .ok rest :=
    readLiteral_append "null".toList rest
  change readValue depth ('n' :: 'u' :: 'l' :: 'l' :: rest) = _
  rw [readValue_eq_readAtom (by decide) (by decide) (by decide)]
  simp only [readAtom, hread, Except.map, atom]

theorem readValue_bool (b : Bool) (depth : Nat) (rest : List Char) :
    readValue depth ((Value.bool b).chars ++ rest) = (.bool b, some rest) := by
  rcases b with _ | _
  · have hread : readLiteral "false".toList ('f' :: 'a' :: 'l' :: 's' :: 'e' :: rest) = .ok rest :=
      readLiteral_append "false".toList rest
    change readValue depth ('f' :: 'a' :: 'l' :: 's' :: 'e' :: rest) = _
    rw [readValue_eq_readAtom (by decide) (by decide) (by decide)]
    simp only [readAtom, hread, Except.map, atom]
  · have hread : readLiteral "true".toList ('t' :: 'r' :: 'u' :: 'e' :: rest) = .ok rest :=
      readLiteral_append "true".toList rest
    change readValue depth ('t' :: 'r' :: 'u' :: 'e' :: rest) = _
    rw [readValue_eq_readAtom (by decide) (by decide) (by decide)]
    simp only [readAtom, hread, Except.map, atom]

theorem ne_of_begins {c d : Char} (hc : c = '-' ∨ c.isDigit) (hminus : d ≠ '-')
    (hdigit : d.isDigit = false) : c ≠ d := by
  rintro rfl
  simp_all

theorem isSpace_of_begins {c : Char} (hc : c = '-' ∨ c.isDigit) : isSpace c = false := by
  simp [isSpace, ne_of_begins hc]

theorem readValue_number {cs : List Char} {n : Number} {rest : List Char}
    (h : readNumber cs = .ok (n, rest)) (depth : Nat) :
    readValue depth cs = (.number n, some rest) := by
  obtain ⟨c, tail, rfl, hc⟩ := exists_cons_of_readNumber h
  rw [readValue_eq_readAtom (isSpace_of_begins hc) (ne_of_begins hc (by decide) (by decide))
    (ne_of_begins hc (by decide) (by decide))]
  simp [readAtom, ne_of_begins hc, hc, h, Except.map, atom]

theorem readValue_text (s : String) (depth : Nat) (rest : List Char) :
    readValue depth (quoted s.toList ++ rest) = (.text s, some rest) := by
  rw [quoted, List.cons_append, List.append_assoc, List.singleton_append,
    readValue_eq_readAtom (by decide) (by decide) (by decide), readAtom, readQuoted_append]
  rfl

end Atoms

section Sequences

theorem closes_cons {c : Char} (h : c = ',' ∨ c = ']' ∨ c = '\x7d') (rest : List Char) :
    Closes (c :: rest) := by
  intro d hd
  cases hd
  exact h

theorem commaSeparated_cons_cons (one two : List Char) (more : List (List Char)) :
    commaSeparated (one :: two :: more) = one ++ ',' :: commaSeparated (two :: more) := rfl

theorem length_le_commaSeparated (parts : List (List Char)) :
    parts.length ≤ (commaSeparated parts).length + 1 := by
  induction parts with
  | nil => simp
  | cons one more ih =>
    rcases more with _ | ⟨two, more⟩
    · simp
    · simp only [commaSeparated_cons_cons, List.length_append, List.length_cons] at ih ⊢
      omega

theorem length_itemChars (items : List Value) : (itemChars items).length = items.length := by
  induction items with
  | nil => rfl
  | cons item items ih => rw [itemChars, List.length_cons, ih, List.length_cons]

theorem length_memberChars (members : List (String × Value)) :
    (memberChars members).length = members.length := by
  induction members with
  | nil => rfl
  | cons member members ih =>
    obtain ⟨name, value⟩ := member
    rw [memberChars, List.length_cons, ih, List.length_cons]

/-- The reader reads written values back, whatever follows them. -/
def ReadsBack (read : List Char → Reading Draft) (depth : Nat) : Prop :=
  ∀ ⦃v : Value⦄ ⦃d : Draft⦄, v.Rereads depth d → ∀ ⦃rest : List Char⦄, Closes rest →
    read (v.chars ++ rest) = (d, some rest)

variable {depth : Nat} {read : List Char → Reading Draft}

theorem readItems_append (hread : ReadsBack read depth) :
    ∀ {item : Value} {items : List Value} {drafts : List Draft},
      ItemsReread depth (item :: items) drafts → ∀ {fuel : Nat}, items.length < fuel →
        ∀ rest : List Char,
          readItems read fuel (commaSeparated (itemChars (item :: items)) ++ ']' :: rest) =
            (drafts, none, some rest)
  | item, [], _, .cons hitem .nil, fuel + 1, _, rest => by
    rw [itemChars, itemChars, commaSeparated, readItems, hread hitem (closes_cons (by simp) rest)]
    simp only [skipSpace_cons (c := ']') rfl]
  | item, next :: items, _, .cons hitem hitems, fuel + 1, hfuel, rest => by
    have hnext := readItems_append hread hitems (Nat.lt_of_succ_lt_succ hfuel) rest
    rw [itemChars, itemChars, commaSeparated_cons_cons, List.append_assoc, List.cons_append,
      readItems, hread hitem (closes_cons (by simp) _)]
    simp only [skipSpace_cons (c := ',') rfl]
    rw [← itemChars, hnext]

theorem readMembers_last {name : String} {value : Draft} {cs rest : List Char}
    (h : read cs = (value, some ('\x7d' :: rest))) (fuel : Nat) :
    readMembers read (fuel + 1) (quoted name.toList ++ ':' :: cs) =
      ([(name, value)], none, some rest) := by
  rw [quoted, List.cons_append, List.append_assoc, List.singleton_append, readMembers,
    skipSpace_cons rfl]
  simp only [readQuoted_append, readMemberValue, skipSpace_cons (c := ':') rfl, h,
    skipSpace_cons (c := '\x7d') rfl]

theorem readMembers_cons {name : String} {value : Draft} {cs rest : List Char}
    (h : read cs = (value, some (',' :: rest))) {fuel : Nat} {drafts : List (String × Draft)}
    {flaw : Option Flaw} {left : Option (List Char)}
    (hrest : readMembers read fuel rest = (drafts, flaw, left)) :
    readMembers read (fuel + 1) (quoted name.toList ++ ':' :: cs) =
      ((name, value) :: drafts, flaw, left) := by
  rw [quoted, List.cons_append, List.append_assoc, List.singleton_append, readMembers,
    skipSpace_cons rfl]
  simp only [readQuoted_append, readMemberValue, skipSpace_cons (c := ':') rfl, h,
    skipSpace_cons (c := ',') rfl, hrest]

theorem readMembers_surplus {name : String} {value : Draft} {cs rest : List Char} {c : Char}
    (hspace : isSpace c = false) (hcomma : c ≠ ',') (hcurly : c ≠ '\x7d')
    (h : read cs = (value, some (c :: rest))) (fuel : Nat) :
    readMembers read (fuel + 1) (quoted name.toList ++ ':' :: cs) =
      ([(name, value)], some .malformed, none) := by
  rw [quoted, List.cons_append, List.append_assoc, List.singleton_append, readMembers,
    skipSpace_cons rfl]
  simp only [readQuoted_append, readMemberValue, skipSpace_cons (c := ':') rfl, h,
    skipSpace_cons hspace]

/-- However the text goes on, the first member is read with what its value is read as. -/
theorem exists_readMembers_eq_cons (read : List Char → Reading Draft) (name : String)
    (cs : List Char) (fuel : Nat) :
    ∃ more, (readMembers read (fuel + 1) (quoted name.toList ++ ':' :: cs)).1 =
      (name, (read cs).1) :: more := by
  rw [quoted, List.cons_append, List.append_assoc, List.singleton_append, readMembers,
    skipSpace_cons rfl]
  simp only [readQuoted_append, readMemberValue, skipSpace_cons (c := ':') rfl]
  rcases read cs with ⟨value, _ | rest⟩
  · exact ⟨[], rfl⟩
  · dsimp only
    split <;> exact ⟨_, rfl⟩

theorem readMembers_append (hread : ReadsBack read depth) :
    ∀ {member : String × Value} {members : List (String × Value)} {drafts : List (String × Draft)},
      MembersReread depth (member :: members) drafts → ∀ {fuel : Nat}, members.length < fuel →
        ∀ rest : List Char,
          readMembers read fuel
              (commaSeparated (memberChars (member :: members)) ++ '\x7d' :: rest) =
            (drafts, none, some rest)
  | _, [], _, .cons name hvalue .nil, fuel + 1, _, rest => by
    rw [memberChars, memberChars, commaSeparated, List.append_assoc, List.cons_append]
    exact readMembers_last (hread hvalue (closes_cons (by simp) rest)) fuel
  | _, (nextName, next) :: members, _, .cons name hvalue hmembers, fuel + 1, hfuel, rest => by
    have hnext := readMembers_append hread hmembers (Nat.lt_of_succ_lt_succ hfuel) rest
    rw [memberChars, memberChars, commaSeparated_cons_cons, List.append_assoc, List.append_assoc,
      List.cons_append, List.cons_append, ← memberChars]
    exact readMembers_cons (hread hvalue (closes_cons (by simp) _)) hnext

end Sequences

section Values

theorem Value.Rereads.exists_cons {depth : Nat} {v : Value} {d : Draft} (h : v.Rereads depth d) :
    ∃ c tail, v.chars = c :: tail ∧ isSpace c = false ∧ c ≠ ']' := by
  cases h with
  | null => exact ⟨'n', _, rfl, rfl, by decide⟩
  | bool b => rcases b with _ | _ <;> exact ⟨_, _, rfl, rfl, by decide⟩
  | number h =>
    obtain ⟨c, tail, heq, hc⟩ := exists_cons_of_readNumber h
    exact ⟨c, tail, heq, isSpace_of_begins hc, ne_of_begins hc (by decide) (by decide)⟩
  | notFinite h =>
    refine ⟨'n', ['u', 'l', 'l'], ?_, rfl, by decide⟩
    rw [Value.chars, Number.chars, h]
    rfl
  | text s => exact ⟨'"', _, rfl, rfl, by decide⟩
  | array h => exact ⟨'[', _, rfl, rfl, by decide⟩
  | object h => exact ⟨'\x7b', _, rfl, rfl, by decide⟩

theorem exists_cons_commaSeparated (c : Char) (tail : List Char) (parts : List (List Char)) :
    ∃ tail', commaSeparated ((c :: tail) :: parts) = c :: tail' := by
  rcases parts with _ | ⟨two, more⟩
  · exact ⟨tail, rfl⟩
  · exact ⟨tail ++ ',' :: commaSeparated (two :: more), rfl⟩

variable {depth : Nat} {read : List Char → Reading Draft}

theorem readArray_cons {c : Char} (hspace : isSpace c = false) (hclose : c ≠ ']')
    (cs : List Char) :
    readArray read (c :: cs) =
      let (items, flaw, rest) := readItems read (c :: cs).length (c :: cs)
      (.array items flaw, rest) := by
  simp [readArray, skipSpace_cons hspace, hclose]

theorem readArray_append (hread : ReadsBack read depth)
    {items : List Value} {drafts : List Draft} (h : ItemsReread depth items drafts)
    (rest : List Char) :
    readArray read (commaSeparated (itemChars items) ++ ']' :: rest) =
      (.array drafts none, some rest) := by
  rcases items with _ | ⟨item, items⟩
  · cases h
    rfl
  · have hlength := length_le_commaSeparated (itemChars (item :: items))
    rw [length_itemChars, List.length_cons] at hlength
    have hfuel : items.length <
        (commaSeparated (itemChars (item :: items)) ++ ']' :: rest).length := by
      rw [List.length_append, List.length_cons]
      omega
    have hitems := readItems_append hread h hfuel rest
    obtain ⟨c, tail, hitem, hspace, hclose⟩ : ∃ c tail, item.chars = c :: tail ∧
        isSpace c = false ∧ c ≠ ']' := by
      cases h with
      | cons first more => exact first.exists_cons
    obtain ⟨tail', hchars⟩ := exists_cons_commaSeparated c tail (itemChars items)
    rw [itemChars, hitem, hchars, List.cons_append] at hitems ⊢
    rw [readArray_cons hspace hclose, hitems]

theorem readObject_quote (cs : List Char) :
    readObject read ('"' :: cs) =
      let (members, flaw, rest) := readMembers read ('"' :: cs).length ('"' :: cs)
      (.object members flaw, rest) := rfl

theorem readObject_append (hread : ReadsBack read depth)
    {members : List (String × Value)} {drafts : List (String × Draft)}
    (h : MembersReread depth members drafts) (rest : List Char) :
    readObject read (commaSeparated (memberChars members) ++ '\x7d' :: rest) =
      (.object drafts none, some rest) := by
  rcases members with _ | ⟨⟨name, value⟩, members⟩
  · cases h
    rfl
  · have hlength := length_le_commaSeparated (memberChars ((name, value) :: members))
    rw [length_memberChars, List.length_cons] at hlength
    have hfuel : members.length <
        (commaSeparated (memberChars ((name, value) :: members)) ++ '\x7d' :: rest).length := by
      rw [List.length_append, List.length_cons]
      omega
    have hmembers := readMembers_append hread h hfuel rest
    obtain ⟨tail, hchars⟩ : ∃ tail,
        commaSeparated (memberChars ((name, value) :: members)) = '"' :: tail :=
      exists_cons_commaSeparated '"' _ (memberChars members)
    rw [hchars, List.cons_append] at hmembers ⊢
    rw [readObject_quote, hmembers]

/-- A value is read back in front of all that may follow it. -/
theorem readValue_append : ∀ {depth : Nat} {v : Value} {d : Draft}, v.Rereads depth d →
    ∀ {rest : List Char}, Closes rest → readValue depth (v.chars ++ rest) = (d, some rest)
  | depth, _, _, .null, rest, _ => readValue_null depth rest
  | depth, _, _, .bool b, rest, _ => readValue_bool b depth rest
  | depth, _, _, .number h, _, hrest => readValue_number (readNumber_append hrest h) depth
  | depth, _, _, .notFinite h, rest, _ => by
    rw [Value.chars, Number.chars, h]
    exact readValue_null depth rest
  | depth, _, _, .text s, rest, _ => readValue_text s depth rest
  | depth + 1, .array items, _, .array h, rest, _ => by
    rw [Value.chars, List.cons_append, List.append_assoc, List.singleton_append]
    exact readArray_append (fun _ _ h _ hrest => readValue_append h hrest) h rest
  | depth + 1, .object members, _, .object h, rest, _ => by
    rw [Value.chars, List.cons_append, List.append_assoc, List.singleton_append]
    exact readObject_append (fun _ _ h _ hrest => readValue_append h hrest) h rest

theorem read_render {v : Value} {d : Draft} (h : v.Rereads maxDepth d) :
    Document.read v.render = ⟨d, false⟩ := by
  have hread := readValue_append h closes_nil
  rw [List.append_nil] at hread
  simp only [Document.read, Value.render, String.toList_ofList, hread]
  rfl

end Values

end AtomicStyle.Json
