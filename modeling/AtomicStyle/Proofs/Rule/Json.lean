import AtomicStyle.Proofs.Json.Extent
import AtomicStyle.Proofs.Json.Flawless
import AtomicStyle.Proofs.NameMap
import AtomicStyle.Rule.Json

/-!
# Written rules read back

A rule whose numbers can be written is read back with the same properties and texts
(`rereads_or_refused`): a quote in front says that a text follows, whatever it looks like, and each
number is the one that its digits are read as. A number that is not finite is written as `null`,
which is no value of a rule, and so the whole rule is refused.
-/

namespace AtomicStyle

/-- The digits that are written for the number are a number to the reader. -/
def Json.Accepted (x : Float) : Prop :=
  ∃ n, readNumber (Decimal.document.chars x) = .ok (n, [])

namespace RuleValue

def finite : RuleValue → Bool
  | number x => x.isFinite
  | text _ => true

/-- What a written value is read as. -/
def reread : RuleValue → RuleValue
  | number x =>
    match Json.readNumber (Decimal.document.chars x) with
    | .ok (n, _) => number n.toFloat
    | .error _ => number x
  | text s => text s

open Json

theorem exists_rereads (depth : Nat) : ∀ {v : RuleValue},
    (∀ x, v = .number x → x.isFinite ∧ Accepted x) →
      ∃ w : Value, v.toJson.Rereads depth w.draft ∧ ofJson w = .ok v.reread
  | .text s, _ => ⟨.text s, .text s, rfl⟩
  | .number x, h => by
    obtain ⟨hfinite, n, hread⟩ := h x rfl
    refine ⟨.number n, .number ?_, ?_⟩
    · rwa [Number.chars, if_pos hfinite]
    · rw [reread, hread]
      rfl

/-- A value that stands in front of a comma or a bracket is read to its end, or the reading stops in
its digits. -/
theorem readValue_toJson (v : RuleValue) {rest : List Char} (hrest : Closes rest) (depth : Nat) :
    (∃ d, readValue depth (v.toJson.chars ++ rest) = (d, some rest) ∧
        (v.finite = false → d = .null)) ∨
      (∃ flaw, readValue depth (v.toJson.chars ++ rest) = (.flawed flaw, none)) ∨
      ∃ d c left, inNumber c ∧
        readValue depth (v.toJson.chars ++ rest) = (d, some (c :: left)) := by
  rcases v with x | s
  · by_cases hfinite : x.isFinite
    · have hchars : (RuleValue.number x).toJson.chars = Decimal.document.chars x := by
        rw [toJson, Value.chars, Number.chars, if_pos hfinite]
      rw [hchars]
      rcases readValue_digits (inNumber_of_mem_document hfinite) (document_chars_ne_nil x) hrest
        depth with ⟨flaw, h⟩ | ⟨n, h⟩ | ⟨n, c, left, hc, h⟩
      · exact .inr (.inl ⟨flaw, h⟩)
      · exact .inl ⟨_, h, fun hnot => absurd hfinite (by simpa [finite] using hnot)⟩
      · exact .inr (.inr ⟨_, c, left, hc, h⟩)
    · have hnull : (RuleValue.number x).toJson.Rereads depth .null :=
        .notFinite (Bool.eq_false_iff.2 hfinite)
      exact .inl ⟨.null, readValue_append hnull hrest, fun _ => rfl⟩
  · exact .inl ⟨.text s, readValue_append (.text s) hrest, fun hnot => by cases hnot⟩

end RuleValue

namespace Rule

open Json

/-- The members of a written rule. -/
def members (entries : List (String × RuleValue)) : List (String × Value) :=
  entries.map fun entry => (entry.1, entry.2.toJson)

theorem toJson_eq (rule : Rule) : rule.toJson = .object (members rule.toList) := rfl

theorem readMembers_cons_eq_ok_iff {name : String} {d : Draft} {more : List (String × Draft)}
    {rule read : Rule} :
    readMembers ((name, d) :: more) rule = .ok read ↔ ∃ v w, d.readWhole = .ok v ∧
      RuleValue.ofJson v = .ok w ∧ readMembers more (rule.insert name w) = .ok read := by
  rw [readMembers, bind_eq_ok_iff]
  simp only [bind_eq_ok_iff]
  constructor
  · rintro ⟨v, hv, w, hw, hread⟩
    exact ⟨v, w, hv, hw, hread⟩
  · rintro ⟨v, w, hv, hw, hread⟩
    exact ⟨v, hv, w, hw, hread⟩

section Read

theorem exists_membersReread (depth : Nat) : ∀ {entries : List (String × RuleValue)},
    (∀ entry ∈ entries, ∀ x, entry.2 = .number x → x.isFinite ∧ Accepted x) →
      ∃ drafts, MembersReread depth (members entries) drafts ∧ ∀ rule : Rule,
        readMembers drafts rule =
          .ok (rule.insertAll (entries.map fun entry => (entry.1, entry.2.reread)))
  | [], _ => ⟨[], .nil, fun _ => rfl⟩
  | (name, v) :: entries, h => by
    obtain ⟨hfirst, hmore⟩ := List.forall_mem_cons.1 h
    obtain ⟨w, hrereads, hw⟩ := RuleValue.exists_rereads depth hfirst
    obtain ⟨drafts, hmembers, hread⟩ := exists_membersReread depth hmore
    exact ⟨(name, w.draft) :: drafts, .cons name hrereads hmembers, fun rule =>
      readMembers_cons_eq_ok_iff.2 ⟨w, _, readWhole_draft w, hw, hread _⟩⟩

theorem ofJson_render_of_accepted {rule : Rule}
    (h : ∀ (name : String) x, rule[name]? = some (.number x) → x.isFinite ∧ Accepted x) :
    ∃ read, ofJson rule.toJson.render = .ok read ∧
      ∀ name : String, read[name]? = rule[name]?.map RuleValue.reread := by
  have hentries : ∀ entry ∈ rule.toList, ∀ x, entry.2 = .number x → x.isFinite ∧ Accepted x := by
    rintro ⟨name, v⟩ hmem x rfl
    exact h name x (Std.ExtTreeMap.mem_toList_iff_getElem?_eq_some.1 hmem)
  obtain ⟨drafts, hmembers, hread⟩ := exists_membersReread 126 hentries
  refine ⟨NameMap.insertAll ∅ (rule.toList.map fun entry => (entry.1, entry.2.reread)), ?_,
    fun name => ?_⟩
  · rw [ofJson, toJson_eq, read_render (.object hmembers)]
    simp only [ofDraft, hread]
    rfl
  · rw [NameMap.getElem?_insertAll, lastValue_map_snd, NameMap.lastValue_toList]
    simp

end Read

section Refused

variable {depth fuel : Nat}

/-- Where the members are accepted as those of a rule, the value of the first is finite and read to
its end. -/
theorem exists_readValue_of_accepted {name : String} {v : RuleValue} {rest : List Char}
    {drafts : List (String × Draft)} {left : Option (List Char)} {rule read : Rule}
    (hrest : Closes rest)
    (h : Json.readMembers (readValue depth) fuel
      (quoted name.toList ++ ':' :: (v.toJson.chars ++ rest)) = (drafts, none, left))
    (hread : readMembers drafts rule = .ok read) :
    v.finite ∧ ∃ d, readValue depth (v.toJson.chars ++ rest) = (d, some rest) := by
  rcases fuel with _ | fuel
  · cases h
  · obtain ⟨more, hmore⟩ := exists_readMembers_eq_cons (readValue depth) name
      (v.toJson.chars ++ rest) fuel
    rw [h] at hmore
    obtain rfl : drafts = _ := hmore
    obtain ⟨value, w, hvalue, hw, -⟩ := readMembers_cons_eq_ok_iff.1 hread
    rcases v.readValue_toJson hrest depth with ⟨d, hd, hnull⟩ | ⟨flaw, hd⟩ | ⟨d, c, rest', hc, hd⟩
    · refine ⟨eq_true_of_ne_false fun hnot => ?_, d, hd⟩
      rw [hd, hnull hnot] at hvalue
      cases hvalue
      cases hw
    · rw [hd] at hvalue
      cases hvalue
    · rw [readMembers_surplus (isSpace_of_inNumber hc) (ne_of_inNumber hc rfl)
        (ne_of_inNumber hc rfl) hd] at h
      cases h

theorem finite_of_readMembers : ∀ {entries : List (String × RuleValue)} {fuel : Nat}
    {drafts : List (String × Draft)} {left : Option (List Char)} {rule read : Rule},
    Json.readMembers (readValue depth) fuel
      (commaSeparated (memberChars (members entries)) ++ ['\x7d']) = (drafts, none, left) →
    readMembers drafts rule = .ok read → ∀ entry ∈ entries, entry.2.finite
  | [], _, _, _, _, _, _, _ => by simp
  | [(name, v)], fuel, drafts, left, rule, read, h, hread => by
    rw [members, List.map_singleton, memberChars, memberChars, commaSeparated, List.append_assoc,
      List.cons_append] at h
    obtain ⟨hfinite, -⟩ := exists_readValue_of_accepted (closes_cons (by simp) []) h hread
    simpa using hfinite
  | (name, v) :: next :: entries, fuel, drafts, left, rule, read, h, hread => by
    rw [members, List.map_cons, List.map_cons, memberChars, memberChars, commaSeparated_cons_cons,
      List.append_assoc, List.append_assoc, List.cons_append, List.cons_append] at h
    obtain ⟨hfinite, d, hd⟩ := exists_readValue_of_accepted (closes_cons (by simp) _) h hread
    rcases fuel with _ | fuel
    · cases h
    · rcases hmore : Json.readMembers (readValue depth) fuel
        (commaSeparated (memberChars (members (next :: entries))) ++ ['\x7d']) with
        ⟨drafts', flaw, left'⟩
      rw [readMembers_cons hd hmore] at h
      cases h
      obtain ⟨_, _, -, -, hread'⟩ := readMembers_cons_eq_ok_iff.1 hread
      exact List.forall_mem_cons.2 ⟨hfinite, finite_of_readMembers hmore hread'⟩

/-- A document of members is read as these members, with whatever flaw comes first. -/
theorem exists_content_read {entries : List (String × RuleValue)} (hne : entries ≠ []) :
    ∃ fuel drafts flaw left, Json.readMembers (readValue 126) fuel
        (commaSeparated (memberChars (members entries)) ++ ['\x7d']) = (drafts, flaw, left) ∧
      (Document.read (Value.object (members entries)).render).content = .object drafts flaw := by
  obtain ⟨⟨name, v⟩, entries, rfl⟩ := List.exists_cons_of_ne_nil hne
  obtain ⟨tail, hchars⟩ : ∃ tail,
      commaSeparated (memberChars (members ((name, v) :: entries))) = '"' :: tail :=
    exists_cons_commaSeparated '"' _ (memberChars (members entries))
  rcases hread : Json.readMembers (readValue 126) ('"' :: tail ++ ['\x7d']).length
    ('"' :: tail ++ ['\x7d']) with ⟨drafts, flaw, left⟩
  rw [hchars]
  refine ⟨_, drafts, flaw, left, hread, ?_⟩
  have hvalue : readValue maxDepth (Value.object (members ((name, v) :: entries))).chars =
      (.object drafts flaw, left) := by
    rw [Value.chars, hchars]
    change readObject (readValue 126) ('"' :: (tail ++ ['\x7d'])) = _
    rw [readObject_quote]
    rw [List.cons_append] at hread
    rw [hread]
  rw [Document.read, Value.render, String.toList_ofList, hvalue]
  rcases left with _ | rest <;> rfl

theorem finite_of_ofJson {rule read : Rule} (h : ofJson rule.toJson.render = .ok read) :
    ∀ entry ∈ rule.toList, entry.2.finite := by
  rcases hentries : rule.toList with _ | ⟨entry, entries⟩
  · simp
  · obtain ⟨fuel, drafts, flaw, left, hread, hcontent⟩ :=
      exists_content_read (List.cons_ne_nil entry entries)
    rw [toJson_eq, hentries, ofJson, hcontent] at h
    obtain ⟨read', h, -⟩ := bind_eq_ok_iff.1 h
    obtain ⟨read'', hmembers, hflaw⟩ := bind_eq_ok_iff.1 h
    rcases flaw with _ | flaw
    · exact finite_of_readMembers hread hmembers
    · cases hflaw

end Refused

/-- The second rule has the properties of the first, with the same texts and with the numbers that
the written ones are read as. -/
structure RereadAs (rule read : Rule) : Prop where
  names : ∀ name, name ∈ read ↔ name ∈ rule
  texts : ∀ (name : String) s, rule[name]? = some (.text s) → read[name]? = some (.text s)
  numbers : ∀ (name : String) x, rule[name]? = some (.number x) →
    ∃ n, readNumber (Decimal.document.chars x) = .ok (n, []) ∧
      read[name]? = some (.number n.toFloat)

theorem rereadAs_of_getElem? {rule read : Rule}
    (h : ∀ name : String, read[name]? = rule[name]?.map RuleValue.reread)
    (haccepted : ∀ (name : String) x, rule[name]? = some (.number x) → Accepted x) :
    rule.RereadAs read where
  names name := by
    rw [Std.ExtTreeMap.mem_iff_isSome_getElem?, Std.ExtTreeMap.mem_iff_isSome_getElem?, h,
      Option.isSome_map]
  texts name s hs := by
    rw [h, hs]
    rfl
  numbers name x hx := by
    obtain ⟨n, hn⟩ := haccepted name x hx
    refine ⟨n, hn, ?_⟩
    rw [h, hx, Option.map_some, RuleValue.reread, hn]

theorem rereads_or_refused (rule : Rule) :
    ((∀ (name : String) x, rule[name]? = some (.number x) → x.isFinite ∧ Accepted x) →
      ∃ read, ofJson rule.toJson.render = .ok read ∧ rule.RereadAs read) ∧
    ((∃ (name : String) (x : Float), rule[name]? = some (.number x) ∧ x.isFinite = false) →
      ∃ e, ofJson rule.toJson.render = .error e) := by
  refine ⟨fun h => ?_, ?_⟩
  · obtain ⟨read, hread, hvalues⟩ := ofJson_render_of_accepted h
    exact ⟨read, hread, rereadAs_of_getElem? hvalues fun name x hx => (h name x hx).2⟩
  · rintro ⟨name, x, hx, hnot⟩
    rcases hread : ofJson rule.toJson.render with e | read
    · exact ⟨e, rfl⟩
    · have hfinite := finite_of_ofJson hread (name, .number x)
        (Std.ExtTreeMap.mem_toList_iff_getElem?_eq_some.2 hx)
      rw [RuleValue.finite, hnot] at hfinite
      cases hfinite

/-- A number, and a text that looks like it under a name that has to be escaped. -/
def lookalike : Rule := ofProperties [("width", .number 1.5), ("\"width\"\n", .text "1.5")]

theorem rereads_or_refused_lookalike :
    (∃ read, ofJson lookalike.toJson.render = .ok read ∧ lookalike.RereadAs read) ∧
      ∃ e, ofJson (toJson (lookalike.insert "height" (.number (0 / 0)))).render = .error e := by
  refine ⟨(rereads_or_refused lookalike).1 fun name x hx => ?_,
    (rereads_or_refused _).2 ⟨"height", 0 / 0, by simp, rfl⟩⟩
  rw [lookalike, ofProperties, NameMap.getElem?_ofEntries,
    lastValue_eq_some_iff_mem (by decide), List.mem_pair] at hx
  rcases hx with heq | heq
  · rw [RuleValue.number.inj (Prod.mk.inj heq).2]
    exact ⟨rfl, .float 1.5, rfl⟩
  · cases (Prod.mk.inj heq).2

end Rule

end AtomicStyle
