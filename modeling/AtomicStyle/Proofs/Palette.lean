import AtomicStyle.Palette
import AtomicStyle.Proofs.Color.Reading

/-!
# When a palette expands

A palette expands if all of its texts are colours (`exists_outcome_expand`), and otherwise fails at
the first entry whose text is not one (`outcome_expand_of_firstRejected`), whatever follows it. Of
the entries whose texts have an answer, one of the two must be the case
(`readable_or_firstRejected`).
-/

namespace AtomicStyle

theorem Run.outcome_bind {ε α β : Type} (r : Run ε α) (next : α → Run ε β) :
    (r >>= next).outcome = r.outcome.bind fun a => (next a).outcome := by
  obtain ⟨outcome, notes⟩ := r
  rcases outcome with e | a <;> rfl

namespace Palette

/-- The texts of all entries are colours. -/
def Readable (entries : List (String × String)) : Prop :=
  ∀ entry ∈ entries, ∃ base, Color.parse entry.2 = .ok base

/-- The texts of all entries have an answer, be it that they are no colours. -/
def Answered (entries : List (String × String)) : Prop :=
  ∀ entry ∈ entries, Color.parse entry.2 ≠ .error .splitCharacter

/-- The first entry whose text is no colour, by its name and what is wrong with its text. -/
def FirstRejected (entries : List (String × String)) (name : String) (source : ColorError) : Prop :=
  ∃ before after, entries = before ++ (name, source.input) :: after ∧ Readable before ∧
    Color.parse source.input = .error (.rejected source)

theorem readable_nil : Readable [] := by simp [Readable]

theorem Readable.cons {entry : String × String} {entries : List (String × String)} {base : Color}
    (hentry : Color.parse entry.2 = .ok base) (h : Readable entries) :
    Readable (entry :: entries) := by
  intro other hother
  rcases List.mem_cons.1 hother with rfl | hmem
  · exact ⟨base, hentry⟩
  · exact h other hmem

theorem Readable.tail {entry : String × String} {entries : List (String × String)}
    (h : Readable (entry :: entries)) : Readable entries :=
  fun other hmem => h other (List.mem_cons_of_mem _ hmem)

theorem Readable.answered {entries : List (String × String)} (h : Readable entries) :
    Answered entries := by
  intro entry hentry
  obtain ⟨base, hbase⟩ := h entry hentry
  simp [hbase]

theorem Readable.not_rejected {entries : List (String × String)} (h : Readable entries)
    {entry : String × String} (hentry : entry ∈ entries) (source : ColorError) :
    Color.parse entry.2 ≠ .error (.rejected source) := by
  obtain ⟨base, hbase⟩ := h entry hentry
  simp [hbase]

theorem FirstRejected.exists_rejected {entries : List (String × String)} {name : String}
    {source : ColorError} (h : FirstRejected entries name source) :
    ∃ entry ∈ entries, Color.parse entry.2 = .error (.rejected source) := by
  obtain ⟨before, after, rfl, -, hreject⟩ := h
  exact ⟨(name, source.input), by simp, hreject⟩

theorem FirstRejected.head {entry : String × String} {source : ColorError}
    (h : Color.parse entry.2 = .error (.rejected source)) (entries : List (String × String)) :
    FirstRejected (entry :: entries) entry.1 source := by
  have hinput := Color.input_of_parse_rejected h
  refine ⟨[], entries, ?_, readable_nil, ?_⟩
  · rw [hinput, List.nil_append]
  · rw [hinput, h]

theorem FirstRejected.cons {entry : String × String} {entries : List (String × String)}
    {base : Color} {name : String} {source : ColorError} (hentry : Color.parse entry.2 = .ok base)
    (h : FirstRejected entries name source) : FirstRejected (entry :: entries) name source := by
  obtain ⟨before, after, rfl, hbefore, hreject⟩ := h
  exact ⟨entry :: before, after, rfl, hbefore.cons hentry, hreject⟩

theorem readable_or_firstRejected : ∀ {entries : List (String × String)}, Answered entries →
    Readable entries ∨ ∃ name source, FirstRejected entries name source
  | [], _ => .inl readable_nil
  | entry :: entries, h => by
    rcases hparse : Color.parse entry.2 with failure | base
    · rcases failure with source | _
      · exact .inr ⟨entry.1, source, .head hparse entries⟩
      · exact absurd hparse (h entry List.mem_cons_self)
    · rcases readable_or_firstRejected fun other hmem => h other (List.mem_cons_of_mem _ hmem) with
        hread | ⟨name, source, hreject⟩
      · exact .inl (hread.cons hparse)
      · exact .inr ⟨name, source, hreject.cons hparse⟩

variable {settings : ColorSettings}

theorem outcome_expandFrom_cons {entry : String × String} {base : Color}
    (h : Color.parse entry.2 = .ok base) (entries : List (String × String))
    (expanded : NameMap String) :
    (expandFrom settings (entry :: entries) expanded).outcome =
      (expandFrom settings entries
        (expanded.insertAll (family settings entry.1 entry.2 base))).outcome := by
  simp only [expandFrom, expandEntry, Run.outcome_bind, h, Except.bind]

theorem exists_outcome_expandFrom : ∀ {entries : List (String × String)}, Readable entries →
    ∀ expanded : NameMap String,
      ∃ colors, (expandFrom settings entries expanded).outcome = .ok colors
  | [], _, expanded => ⟨expanded, rfl⟩
  | entry :: entries, h, expanded => by
    obtain ⟨base, hbase⟩ := h entry List.mem_cons_self
    rw [outcome_expandFrom_cons hbase]
    exact exists_outcome_expandFrom h.tail _

theorem outcome_expandFrom_of_firstRejected {name : String} {source : ColorError} :
    ∀ {entries : List (String × String)}, FirstRejected entries name source →
      ∀ expanded : NameMap String,
        (expandFrom settings entries expanded).outcome = .error (.invalidColor name source)
  | _, ⟨[], after, rfl, _, hreject⟩, expanded => by
    simp only [List.nil_append, expandFrom, expandEntry, Run.outcome_bind, hreject, Run.fail,
      Except.bind]
  | _, ⟨entry :: before, after, rfl, hbefore, hreject⟩, expanded => by
    obtain ⟨base, hbase⟩ := hbefore entry List.mem_cons_self
    rw [List.cons_append, outcome_expandFrom_cons hbase]
    exact outcome_expandFrom_of_firstRejected ⟨before, after, rfl, hbefore.tail, hreject⟩ _

theorem firstRejected_of_outcome_expandFrom {name : String} {source : ColorError} :
    ∀ {entries : List (String × String)} {expanded : NameMap String},
      (expandFrom settings entries expanded).outcome = .error (.invalidColor name source) →
        FirstRejected entries name source
  | [], _, h => by simp [expandFrom, pure] at h
  | entry :: entries, expanded, h => by
    rcases hparse : Color.parse entry.2 with failure | base
    · rcases failure with other | _
      · simp only [expandFrom, expandEntry, Run.outcome_bind, hparse, Run.fail, Except.bind,
          Except.error.injEq, PaletteError.invalidColor.injEq] at h
        obtain ⟨rfl, rfl⟩ := h
        exact .head hparse entries
      · simp [expandFrom, expandEntry, Run.outcome_bind, hparse, Run.fail, Except.bind] at h
    · rw [outcome_expandFrom_cons hparse] at h
      exact (firstRejected_of_outcome_expandFrom h).cons hparse

end Palette

namespace ColorSettings

variable {settings : ColorSettings}

theorem exists_outcome_expand (h : Palette.Readable settings.palette.toList) :
    ∃ colors, settings.expand.outcome = .ok colors :=
  Palette.exists_outcome_expandFrom h ∅

theorem readable_standard : Palette.Readable standard.palette.toList :=
  .cons rfl (.cons rfl Palette.readable_nil)

theorem outcome_expand_of_firstRejected {name : String} {source : ColorError}
    (h : Palette.FirstRejected settings.palette.toList name source) :
    settings.expand.outcome = .error (.invalidColor name source) :=
  Palette.outcome_expandFrom_of_firstRejected h ∅

theorem outcome_expand_eq_invalidColor_iff {name : String} {source : ColorError} :
    settings.expand.outcome = .error (.invalidColor name source) ↔
      Palette.FirstRejected settings.palette.toList name source :=
  ⟨Palette.firstRejected_of_outcome_expandFrom, outcome_expand_of_firstRejected⟩

end ColorSettings

end AtomicStyle
