import AtomicStyle.Proofs.Color.Angle
import AtomicStyle.Proofs.Registry

/-!
# When a build has no answer

A build ends without an answer for one reason only: an entry of its palette holds a function call
whose angle is cut through a character, and all entries before it are colours. Neither the unit nor
the settings of the palette nor the vocabulary nor the factory matter (`splitCharacter_iff`).
-/

namespace AtomicStyle

namespace Palette

/-- The first entry whose text is no colour has a text without an answer. -/
def FirstSplit (entries : List (String × String)) : Prop :=
  ∃ before entry after, entries = before ++ entry :: after ∧ Readable before ∧
    Color.SplitsAngle entry.2

theorem not_firstSplit_nil : ¬ FirstSplit [] := by
  rintro ⟨before, entry, after, h, -⟩
  simp at h

theorem firstSplit_cons_iff {entry : String × String} {entries : List (String × String)} :
    FirstSplit (entry :: entries) ↔
      Color.SplitsAngle entry.2 ∨
        (∃ base, Color.parse entry.2 = .ok base) ∧ FirstSplit entries := by
  constructor
  · rintro ⟨before, other, after, h, hbefore, hsplits⟩
    rcases before with _ | ⟨first, before⟩
    · obtain ⟨rfl, rfl⟩ := List.cons.inj h
      exact .inl hsplits
    · obtain ⟨rfl, rfl⟩ := List.cons.inj h
      exact .inr ⟨hbefore entry List.mem_cons_self, before, other, after, rfl, hbefore.tail,
        hsplits⟩
  · rintro (hsplits | ⟨⟨base, hbase⟩, before, other, after, rfl, hbefore, hsplits⟩)
    · exact ⟨[], entry, entries, rfl, readable_nil, hsplits⟩
    · exact ⟨entry :: before, other, after, rfl, hbefore.cons hbase, hsplits⟩

variable {settings : ColorSettings}

theorem outcome_expandFrom_eq_splitCharacter_iff :
    ∀ {entries : List (String × String)} {expanded : NameMap String},
      (expandFrom settings entries expanded).outcome = .error .splitCharacter ↔ FirstSplit entries
  | [], expanded => iff_of_false (by simp [expandFrom, pure]) not_firstSplit_nil
  | entry :: entries, expanded => by
    rw [firstSplit_cons_iff, ← Color.parse_eq_splitCharacter_iff]
    rcases hparse : Color.parse entry.2 with failure | base
    · rcases failure with source | _
      · simp [expandFrom, expandEntry, Run.outcome_bind, hparse, Run.fail, Except.bind]
      · simp [expandFrom, expandEntry, Run.outcome_bind, hparse, Run.fail, Except.bind]
    · rw [outcome_expandFrom_cons hparse, outcome_expandFrom_eq_splitCharacter_iff]
      simp

end Palette

theorem ColorSettings.outcome_expand_eq_splitCharacter_iff {settings : ColorSettings} :
    settings.expand.outcome = .error .splitCharacter ↔
      Palette.FirstSplit settings.palette.toList :=
  Palette.outcome_expandFrom_eq_splitCharacter_iff

theorem Compiled.outcome_compileWith_eq_splitCharacter_iff (config : Config)
    (vocabulary : Vocabulary) :
    (config.compileWith vocabulary).outcome = .error .splitCharacter ↔
      Palette.FirstSplit config.colors.palette.toList := by
  rw [← ColorSettings.outcome_expand_eq_splitCharacter_iff, outcome_compileWith]
  rcases config.colors.expand.outcome with e | colors <;> simp [Except.map]

namespace Registry

variable {Handle ε : Type}

theorem outcome_commit_ne_palette (r : Registry Handle) (c : Compiled) (factory : Factory Handle ε)
    (e : PaletteError) : (r.commit c factory).2.outcome ≠ .error (.palette e) := by
  rcases hcreate : factory.create c.sheet with cause | styles
  · simp [commit_of_refused r hcreate, Run.fail]
  · simp [commit_of_created r hcreate, Run.leave]

theorem splitCharacter_iff (r : Registry Handle) (config : Config) (vocabulary : Vocabulary)
    (factory : Factory Handle ε) :
    (∀ input, Color.parse input = .error .splitCharacter ↔ Color.SplitsAngle input) ∧
      ((config.compileWith vocabulary).outcome = .error .splitCharacter ↔
        Palette.FirstSplit config.colors.palette.toList) ∧
      ((r.buildWith config vocabulary factory).2.outcome = .error (.palette .splitCharacter) ↔
        Palette.FirstSplit config.colors.palette.toList) := by
  have hcompile := Compiled.outcome_compileWith_eq_splitCharacter_iff config vocabulary
  refine ⟨fun input => Color.parse_eq_splitCharacter_iff, hcompile, ?_⟩
  rw [← hcompile]
  rcases h : (config.compileWith vocabulary).outcome with e | c
  · simp [buildWith_of_error r factory h]
  · simp [buildWith_of_ok r factory h, outcome_commit_ne_palette]

/-- The angle is a sign of three bytes and two letters, so its last three bytes begin inside it. -/
theorem splitCharacter_hsl_euro :
    Color.parse "hsl(€ab,1%,1%)" = .error .splitCharacter ∧
      ((Config.new.color "bad" "hsl(€ab,1%,1%)").compileWith Vocabulary.standard).outcome =
        .error .splitCharacter ∧
      ((empty : Registry Rule).buildWith (Config.new.color "bad" "hsl(€ab,1%,1%)")
        Vocabulary.standard Factory.rules).2.outcome = .error (.palette .splitCharacter) :=
  ⟨rfl, rfl, rfl⟩

end Registry

end AtomicStyle
