import AtomicStyle.Proofs.History
import AtomicStyle.Proofs.Names

/-!
# Names that a registry holds together

Whatever builds a registry has seen, it holds a hyphenated name only together with its twin, and as
long as no factory has refused a sheet it holds a style under each name under which it holds a size
or a colour (`twinned_and_styled_after`). Both are kept by each build: what a build adds has these
properties itself, and unions keep them.
-/

namespace AtomicStyle

variable {α β Handle ε : Type}

theorem toOption_eq_some_iff {x : Except ε α} {a : α} : x.toOption = some a ↔ x = .ok a := by
  cases x <;> simp [Except.toOption]

theorem toOption_eq_none_iff {x : Except ε α} : x.toOption = none ↔ ∃ e, x = .error e := by
  cases x <;> simp [Except.toOption]

namespace NameMap

/-- Each hyphenated name of the map has its twin there. -/
def Twinned (map : NameMap α) : Prop := ∀ name ∈ map, hyphenated name → underscored name ∈ map

theorem twinned_withUnderscores (map : NameMap α) : map.withUnderscores.Twinned :=
  fun name hmem h => ((bothSpellings_withUnderscores map).twin name hmem h).1

theorem twinned_empty : Twinned (∅ : NameMap α) := fun _ hmem =>
  absurd hmem Std.ExtTreeMap.not_mem_empty

theorem covers_empty (map : NameMap α) : map.Covers (∅ : NameMap β) := fun _ hmem =>
  absurd hmem Std.ExtTreeMap.not_mem_empty

theorem Twinned.union {old new : NameMap α} (hold : old.Twinned) (hnew : new.Twinned) :
    Twinned (old ∪ new) := by
  intro name hmem h
  rw [Std.ExtTreeMap.mem_union_iff] at hmem ⊢
  exact hmem.imp (fun hmem => hold name hmem h) (fun hmem => hnew name hmem h)

theorem Covers.union {old new : NameMap α} {old' new' : NameMap β} (hold : old.Covers old')
    (hnew : new.Covers new') : Covers (old ∪ new) (old' ∪ new') := by
  intro name hmem
  rw [Std.ExtTreeMap.mem_union_iff] at hmem ⊢
  exact hmem.imp (hold name) (hnew name)

end NameMap

namespace Compiled

/-- How the names of a compiled result belong together. -/
structure Coherent (c : Compiled) : Prop where
  sizes : c.sizes.Twinned
  colors : c.colors.Twinned
  sheet : c.sheet.Twinned
  covers_sizes : c.sheet.Covers c.sizes
  covers_colors : c.sheet.Covers c.colors

theorem coherent_ofColors (config : Config) (vocabulary : Vocabulary) (colors : NameMap String) :
    (ofColors config vocabulary colors).Coherent where
  sizes := NameMap.twinned_withUnderscores _
  colors := NameMap.twinned_withUnderscores _
  sheet := NameMap.twinned_withUnderscores _
  covers_sizes := by
    refine NameMap.Covers.withUnderscores fun name hmem => ?_
    rw [mem_layers]
    exact .inr (.inr (.inl (Sheet.mem_names_of_mem_scaledSizes hmem)))
  covers_colors := by
    refine NameMap.Covers.withUnderscores fun name hmem => ?_
    rw [mem_layers]
    exact .inr (.inl ⟨name, hmem, by simp [Sheet.colorNames]⟩)

theorem coherent_of_outcome {config : Config} {vocabulary : Vocabulary} {c : Compiled}
    (h : (config.compileWith vocabulary).outcome = .ok c) : c.Coherent := by
  obtain ⟨colors, -, rfl⟩ := exists_eq_ofColors h
  exact coherent_ofColors config vocabulary colors

end Compiled

/-- The factory makes one style for each rule of a sheet, or refuses. -/
def Factory.Faithful (factory : Factory Handle ε) : Prop :=
  ∀ sheet styles, factory.create sheet = .ok styles → ∀ name, name ∈ styles ↔ name ∈ sheet

theorem Factory.faithful_rules : Factory.rules.Faithful := by
  rintro sheet styles h name
  cases h
  rfl

namespace Registry

/-- The twin of each hyphenated name is there. -/
structure Twinned (r : Registry Handle) : Prop where
  sizes : r.sizes.Twinned
  colors : r.colors.Twinned
  styles : r.styles.Twinned

/-- There is a style for each size and each colour. -/
structure Styled (r : Registry Handle) : Prop where
  sizes : r.styles.Covers r.sizes
  colors : r.styles.Covers r.colors

variable {r : Registry Handle} {c : Compiled}

theorem Twinned.merge (hr : r.Twinned) (hc : c.Coherent) {styles : Option (NameMap Handle)}
    (h : ∀ made, styles = some made → ∀ name, name ∈ made ↔ name ∈ c.sheet) :
    (r.merge c styles).Twinned where
  sizes := hr.sizes.union hc.sizes
  colors := hr.colors.union hc.colors
  styles := by
    rcases styles with _ | made
    · exact hr.styles
    · have hmade := h made rfl
      refine hr.styles.union fun name hmem hname => ?_
      rw [hmade] at hmem ⊢
      exact hc.sheet name hmem hname

theorem Styled.merge (hr : r.Styled) (hc : c.Coherent) {made : NameMap Handle}
    (h : ∀ name, name ∈ made ↔ name ∈ c.sheet) : (r.merge c (some made)).Styled where
  sizes := hr.sizes.union fun name hmem => (h name).2 (hc.covers_sizes name hmem)
  colors := hr.colors.union fun name hmem => (h name).2 (hc.covers_colors name hmem)

end Registry

namespace Call

/-- The call is a build, with a faithful factory. -/
def Builds : Call Handle → Prop
  | build _ factory => factory.Faithful
  | buildWith _ _ factory => factory.Faithful
  | commit _ _ => False

/-- The call fails because its factory refuses the sheet. -/
def Refused (r : Registry Handle) : Call Handle → Prop
  | build config factory =>
    ∃ e, (r.build config factory).2.outcome = .error (.materialize e)
  | buildWith config vocabulary factory =>
    ∃ e, (r.buildWith config vocabulary factory).2.outcome = .error (.materialize e)
  | commit compiled factory =>
    ∃ e, (r.commit compiled factory).2.outcome = .error (.materialize e)

variable {call : Call Handle} {c : Compiled}

theorem Builds.coherent (h : call.Builds) (hc : call.committed? = some c) : c.Coherent := by
  cases call with
  | build config factory => exact Compiled.coherent_of_outcome (toOption_eq_some_iff.1 hc)
  | buildWith config vocabulary factory =>
    exact Compiled.coherent_of_outcome (toOption_eq_some_iff.1 hc)
  | commit compiled factory => exact absurd h id

theorem Builds.mem_create? (h : call.Builds) {sheet : Sheet} {made : NameMap Handle}
    (hmade : call.create? sheet = some made) (name : String) : name ∈ made ↔ name ∈ sheet := by
  cases call with
  | build config factory => exact h sheet made (toOption_eq_some_iff.1 hmade) name
  | buildWith config vocabulary factory =>
    exact h sheet made (toOption_eq_some_iff.1 hmade) name
  | commit compiled factory => exact absurd h id

theorem refused_of_create?_eq_none (r : Registry Handle) (hc : call.committed? = some c)
    (hnone : call.create? c.sheet = none) : call.Refused r := by
  cases call with
  | build config factory =>
    obtain ⟨e, he⟩ := toOption_eq_none_iff.1 hnone
    have hadds := Registry.adds_of_ok r factory (toOption_eq_some_iff.1 hc)
    exact ⟨e, (hadds.refused_iff e).2 he⟩
  | buildWith config vocabulary factory =>
    obtain ⟨e, he⟩ := toOption_eq_none_iff.1 hnone
    have hadds := Registry.adds_of_ok r factory (toOption_eq_some_iff.1 hc)
    exact ⟨e, (hadds.refused_iff e).2 he⟩
  | commit compiled factory =>
    cases hc
    obtain ⟨e, he⟩ := toOption_eq_none_iff.1 hnone
    refine ⟨e, ?_⟩
    rw [Registry.commit_of_refused r he]
    rfl

theorem Builds.twinned_perform (h : call.Builds) {r : Registry Handle} (hr : r.Twinned) :
    (call.perform r).Twinned := by
  rw [perform_eq]
  rcases hc : call.committed? with _ | c
  · exact hr
  · exact hr.merge (h.coherent hc) fun made hmade => h.mem_create? hmade

theorem Builds.styled_perform (h : call.Builds) {r : Registry Handle} (hr : r.Styled)
    (hrefused : ¬ call.Refused r) : (call.perform r).Styled := by
  rw [perform_eq]
  rcases hc : call.committed? with _ | c
  · exact hr
  · rcases hmade : call.create? c.sheet with _ | made
    · exact absurd (refused_of_create?_eq_none r hc hmade) hrefused
    · simp only [Option.elim_some, hmade]
      exact hr.merge (h.coherent hc) (h.mem_create? hmade)

end Call

namespace Registry

/-- No call of a run to a new registry was refused by its factory. -/
def Unrefused (calls : List (Call Handle)) : Prop :=
  ∀ before call later, calls = before ++ call :: later → ¬ call.Refused (after before)

theorem twinned_after {calls : List (Call Handle)} (h : ∀ call ∈ calls, call.Builds) :
    (after calls).Twinned := by
  induction calls using List.reverseRecOn with
  | nil => exact ⟨NameMap.twinned_empty, NameMap.twinned_empty, NameMap.twinned_empty⟩
  | append_singleton calls call ih =>
    rw [List.forall_mem_append, List.forall_mem_singleton] at h
    rw [after_concat]
    exact h.2.twinned_perform (ih h.1)

theorem styled_after {calls : List (Call Handle)} (h : ∀ call ∈ calls, call.Builds)
    (hunrefused : Unrefused calls) : (after calls).Styled := by
  induction calls using List.reverseRecOn with
  | nil => exact ⟨NameMap.covers_empty _, NameMap.covers_empty _⟩
  | append_singleton calls call ih =>
    rw [List.forall_mem_append, List.forall_mem_singleton] at h
    rw [after_concat]
    refine h.2.styled_perform (ih h.1 fun before other later heq => ?_) ?_
    · exact hunrefused before other (later ++ [call]) (by simp [heq])
    · exact hunrefused calls call [] rfl

theorem twinned_and_styled_after (calls : List (Call Handle)) (h : ∀ call ∈ calls, call.Builds) :
    (after calls).Twinned ∧ (Unrefused calls → (after calls).Styled) :=
  ⟨twinned_after h, styled_after h⟩

/-- Two builds with different vocabularies. -/
def contestedCalls : List (Call Rule) :=
  [.build Compiled.contested Factory.rules, .buildWith Compiled.contested ⟨[], []⟩ Factory.rules]

theorem twinned_and_styled_contested :
    (∀ call ∈ contestedCalls, call.Builds) ∧ Unrefused contestedCalls ∧
      (after contestedCalls).Twinned ∧ (after contestedCalls).Styled := by
  have hbuilds : ∀ call ∈ contestedCalls, call.Builds := by
    simp [contestedCalls, Call.Builds, Factory.faithful_rules]
  have hunrefused : Unrefused contestedCalls := by
    intro before call later heq hrefused
    have hmem : call ∈ contestedCalls := by simp [heq]
    simp only [contestedCalls, List.mem_cons, List.not_mem_nil, or_false] at hmem
    rcases hmem with rfl | rfl <;> exact hrefused.elim fun e _ => e.elim
  obtain ⟨htwinned, hstyled⟩ := twinned_and_styled_after contestedCalls hbuilds
  exact ⟨hbuilds, hunrefused, htwinned, hstyled hunrefused⟩

end Registry

end AtomicStyle
