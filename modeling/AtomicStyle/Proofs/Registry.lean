import AtomicStyle.Proofs.Compiled
import AtomicStyle.Registry

/-!
# What a build leaves behind

A build ends in one of three ways, and each leaves a registry of its own (`buildWith_cases`). A
palette with a text that is no colour stops it before the factory is asked: nothing is added. A
factory that refuses stops it after sizes and colours are added, as they would be with any other
factory. Otherwise what the build made takes the place of what was there under the same names, and
the rest stays.
-/

namespace AtomicStyle

/-- The result of writing one map over another: every new name has its new value, and all the others
keep what they had. -/
structure NameMap.Overwrites {α : Type} (old new result : NameMap α) : Prop where
  written : ∀ (name : String) (value : α), new[name]? = some value → result[name]? = some value
  kept : ∀ name : String, name ∉ new → result[name]? = old[name]?

theorem NameMap.overwrites_union {α : Type} (old new : NameMap α) :
    NameMap.Overwrites old new (old ∪ new) where
  written name value h := by
    rw [Std.ExtTreeMap.getElem?_union, h, Option.some_or]
  kept name h := by
    rw [Std.ExtTreeMap.getElem?_union_of_not_mem_right h]

/-- Refuses every sheet. -/
def Factory.refusing : Factory Rule Unit := ⟨fun _ => .error ()⟩

namespace Registry

variable {Handle ε : Type} (r : Registry Handle)

/-- Adds a compiled result, with styles if there are any for it. -/
def merge (c : Compiled) (styles : Option (NameMap Handle)) : Registry Handle :=
  ⟨r.sizes ∪ c.sizes, r.colors ∪ c.colors, styles.elim r.styles (r.styles ∪ ·)⟩

theorem commit_of_refused {c : Compiled} {factory : Factory Handle ε} {e : ε}
    (h : factory.create c.sheet = .error e) :
    r.commit c factory = (r.merge c none, .fail (.materialize e)) := by
  simp only [commit, h, merge, Option.elim_none]

theorem commit_of_created {c : Compiled} {factory : Factory Handle ε} {styles : NameMap Handle}
    (h : factory.create c.sheet = .ok styles) :
    r.commit c factory = (r.merge c (some styles), .leave [.committed styles.size]) := by
  simp only [commit, h, merge, Option.elim_some]

theorem commit_fst (c : Compiled) (factory : Factory Handle ε) :
    (r.commit c factory).1 = r.merge c (factory.create c.sheet).toOption := by
  rcases h : factory.create c.sheet with e | styles
  · rw [commit_of_refused r h]
    rfl
  · rw [commit_of_created r h]
    rfl

section Build

variable {config : Config} {vocabulary : Vocabulary} (factory : Factory Handle ε)

theorem buildWith_of_error {e : PaletteError}
    (h : (config.compileWith vocabulary).outcome = .error e) :
    r.buildWith config vocabulary factory =
      (r, ⟨.error (.palette e), (config.compileWith vocabulary).notes⟩) := by
  simp only [buildWith, h]

theorem buildWith_of_ok {c : Compiled} (h : (config.compileWith vocabulary).outcome = .ok c) :
    r.buildWith config vocabulary factory =
      ((r.commit c factory).1, ⟨(r.commit c factory).2.outcome,
        (config.compileWith vocabulary).notes ++ (r.commit c factory).2.notes⟩) := by
  simp only [buildWith, h]

theorem buildWith_fst :
    (r.buildWith config vocabulary factory).1 =
      (config.compileWith vocabulary).outcome.toOption.elim r fun compiled =>
        r.merge compiled (factory.create compiled.sheet).toOption := by
  rcases h : (config.compileWith vocabulary).outcome with e | compiled
  · rw [buildWith_of_error r factory h]
    rfl
  · rw [buildWith_of_ok r factory h, commit_fst]
    rfl

theorem buildWith_of_firstRejected {name : String} {source : ColorError}
    (h : Palette.FirstRejected config.colors.palette.toList name source) :
    r.buildWith config vocabulary factory =
      (r, ⟨.error (.palette (.invalidColor name source)),
        (config.compileWith vocabulary).notes⟩) := by
  exact buildWith_of_error r factory
    (Compiled.outcome_compileWith_of_firstRejected config vocabulary h)

/-- How a build stands to the compiled result that it adds. -/
structure Adds (config : Config) (vocabulary : Vocabulary) (c : Compiled) : Prop where
  /-- It fails exactly if the factory refuses the sheet, and with the same cause. -/
  refused_iff : ∀ e, (r.buildWith config vocabulary factory).2.outcome = .error (.materialize e) ↔
    factory.create c.sheet = .error e
  /-- Then it adds no styles, but the sizes and colours that it adds with any factory. -/
  refused : ∀ e, factory.create c.sheet = .error e →
    (r.buildWith config vocabulary factory).1.styles = r.styles ∧
      ∀ {ε' : Type} (other : Factory Handle ε') (styles : NameMap Handle),
        other.create c.sheet = .ok styles →
        (r.buildWith config vocabulary factory).1.sizes =
            (r.buildWith config vocabulary other).1.sizes ∧
          (r.buildWith config vocabulary factory).1.colors =
            (r.buildWith config vocabulary other).1.colors
  /-- Otherwise it succeeds, and all that it made is written over what was there. -/
  created : ∀ styles, factory.create c.sheet = .ok styles →
    (r.buildWith config vocabulary factory).2.outcome = .ok () ∧
      NameMap.Overwrites r.sizes c.sizes (r.buildWith config vocabulary factory).1.sizes ∧
      NameMap.Overwrites r.colors c.colors (r.buildWith config vocabulary factory).1.colors ∧
      NameMap.Overwrites r.styles styles (r.buildWith config vocabulary factory).1.styles

theorem adds_of_ok {c : Compiled} (h : (config.compileWith vocabulary).outcome = .ok c) :
    r.Adds factory config vocabulary c where
  refused_iff e := by
    rw [buildWith_of_ok r factory h]
    rcases hcreate : factory.create c.sheet with cause | styles
    · rw [commit_of_refused r hcreate]
      simp [Run.fail]
    · rw [commit_of_created r hcreate]
      simp [Run.leave]
  refused e hrefused := by
    rw [buildWith_of_ok r factory h, commit_of_refused r hrefused]
    refine ⟨rfl, fun other styles hcreated => ?_⟩
    rw [buildWith_of_ok r other h, commit_of_created r hcreated]
    exact ⟨rfl, rfl⟩
  created styles hcreated := by
    rw [buildWith_of_ok r factory h, commit_of_created r hcreated]
    exact ⟨rfl, NameMap.overwrites_union _ _, NameMap.overwrites_union _ _,
      NameMap.overwrites_union _ _⟩

theorem Adds.outcome_ne_palette {r : Registry Handle} {factory : Factory Handle ε} {c : Compiled}
    (h : r.Adds factory config vocabulary c) (e : PaletteError) :
    (r.buildWith config vocabulary factory).2.outcome ≠ .error (.palette e) := by
  rcases hcreate : factory.create c.sheet with cause | styles
  · rw [(h.refused_iff cause).2 hcreate]
    simp
  · rw [(h.created styles hcreate).1]
    simp

theorem buildWith_cases (h : Palette.Answered config.colors.palette.toList) :
    ((∃ name source, (r.buildWith config vocabulary factory).2.outcome =
          .error (.palette (.invalidColor name source))) ↔
        ∃ entry ∈ config.colors.palette.toList, ∃ source,
          Color.parse entry.2 = .error (.rejected source)) ∧
      (∀ name source, (r.buildWith config vocabulary factory).2.outcome =
          .error (.palette (.invalidColor name source)) →
        Palette.FirstRejected config.colors.palette.toList name source ∧
          ∀ {ε' : Type} (other : Factory Handle ε'), r.buildWith config vocabulary other =
            (r, ⟨.error (.palette (.invalidColor name source)),
              (config.compileWith vocabulary).notes⟩)) ∧
      ((∀ entry ∈ config.colors.palette.toList, ∀ source,
          Color.parse entry.2 ≠ .error (.rejected source)) →
        ∃ c, (config.compileWith vocabulary).outcome = .ok c ∧
          r.Adds factory config vocabulary c) := by
  rcases Palette.readable_or_firstRejected h with hread | ⟨name, source, hfirst⟩
  · obtain ⟨colors, -, hcompiled⟩ := Compiled.exists_outcome_compileWith config vocabulary hread
    have hadds := adds_of_ok r factory hcompiled
    refine ⟨⟨?_, ?_⟩, ?_, fun _ => ⟨_, hcompiled, hadds⟩⟩
    · rintro ⟨name, source, houtcome⟩
      exact absurd houtcome (hadds.outcome_ne_palette _)
    · rintro ⟨entry, hentry, source, hreject⟩
      exact absurd hreject (hread.not_rejected hentry source)
    · intro name source houtcome
      exact absurd houtcome (hadds.outcome_ne_palette _)
  · obtain ⟨entry, hentry, hreject⟩ := hfirst.exists_rejected
    refine ⟨⟨fun _ => ⟨entry, hentry, source, hreject⟩, fun _ => ⟨name, source, ?_⟩⟩, ?_, ?_⟩
    · rw [buildWith_of_firstRejected r factory hfirst]
    · intro n s houtcome
      rw [buildWith_of_firstRejected r factory hfirst] at houtcome
      cases houtcome
      exact ⟨hfirst, fun other => buildWith_of_firstRejected r other hfirst⟩
    · intro hnone
      exact absurd hreject (hnone entry hentry source)

end Build

theorem buildWith_contested :
    Palette.Answered Compiled.contested.colors.palette.toList ∧
      (empty.buildWith Compiled.contested ⟨[], []⟩ Factory.refusing).2.outcome =
        .error (.materialize ()) ∧
      (empty.buildWith Compiled.contested ⟨[], []⟩ Factory.refusing).1.styles = ∅ := by
  have hanswered := Compiled.readable_contested.answered
  obtain ⟨-, -, hadds⟩ := buildWith_cases empty Factory.refusing hanswered
  obtain ⟨c, -, hadds⟩ := hadds fun entry hentry =>
    Compiled.readable_contested.not_rejected hentry
  exact ⟨hanswered, (hadds.refused_iff ()).2 rfl, (hadds.refused () rfl).1⟩

end Registry

end AtomicStyle
