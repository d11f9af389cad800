import AtomicStyle.Proofs.Registry

/-!
# A registry is the history of its calls

Each call writes at some names and leaves the others as they are. So after any calls the value under
a name is the one that the last call writing there wrote, and there is none only if no call wrote
there (`lastWritten_after`). A call that does not get as far as a compiled result writes nowhere,
and one whose factory refuses writes sizes and colours only.
-/

namespace AtomicStyle

/-- What can be asked of a registry that changes it. Each call may bring a factory of its own. -/
inductive Call (Handle : Type) : Type 1 where
  | build {ε : Type} (config : Config) (factory : Factory Handle ε)
  | buildWith {ε : Type} (config : Config) (vocabulary : Vocabulary) (factory : Factory Handle ε)
  | commit {ε : Type} (compiled : Compiled) (factory : Factory Handle ε)

variable {Handle α : Type}

namespace Call

def perform (r : Registry Handle) : Call Handle → Registry Handle
  | build config factory => (r.build config factory).1
  | buildWith config vocabulary factory => (r.buildWith config vocabulary factory).1
  | commit compiled factory => (r.commit compiled factory).1

/-- The compiled result that a call commits, if it gets as far as that. -/
def committed? : Call Handle → Option Compiled
  | build config _ => config.compile.outcome.toOption
  | buildWith config vocabulary _ => (config.compileWith vocabulary).outcome.toOption
  | commit compiled _ => some compiled

/-- The styles that the factory of a call makes of a sheet, if it does not refuse. -/
def create? (sheet : Sheet) : Call Handle → Option (NameMap Handle)
  | build _ factory => (factory.create sheet).toOption
  | buildWith _ _ factory => (factory.create sheet).toOption
  | commit _ factory => (factory.create sheet).toOption

/-- The sizes that a call adds, if it adds any; the same for colours and styles below. -/
def sizes? (call : Call Handle) : Option (NameMap Float) := call.committed?.map Compiled.sizes

def colors? (call : Call Handle) : Option (NameMap String) := call.committed?.map Compiled.colors

def styles? (call : Call Handle) : Option (NameMap Handle) :=
  call.committed?.bind fun compiled => call.create? compiled.sheet

/-- All that a call can do is merge the result that it commits with what its factory makes of it. -/
theorem perform_eq (r : Registry Handle) (call : Call Handle) :
    call.perform r =
      call.committed?.elim r fun compiled => r.merge compiled (call.create? compiled.sheet) := by
  cases call with
  | build config factory => exact Registry.buildWith_fst r factory
  | buildWith config vocabulary factory => exact Registry.buildWith_fst r factory
  | commit compiled factory => exact Registry.commit_fst r compiled factory

theorem sizes_perform (call : Call Handle) (r : Registry Handle) :
    (call.perform r).sizes = call.sizes?.elim r.sizes (r.sizes ∪ ·) := by
  rw [perform_eq, sizes?]
  rcases call.committed? with _ | compiled <;> rfl

theorem colors_perform (call : Call Handle) (r : Registry Handle) :
    (call.perform r).colors = call.colors?.elim r.colors (r.colors ∪ ·) := by
  rw [perform_eq, colors?]
  rcases call.committed? with _ | compiled <;> rfl

theorem styles_perform (call : Call Handle) (r : Registry Handle) :
    (call.perform r).styles = call.styles?.elim r.styles (r.styles ∪ ·) := by
  rw [perform_eq, styles?]
  rcases call.committed? with _ | compiled <;> rfl

end Call

/-- What is held after some calls is what the last call that wrote anything wrote. -/
structure LastWritten (write : Call Handle → Option α) (calls : List (Call Handle))
    (held : Option α) : Prop where
  written_iff : ∀ a, held = some a ↔ ∃ before call after, calls = before ++ call :: after ∧
    write call = some a ∧ ∀ later ∈ after, write later = none
  absent_iff : held = none ↔ ∀ call ∈ calls, write call = none

namespace LastWritten

variable {write : Call Handle → Option α} {calls : List (Call Handle)}

theorem findSome?_reverse : LastWritten write calls (calls.reverse.findSome? write) where
  written_iff _ := findSome?_reverse_eq_some_iff
  absent_iff := by
    rw [List.findSome?_eq_none_iff]
    simp

/-- What was written once does not disappear. -/
theorem isSome_append {more : List (Call Handle)} {earlier later : Option α}
    (h : LastWritten write calls earlier) (hmore : LastWritten write (calls ++ more) later)
    (hearlier : earlier.isSome) : later.isSome := by
  by_contra hlater
  rw [Option.not_isSome_iff_eq_none, hmore.absent_iff] at hlater
  have hnone : earlier = none :=
    h.absent_iff.2 fun call hcall => hlater call (List.mem_append_left _ hcall)
  simp [hnone] at hearlier

end LastWritten

namespace Registry

/-- The registry after some calls to a new one. -/
def after (calls : List (Call Handle)) : Registry Handle :=
  calls.foldl (fun r call => call.perform r) empty

theorem after_concat (calls : List (Call Handle)) (call : Call Handle) :
    after (calls ++ [call]) = call.perform (after calls) := by
  rw [after, List.foldl_append, List.foldl_cons, List.foldl_nil, after]

/-- If each call adds a part of its own to a map of the registry, that map is the history of the
parts. -/
theorem lastWritten_map (map : Registry Handle → NameMap α)
    {part : Call Handle → Option (NameMap α)} (hempty : map empty = ∅)
    (hstep : ∀ call r, map (Call.perform r call) = (part call).elim (map r) (map r ∪ ·))
    (name : String) (calls : List (Call Handle)) :
    LastWritten (fun call => (part call).bind (·[name]?)) calls (map (after calls))[name]? := by
  have hheld : (map (after calls))[name]? =
      calls.reverse.findSome? fun call => (part call).bind (·[name]?) := by
    induction calls using List.reverseRecOn with
    | nil =>
      rw [after, List.foldl_nil, hempty]
      simp
    | append_singleton calls call ih =>
      rw [after_concat, hstep, List.reverse_append, List.reverse_singleton,
        List.singleton_append, List.findSome?_cons, ← ih]
      rcases part call with _ | added
      · rfl
      · rw [Option.elim_some, Std.ExtTreeMap.getElem?_union, Option.bind_some]
        rcases added[name]? with _ | a <;> rfl
  rw [hheld]
  exact .findSome?_reverse

theorem lastWritten_after (calls : List (Call Handle)) (name : String) :
    LastWritten (fun call => call.sizes?.bind (·[name]?)) calls (after calls).sizes[name]? ∧
      LastWritten (fun call => call.colors?.bind (·[name]?)) calls (after calls).colors[name]? ∧
      LastWritten (fun call => call.styles?.bind (·[name]?)) calls (after calls).styles[name]? ∧
      ∀ more : List (Call Handle),
        (name ∈ (after calls).sizes → name ∈ (after (calls ++ more)).sizes) ∧
        (name ∈ (after calls).colors → name ∈ (after (calls ++ more)).colors) ∧
        (name ∈ (after calls).styles → name ∈ (after (calls ++ more)).styles) := by
  have hsizes (run : List (Call Handle)) := lastWritten_map sizes rfl Call.sizes_perform name run
  have hcolors (run : List (Call Handle)) := lastWritten_map colors rfl Call.colors_perform name run
  have hstyles (run : List (Call Handle)) := lastWritten_map styles rfl Call.styles_perform name run
  refine ⟨hsizes calls, hcolors calls, hstyles calls, fun more => ?_⟩
  simp only [Std.ExtTreeMap.mem_iff_isSome_getElem?]
  exact ⟨(hsizes calls).isSome_append (hsizes (calls ++ more)),
    (hcolors calls).isSome_append (hcolors (calls ++ more)),
    (hstyles calls).isSome_append (hstyles (calls ++ more))⟩

end Registry

end AtomicStyle
