import AtomicStyle.Proofs.Registry

/-!
# Committing again and in another order

A result that is committed a second time is there already. This holds also if the factory refused
the first time, since the sizes and colours that were added then are those of the result. Two
results can be committed in either order exactly if they do not contradict each other, whatever the
registry held before (`commit_laws`).
-/

namespace AtomicStyle

namespace NameMap

variable {α : Type}

/-- Two maps hold the same value at every name that both have. -/
def Consistent (map other : NameMap α) : Prop :=
  ∀ (name : String) (a b : α), map[name]? = some a → other[name]? = some b → a = b

theorem union_union_self (map other : NameMap α) : map ∪ other ∪ other = map ∪ other := by
  refine Std.ExtTreeMap.ext_getElem? fun name => ?_
  simp only [Std.ExtTreeMap.getElem?_union, ← Option.or_assoc, Option.or_self]

/-- It makes no difference which of two maps is written last if they do not contradict each other,
and otherwise it does, whatever they are written over. -/
theorem union_right_comm_iff (base map other : NameMap α) :
    base ∪ map ∪ other = base ∪ other ∪ map ↔ map.Consistent other := by
  constructor
  · intro h name a b ha hb
    have hname := congrArg (·[name]?) h
    simpa only [Std.ExtTreeMap.getElem?_union, ha, hb, Option.some_or, Option.some.injEq,
      eq_comm] using hname
  · intro h
    refine Std.ExtTreeMap.ext_getElem? fun name => ?_
    simp only [Std.ExtTreeMap.getElem?_union]
    rcases ha : map[name]? with _ | a
    · rw [Option.none_or, Option.none_or]
    · rcases hb : other[name]? with _ | b
      · rw [Option.none_or, Option.none_or]
      · rw [h name a b ha hb, Option.some_or]

end NameMap

/-- Two results hold the same under every name that both have. -/
structure Compiled.Consistent (x y : Compiled) : Prop where
  sizes : x.sizes.Consistent y.sizes
  colors : x.colors.Consistent y.colors
  sheet : NameMap.Consistent x.sheet y.sheet

namespace Registry

variable {Handle ε : Type} (r : Registry Handle)

/-- Merging a result again adds nothing but the styles that were left out. -/
theorem merge_again (c : Compiled) {before : Option (NameMap Handle)} {styles : NameMap Handle}
    (h : before = none ∨ before = some styles) :
    (r.merge c before).merge c (some styles) = r.merge c (some styles) := by
  simp only [merge, NameMap.union_union_self, Option.elim_some]
  rcases h with rfl | rfl
  · rw [Option.elim_none]
  · rw [Option.elim_some, NameMap.union_union_self]

theorem merge_right_comm_iff (r : Registry Rule) (x y : Compiled) :
    (r.merge x (some x.sheet)).merge y (some y.sheet) =
      (r.merge y (some y.sheet)).merge x (some x.sheet) ↔ x.Consistent y := by
  simp only [merge, Option.elim_some, mk.injEq, NameMap.union_right_comm_iff]
  exact ⟨fun h => ⟨h.1, h.2.1, h.2.2⟩, fun h => ⟨h.sizes, h.colors, h.sheet⟩⟩

theorem commit_rules (r : Registry Rule) (c : Compiled) :
    r.commit c Factory.rules =
      (r.merge c (some c.sheet), .leave [.committed c.sheet.size]) :=
  commit_of_created r rfl

theorem commit_laws (r : Registry Rule) (x y : Compiled) :
    ((r.commit x Factory.rules).1.commit x Factory.rules).1 = (r.commit x Factory.rules).1 ∧
      (∀ {ε : Type} (refusing : Factory Rule ε) (e : ε), refusing.create x.sheet = .error e →
        (r.commit x refusing).2.outcome = .error (.materialize e) ∧
          (r.commit x refusing).1.commit x Factory.rules = r.commit x Factory.rules) ∧
      (((r.commit x Factory.rules).1.commit y Factory.rules).1 =
          ((r.commit y Factory.rules).1.commit x Factory.rules).1 ↔ x.Consistent y) := by
  simp only [commit_rules]
  refine ⟨merge_again r x (.inr rfl), fun refusing e h => ?_, merge_right_comm_iff r x y⟩
  rw [commit_of_refused r h]
  exact ⟨rfl, by rw [merge_again r x (.inl rfl)]⟩

/-- A size and its rule. -/
def narrow : Compiled :=
  ⟨.ofEntries [("pa1", 4)], ∅, .ofEntries [("pa1", .single "padding" (.number 4))]⟩

/-- The same size, and a colour without a rule. -/
def colored : Compiled := ⟨.ofEntries [("pa1", 4)], .ofEntries [("red", "#f00")], ∅⟩

theorem consistent_narrow_colored : narrow.Consistent colored where
  sizes _ _ _ ha hb := Option.some.inj (ha.symm.trans hb)
  colors _ _ _ ha _ := by simp [narrow] at ha
  sheet _ _ _ _ hb := by simp [colored] at hb

theorem commit_laws_narrow :
    Factory.refusing.create narrow.sheet = .error () ∧
      (empty.commit narrow Factory.refusing).1.commit narrow Factory.rules =
        empty.commit narrow Factory.rules ∧
      ((empty.commit narrow Factory.rules).1.commit colored Factory.rules).1 =
        ((empty.commit colored Factory.rules).1.commit narrow Factory.rules).1 := by
  obtain ⟨-, hretry, horder⟩ := commit_laws empty narrow colored
  exact ⟨rfl, (hretry Factory.refusing () rfl).2, horder.2 consistent_narrow_colored⟩

end Registry

end AtomicStyle
