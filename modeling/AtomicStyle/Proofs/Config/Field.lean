import AtomicStyle.Config.Field
import AtomicStyle.Proofs.Json.Flawless

/-!
# Reading fields by name

Fields are read in the order of a document, but what comes out does not show it: reading goes well
exactly if every name is one of a field, no field is given twice and each part that is given can be
read, and then each field holds what was read for it (`readFields_eq_ok_iff`).
-/

namespace AtomicStyle

variable {Part φ σ ε α : Type}

/-- A record seen through its fields, each of which can be changed alone. -/
structure FieldView (φ σ : Type) where
  Content : φ → Type
  get (f : φ) : σ → Content f
  put (f : φ) : Content f → σ → σ
  get_put (f : φ) (a : Content f) (s : σ) : get f (put f a s) = a
  get_put_of_ne {f g : φ} (a : Content f) (s : σ) (h : g ≠ f) : get g (put f a s) = get g s
  ext {s s' : σ} (h : ∀ f, get f s = get f s') : s = s'

/-- The parts that stand under one of the names. -/
def given (names : List String) (members : List (String × Part)) : List Part :=
  (members.filter fun member => member.1 ∈ names).map Prod.snd

theorem given_cons_of_mem {names : List String} {name : String} (h : name ∈ names) (part : Part)
    (members : List (String × Part)) :
    given names ((name, part) :: members) = part :: given names members := by
  rw [given, List.filter_cons_of_pos (by simpa using h), List.map_cons, given]

theorem given_cons_of_not_mem {names : List String} {name : String} (h : name ∉ names)
    (part : Part) (members : List (String × Part)) :
    given names ((name, part) :: members) = given names members := by
  rw [given, List.filter_cons_of_neg (by simpa using h), given]

theorem given_append (names : List String) (members others : List (String × Part)) :
    given names (members ++ others) = given names members ++ given names others := by
  rw [given, List.filter_append, List.map_append, given, given]

theorem given_perm (names : List String) {members others : List (String × Part)}
    (h : members.Perm others) : (given names members).Perm (given names others) :=
  (h.filter _).map _

theorem mem_given {names : List String} {members : List (String × Part)} {part : Part} :
    part ∈ given names members ↔ ∃ name ∈ names, (name, part) ∈ members := by
  simp [given, and_comm]

theorem given_map {Part' : Type} (names : List String) (f : Part → Part')
    (members : List (String × Part)) :
    given names (members.map fun member => (member.1, f member.2)) =
      (given names members).map f := by
  rw [given, given, List.filter_map, List.map_map, List.map_map]
  rfl

/-- What a field holds in the end: what is read from the one part for it, or what it held before if
there is none. -/
inductive Settles (value : Part → Except ε α) (parts : List Part) (old new : α) : Prop
  | kept (hparts : parts = []) (h : new = old)
  | read (part : Part) (hparts : parts = [part]) (h : value part = .ok new)

theorem settles_nil {value : Part → Except ε α} {old new : α} :
    Settles value [] old new ↔ new = old :=
  ⟨fun settles => match settles with | .kept _ h => h, .kept rfl⟩

theorem settles_cons {value : Part → Except ε α} {part : Part} {parts : List Part} {old new : α} :
    Settles value (part :: parts) old new ↔ parts = [] ∧ value part = .ok new := by
  refine ⟨?_, fun ⟨hparts, h⟩ => .read part (by rw [hparts]) h⟩
  rintro (⟨hparts, -⟩ | ⟨part', hparts, h⟩)
  · cases hparts
  · obtain ⟨rfl, hnil⟩ := List.cons.inj hparts
    exact ⟨hnil, h⟩

section Read

variable [DecidableEq φ] {view : FieldView φ σ} {names : φ → List String}
  {value : (f : φ) → Part → Except ε (view.Content f)}
  {field : String → Except ε φ} {twice : φ → ε} {set : σ → Part → φ → Except ε σ}

omit [DecidableEq φ] in
/-- A member is given for the one field whose name it has, and for no other. -/
theorem given_cons_of_other (hfield : ∀ key f, field key = .ok f ↔ key ∈ names f) {key : String}
    {f g : φ} (hf : key ∈ names f) (hg : g ≠ f) (part : Part) (rest : List (String × Part)) :
    given (names g) ((key, part) :: rest) = given (names g) rest := by
  refine given_cons_of_not_mem (fun h => hg ?_) part rest
  exact Except.ok.inj (((hfield key g).2 h).symm.trans ((hfield key f).2 hf))

theorem readFields_cons_eq_ok_iff (hfield : ∀ key f, field key = .ok f ↔ key ∈ names f)
    (hset : ∀ s part f, set s part f = do return view.put f (← value f part) s)
    {key : String} {part : Part} {rest : List (String × Part)} {seen : List φ} {s s' : σ} :
    readFields field twice set ((key, part) :: rest) seen s = .ok s' ↔
      ∃ f, key ∈ names f ∧ f ∉ seen ∧ ∃ a, value f part = .ok a ∧
        readFields field twice set rest (f :: seen) (view.put f a s) = .ok s' := by
  rw [readFields, bind_eq_ok_iff]
  refine exists_congr fun f => and_congr (hfield key f) ?_
  by_cases hseen : f ∈ seen
  · simp [hseen]
  · rw [if_neg hseen, hset, bind_assoc]
    simp only [pure_bind, bind_eq_ok_iff, hseen, not_false_eq_true, true_and]

/-- A field that was seen may not be given in the members that are left. -/
theorem readFields_seen_eq_ok_iff (hfield : ∀ key f, field key = .ok f ↔ key ∈ names f)
    (hset : ∀ s part f, set s part f = do return view.put f (← value f part) s) {s' : σ} :
    ∀ {members : List (String × Part)} {seen : List φ} {s : σ},
      readFields field twice set members seen s = .ok s' ↔
        (∀ member ∈ members, ∃ f, member.1 ∈ names f) ∧
          (∀ f ∈ seen, given (names f) members = []) ∧
          ∀ f, Settles (value f) (given (names f) members) (view.get f s) (view.get f s')
  | [], seen, s => by
    have hnil (f : φ) : given (names f) ([] : List (String × Part)) = [] := rfl
    simp only [readFields, List.not_mem_nil, false_implies, implies_true, hnil, settles_nil,
      true_and, Except.ok.injEq]
    exact ⟨fun h f => h ▸ rfl, fun h => (view.ext h).symm⟩
  | (key, part) :: rest, seen, s => by
    rw [readFields_cons_eq_ok_iff hfield hset, List.forall_mem_cons]
    constructor
    · rintro ⟨f, hf, hseen, a, ha, hrest⟩
      obtain ⟨hknown, hfresh, hsettles⟩ := (readFields_seen_eq_ok_iff hfield hset).1 hrest
      have hnil : given (names f) rest = [] := hfresh f List.mem_cons_self
      refine ⟨⟨⟨f, hf⟩, hknown⟩, fun g hg => ?_, fun g => ?_⟩
      · rw [given_cons_of_other hfield hf (ne_of_mem_of_not_mem hg hseen)]
        exact hfresh g (List.mem_cons_of_mem f hg)
      · by_cases hg : g = f
        · subst hg
          have hnew := hsettles g
          rw [hnil, settles_nil, view.get_put] at hnew
          rw [given_cons_of_mem hf, settles_cons, hnew]
          exact ⟨hnil, ha⟩
        · rw [given_cons_of_other hfield hf hg, ← view.get_put_of_ne a s hg]
          exact hsettles g
    · rintro ⟨⟨⟨f, hf⟩, hknown⟩, hfresh, hsettles⟩
      have hself := hsettles f
      rw [given_cons_of_mem hf, settles_cons] at hself
      obtain ⟨hnil, hvalue⟩ := hself
      have hseen : f ∉ seen := by
        intro h
        have hgiven := hfresh f h
        rw [given_cons_of_mem hf] at hgiven
        cases hgiven
      refine ⟨f, hf, hseen, view.get f s', hvalue, ?_⟩
      refine (readFields_seen_eq_ok_iff hfield hset).2 ⟨hknown, fun g hg => ?_, fun g => ?_⟩
      · rcases List.mem_cons.1 hg with rfl | hg
        · exact hnil
        · rw [← given_cons_of_other hfield hf (ne_of_mem_of_not_mem hg hseen)]
          exact hfresh g hg
      · by_cases hg : g = f
        · subst hg
          rw [hnil, settles_nil, view.get_put]
        · rw [view.get_put_of_ne _ s hg, ← given_cons_of_other hfield hf hg]
          exact hsettles g

variable (names) in
theorem readFields_eq_ok_iff (hfield : ∀ key f, field key = .ok f ↔ key ∈ names f)
    (hset : ∀ s part f, set s part f = do return view.put f (← value f part) s)
    {members : List (String × Part)} {s s' : σ} :
    readFields field twice set members [] s = .ok s' ↔
      (∀ member ∈ members, ∃ f, member.1 ∈ names f) ∧
        ∀ f, Settles (value f) (given (names f) members) (view.get f s) (view.get f s') := by
  rw [readFields_seen_eq_ok_iff hfield hset]
  simp

end Read

def Field.names : Field → List String
  | rem => ["rem", "remUnit"]
  | colors => ["colors"]
  | fonts => ["fonts"]

def ColorField.names : ColorField → List String
  | lighten => ["lighten"]
  | darken => ["darken"]
  | palette => ["palette"]

theorem Field.ofName?_eq_some_iff {key : String} {f : Field} :
    ofName? key = some f ↔ key ∈ f.names := by
  constructor
  · intro h
    unfold ofName? at h
    split at h <;> cases h <;> simp [names]
  · cases f <;> simp only [names, List.mem_cons, List.not_mem_nil, or_false]
    · rintro (rfl | rfl) <;> rfl
    · rintro rfl
      rfl
    · rintro rfl
      rfl

theorem ColorField.ofName?_eq_some_iff {key : String} {f : ColorField} :
    ofName? key = some f ↔ key ∈ f.names := by
  constructor
  · intro h
    unfold ofName? at h
    split at h <;> cases h <;> simp [names]
  · cases f <;> simp only [names, List.mem_singleton] <;> rintro rfl <;> rfl

theorem Field.exists_mem_names_iff {key : String} :
    (∃ f : Field, key ∈ f.names) ↔ key ∈ ["rem", "remUnit", "colors", "fonts"] := by
  have hall : ["rem", "remUnit", "colors", "fonts"] =
      rem.names ++ (colors.names ++ fonts.names) := rfl
  rw [hall, List.mem_append, List.mem_append]
  constructor
  · rintro ⟨_ | _ | _, h⟩
    · exact .inl h
    · exact .inr (.inl h)
    · exact .inr (.inr h)
  · rintro (h | h | h)
    · exact ⟨rem, h⟩
    · exact ⟨colors, h⟩
    · exact ⟨fonts, h⟩

theorem ColorField.exists_mem_names_iff {key : String} :
    (∃ f : ColorField, key ∈ f.names) ↔ key ∈ ["lighten", "darken", "palette"] := by
  have hall : ["lighten", "darken", "palette"] =
      lighten.names ++ (darken.names ++ palette.names) := rfl
  rw [hall, List.mem_append, List.mem_append]
  constructor
  · rintro ⟨_ | _ | _, h⟩
    · exact .inl h
    · exact .inr (.inl h)
    · exact .inr (.inr h)
  · rintro (h | h | h)
    · exact ⟨lighten, h⟩
    · exact ⟨darken, h⟩
    · exact ⟨palette, h⟩

def Overrides.fields : FieldView Field Overrides where
  Content
    | .rem => Option Float
    | .colors => Option ColorOverrides
    | .fonts => Option Declarations
  get
    | .rem, o => o.rem
    | .colors, o => o.colors
    | .fonts, o => o.fonts
  put
    | .rem, rem, o => { o with rem }
    | .colors, colors, o => { o with colors }
    | .fonts, fonts, o => { o with fonts }
  get_put f _ _ := by cases f <;> rfl
  get_put_of_ne {f g} _ _ h := by cases f <;> cases g <;> first | rfl | exact absurd rfl h
  ext {o o'} h := by
    obtain ⟨rem, colors, fonts⟩ := o
    obtain ⟨rem', colors', fonts'⟩ := o'
    obtain rfl : rem = rem' := h .rem
    obtain rfl : colors = colors' := h .colors
    obtain rfl : fonts = fonts' := h .fonts
    rfl

def ColorOverrides.fields : FieldView ColorField ColorOverrides where
  Content
    | .lighten => Option Adjustment
    | .darken => Option Adjustment
    | .palette => Option Declarations
  get
    | .lighten, o => o.lighten
    | .darken, o => o.darken
    | .palette, o => o.palette
  put
    | .lighten, lighten, o => { o with lighten }
    | .darken, darken, o => { o with darken }
    | .palette, palette, o => { o with palette }
  get_put f _ _ := by cases f <;> rfl
  get_put_of_ne {f g} _ _ h := by cases f <;> cases g <;> first | rfl | exact absurd rfl h
  ext {o o'} h := by
    obtain ⟨lighten, darken, palette⟩ := o
    obtain ⟨lighten', darken', palette'⟩ := o'
    obtain rfl : lighten = lighten' := h .lighten
    obtain rfl : darken = darken' := h .darken
    obtain rfl : palette = palette' := h .palette
    rfl

section Values

variable (r : FieldReader Part ε)

/-- How the part that is given for a field is read. -/
def Overrides.fieldValue (colors : Part → Except ε (Option ColorOverrides)) :
    (f : Field) → Part → Except ε (Overrides.fields.Content f)
  | .rem => r.number
  | .colors => colors
  | .fonts => r.declarations

def ColorOverrides.fieldValue : (f : ColorField) → Part → Except ε (ColorOverrides.fields.Content f)
  | .lighten => r.adjustment
  | .darken => r.adjustment
  | .palette => r.declarations

theorem Overrides.read_eq (colors : Part → Except ε (Option ColorOverrides)) (o : Overrides)
    (part : Part) (f : Field) :
    o.read r colors part f = do return Overrides.fields.put f (← fieldValue r colors f part) o := by
  cases f <;> rfl

theorem ColorOverrides.read_eq (o : ColorOverrides) (part : Part) (f : ColorField) :
    o.read r part f = do return ColorOverrides.fields.put f (← fieldValue r f part) o := by
  cases f <;> rfl

end Values

end AtomicStyle
