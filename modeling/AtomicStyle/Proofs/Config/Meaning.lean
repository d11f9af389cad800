import AtomicStyle.Proofs.Config.Field
import AtomicStyle.Proofs.Config.Json

/-!
# What a settings document says

The members of a document are taken under the names of a setting, wherever they stand. No member or
`null` sets nothing, one member sets what its value means, and there is no reading of more than one.
Settings are read from a flawless document exactly if they are the ones that its members set
(`readOverrides_eq_ok_iff`).
-/

namespace AtomicStyle

namespace Json

variable {α : Type}

inductive MeansNumber : Value → Float → Prop
  | number (n : Number) : MeansNumber (.number n) n.toFloat

inductive MeansAdjustment : Value → Adjustment → Prop
  | ratio (n : Number) : MeansAdjustment (.number n) (.ratio n.toFloat)
  | disabled : MeansAdjustment (.bool false) .disabled

/-- An object of texts means its entries in their order: a name that is repeated stands where it
comes first, with the text that it has last. -/
inductive MeansDeclarations : Value → Declarations → Prop
  | object {entries : List (String × String)} {ds : Declarations}
      (hnames : ds.toList.map Prod.fst = (entries.map Prod.fst).eraseDups)
      (hfind : ∀ name, ds.find? name = lastValue entries name) :
      MeansDeclarations (.object (entries.map fun entry => (entry.1, .text entry.2))) ds

/-- What the values that are given for a setting set. -/
inductive Sets (means : Value → α → Prop) : List Value → Option α → Prop
  | absent : Sets means [] none
  | null : Sets means [.null] none
  | value {v : Value} {a : α} (h : means v a) : Sets means [v] (some a)

end Json

open Json

/-- The colour settings that the members of an object set. -/
structure ColorOverrides.SetBy (members : List (String × Value)) (o : ColorOverrides) : Prop where
  known : ∀ member ∈ members, member.1 ∈ ["lighten", "darken", "palette"]
  lighten : Sets MeansAdjustment (given ["lighten"] members) o.lighten
  darken : Sets MeansAdjustment (given ["darken"] members) o.darken
  palette : Sets MeansDeclarations (given ["palette"] members) o.palette

inductive Json.MeansColors : Value → ColorOverrides → Prop
  | object {members : List (String × Value)} {o : ColorOverrides} (h : o.SetBy members) :
      MeansColors (.object members) o

/-- The settings that the members of a document set. -/
structure Overrides.SetBy (members : List (String × Value)) (o : Overrides) : Prop where
  known : ∀ member ∈ members, member.1 ∈ ["rem", "remUnit", "colors", "fonts"]
  rem : Sets MeansNumber (given ["rem", "remUnit"] members) o.rem
  colors : Sets MeansColors (given ["colors"] members) o.colors
  fonts : Sets MeansDeclarations (given ["fonts"] members) o.fonts

namespace Json

section Values

variable {v : Value}

theorem number_draft_eq_ok_iff {a : Option Float} :
    fieldReader.number v.draft = .ok a ↔ Sets MeansNumber [v] a := by
  constructor
  · intro h
    cases v with
    | null =>
      cases h
      exact .null
    | number n =>
      cases h
      exact .value (.number n)
    | bool | text | array | object => cases h
  · rintro (_ | _ | hmeans)
    · rfl
    · cases hmeans
      rfl

theorem adjustment_draft (h : v ≠ .null) :
    fieldReader.adjustment v.draft = do return some (← Adjustment.ofJson v) := by
  have hwhole : fieldReader.adjustment v.draft =
      do return some (← Adjustment.ofJson (← v.draft.readWhole)) := by
    cases v with
    | null => exact absurd rfl h
    | _ => rfl
  rw [hwhole, readWhole_draft]
  rfl

theorem adjustment_draft_eq_ok_iff {a : Option Adjustment} :
    fieldReader.adjustment v.draft = .ok a ↔ Sets MeansAdjustment [v] a := by
  constructor
  · intro h
    by_cases hnull : v = .null
    · subst hnull
      cases h
      exact .null
    · rw [adjustment_draft hnull] at h
      cases v with
      | number n =>
        cases h
        exact .value (.ratio n)
      | bool b =>
        cases b with
        | false =>
          cases h
          exact .value .disabled
        | true => cases h
      | null | text | array | object => cases h
  · rintro (_ | _ | hmeans)
    · rfl
    · cases hmeans <;> rfl

theorem readDeclarations_drafts_eq_ok_iff {ds : Declarations} :
    ∀ {members : List (String × Value)} {before : Declarations},
      readDeclarations (memberDrafts members) before = .ok ds ↔
        ∃ entries : List (String × String),
          members = entries.map (fun entry => (entry.1, .text entry.2)) ∧
            ds = before.insertAll entries
  | [], before => by
    constructor
    · rintro ⟨⟩
      exact ⟨[], rfl, rfl⟩
    · rintro ⟨entries, hmembers, rfl⟩
      obtain rfl := List.map_eq_nil_iff.1 hmembers.symm
      rfl
  | (name, v) :: members, before => by
    rw [memberDrafts, readDeclarations, bind_eq_ok_iff]
    constructor
    · rintro ⟨text, htext, hrest⟩
      obtain ⟨entries, rfl, rfl⟩ := readDeclarations_drafts_eq_ok_iff.1 hrest
      cases v with
      | text s =>
        obtain rfl : s = text := Except.ok.inj htext
        exact ⟨(name, s) :: entries, rfl, rfl⟩
      | null | bool | number | array | object => cases htext
    · rintro ⟨_ | ⟨⟨n, text⟩, entries⟩, hmembers, rfl⟩
      · cases hmembers
      · obtain ⟨hmember, rfl⟩ := List.cons.inj hmembers
        cases hmember
        exact ⟨text, rfl, readDeclarations_drafts_eq_ok_iff.2 ⟨entries, rfl, rfl⟩⟩

theorem meansDeclarations_iff {ds : Declarations} :
    MeansDeclarations v ds ↔ ∃ entries : List (String × String),
      v = .object (entries.map fun entry => (entry.1, .text entry.2)) ∧ ds = .ofList entries := by
  constructor
  · rintro ⟨hnames, hfind⟩
    refine ⟨_, rfl, Declarations.eq_of_names_eq ?_ fun name => ?_⟩
    · rw [hnames, Declarations.names_ofList]
    · rw [hfind, Declarations.find?_ofList]
  · rintro ⟨entries, rfl, rfl⟩
    exact .object (Declarations.names_ofList entries) (Declarations.find?_ofList entries)

theorem declarations_draft_eq_ok_iff {a : Option Declarations} :
    fieldReader.declarations v.draft = .ok a ↔ Sets MeansDeclarations [v] a := by
  constructor
  · intro h
    cases v with
    | null =>
      cases h
      exact .null
    | object members =>
      obtain ⟨ds, hds, hflaw⟩ := bind_eq_ok_iff.1 h
      obtain ⟨entries, rfl, rfl⟩ := readDeclarations_drafts_eq_ok_iff.1 hds
      cases hflaw
      exact .value (meansDeclarations_iff.2 ⟨entries, rfl, rfl⟩)
    | bool | number | text | array => cases h
  · rintro (_ | _ | hmeans)
    · rfl
    · obtain ⟨entries, rfl, rfl⟩ := meansDeclarations_iff.1 hmeans
      exact bind_eq_ok_iff.2 ⟨_, readDeclarations_drafts_eq_ok_iff.2 ⟨entries, rfl, rfl⟩, rfl⟩

end Values

section Records

/-- What is read from the values that are given is what they set, if that holds of each of them. -/
theorem settles_drafts_iff {means : Value → α → Prop}
    {value : Draft → Except ReadError (Option α)} {values : List Value} {a : Option α}
    (hvalue : ∀ v ∈ values, value v.draft = .ok a ↔ Sets means [v] a) :
    Settles value (values.map Value.draft) none a ↔ Sets means values a := by
  match values, hvalue with
  | [], _ =>
    rw [List.map_nil, settles_nil]
    refine ⟨?_, fun h => ?_⟩
    · rintro rfl
      exact .absent
    · cases h
      rfl
  | [v], hvalue =>
    rw [List.map_cons, List.map_nil, settles_cons, hvalue v List.mem_cons_self]
    exact and_iff_right rfl
  | v :: w :: values, _ =>
    rw [List.map_cons, settles_cons]
    exact iff_of_false (fun h => nomatch h.1) nofun

theorem settles_number_iff {values : List Value} {a : Option Float} :
    Settles fieldReader.number (values.map Value.draft) none a ↔ Sets MeansNumber values a :=
  settles_drafts_iff fun _ _ => number_draft_eq_ok_iff

theorem settles_adjustment_iff {values : List Value} {a : Option Adjustment} :
    Settles fieldReader.adjustment (values.map Value.draft) none a ↔
      Sets MeansAdjustment values a :=
  settles_drafts_iff fun _ _ => adjustment_draft_eq_ok_iff

theorem settles_declarations_iff {values : List Value} {a : Option Declarations} :
    Settles fieldReader.declarations (values.map Value.draft) none a ↔
      Sets MeansDeclarations values a :=
  settles_drafts_iff fun _ _ => declarations_draft_eq_ok_iff

theorem readRecord_draft_eq_ok_iff {φ σ : Type} [DecidableEq φ] (within : Section)
    {ofName? : String → Option φ} (name : φ → String) (fields : List φ)
    {set : σ → Draft → φ → Except ReadError σ} (wanted : Wanted) {empty s : σ}
    {view : FieldView φ σ} {names : φ → List String}
    {value : (f : φ) → Draft → Except ReadError (view.Content f)}
    (hname : ∀ {key f}, ofName? key = some f ↔ key ∈ names f)
    (hset : ∀ s part f, set s part f = do return view.put f (← value f part) s)
    {members : List (String × Value)} :
    readRecord within ofName? name fields set wanted empty (Value.object members).draft = .ok s ↔
      (∀ member ∈ members, ∃ f, member.1 ∈ names f) ∧
        ∀ f, Settles (value f) ((given (names f) members).map Value.draft) (view.get f empty)
          (view.get f s) := by
  simp only [Value.draft, memberDrafts_eq_map, readRecord, bind_eq_ok_iff, Draft.atFlaw,
    Except.ok.injEq, exists_eq_right]
  refine (readFields_eq_ok_iff names (fun key f => ?_) hset).trans ?_
  · rw [← hname]
    rcases ofName? key with _ | g <;> simp
  · simp only [given_map, List.forall_mem_map]

end Records

theorem readColorOverrides_eq_ok_iff {members : List (String × Value)} {o : ColorOverrides} :
    readRecord .colors ColorField.ofName? ColorField.name [.lighten, .darken, .palette]
        (ColorOverrides.read fieldReader) .colorSettings {} (Value.object members).draft = .ok o ↔
      o.SetBy members := by
  refine (readRecord_draft_eq_ok_iff .colors _ _ _ ColorField.ofName?_eq_some_iff
    (ColorOverrides.read_eq fieldReader)).trans ?_
  simp only [ColorField.exists_mem_names_iff]
  constructor
  · rintro ⟨hknown, hsettles⟩
    exact
      { known := hknown
        lighten := settles_adjustment_iff.1 (hsettles .lighten)
        darken := settles_adjustment_iff.1 (hsettles .darken)
        palette := settles_declarations_iff.1 (hsettles .palette) }
  · rintro ⟨hknown, hlighten, hdarken, hpalette⟩
    refine ⟨hknown, fun f => ?_⟩
    cases f with
    | lighten => exact settles_adjustment_iff.2 hlighten
    | darken => exact settles_adjustment_iff.2 hdarken
    | palette => exact settles_declarations_iff.2 hpalette

theorem colors_draft_eq_ok_iff {v : Value} (hsequence : ∀ items, v ≠ .array items)
    {a : Option ColorOverrides} : readColors v.draft = .ok a ↔ Sets MeansColors [v] a := by
  constructor
  · intro h
    cases v with
    | null =>
      cases h
      exact .null
    | object members =>
      obtain ⟨o, ho, hsome⟩ := bind_eq_ok_iff.1 h
      cases hsome
      exact .value (.object (readColorOverrides_eq_ok_iff.1 ho))
    | array items => exact absurd rfl (hsequence items)
    | bool | number | text => cases h
  · rintro (_ | _ | hmeans)
    · rfl
    · cases hmeans with
      | object hset => exact bind_eq_ok_iff.2 ⟨_, readColorOverrides_eq_ok_iff.2 hset, rfl⟩

theorem readOverrides_eq_ok_iff {members : List (String × Value)}
    (hsequence : ∀ items, ("colors", .array items) ∉ members) {o : Overrides} :
    readOverrides (Value.object members).draft = .ok o ↔ o.SetBy members := by
  have hcolors (v : Value) (hv : v ∈ given ["colors"] members) :
      readColors v.draft = .ok o.colors ↔ Sets MeansColors [v] o.colors := by
    refine colors_draft_eq_ok_iff fun items hitems => hsequence items ?_
    obtain ⟨name, hname, hmem⟩ := mem_given.1 hv
    rwa [List.mem_singleton.1 hname, hitems] at hmem
  refine (readRecord_draft_eq_ok_iff .top _ _ _ Field.ofName?_eq_some_iff
    (Overrides.read_eq fieldReader readColors)).trans ?_
  simp only [Field.exists_mem_names_iff]
  constructor
  · rintro ⟨hknown, hsettles⟩
    exact
      { known := hknown
        rem := settles_number_iff.1 (hsettles .rem)
        colors := (settles_drafts_iff hcolors).1 (hsettles .colors)
        fonts := settles_declarations_iff.1 (hsettles .fonts) }
  · rintro ⟨hknown, hrem, hcolors', hfonts⟩
    refine ⟨hknown, fun f => ?_⟩
    cases f with
    | rem => exact settles_number_iff.2 hrem
    | colors => exact (settles_drafts_iff hcolors).2 hcolors'
    | fonts => exact settles_declarations_iff.2 hfonts

end Json

end AtomicStyle
