import AtomicStyle.Proofs.Config.Meaning

/-!
# The settings documents that are read

A document of settings is read exactly if its members are those of the grammar: no member is unknown
or given twice, and each value is `null` or has the form of its setting. Reading goes through both
objects in their order, but neither whether a document is read nor what it sets depends on the order
(`ofJson_grammar`). Only the entries of a palette and of a list of fonts have an order that counts.
-/

namespace AtomicStyle

namespace Json

def IsNumber (v : Value) : Prop := ∃ n, v = .number n

def IsAdjustment (v : Value) : Prop := (∃ n, v = .number n) ∨ v = .bool false

def IsTexts (v : Value) : Prop :=
  ∃ members, v = .object members ∧ ∀ member ∈ members, ∃ text, member.2 = .text text

/-- The values that are given for a setting are at most one, which is `null` or of a form. -/
structure AtMostOne (form : Value → Prop) (values : List Value) : Prop where
  once : values.length ≤ 1
  fits : ∀ v ∈ values, v = .null ∨ form v

structure ColorGrammar (members : List (String × Value)) : Prop where
  known : ∀ member ∈ members, member.1 ∈ ["lighten", "darken", "palette"]
  lighten : AtMostOne IsAdjustment (given ["lighten"] members)
  darken : AtMostOne IsAdjustment (given ["darken"] members)
  palette : AtMostOne IsTexts (given ["palette"] members)

def IsColors (v : Value) : Prop := ∃ members, v = .object members ∧ ColorGrammar members

/-- The members of the documents that are read. -/
structure Grammar (members : List (String × Value)) : Prop where
  known : ∀ member ∈ members, member.1 ∈ ["rem", "remUnit", "colors", "fonts"]
  rem : AtMostOne IsNumber (given ["rem", "remUnit"] members)
  colors : AtMostOne IsColors (given ["colors"] members)
  fonts : AtMostOne IsTexts (given ["fonts"] members)

/-- Members that differ in their order, and in the order of the members of an object of colour
settings among them. -/
inductive Reordered : List (String × Value) → List (String × Value) → Prop
  | perm {members others : List (String × Value)} (h : members.Perm others) :
      Reordered members others
  | colors (before after : List (String × Value)) {members others : List (String × Value)}
      (h : members.Perm others) :
      Reordered (before ++ ("colors", .object members) :: after)
        (before ++ ("colors", .object others) :: after)
  | trans {members between others : List (String × Value)} (h : Reordered members between)
      (h' : Reordered between others) : Reordered members others

section Forms

variable {α : Type} {means : Value → α → Prop} {form : Value → Prop} {values : List Value}

/-- Some setting comes of the values that have the form of what has a meaning. -/
theorem exists_sets_iff (hform : ∀ v, (∃ a, means v a) ↔ form v) :
    (∃ a, Sets means values a) ↔ AtMostOne form values := by
  constructor
  · rintro ⟨a, _ | _ | h⟩
    · exact ⟨Nat.zero_le 1, nofun⟩
    · exact ⟨le_rfl, fun v hv => .inl (List.mem_singleton.1 hv)⟩
    · refine ⟨le_rfl, fun v hv => .inr ?_⟩
      rw [List.mem_singleton.1 hv]
      exact (hform _).1 ⟨_, h⟩
  · rintro ⟨honce, hfits⟩
    match values, honce, hfits with
    | [], _, _ => exact ⟨none, .absent⟩
    | [v], _, hfits =>
      rcases hfits v List.mem_cons_self with rfl | h
      · exact ⟨none, .null⟩
      · obtain ⟨a, ha⟩ := (hform v).2 h
        exact ⟨some a, .value ha⟩

theorem exists_sets_number_iff :
    (∃ a, Sets MeansNumber values a) ↔ AtMostOne IsNumber values := by
  refine exists_sets_iff fun v => ⟨?_, ?_⟩
  · rintro ⟨_, ⟨n⟩⟩
    exact ⟨n, rfl⟩
  · rintro ⟨n, rfl⟩
    exact ⟨_, .number n⟩

theorem exists_sets_adjustment_iff :
    (∃ a, Sets MeansAdjustment values a) ↔ AtMostOne IsAdjustment values := by
  refine exists_sets_iff fun v => ⟨?_, ?_⟩
  · rintro ⟨_, n | _⟩
    · exact .inl ⟨n, rfl⟩
    · exact .inr rfl
  · rintro (⟨n, rfl⟩ | rfl)
    · exact ⟨_, .ratio n⟩
    · exact ⟨_, .disabled⟩

theorem isTexts_iff {v : Value} : IsTexts v ↔ ∃ entries : List (String × String),
    v = .object (entries.map fun entry => (entry.1, .text entry.2)) := by
  constructor
  · rintro ⟨members, rfl, htexts⟩
    induction members with
    | nil => exact ⟨[], rfl⟩
    | cons member members ih =>
      obtain ⟨name, v⟩ := member
      obtain ⟨⟨text, rfl⟩, hrest⟩ := List.forall_mem_cons.1 htexts
      obtain ⟨entries, hentries⟩ := ih hrest
      cases hentries
      exact ⟨(name, text) :: entries, rfl⟩
  · rintro ⟨entries, rfl⟩
    refine ⟨_, rfl, List.forall_mem_map.2 fun entry _ => ⟨entry.2, rfl⟩⟩

theorem exists_sets_declarations_iff :
    (∃ a, Sets MeansDeclarations values a) ↔ AtMostOne IsTexts values := by
  refine exists_sets_iff fun v => ?_
  simp only [isTexts_iff, meansDeclarations_iff]
  exact ⟨fun ⟨_, entries, h, _⟩ => ⟨entries, h⟩, fun ⟨entries, h⟩ => ⟨_, entries, h, rfl⟩⟩

theorem exists_colorsSetBy_iff {members : List (String × Value)} :
    (∃ o, ColorOverrides.SetBy members o) ↔ ColorGrammar members := by
  constructor
  · rintro ⟨o, h⟩
    exact
      { known := h.known
        lighten := exists_sets_adjustment_iff.1 ⟨_, h.lighten⟩
        darken := exists_sets_adjustment_iff.1 ⟨_, h.darken⟩
        palette := exists_sets_declarations_iff.1 ⟨_, h.palette⟩ }
  · rintro ⟨hknown, hlighten, hdarken, hpalette⟩
    obtain ⟨lighten, hlighten⟩ := exists_sets_adjustment_iff.2 hlighten
    obtain ⟨darken, hdarken⟩ := exists_sets_adjustment_iff.2 hdarken
    obtain ⟨palette, hpalette⟩ := exists_sets_declarations_iff.2 hpalette
    exact ⟨⟨lighten, darken, palette⟩, hknown, hlighten, hdarken, hpalette⟩

theorem exists_sets_colors_iff :
    (∃ a, Sets MeansColors values a) ↔ AtMostOne IsColors values := by
  refine exists_sets_iff fun v => ⟨?_, ?_⟩
  · rintro ⟨o, ⟨h⟩⟩
    exact ⟨_, rfl, exists_colorsSetBy_iff.1 ⟨o, h⟩⟩
  · rintro ⟨members, rfl, h⟩
    obtain ⟨o, ho⟩ := exists_colorsSetBy_iff.2 h
    exact ⟨o, .object ho⟩

theorem exists_setBy_iff {members : List (String × Value)} :
    (∃ o, Overrides.SetBy members o) ↔ Grammar members := by
  constructor
  · rintro ⟨o, h⟩
    exact
      { known := h.known
        rem := exists_sets_number_iff.1 ⟨_, h.rem⟩
        colors := exists_sets_colors_iff.1 ⟨_, h.colors⟩
        fonts := exists_sets_declarations_iff.1 ⟨_, h.fonts⟩ }
  · rintro ⟨hknown, hrem, hcolors, hfonts⟩
    obtain ⟨rem, hrem⟩ := exists_sets_number_iff.2 hrem
    obtain ⟨colors, hcolors⟩ := exists_sets_colors_iff.2 hcolors
    obtain ⟨fonts, hfonts⟩ := exists_sets_declarations_iff.2 hfonts
    exact ⟨⟨rem, colors, fonts⟩, hknown, hrem, hcolors, hfonts⟩

end Forms

section Order

variable {α : Type} {means : Value → α → Prop}

theorem Sets.perm {values values' : List Value} {a : Option α} (h : Sets means values a)
    (hperm : values.Perm values') : Sets means values' a := by
  have heq : values' = values := by
    cases h with
    | absent => exact List.nil_perm.1 hperm
    | null => exact List.perm_singleton.1 hperm.symm
    | value => exact List.perm_singleton.1 hperm.symm
  exact heq ▸ h

theorem Sets.length_le {values : List Value} {a : Option α} (h : Sets means values a) :
    values.length ≤ 1 := by
  cases h <;> simp

/-- A setting that is given among other values is given by no others. -/
theorem sets_append_cons_iff {before after : List Value} {v : Value} {a : Option α} :
    Sets means (before ++ v :: after) a ↔ before = [] ∧ after = [] ∧ Sets means [v] a := by
  constructor
  · intro h
    have hlength := h.length_le
    rw [List.length_append, List.length_cons] at hlength
    obtain rfl : before = [] := List.length_eq_zero_iff.1 (by omega)
    obtain rfl : after = [] := List.length_eq_zero_iff.1 (by omega)
    exact ⟨rfl, rfl, h⟩
  · rintro ⟨rfl, rfl, h⟩
    exact h

variable {members others : List (String × Value)}

theorem Reordered.symm (h : Reordered members others) : Reordered others members := by
  induction h with
  | perm h => exact .perm h.symm
  | colors before after h => exact .colors before after h.symm
  | trans _ _ ih ih' => exact ih'.trans ih

theorem Reordered.not_mem (h : Reordered members others)
    (hsequence : ∀ items, ("colors", .array items) ∉ members) :
    ∀ items, ("colors", .array items) ∉ others := by
  induction h with
  | perm h => exact fun items hmem => hsequence items (h.mem_iff.2 hmem)
  | colors before after h => simpa using hsequence
  | trans _ _ ih ih' => exact ih' (ih hsequence)

end Order

end Json

open Json

namespace ColorOverrides

theorem SetBy.perm {members others : List (String × Value)} {o : ColorOverrides}
    (h : SetBy members o) (hperm : members.Perm others) : SetBy others o where
  known member hmember := h.known member (hperm.mem_iff.2 hmember)
  lighten := h.lighten.perm (given_perm _ hperm)
  darken := h.darken.perm (given_perm _ hperm)
  palette := h.palette.perm (given_perm _ hperm)

end ColorOverrides

namespace Overrides

variable {members others : List (String × Value)} {o : Overrides}

theorem SetBy.perm (h : SetBy members o) (hperm : members.Perm others) : SetBy others o where
  known member hmember := h.known member (hperm.mem_iff.2 hmember)
  rem := h.rem.perm (given_perm _ hperm)
  colors := h.colors.perm (given_perm _ hperm)
  fonts := h.fonts.perm (given_perm _ hperm)

theorem SetBy.colors_perm {before after : List (String × Value)}
    (h : SetBy (before ++ ("colors", .object members) :: after) o) (hperm : members.Perm others) :
    SetBy (before ++ ("colors", .object others) :: after) o where
  known := by
    have hknown := h.known
    rw [List.forall_mem_append, List.forall_mem_cons] at hknown ⊢
    exact hknown
  rem := by
    have hrem := h.rem
    rw [given_append, given_cons_of_not_mem (by simp)] at hrem ⊢
    exact hrem
  colors := by
    have hcolors := h.colors
    rw [given_append, given_cons_of_mem (by simp), sets_append_cons_iff] at hcolors ⊢
    refine ⟨hcolors.1, hcolors.2.1, ?_⟩
    generalize o.colors = colors at hcolors
    rcases hcolors.2.2 with _ | _ | ⟨⟨h⟩⟩
    exact .value (.object (h.perm hperm))
  fonts := by
    have hfonts := h.fonts
    rw [given_append, given_cons_of_not_mem (by simp)] at hfonts ⊢
    exact hfonts

theorem SetBy.reordered (h : SetBy members o) (hreordered : Reordered members others) :
    SetBy others o := by
  induction hreordered with
  | perm hperm => exact h.perm hperm
  | colors before after hperm => exact h.colors_perm hperm
  | trans _ _ ih ih' => exact ih' (ih h)

theorem ofJson_eq_ok_iff {source : String} (hread : Reads source (.object members))
    (hsequence : ∀ items, ("colors", .array items) ∉ members) :
    ofJson source = .ok o ↔ SetBy members o := by
  have hfinish (o' : Overrides) : (Document.read source).finish o' = .ok o ↔ o' = o := by
    rw [Document.finish, hread.surplus, if_neg Bool.false_ne_true, Except.ok.injEq]
  simp only [ofJson, bind_eq_ok_iff, Draft.value_eq_ok_iff.1 hread.content, hfinish,
    exists_eq_right, readOverrides_eq_ok_iff hsequence]

/-- What is left out or `null` is not set, entries keep their order, and members need not. -/
theorem ofJson_grammar {source : String} {members : List (String × Value)}
    (hread : Reads source (.object members))
    (hsequence : ∀ items, ("colors", .array items) ∉ members) :
    ((∃ o, ofJson source = .ok o) ↔ Grammar members) ∧
      (∀ o, ofJson source = .ok o ↔ SetBy members o) ∧
      ∀ source' others, Reads source' (.object others) → Reordered members others →
        ∀ o, ofJson source' = .ok o ↔ ofJson source = .ok o := by
  have hset (o : Overrides) : ofJson source = .ok o ↔ SetBy members o :=
    ofJson_eq_ok_iff hread hsequence
  refine ⟨?_, hset, fun source' others hread' hreordered o => ?_⟩
  · simp only [hset, exists_setBy_iff]
  · rw [hset, ofJson_eq_ok_iff hread' (hreordered.not_mem hsequence)]
    exact ⟨fun h => h.reordered hreordered.symm, fun h => h.reordered hreordered⟩

/-- A colour that is named twice. -/
def inks : List (String × String) := [("ink", "#000"), ("sky", "#08f"), ("ink", "#123")]

def inkPalette : Value := .object (inks.map fun entry => (entry.1, .text entry.2))

/-- The fonts come first, and the unit last and under its second name. -/
def unsorted : List (String × Value) :=
  [("fonts", .null), ("colors", .object [("palette", inkPalette), ("darken", .bool false)]),
    ("remUnit", .number (.integer 16))]

def sorted : List (String × Value) :=
  [("remUnit", .number (.integer 16)),
    ("colors", .object [("darken", .bool false), ("palette", inkPalette)]), ("fonts", .null)]

def inked : Overrides where
  rem := some 16
  colors := some
    { darken := some .disabled
      palette := some (.ofList [("ink", "#123"), ("sky", "#08f")]) }

theorem setBy_unsorted : SetBy unsorted inked where
  known := by decide
  rem := .value (.number (.integer 16))
  colors := .value (.object
    { known := by decide
      lighten := .absent
      darken := .value .disabled
      palette := .value (meansDeclarations_iff.2 ⟨inks, rfl, rfl⟩) })
  fonts := .null

theorem reordered_unsorted : Reordered unsorted sorted :=
  .trans (.perm (List.reverse_perm unsorted).symm)
    (.colors [("remUnit", .number (.integer 16))] [("fonts", .null)]
      (List.reverse_perm [("palette", inkPalette), ("darken", .bool false)]).symm)

theorem ofJson_grammar_unsorted :
    Reads (Value.object unsorted).render (.object unsorted) ∧
      (∀ items, ("colors", .array items) ∉ unsorted) ∧ Grammar unsorted ∧
      ofJson (Value.object unsorted).render = .ok inked ∧
      ofJson (Value.object sorted).render = .ok inked := by
  have hunsorted : Reads (Value.object unsorted).render (.object unsorted) :=
    reads_render (.object (.cons _ .null (.cons _ (.object (.cons _
      (.object (membersReread_texts _ inks)) (.cons _ (.bool false) .nil)))
        (.cons _ (.number rfl) .nil))))
  have hsorted : Reads (Value.object sorted).render (.object sorted) :=
    reads_render (.object (.cons _ (.number rfl) (.cons _ (.object (.cons _ (.bool false)
      (.cons _ (.object (membersReread_texts _ inks)) .nil))) (.cons _ .null .nil))))
  have hsequence : ∀ items, ("colors", .array items) ∉ unsorted := by simp [unsorted]
  obtain ⟨hgrammar, hset, hreordered⟩ := ofJson_grammar hunsorted hsequence
  have hinked : ofJson (Value.object unsorted).render = .ok inked := (hset inked).2 setBy_unsorted
  exact ⟨hunsorted, hsequence, hgrammar.1 ⟨inked, hinked⟩, hinked,
    (hreordered _ sorted hsorted reordered_unsorted inked).2 hinked⟩

end Overrides

end AtomicStyle
