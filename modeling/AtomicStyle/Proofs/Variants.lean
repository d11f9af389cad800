import AtomicStyle.Proofs.Unanswered
import Std.Data.String.ToNat

/-!
# Which names a palette generates

Each colour of a palette has variants, and each variant a name made of the colour's own name. The
names of one colour are all different, whatever its own name is (`nameOf_inj`): two variants of
different kinds have names of different lengths. So of all names that a palette generates each holds
the variant of the last colour that generates it, and a palette with a text that is no colour
generates none at all (`expand_generates`).
-/

namespace AtomicStyle

namespace Palette

/-- The ways in which a colour is varied. -/
inductive Variant where
  | itself
  | lighter (share : Float)
  | darker (share : Float)
  | translucent (percent : Nat)

namespace Variant

def nameOf (variant : Variant) (name : String) : String :=
  match variant with
  | itself => name
  | lighter _ => "light-" ++ name
  | darker _ => "dark-" ++ name
  | translucent percent => name ++ "-" ++ Nat.repr percent

/-- What a variant of a colour is written as; `text` is what the colour itself is written as. -/
def textOf (variant : Variant) (text : String) (base : Color) : String :=
  match variant with
  | itself => text
  | lighter share => (base.lighten share).hex
  | darker share => (base.darken share).hex
  | translucent percent =>
    "rgba(" ++ Nat.repr base.red.toNat ++ ", " ++ Nat.repr base.green.toNat ++ ", " ++
      Nat.repr base.blue.toNat ++ ", 0." ++ Nat.repr (percent / 10) ++ ")"

/-- The settings ask for the variant. -/
def Asked (settings : ColorSettings) : Variant → Prop
  | itself => True
  | lighter share => settings.lighten = .ratio share
  | darker share => settings.darken = .ratio share
  | translucent percent => percent ∈ tenths

/-- By how many characters the name of a variant is longer. -/
def added : Variant → Nat
  | itself => 0
  | lighter _ => 6
  | darker _ => 5
  | translucent _ => 3

end Variant

/-- A variant of the colour of an entry has the name and is written as the value. -/
def Generates (settings : ColorSettings) (entry : String × String) (name value : String) : Prop :=
  ∃ base, Color.parse entry.2 = .ok base ∧ ∃ variant : Variant, variant.Asked settings ∧
    variant.nameOf entry.1 = name ∧ variant.textOf entry.2 base = value

def variants (settings : ColorSettings) : List Variant :=
  .itself :: (settings.lighten.share?.toList.map .lighter ++
    settings.darken.share?.toList.map .darker ++ tenths.map .translucent)

section Names

variable {settings : ColorSettings} {a b : Variant}

theorem share?_eq_some_iff {adjustment : Adjustment} {share : Float} :
    adjustment.share? = some share ↔ adjustment = .ratio share := by
  cases adjustment <;> simp [Adjustment.share?]

theorem mem_variants : a ∈ variants settings ↔ a.Asked settings := by
  cases a <;> simp [variants, Variant.Asked, share?_eq_some_iff]

theorem length_nameOf (h : a.Asked settings) (name : String) :
    (a.nameOf name).length = name.length + a.added := by
  cases a with
  | itself => rfl
  | lighter share =>
    have hlength : ("light-" : String).length = 6 := rfl
    rw [Variant.nameOf, String.length_append, hlength, Nat.add_comm]
    rfl
  | darker share =>
    have hlength : ("dark-" : String).length = 5 := rfl
    rw [Variant.nameOf, String.length_append, hlength, Nat.add_comm]
    rfl
  | translucent percent =>
    have hdigits : ∀ percent ∈ tenths, ("-" ++ Nat.repr percent).length = 3 := by decide
    rw [Variant.nameOf, String.append_assoc, String.length_append, hdigits percent h]
    rfl

theorem nameOf_inj (ha : a.Asked settings) (hb : b.Asked settings) {name : String}
    (h : a.nameOf name = b.nameOf name) : a = b := by
  have hlength := congrArg String.length h
  rw [length_nameOf ha, length_nameOf hb] at hlength
  cases a <;> cases b <;> simp only [Variant.added] at hlength <;> try omega
  · rfl
  · have hshare := Adjustment.ratio.inj (ha.symm.trans hb)
    rw [hshare]
  · have hshare := Adjustment.ratio.inj (ha.symm.trans hb)
    rw [hshare]
  · have hpercent := Nat.repr_injective ((String.append_right_inj _).1 h)
    rw [hpercent]

end Names

section Family

variable (settings : ColorSettings) (name text : String) (base : Color)

theorem rgba_withAlpha {percent : Nat} (h : percent ∈ tenths) :
    (base.withAlpha (Float.ofNat percent / 100)).rgba =
      (Variant.translucent percent).textOf text base := by
  have halpha : ∀ percent ∈ tenths,
      Decimal.plain.chars (clamp 0 1 (Float.ofNat percent / 100)) =
        '0' :: '.' :: Decimal.digits (percent / 10) := by
    decide +kernel
  rw [← String.toList_inj]
  simp [Color.rgba, Color.rgbaChars, Color.withAlpha, halpha percent h, Variant.textOf,
    Decimal.digits]

theorem translucent_eq : translucent name base =
    (tenths.map .translucent).map fun variant : Variant =>
      (variant.nameOf name, variant.textOf text base) := by
  rw [translucent, alphaSteps_eq, List.map_map]
  refine List.map_congr_left fun percent hpercent => ?_
  rw [rgba_withAlpha text base hpercent]
  rfl

theorem family_eq : family settings name text base =
    (variants settings).map fun variant => (variant.nameOf name, variant.textOf text base) := by
  rw [family, translucent_eq name text base, variants]
  simp only [List.map_cons, List.map_append, List.map_map, List.cons_append, List.append_assoc]
  rfl

end Family

section Generated

variable {settings : ColorSettings} {entry : String × String} {name value : String}

theorem lastValue_generated_eq_some_iff :
    lastValue (generated settings entry) name = some value ↔
      Generates settings entry name value := by
  unfold Generates
  rcases hparse : Color.parse entry.2 with e | base
  · simp [generated, hparse]
  · have hinj : ∀ a ∈ variants settings, ∀ b ∈ variants settings,
        a.nameOf entry.1 = b.nameOf entry.1 → a = b := fun a ha b hb =>
      nameOf_inj (mem_variants.1 ha) (mem_variants.1 hb)
    rw [generated_eq_family hparse, family_eq, lastValue_map_eq_some_iff hinj]
    simp [mem_variants]

theorem mem_generated_iff {base : Color} (h : Color.parse entry.2 = .ok base) :
    name ∈ (generated settings entry).map Prod.fst ↔
      ∃ variant : Variant, variant.Asked settings ∧ variant.nameOf entry.1 = name := by
  rw [generated_eq_family h, family_eq, List.map_map, List.mem_map]
  simp [mem_variants]

end Generated

end Palette

namespace ColorSettings

open Palette

variable {settings : ColorSettings}

theorem mem_expanded_iff (h : Readable settings.palette.toList) {name : String} :
    name ∈ settings.expanded ↔ ∃ entry ∈ settings.palette.toList, ∃ variant : Variant,
      variant.Asked settings ∧ variant.nameOf entry.1 = name := by
  rw [expanded, NameMap.mem_ofEntries, List.map_flatMap, List.mem_flatMap]
  refine exists_congr fun entry => and_congr_right fun hentry => ?_
  obtain ⟨base, hbase⟩ := h entry hentry
  exact mem_generated_iff hbase

theorem getElem?_expanded_eq_some_iff (h : Readable settings.palette.toList)
    {name value : String} :
    settings.expanded[name]? = some value ↔
      ∃ before entry after, settings.palette.toList = before ++ entry :: after ∧
        Generates settings entry name value ∧
        ∀ later ∈ after, ∀ variant : Variant, variant.Asked settings →
          variant.nameOf later.1 ≠ name := by
  rw [expanded, NameMap.getElem?_ofEntries, lastValue_flatMap_eq_some_iff_last]
  refine exists_congr fun before => exists_congr fun entry => exists_congr fun after =>
    and_congr_right fun heq => and_congr lastValue_generated_eq_some_iff ?_
  refine forall₂_congr fun later hlater => ?_
  obtain ⟨base, hbase⟩ := h later (by simp [heq, hlater])
  rw [← Option.not_isSome_iff_eq_none, isSome_lastValue_iff, mem_generated_iff hbase]
  simp

theorem firstRejected_or_firstSplit (h : ¬ Readable settings.palette.toList) :
    (∃ name source, FirstRejected settings.palette.toList name source) ∨
      FirstSplit settings.palette.toList := by
  rcases hexpand : settings.expand.outcome with failure | colors
  · rcases failure with ⟨name, source⟩ | _
    · exact .inl ⟨name, source, outcome_expand_eq_invalidColor_iff.1 hexpand⟩
    · exact .inr (outcome_expand_eq_splitCharacter_iff.1 hexpand)
  · exact absurd (readable_of_outcome_expand hexpand) h

/-- A palette of colours yields the names of all variants, no two of one colour being the same, and
each holds what the last entry that generates it generates for it. Any other palette fails at the
first entry that is no colour, without an error exactly if no answer exists for its text. -/
theorem expand_generates (settings : ColorSettings) :
    (∀ (name : String) (a b : Variant), a.Asked settings → b.Asked settings →
        a.nameOf name = b.nameOf name → a = b) ∧
      (Readable settings.palette.toList → ∃ colors, settings.expand.outcome = .ok colors ∧
        (∀ name, name ∈ colors ↔ ∃ entry ∈ settings.palette.toList, ∃ variant : Variant,
          variant.Asked settings ∧ variant.nameOf entry.1 = name) ∧
        ∀ name value, colors[name]? = some value ↔
          ∃ before entry after, settings.palette.toList = before ++ entry :: after ∧
            Generates settings entry name value ∧
            ∀ later ∈ after, ∀ variant : Variant, variant.Asked settings →
              variant.nameOf later.1 ≠ name) ∧
      (¬ Readable settings.palette.toList →
        (∃ name source, FirstRejected settings.palette.toList name source) ∨
          FirstSplit settings.palette.toList) ∧
      (∀ name source, settings.expand.outcome = .error (.invalidColor name source) ↔
        FirstRejected settings.palette.toList name source) ∧
      (settings.expand.outcome = .error .splitCharacter ↔
        FirstSplit settings.palette.toList) := by
  refine ⟨fun name a b ha hb => nameOf_inj ha hb, fun h => ?_, firstRejected_or_firstSplit,
    fun name source => outcome_expand_eq_invalidColor_iff, outcome_expand_eq_splitCharacter_iff⟩
  exact ⟨_, outcome_expand_of_readable h, fun name => mem_expanded_iff h,
    fun name value => getElem?_expanded_eq_some_iff h⟩

/-- Both colours generate `light-x-10`: the first as a translucent one, the second as a lighter. -/
def overlapping : ColorSettings where
  lighten := .ratio 0.5
  darken := .disabled
  palette := .ofList [("light-x", "#ff0000"), ("x-10", "#808080")]

theorem expand_generates_overlapping :
    Readable overlapping.palette.toList ∧ ∃ colors, overlapping.expand.outcome = .ok colors ∧
      colors["light-x-10"]? = some "#BFBFBF" ∧
      colors["x-10-90"]? = some "rgba(128, 128, 128, 0.9)" := by
  have hread : Readable overlapping.palette.toList := .cons rfl (.cons rfl readable_nil)
  have hlighter : Generates overlapping ("x-10", "#808080") "light-x-10" "#BFBFBF" :=
    ⟨.opaqueOf 128 128 128, rfl, .lighter 0.5, rfl, rfl, by decide +kernel⟩
  have htranslucent :
      Generates overlapping ("x-10", "#808080") "x-10-90" "rgba(128, 128, 128, 0.9)" :=
    ⟨.opaqueOf 128 128 128, rfl, .translucent 90, (by decide : 90 ∈ tenths), rfl, by decide +kernel⟩
  obtain ⟨-, hok, -⟩ := expand_generates overlapping
  obtain ⟨colors, hcolors, -, hvalue⟩ := hok hread
  refine ⟨hread, colors, hcolors, (hvalue _ _).2 ?_, (hvalue _ _).2 ?_⟩
  · exact ⟨[("light-x", "#ff0000")], ("x-10", "#808080"), [], rfl, hlighter, by simp⟩
  · exact ⟨[("light-x", "#ff0000")], ("x-10", "#808080"), [], rfl, htranslucent, by simp⟩

/-- Not every palette that has an entry which is no colour leads to an error that names one. -/
theorem no_invalidColor_euro :
    ¬ Readable (Config.new.color "bad" "hsl(€ab,1%,1%)").colors.palette.toList ∧
      ∀ name source, (Config.new.color "bad" "hsl(€ab,1%,1%)").colors.expand.outcome ≠
        .error (.invalidColor name source) := by
  have hexpand : (Config.new.color "bad" "hsl(€ab,1%,1%)").colors.expand.outcome =
      .error .splitCharacter := rfl
  refine ⟨fun h => ?_, fun name source => ?_⟩
  · obtain ⟨colors, hcolors⟩ := exists_outcome_expand h
    rw [hexpand] at hcolors
    cases hcolors
  · rw [hexpand]
    simp

end ColorSettings

end AtomicStyle
