import AtomicStyle.Proofs.Expansion
import AtomicStyle.Proofs.Names

/-!
# Who writes which name

The names of a sheet are written by the vocabulary, by the colours of the palette and by the fonts.
If no two of these producers write names of one spelling, each spelling has at most one owner, and
what a sheet or its colours hold under the spelling depends on that owner alone: a configuration
with only some of the colours and fonts of another one agrees with it wherever it has the owner
(`PartOf.agreesOn_layers`), and is silent wherever it has not (`agreesOn_empty_layers`).
-/

namespace AtomicStyle

/-- A source of names of a sheet; colours and fonts are known by their own names. -/
inductive Producer where
  | vocabulary
  | color (name : String)
  | font (name : String)
deriving DecidableEq

namespace Config

def producers (config : Config) : List Producer :=
  .vocabulary :: (config.colors.palette.toList.map fun entry => .color entry.1) ++
    config.fonts.toList.map fun entry => .font entry.1

/-- The names of a sheet that a producer writes. -/
def written (config : Config) (vocabulary : Vocabulary) : Producer → List String
  | .vocabulary => Table.names vocabulary.fixed ++ Table.names vocabulary.scaled
  | .color name => (Palette.familyNames config.colors name).flatMap Sheet.colorNames
  | .font name => ["ff-" ++ name]

/-- No two producers write names of one spelling. -/
def Apart (config : Config) (vocabulary : Vocabulary) : Prop :=
  ∀ p ∈ config.producers, ∀ q ∈ config.producers, p ≠ q →
    ∀ m ∈ config.written vocabulary p, ∀ n ∈ config.written vocabulary q,
      underscored m ≠ underscored n

instance (config : Config) (vocabulary : Vocabulary) : Decidable (config.Apart vocabulary) :=
  inferInstanceAs (Decidable (∀ p ∈ config.producers, ∀ q ∈ config.producers, p ≠ q →
    ∀ m ∈ config.written vocabulary p, ∀ n ∈ config.written vocabulary q,
      underscored m ≠ underscored n))

/-- The producer writes a name that has the spelling. -/
def Claims (config : Config) (vocabulary : Vocabulary) (spelling : String) (p : Producer) : Prop :=
  ∃ name ∈ config.written vocabulary p, underscored name = spelling

/-- The settings are the same, and the colours and fonts are some of those of `whole`. -/
structure PartOf (part whole : Config) : Prop where
  rem : part.rem = whole.rem
  lighten : part.colors.lighten = whole.colors.lighten
  darken : part.colors.darken = whole.colors.darken
  palette : part.colors.palette.toList ⊆ whole.colors.palette.toList
  fonts : part.fonts.toList ⊆ whole.fonts.toList

variable {config part whole : Config} {vocabulary : Vocabulary} {spelling name : String}
  {colors : NameMap String}

theorem vocabulary_mem_producers : .vocabulary ∈ config.producers := by
  simp [producers]

theorem color_mem_producers :
    .color name ∈ config.producers ↔ ∃ text, (name, text) ∈ config.colors.palette.toList := by
  simp [producers]

theorem font_mem_producers :
    .font name ∈ config.producers ↔ ∃ text, (name, text) ∈ config.fonts.toList := by
  simp [producers]

theorem claims_vocabulary (h : name ∈ Table.names vocabulary.fixed ++ Table.names vocabulary.scaled)
    (hspelling : underscored name = spelling) : config.Claims vocabulary spelling .vocabulary :=
  ⟨name, h, hspelling⟩

theorem claims_color {color : String} (hcolor : color ∈ Palette.familyNames config.colors name)
    {surface : String} (hsurface : surface ∈ Sheet.colorNames color)
    (hspelling : underscored surface = spelling) :
    config.Claims vocabulary spelling (.color name) :=
  ⟨surface, List.mem_flatMap.2 ⟨color, hcolor, hsurface⟩, hspelling⟩

theorem claims_font (hspelling : underscored ("ff-" ++ name) = spelling) :
    config.Claims vocabulary spelling (.font name) :=
  ⟨"ff-" ++ name, List.mem_singleton_self _, hspelling⟩

theorem Apart.owner_unique (h : config.Apart vocabulary) {p q : Producer}
    (hp : p ∈ config.producers) (hq : q ∈ config.producers)
    (hpclaims : config.Claims vocabulary spelling p)
    (hqclaims : config.Claims vocabulary spelling q) : p = q := by
  obtain ⟨m, hm, hspelling⟩ := hpclaims
  obtain ⟨n, hn, rfl⟩ := hqclaims
  by_contra hne
  exact h p hp q hq hne m hm n hn hspelling

/-- Without contention it makes no difference which of the entries comes last. -/
theorem Apart.getElem?_expanded (h : config.Apart vocabulary) {value : String} :
    config.colors.expanded[name]? = some value ↔ ∃ entry ∈ config.colors.palette.toList,
      lastValue (Palette.generated config.colors entry) name = some value := by
  rw [ColorSettings.expanded, NameMap.getElem?_ofEntries]
  refine lastValue_flatMap_eq_some_iff fun x hx y hy hxname hyname => ?_
  have hclaims {entry : String × String}
      (hname : name ∈ (Palette.generated config.colors entry).map Prod.fst) :
      config.Claims vocabulary (underscored name) (.color entry.1) :=
    claims_color (Palette.mem_familyNames_of_mem_generated hname)
      (by simp [Sheet.colorNames]) rfl
  have howner : Producer.color x.1 = .color y.1 :=
    h.owner_unique (color_mem_producers.2 ⟨x.2, hx⟩) (color_mem_producers.2 ⟨y.2, hy⟩)
      (hclaims hxname) (hclaims hyname)
  exact Declarations.eq_of_mem hx hy (Producer.color.inj howner)

section Silence

theorem agreesOn_empty_expanded
    (h : ∀ p ∈ config.producers, ¬ config.Claims vocabulary spelling p) :
    NameMap.AgreesOn spelling ∅ config.colors.expanded := by
  intro name hspelling
  rw [Std.ExtTreeMap.getElem?_empty, eq_comm, getElem?_eq_none_iff]
  intro hmem
  obtain ⟨entry, hentry, hname⟩ := ColorSettings.exists_of_mem_expanded hmem
  exact h _ (color_mem_producers.2 ⟨entry.2, hentry⟩)
    (claims_color hname (by simp [Sheet.colorNames]) hspelling)

theorem agreesOn_empty_layers
    (h : ∀ p ∈ config.producers, ¬ config.Claims vocabulary spelling p) :
    NameMap.AgreesOn spelling ∅ (Compiled.layers config vocabulary config.colors.expanded) := by
  intro name hspelling
  rw [Std.ExtTreeMap.getElem?_empty, eq_comm, getElem?_eq_none_iff, Compiled.mem_layers]
  rintro (⟨font, hfont, rfl⟩ | ⟨color, hcolor, hname⟩ | hname | hname)
  · obtain ⟨entry, hentry, rfl⟩ := List.mem_map.1 hfont
    exact h _ (font_mem_producers.2 ⟨entry.2, hentry⟩) (claims_font hspelling)
  · obtain ⟨entry, hentry, hfamily⟩ := ColorSettings.exists_of_mem_expanded hcolor
    exact h _ (color_mem_producers.2 ⟨entry.2, hentry⟩) (claims_color hfamily hname hspelling)
  · exact h _ vocabulary_mem_producers
      (claims_vocabulary (List.mem_append_right _ hname) hspelling)
  · exact h _ vocabulary_mem_producers
      (claims_vocabulary (List.mem_append_left _ hname) hspelling)

end Silence

namespace PartOf

theorem written (h : part.PartOf whole) :
    part.written vocabulary = whole.written vocabulary := by
  funext p
  cases p with
  | vocabulary => rfl
  | color name => rw [Config.written, Config.written, Palette.familyNames_congr h.lighten h.darken]
  | font name => rfl

theorem claims_iff (h : part.PartOf whole) {p : Producer} :
    part.Claims vocabulary spelling p ↔ whole.Claims vocabulary spelling p := by
  rw [Claims, Claims, h.written]

theorem mem_producers (h : part.PartOf whole) {p : Producer} (hp : p ∈ part.producers) :
    p ∈ whole.producers := by
  cases p with
  | vocabulary => exact vocabulary_mem_producers
  | color name =>
    obtain ⟨text, htext⟩ := color_mem_producers.1 hp
    exact color_mem_producers.2 ⟨text, h.palette htext⟩
  | font name =>
    obtain ⟨text, htext⟩ := font_mem_producers.1 hp
    exact font_mem_producers.2 ⟨text, h.fonts htext⟩

theorem apart (h : part.PartOf whole) (hapart : whole.Apart vocabulary) :
    part.Apart vocabulary := by
  intro p hp q hq
  rw [h.written]
  exact hapart p (h.mem_producers hp) q (h.mem_producers hq)

theorem mem_palette (h : part.PartOf whole) {entry : String × String}
    (hentry : entry ∈ whole.colors.palette.toList) (hp : .color entry.1 ∈ part.producers) :
    entry ∈ part.colors.palette.toList := by
  obtain ⟨text, htext⟩ := color_mem_producers.1 hp
  exact Declarations.eq_of_mem hentry (h.palette htext) rfl ▸ htext

theorem mem_fonts (h : part.PartOf whole) {entry : String × String}
    (hentry : entry ∈ whole.fonts.toList) (hp : .font entry.1 ∈ part.producers) :
    entry ∈ part.fonts.toList := by
  obtain ⟨text, htext⟩ := font_mem_producers.1 hp
  exact Declarations.eq_of_mem hentry (h.fonts htext) rfl ▸ htext

theorem covers_expanded (h : part.PartOf whole) :
    whole.colors.expanded.Covers part.colors.expanded := by
  intro name hmem
  rw [ColorSettings.expanded, NameMap.mem_ofEntries, List.mem_map] at hmem ⊢
  obtain ⟨written, hwritten, rfl⟩ := hmem
  obtain ⟨entry, hentry, hgenerated⟩ := List.mem_flatMap.1 hwritten
  rw [Palette.generated_congr h.lighten h.darken] at hgenerated
  exact ⟨written, List.mem_flatMap.2 ⟨entry, h.palette hentry, hgenerated⟩, rfl⟩

theorem covers_layers (h : part.PartOf whole) :
    (Compiled.layers whole vocabulary whole.colors.expanded).Covers
      (Compiled.layers part vocabulary part.colors.expanded) := by
  intro name hmem
  rw [Compiled.mem_layers] at hmem ⊢
  rcases hmem with ⟨font, hfont, hname⟩ | ⟨color, hcolor, hname⟩ | hname
  · exact .inl ⟨font, List.map_subset Prod.fst h.fonts hfont, hname⟩
  · exact .inr (.inl ⟨color, h.covers_expanded color hcolor, hname⟩)
  · exact .inr (.inr hname)

variable (h : part.PartOf whole)
  (howned : ∀ p ∈ whole.producers, whole.Claims vocabulary spelling p → p ∈ part.producers)

include h howned

theorem find?_fonts {font : String} (hspelling : underscored ("ff-" ++ font) = spelling) :
    part.fonts.find? font = whole.fonts.find? font := by
  ext family
  rw [Declarations.find?_eq_some_iff_mem, Declarations.find?_eq_some_iff_mem]
  constructor
  · exact fun hmem => h.fonts hmem
  · intro hmem
    exact h.mem_fonts hmem
      (howned _ (font_mem_producers.2 ⟨family, hmem⟩) (claims_font hspelling))

variable (hapart : whole.Apart vocabulary)

include hapart

theorem getElem?_expanded {color surface : String} (hsurface : surface ∈ Sheet.colorNames color)
    (hspelling : underscored surface = spelling) :
    part.colors.expanded[color]? = whole.colors.expanded[color]? := by
  ext value
  rw [(h.apart hapart).getElem?_expanded, hapart.getElem?_expanded,
    Palette.generated_congr h.lighten h.darken]
  constructor
  · rintro ⟨entry, hentry, hvalue⟩
    exact ⟨entry, h.palette hentry, hvalue⟩
  · rintro ⟨entry, hentry, hvalue⟩
    have hfamily : color ∈ Palette.familyNames whole.colors entry.1 :=
      Palette.mem_familyNames_of_mem_generated (isSome_lastValue_iff.1 (by simp [hvalue]))
    have hp := howned _ (color_mem_producers.2 ⟨entry.2, hentry⟩)
      (claims_color hfamily hsurface hspelling)
    exact ⟨entry, h.mem_palette hentry hp, hvalue⟩

theorem agreesOn_expanded :
    NameMap.AgreesOn spelling whole.colors.expanded part.colors.expanded := fun _ hspelling =>
  (h.getElem?_expanded howned hapart (by simp [Sheet.colorNames]) hspelling).symm

theorem agreesOn_layers :
    NameMap.AgreesOn spelling (Compiled.layers whole vocabulary whole.colors.expanded)
      (Compiled.layers part vocabulary part.colors.expanded) := by
  intro name hspelling
  apply Sheet.getElem?_eq_of_reading?
  rw [Compiled.reading?_layers, Compiled.reading?_layers, Compiled.layered?, Compiled.layered?,
    h.rem]
  have hfonts : Sheet.fontReading? whole.fonts name = Sheet.fontReading? part.fonts name := by
    refine Sheet.fontReading?_congr fun font hfont => ?_
    exact (h.find?_fonts howned (hfont ▸ hspelling)).symm
  have hcolors : Sheet.colorReading? whole.colors.expanded name =
      Sheet.colorReading? part.colors.expanded name := by
    refine Sheet.colorReading?_congr fun color hname => ?_
    exact (h.getElem?_expanded howned hapart hname hspelling).symm
  rw [hfonts, hcolors]

end PartOf

end Config

end AtomicStyle
