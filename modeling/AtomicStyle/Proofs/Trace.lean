import AtomicStyle.Proofs.Names
import AtomicStyle.Proofs.Registry
import AtomicStyle.Proofs.Variants
import Mathlib.Data.List.Sort

/-!
# What a build reports

The records of a build come in the order of its work (`records_buildWith`): a warning if the unit is
not positive, the number of sizes, nine variants for each colour up to the first text that is none,
the names that get a second spelling, map by map, and the number of styles. A text that is no colour
ends the records with the colours before it, and a factory that refuses leaves out the last record.
-/

namespace AtomicStyle

/-- A record as it is shown: its level and its text. -/
abbrev Record := Level × String

def Note.record (note : Note) : Record := (note.level, note.message)

namespace Run

variable {ε α β : Type}

def records (run : Run ε α) : List Record := run.notes.map Note.record

theorem records_pure (a : α) : (pure a : Run ε α).records = [] := rfl

theorem records_bind (r : Run ε α) (next : α → Run ε β) :
    (r >>= next).records =
      r.records ++ r.outcome.toOption.elim [] fun a => (next a).records := by
  obtain ⟨outcome, notes⟩ := r
  rcases outcome with e | a
  · exact (List.append_nil _).symm
  · exact List.map_append

theorem records_leave_bind (notes : List Note) (next : Unit → Run ε β) :
    (leave notes >>= next).records = notes.map Note.record ++ (next ()).records :=
  records_bind (leave notes) next

end Run

namespace Record

/-- The warning about a unit that is not positive. -/
def unit (rem : Float) : List Record :=
  if 0 < rem then [] else [(.warn, "rem unit should be positive, got " ++ Decimal.plain.render rem)]

def sized (count : Nat) (rem : Float) : Record :=
  (.debug, "got " ++ Nat.repr count ++ " sizes at rem " ++ Decimal.plain.render rem)

/-- The records of the nine translucent variants of an entry; none if its text is no colour. -/
def variants (entry : String × String) : List Record :=
  match Color.parse entry.2 with
  | .error _ => []
  | .ok base => (Palette.tenths.map Palette.Variant.translucent).map fun variant =>
    (.debug, "writing alpha variant: " ++ variant.nameOf entry.1 ++ ": " ++
      variant.textOf entry.2 base)

def respelled (name : String) : Record :=
  (.debug, "replacing " ++ name ++ " -> " ++ underscored name)

/-- The record of the styles that a factory made, if it made any. -/
def committed {Handle ε : Type} : Except ε (NameMap Handle) → List Record
  | .error _ => []
  | .ok styles => [(.debug, "committing " ++ Nat.repr styles.size ++ " styles")]

end Record

/-- The names that satisfy a condition, each once and in their order. -/
structure Ascending (names : List String) (p : String → Prop) : Prop where
  sorted : names.Pairwise (· < ·)
  mem_iff : ∀ name, name ∈ names ↔ p name

theorem Ascending.congr {names : List String} {p q : String → Prop} (h : Ascending names p)
    (hpq : ∀ name, p name ↔ q name) : Ascending names q :=
  ⟨h.sorted, fun name => (h.mem_iff name).trans (hpq name)⟩

/-- There is one such list only. -/
theorem Ascending.unique {names others : List String} {p : String → Prop} (h : Ascending names p)
    (h' : Ascending others p) : names = others :=
  h.sorted.eq_of_mem_iff h'.sorted fun name => (h.mem_iff name).trans (h'.mem_iff name).symm

namespace NameMap

variable {α : Type} (map : NameMap α)

/-- The hyphenated names of a map. -/
def hyphenatedNames : List String := map.hyphenatedEntries.map Prod.fst

theorem ascending_hyphenatedNames :
    Ascending map.hyphenatedNames fun name => name ∈ map ∧ hyphenated name where
  sorted := List.pairwise_map.2 (map.pairwise_lt_toList.filter _)
  mem_iff name := by
    rw [hyphenatedNames, hyphenatedEntries, List.mem_map]
    constructor
    · rintro ⟨⟨_, a⟩, hentry, rfl⟩
      obtain ⟨hmem, h⟩ := List.mem_filter.1 hentry
      exact ⟨mem_of_getElem? (Std.ExtTreeMap.mem_toList_iff_getElem?_eq_some.1 hmem), h⟩
    · rintro ⟨hmem, h⟩
      obtain ⟨a, ha⟩ :=
        Option.isSome_iff_exists.1 (Std.ExtTreeMap.mem_iff_isSome_getElem?.1 hmem)
      exact ⟨(name, a), List.mem_filter.2 ⟨Std.ExtTreeMap.mem_toList_iff_getElem?_eq_some.2 ha, h⟩,
        rfl⟩

theorem record_respellings :
    map.respellings.map Note.record = map.hyphenatedNames.map Record.respelled := by
  rw [respellings, hyphenatedNames, List.map_map, List.map_map]
  rfl

/-- A map has as many entries as there are names in it. -/
theorem size_eq_card {names : Finset String} (h : ∀ name, name ∈ map ↔ name ∈ names) :
    map.size = names.card := by
  have hkeys : map.keys.toFinset = names := by
    ext name
    rw [List.mem_toFinset, Std.ExtTreeMap.mem_keys, h]
  rw [← hkeys, List.toFinset_card_of_nodup Std.ExtTreeMap.nodup_keys, Std.ExtTreeMap.length_keys]

end NameMap

namespace Palette

variable {settings : ColorSettings}

def isColor (entry : String × String) : Bool := (Color.parse entry.2).isOk

theorem records_expandEntry (entry : String × String) (expanded : NameMap String) :
    (expandEntry settings expanded entry).records = Record.variants entry := by
  rw [expandEntry, Record.variants]
  rcases hparse : Color.parse entry.2 with failure | base
  · rcases failure with source | _ <;> rfl
  · simp only [Run.records, translucent_eq entry.1 entry.2 base, List.map_map]
    rfl

/-- Entries report their variants one after the other, up to the first that is no colour. -/
theorem records_expandFrom : ∀ (entries : List (String × String)) (expanded : NameMap String),
    (expandFrom settings entries expanded).records =
      (entries.takeWhile isColor).flatMap Record.variants
  | [], _ => rfl
  | entry :: entries, expanded => by
    rw [expandFrom, Run.records_bind, records_expandEntry]
    rcases hparse : Color.parse entry.2 with failure | base
    · have hcolor : isColor entry = false := by rw [isColor, hparse]; rfl
      have hstop : (expandEntry settings expanded entry).outcome.toOption = none := by
        rcases failure with source | _ <;> simp only [expandEntry, hparse] <;> rfl
      rw [hstop, Option.elim_none, List.append_nil, List.takeWhile_cons_of_neg (by simp [hcolor]),
        Record.variants, hparse]
      rfl
    · have hcolor : isColor entry = true := by rw [isColor, hparse]; rfl
      have hgoes : (expandEntry settings expanded entry).outcome.toOption =
          some (expanded.insertAll (family settings entry.1 entry.2 base)) := by
        simp only [expandEntry, hparse]
        rfl
      rw [hgoes, Option.elim_some, records_expandFrom entries, List.takeWhile_cons_of_pos hcolor,
        List.flatMap_cons]

end Palette

namespace ColorSettings

/-- A colour of the palette generates the name. -/
def Generated (settings : ColorSettings) (name : String) : Prop :=
  ∃ entry ∈ settings.palette.toList, ∃ variant : Palette.Variant,
    variant.Asked settings ∧ variant.nameOf entry.1 = name

theorem mem_expanded_iff_generated {settings : ColorSettings}
    (h : Palette.Readable settings.palette.toList) {name : String} :
    name ∈ settings.expanded ↔ settings.Generated name :=
  mem_expanded_iff h

end ColorSettings

namespace Record

/-- All records of a compilation that gets as far as its maps. -/
def compiled (config : Config) (vocabulary : Vocabulary) (colors : NameMap String) : List Record :=
  ((Sheet.scaledSizes vocabulary.scaled config.rem).hyphenatedNames ++ colors.hyphenatedNames ++
    (Compiled.layers config vocabulary colors).hyphenatedNames).map respelled

end Record

theorem Record.map_record_unit (rem : Float) :
    (if 0 < rem then [] else [Note.unitNotPositive rem]).map Note.record = Record.unit rem := by
  rw [Record.unit]
  split_ifs <;> rfl

theorem NameMap.records_respell_bind {α β ε : Type} (map : NameMap α)
    (next : NameMap α → Run ε β) :
    (map.respell >>= next).records =
      map.hyphenatedNames.map Record.respelled ++ (next map.withUnderscores).records := by
  rw [Run.records_bind, ← record_respellings]
  rfl

theorem Config.records_compileWith (config : Config) (vocabulary : Vocabulary) :
    (config.compileWith vocabulary).records =
      Record.unit config.rem ++
        Record.sized (Sheet.scaledSizes vocabulary.scaled config.rem).size config.rem ::
          (config.colors.expand.records ++
            config.colors.expand.outcome.toOption.elim [] (Record.compiled config vocabulary)) := by
  simp only [compileWith, Run.records_leave_bind, Record.map_record_unit,
    Run.records_bind config.colors.expand, NameMap.records_respell_bind, Run.records_pure]
  rcases config.colors.expand.outcome with e | colors
  · rfl
  · simp only [Except.toOption, Option.elim_some, Record.compiled, List.map_append,
      List.append_assoc, List.append_nil]
    rfl

namespace Registry

variable {Handle ε : Type} (r : Registry Handle) (config : Config) (vocabulary : Vocabulary)
  (factory : Factory Handle ε)

theorem records_commit (c : Compiled) :
    (r.commit c factory).2.records = Record.committed (factory.create c.sheet) := by
  rcases h : factory.create c.sheet with e | styles
  · rw [commit_of_refused r h]
    rfl
  · rw [commit_of_created r h]
    rfl

theorem records_buildWith_eq :
    (r.buildWith config vocabulary factory).2.records =
      (config.compileWith vocabulary).records ++
        (config.compileWith vocabulary).outcome.toOption.elim [] fun compiled =>
          Record.committed (factory.create compiled.sheet) := by
  rcases h : (config.compileWith vocabulary).outcome with e | compiled
  · rw [buildWith_of_error r factory h]
    exact (List.append_nil _).symm
  · have hcommit := records_commit r factory compiled
    rw [buildWith_of_ok r factory h]
    simp only [Except.toOption, Option.elim_some, ← hcommit]
    exact List.map_append

/-- The names of the groups that are not empty, each once. -/
def sizedNames (tables : List (Table Float)) : Finset String :=
  ((tables.flatten.filter fun group => !group.properties.isEmpty).map Group.name).toFinset

theorem mem_sizedNames {tables : List (Table Float)} {name : String} :
    name ∈ sizedNames tables ↔
      ∃ group ∈ tables.flatten, group.name = name ∧ group.properties ≠ [] := by
  simp only [sizedNames, List.mem_toFinset, List.mem_map, List.mem_filter, Bool.not_eq_true',
    List.isEmpty_eq_false_iff, and_assoc, and_comm]

theorem records_buildWith :
    ∃ rest : List Record,
      (r.buildWith config vocabulary factory).2.records =
        Record.unit config.rem ++
          Record.sized (sizedNames vocabulary.scaled).card config.rem ::
            ((config.colors.palette.toList.takeWhile Palette.isColor).flatMap Record.variants ++
              rest) ∧
      (¬ Palette.Readable config.colors.palette.toList → rest = []) ∧
      (Palette.Readable config.colors.palette.toList →
        ∃ compiled, (config.compileWith vocabulary).outcome = .ok compiled ∧
          ∃ sizes colors sheet : List String,
            rest = (sizes ++ colors ++ sheet).map Record.respelled ++
              Record.committed (factory.create compiled.sheet) ∧
            Ascending sizes (fun name => hyphenated name ∧
              ∃ group ∈ vocabulary.scaled.flatten, group.name = name ∧ group.properties ≠ []) ∧
            Ascending colors (fun name => hyphenated name ∧ config.colors.Generated name) ∧
            Ascending sheet (fun name => hyphenated name ∧
              ((∃ font ∈ config.fonts.toList.map Prod.fst, "ff-" ++ font = name) ∨
                (∃ color, config.colors.Generated color ∧ name ∈ Sheet.colorNames color) ∨
                name ∈ Table.names vocabulary.scaled ∨ name ∈ Table.names vocabulary.fixed))) := by
  have hsize : (Sheet.scaledSizes vocabulary.scaled config.rem).size =
      (sizedNames vocabulary.scaled).card :=
    NameMap.size_eq_card _ fun name => by rw [Sheet.mem_scaledSizes, mem_sizedNames]
  have hexpand : config.colors.expand.records =
      (config.colors.palette.toList.takeWhile Palette.isColor).flatMap Record.variants :=
    Palette.records_expandFrom _ _
  rw [records_buildWith_eq, Config.records_compileWith, hsize, hexpand, List.append_assoc,
    List.cons_append, List.append_assoc]
  refine ⟨_, rfl, fun h => ?_, fun h => ?_⟩
  · rw [Compiled.outcome_compileWith]
    rcases houtcome : config.colors.expand.outcome with e | colors
    · rfl
    · exact absurd (ColorSettings.readable_of_outcome_expand houtcome) h
  · rw [ColorSettings.outcome_expand_of_readable h,
      Compiled.outcome_compileWith_of_readable config vocabulary h]
    refine ⟨_, rfl, _, _, _, rfl, ?_, ?_, ?_⟩
    · refine (NameMap.ascending_hyphenatedNames _).congr fun name => ?_
      rw [Sheet.mem_scaledSizes, and_comm]
    · refine (NameMap.ascending_hyphenatedNames _).congr fun name => ?_
      rw [ColorSettings.mem_expanded_iff_generated h, and_comm]
    · refine (NameMap.ascending_hyphenatedNames _).congr fun name => ?_
      simp only [Compiled.mem_layers, ColorSettings.mem_expanded_iff_generated h, and_comm]

/-- A unit that is not positive, and a colour in front of a text that is none. -/
def interrupted : Config where
  rem := 0
  colors := ⟨.disabled, .disabled, .ofList [("steel", "#336699"), ("bad", "#33")]⟩
  fonts := ∅

/-- A positive unit, and the same colour alone. -/
def uninterrupted : Config where
  rem := 16
  colors := ⟨.disabled, .disabled, .ofList [("steel", "#336699")]⟩
  fonts := ∅

/-- One size, whose name has a hyphen. -/
def wide : Vocabulary := ⟨[], [[⟨"w-1", [("width", 1)]⟩]]⟩

/-- The records of the colour. -/
def steelRecords : List Record :=
  [(.debug, "writing alpha variant: steel-10: rgba(51, 102, 153, 0.1)"),
    (.debug, "writing alpha variant: steel-20: rgba(51, 102, 153, 0.2)"),
    (.debug, "writing alpha variant: steel-30: rgba(51, 102, 153, 0.3)"),
    (.debug, "writing alpha variant: steel-40: rgba(51, 102, 153, 0.4)"),
    (.debug, "writing alpha variant: steel-50: rgba(51, 102, 153, 0.5)"),
    (.debug, "writing alpha variant: steel-60: rgba(51, 102, 153, 0.6)"),
    (.debug, "writing alpha variant: steel-70: rgba(51, 102, 153, 0.7)"),
    (.debug, "writing alpha variant: steel-80: rgba(51, 102, 153, 0.8)"),
    (.debug, "writing alpha variant: steel-90: rgba(51, 102, 153, 0.9)")]

theorem not_readable_interrupted : ¬ Palette.Readable interrupted.colors.palette.toList := by
  intro h
  obtain ⟨base, hbase⟩ := h ("bad", "#33") (.tail _ (.head _))
  have hrefused : (Color.parse "#33").isOk = false := by decide +kernel
  rw [hbase] at hrefused
  cases hrefused

theorem readable_uninterrupted : Palette.Readable uninterrupted.colors.palette.toList :=
  .cons rfl Palette.readable_nil

theorem ascending_wide : Ascending ["w-1"] fun name => hyphenated name ∧
    ∃ group ∈ wide.scaled.flatten, group.name = name ∧ group.properties ≠ [] where
  sorted := List.pairwise_singleton _ _
  mem_iff name := by
    rw [List.mem_singleton]
    constructor
    · rintro rfl
      exact ⟨rfl, _, .head _, rfl, List.cons_ne_nil _ _⟩
    · rintro ⟨-, group, hgroup, rfl, -⟩
      rw [List.mem_singleton.1 hgroup]

theorem size_uninterrupted {compiled : Compiled}
    (h : (uninterrupted.compileWith wide).outcome = .ok compiled) : compiled.sheet.size = 61 := by
  have hsize : (uninterrupted.compileWith wide).outcome.toOption.map (·.sheet.size) = some 61 := by
    decide +kernel
  rw [h] at hsize
  exact Option.some.inj hsize

theorem records_buildWith_steel :
    ((empty : Registry Rule).buildWith interrupted wide Factory.rules).2.records =
        (.warn, "rem unit should be positive, got 0") :: (.debug, "got 1 sizes at rem 0") ::
          steelRecords ∧
      ∃ names : List String,
        ((empty : Registry Rule).buildWith uninterrupted wide Factory.rules).2.records =
          (.debug, "got 1 sizes at rem 16") :: (steelRecords ++
            (.debug, "replacing w-1 -> w_1") :: (names.map Record.respelled ++
              [(.debug, "committing 61 styles")])) := by
  constructor
  · obtain ⟨rest, hrecords, hstop, -⟩ :=
      records_buildWith (empty : Registry Rule) interrupted wide Factory.rules
    rw [hrecords, hstop not_readable_interrupted, List.append_nil]
    decide +kernel
  · obtain ⟨rest, hrecords, -, hgoes⟩ :=
      records_buildWith (empty : Registry Rule) uninterrupted wide Factory.rules
    obtain ⟨compiled, hcompiled, sizes, colors, sheet, rfl, hsizes, -, -⟩ :=
      hgoes readable_uninterrupted
    have hcommitted : Record.committed (Factory.rules.create compiled.sheet) =
        [(.debug, "committing " ++ Nat.repr compiled.sheet.size ++ " styles")] := rfl
    have hrespelled : Record.respelled "w-1" = (.debug, "replacing w-1 -> w_1") := rfl
    have hstart : Record.unit uninterrupted.rem ++
        Record.sized (sizedNames wide.scaled).card uninterrupted.rem ::
          (uninterrupted.colors.palette.toList.takeWhile Palette.isColor).flatMap
            Record.variants =
        (.debug, "got 1 sizes at rem 16") :: steelRecords := by
      decide +kernel
    refine ⟨colors ++ sheet, ?_⟩
    rw [hrecords, hsizes.unique ascending_wide, hcommitted,
      size_uninterrupted hcompiled, ← List.cons_append, ← List.append_assoc, hstart, ← hrespelled]
    rfl

end Registry

end AtomicStyle
