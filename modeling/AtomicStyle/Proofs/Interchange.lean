import AtomicStyle.Registry

/-!
# Styles as rules and as values of JSON

A factory that keeps rules and one that makes them values of JSON first can be exchanged where only
documents count. A value of JSON has no number that is not finite, and a document writes such a
number as if there were none, so both are written alike (`chars_jsonOfRule`). Registries that are
driven with one and with the other are always each other's image (`drive_asJson`), and so they end
every run with the same results and the same document (`interchangeable_rules_json`).
-/

namespace AtomicStyle

variable {α β Handle ε : Type}

section Documents

theorem Json.memberChars_eq_map (members : List (String × Json.Value)) :
    Json.memberChars members =
      members.map fun member => Json.quoted member.1.toList ++ ':' :: member.2.chars := by
  induction members with
  | nil => rfl
  | cons member members ih =>
    obtain ⟨name, value⟩ := member
    rw [Json.memberChars, ih, List.map_cons]

namespace NameMap

/-- Values that are written alike make objects that are written alike. -/
theorem chars_toJson_congr {value other : α → Json.Value}
    (h : ∀ a, (value a).chars = (other a).chars) (map : NameMap α) :
    (map.toJson value).chars = (map.toJson other).chars := by
  simp only [toJson, Json.Value.chars, Json.memberChars_eq_map, List.map_map, Function.comp_def, h]

theorem toJson_map (f : α → β) (value : β → Json.Value) (map : NameMap α) :
    toJson value (map.map fun _ a => f a) = map.toJson fun a => value (f a) := by
  simp only [toJson, Std.ExtTreeMap.toList_map, List.map_map, Function.comp_def]

theorem map_union (f : α → β) (map other : NameMap α) :
    Std.ExtTreeMap.map (fun _ a => f a) (map ∪ other) =
      (map.map fun _ a => f a) ∪ (other.map fun _ a => f a) := by
  refine Std.ExtTreeMap.ext_getElem? fun name => ?_
  simp only [Std.ExtTreeMap.getElem?_map, Std.ExtTreeMap.getElem?_union, Option.map_or]

end NameMap

theorem Factory.chars_jsonOfRule (rule : Rule) : (jsonOfRule rule).chars = rule.toJson.chars := by
  refine NameMap.chars_toJson_congr (fun value => ?_) rule
  rcases value with x | s
  · by_cases hfinite : x.isFinite
    · simp [RuleValue.toJson, hfinite]
    · simp [RuleValue.toJson, Json.Value.chars, Json.Number.chars, hfinite]
  · rfl

end Documents

/-- What can be asked of a registry, whatever factory it is driven with. -/
inductive Request where
  | build (config : Config)
  | buildWith (config : Config) (vocabulary : Vocabulary)
  | commit (compiled : Compiled)

def Request.perform (factory : Factory Handle ε) (r : Registry Handle) :
    Request → Registry Handle × Run (BuildError ε) Unit
  | build config => r.build config factory
  | buildWith config vocabulary => r.buildWith config vocabulary factory
  | commit compiled => r.commit compiled factory

namespace Registry

/-- Drives a registry with one factory: what each request led to, and the registry in the end. -/
def drive (factory : Factory Handle ε) :
    List Request → Registry Handle → List (Run (BuildError ε) Unit) × Registry Handle
  | [], r => ([], r)
  | request :: requests, r =>
    let (r, run) := request.perform factory r
    let (runs, last) := drive factory requests r
    (run :: runs, last)

/-- The registry with each style as a value of JSON. -/
def asJson (r : Registry Rule) : Registry Json.Value :=
  { r with styles := r.styles.map fun _ rule => Factory.jsonOfRule rule }

theorem asJson_empty : asJson empty = empty := rfl

theorem commit_asJson (r : Registry Rule) (c : Compiled) :
    r.asJson.commit c Factory.json =
      ((r.commit c Factory.rules).1.asJson, (r.commit c Factory.rules).2) := by
  simp only [commit, Factory.json, Factory.rules, asJson, NameMap.map_union,
    Std.ExtTreeMap.size_map]

theorem buildWith_asJson (r : Registry Rule) (config : Config) (vocabulary : Vocabulary) :
    r.asJson.buildWith config vocabulary Factory.json =
      ((r.buildWith config vocabulary Factory.rules).1.asJson,
        (r.buildWith config vocabulary Factory.rules).2) := by
  rcases h : (config.compileWith vocabulary).outcome with e | c
  · simp only [buildWith, h]
  · simp only [buildWith, h, commit_asJson]

/-- One request leads to the same with both factories. -/
theorem perform_asJson (request : Request) (r : Registry Rule) :
    request.perform Factory.json r.asJson =
      ((request.perform Factory.rules r).1.asJson, (request.perform Factory.rules r).2) := by
  cases request with
  | build config => exact buildWith_asJson r config Vocabulary.standard
  | buildWith config vocabulary => exact buildWith_asJson r config vocabulary
  | commit compiled => exact commit_asJson r compiled

theorem drive_asJson (requests : List Request) (r : Registry Rule) :
    drive Factory.json requests r.asJson =
      ((drive Factory.rules requests r).1, (drive Factory.rules requests r).2.asJson) := by
  induction requests generalizing r with
  | nil => rfl
  | cons request requests ih => simp only [drive, perform_asJson, ih]

theorem render_asJson (r : Registry Rule) :
    (r.asJson.toJson id).render = (r.toJson Rule.toJson).render := by
  have hstyles : (r.asJson.styles.toJson id).chars = (r.styles.toJson Rule.toJson).chars := by
    rw [asJson, NameMap.toJson_map]
    exact NameMap.chars_toJson_congr Factory.chars_jsonOfRule r.styles
  simp only [toJson, Json.Value.render, Json.Value.chars, Json.memberChars_eq_map, List.map_cons,
    List.map_nil, hstyles]
  rfl

theorem interchangeable_rules_json :
    (∀ sheet : Sheet,
      (∃ styles, Factory.rules.create sheet = .ok styles ∧ ∀ name, name ∈ styles ↔ name ∈ sheet) ∧
      ∃ styles, Factory.json.create sheet = .ok styles ∧ ∀ name, name ∈ styles ↔ name ∈ sheet) ∧
    ∀ requests : List Request,
      let byRules := drive Factory.rules requests empty
      let byJson := drive Factory.json requests empty
      byRules.1 = byJson.1 ∧ byRules.2.sizes = byJson.2.sizes ∧
        byRules.2.colors = byJson.2.colors ∧
        (byRules.2.toJson Rule.toJson).render = (byJson.2.toJson id).render := by
  refine ⟨fun sheet => ⟨⟨sheet, rfl, fun _ => Iff.rfl⟩, ⟨_, rfl, fun _ => ?_⟩⟩, ?_⟩
  · exact Std.ExtTreeMap.mem_map
  · intro requests byRules byJson
    have hjson : byJson = (byRules.1, byRules.2.asJson) := by
      have hdrive := drive_asJson requests empty
      rwa [asJson_empty] at hdrive
    rw [hjson]
    exact ⟨rfl, rfl, rfl, (render_asJson byRules.2).symm⟩

end Registry

end AtomicStyle
