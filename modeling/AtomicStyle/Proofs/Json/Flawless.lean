import AtomicStyle.Json.Content
import AtomicStyle.Proofs.Json.Draft

/-!
# Documents without flaws

A draft has a value exactly if it is the draft of that value (`Draft.value_eq_ok_iff`), so where a
document is read as a value, a reader can be followed over values instead of drafts.
-/

namespace AtomicStyle

theorem bind_eq_ok_iff {ε α β : Type} {attempt : Except ε α} {f : α → Except ε β} {b : β} :
    attempt >>= f = .ok b ↔ ∃ a, attempt = .ok a ∧ f a = .ok b := by
  rcases attempt with e | a
  · exact iff_of_false nofun nofun
  · exact ⟨fun h => ⟨a, rfl, h⟩, fun ⟨_, ha, h⟩ => Except.ok.inj ha ▸ h⟩

namespace Json

mutual

/-- The draft of a value, in which nothing is broken off. -/
def Value.draft : Value → Draft
  | .null => .null
  | .bool b => .bool b
  | .number n => .number n
  | .text s => .text s
  | .array items => .array (itemDrafts items) none
  | .object members => .object (memberDrafts members) none

def itemDrafts : List Value → List Draft
  | [] => []
  | item :: items => item.draft :: itemDrafts items

def memberDrafts : List (String × Value) → List (String × Draft)
  | [] => []
  | (name, value) :: members => (name, value.draft) :: memberDrafts members

end

theorem memberDrafts_eq_map : ∀ members : List (String × Value),
    memberDrafts members = members.map fun member => (member.1, member.2.draft)
  | [] => rfl
  | (name, value) :: members => by rw [memberDrafts, memberDrafts_eq_map members, List.map_cons]

mutual

theorem Draft.value_draft : ∀ v : Value, v.draft.value = .ok v
  | .null | .bool _ | .number _ | .text _ => rfl
  | .array items => by
    rw [Value.draft, Draft.value, itemValues_itemDrafts items]
    rfl
  | .object members => by
    rw [Value.draft, Draft.value, memberValues_memberDrafts members]
    rfl

theorem itemValues_itemDrafts : ∀ items : List Value,
    Draft.itemValues (itemDrafts items) = .ok items
  | [] => rfl
  | item :: items => by
    rw [itemDrafts, Draft.itemValues, Draft.value_draft item, itemValues_itemDrafts items]
    rfl

theorem memberValues_memberDrafts : ∀ members : List (String × Value),
    Draft.memberValues (memberDrafts members) = .ok members
  | [] => rfl
  | (name, value) :: members => by
    rw [memberDrafts, Draft.memberValues, Draft.value_draft value,
      memberValues_memberDrafts members]
    rfl

end

mutual

theorem Draft.eq_draft_of_value : ∀ {d : Draft} {v : Value}, d.value = .ok v → d = v.draft
  | .null, _, h | .bool _, _, h | .number _, _, h | .text _, _, h => by
    cases h
    rfl
  | .flawed _, _, h => by cases h
  | .array items flaw, _, h => by
    obtain ⟨values, hitems, hvalue⟩ := bind_eq_ok_iff.1 h
    rcases flaw with _ | f <;> cases hvalue
    rw [Value.draft, ← eq_itemDrafts_of_itemValues hitems]
  | .object members flaw, _, h => by
    obtain ⟨values, hmembers, hvalue⟩ := bind_eq_ok_iff.1 h
    rcases flaw with _ | f <;> cases hvalue
    rw [Value.draft, ← eq_memberDrafts_of_memberValues hmembers]

theorem eq_itemDrafts_of_itemValues : ∀ {items : List Draft} {values : List Value},
    Draft.itemValues items = .ok values → items = itemDrafts values
  | [], _, h => by
    cases h
    rfl
  | item :: items, _, h => by
    obtain ⟨value, hitem, hrest⟩ := bind_eq_ok_iff.1 h
    obtain ⟨values, hitems, hvalues⟩ := bind_eq_ok_iff.1 hrest
    cases hvalues
    rw [itemDrafts, ← Draft.eq_draft_of_value hitem, ← eq_itemDrafts_of_itemValues hitems]

theorem eq_memberDrafts_of_memberValues : ∀ {members : List (String × Draft)}
    {values : List (String × Value)},
    Draft.memberValues members = .ok values → members = memberDrafts values
  | [], _, h => by
    cases h
    rfl
  | (name, member) :: members, _, h => by
    obtain ⟨value, hmember, hrest⟩ := bind_eq_ok_iff.1 h
    obtain ⟨values, hmembers, hvalues⟩ := bind_eq_ok_iff.1 hrest
    cases hvalues
    rw [memberDrafts, ← Draft.eq_draft_of_value hmember,
      ← eq_memberDrafts_of_memberValues hmembers]

end

theorem Draft.value_eq_ok_iff {d : Draft} {v : Value} : d.value = .ok v ↔ d = v.draft :=
  ⟨eq_draft_of_value, fun h => h ▸ value_draft v⟩

/-- A text that is read as a value, with nothing left over. -/
structure Reads (source : String) (v : Value) : Prop where
  content : (Document.read source).content.value = .ok v
  surplus : (Document.read source).surplus = false

theorem reads_render {v w : Value} (h : v.Rereads maxDepth w.draft) : Reads v.render w where
  content := by rw [read_render h, Draft.value_draft]
  surplus := by rw [read_render h]

theorem readWhole_draft (v : Value) : v.draft.readWhole = .ok v := by
  rw [Draft.readWhole, Draft.value_draft]
  rfl

end Json

end AtomicStyle
