import Signpost.Proofs.Config.Codec
import Signpost.Proofs.Config.Fields
import Signpost.Proofs.Config.Rewriting
import Signpost.Proofs.Json.Accepted

namespace Signpost.Decode

variable {α σ ρ : Type} {decode : Node → Decoded α} {record : ρ} {fields : List (Field ρ)}
  {node : Node}

/-- What is read only from whole trees. -/
def NeedsWhole (decode : Node → Decoded α) : Prop :=
  ∀ node value, decode node = .ok value → node.isWhole

theorem NeedsWhole.of_refused {fault : Mismatch} {array : NodeSeq → Mismatch}
    {object : MemberSeq → Mismatch} (hfault : decode .fault = .error fault)
    (harray : ∀ elements, decode (.array elements) = .error (array elements))
    (hobject : ∀ members, decode (.object members) = .error (object members)) :
    NeedsWhole decode := by
  intro node value h
  cases node with
  | fault => cases hfault.symm.trans h
  | array elements => cases (harray elements).symm.trans h
  | object members => cases (hobject members).symm.trans h
  | null | bool | number | text => rfl

theorem text_needsWhole : NeedsWhole text := .of_refused rfl (fun _ => rfl) (fun _ => rfl)

theorem bool_needsWhole : NeedsWhole bool := .of_refused rfl (fun _ => rfl) (fun _ => rfl)

theorem word_needsWhole : NeedsWhole word := .of_refused rfl (fun _ => rfl) (fun _ => rfl)

theorem scalar_needsWhole : NeedsWhole scalar :=
  .of_refused rfl (fun _ => rfl) (fun _ => rfl)

theorem isWhole_of_paramsFrom : ∀ {members : MemberSeq} {map result : Params},
    paramsFrom map members = .ok result → members.isWhole := by
  intro members map result h
  cases members with
  | nil => rfl
  | fault => cases h
  | cons name node tail =>
      obtain ⟨found, -, hrest⟩ := exists_of_bind_ok h
      obtain ⟨value, hvalue, htail⟩ := exists_of_bind_ok hrest
      exact Bool.and_eq_true_iff.mpr
        ⟨scalar_needsWhole node value hvalue, isWhole_of_paramsFrom htail⟩

theorem params_needsWhole : NeedsWhole params := by
  intro node value h
  cases node with
  | object members => exact isWhole_of_paramsFrom h
  | _ => cases h

/-! Records.  The fields see to what is read, and what they do not see is whole all the
same. -/

theorem Tells.isWhole {items : List (String × Node)} (h : Tells fields record items)
    (hfields : ∀ field ∈ fields, NeedsWhole field.decode) :
    ∀ item ∈ items, item.2.isWhole := by
  intro ⟨name, node⟩ hitem
  by_cases hname : name ∈ fields.map Field.name
  · obtain ⟨field, hfield, rfl⟩ := List.mem_map.mp hname
    exact hfields field hfield node _ (h.decode_of_mem hfield hitem)
  · exact h.whole _ hitem hname

theorem Describes.isWhole (h : Describes fields record node)
    (hfields : ∀ field ∈ fields, NeedsWhole field.decode) : node.isWhole := by
  cases h with
  | object htells => exact MemberSeq.isWhole_ofList (htells.isWhole hfields)
  | @array values hlength htells =>
      apply NodeSeq.isWhole_ofList
      intro value hvalue
      rw [← List.length_map Field.name] at hlength
      rw [← List.map_snd_zip hlength] at hvalue
      obtain ⟨item, hitem, rfl⟩ := List.mem_map.mp hvalue
      exact htells.isWhole hfields item hitem

theorem Reads.needsWhole {decode : Node → Decoded ρ} {step : Step σ} {start : σ}
    {finish : σ → Option Nat → Decoded ρ} {slots : List (Slot σ ρ)}
    (h : Reads decode step start finish slots)
    (hslots : ∀ slot ∈ slots, NeedsWhole slot.decode) : NeedsWhole decode := by
  intro node record hdecode
  apply (h.decode_iff.mp hdecode).isWhole
  intro field hfield
  obtain ⟨slot, hslot, rfl⟩ := List.mem_map.mp hfield
  exact hslots slot hslot

theorem server_needsWhole : NeedsWhole (server .json) :=
  server_reads.needsWhole (by simp [serverSlots, text_needsWhole, word_needsWhole])

theorem observability_needsWhole : NeedsWhole (observability .json) :=
  observability_reads.needsWhole
    (by simp [observabilitySlots, text_needsWhole, bool_needsWhole])

theorem route_needsWhole : NeedsWhole (route .json) :=
  route_reads.needsWhole (by simp [routeSlots, text_needsWhole, params_needsWhole])

theorem isWhole_of_routesFrom : ∀ {elements : NodeSeq} {definitions : List Definition},
    routesFrom .json elements = .ok definitions → elements.isWhole := by
  intro elements definitions h
  cases elements with
  | nil => rfl
  | fault => cases h
  | cons head tail =>
      obtain ⟨first, hfirst, hrest⟩ := exists_of_bind_ok h
      obtain ⟨others, hothers, -⟩ := exists_of_bind_ok hrest
      exact Bool.and_eq_true_iff.mpr
        ⟨route_needsWhole head first hfirst, isWhole_of_routesFrom hothers⟩

theorem routes_needsWhole : NeedsWhole (routes .json) := by
  intro node definitions h
  cases node with
  | array elements => exact isWhole_of_routesFrom h
  | _ => cases h

theorem config_needsWhole : NeedsWhole (config .json) :=
  config_reads.needsWhole (by
    simp [configSlots, serverSlot, observabilitySlot, routesSlot, server_needsWhole,
      observability_needsWhole, routes_needsWhole])

/-- A text that a value can be read from spells the tree that the value is read from. -/
theorem fromJson_eq_ok_iff (h : NeedsWhole decode) {text : String} {value : α} :
    fromJson decode text = .ok value ↔
      ∃ node, Json.Document node text ∧ decode node = .ok value := by
  constructor
  · intro hread
    obtain ⟨found, hfound, hrest⟩ := exists_of_bind_ok hread
    split at hrest
    · rename_i hends
      obtain rfl := Except.ok.inj hrest
      have hreading : Json.read text = ⟨(Json.read text).root, true⟩ := by rw [← hends]
      exact ⟨_, Json.document_iff.mpr ⟨hreading, h _ _ hfound⟩, hfound⟩
    · cases hrest
  · intro ⟨node, hdocument, hdecode⟩
    rw [fromJson_of_read hdocument.read, hdecode]

end Signpost.Decode
