import Signpost.Params
import Signpost.Proofs.History
import Signpost.Proofs.Overlay

namespace Signpost

open OrderedMap (Wrote Present Joined JoinedBefore Records Overlays writings)

namespace Params

inductive Operation
  | insert (name value : String)
  | remove (name : String)
  | merge (other : Params)
  | extend (pairs : List (String × String))

def change (params : Params) : Operation → Option String × Params
  | .insert name value => params.put name value
  | .remove name => params.take name
  | .merge other => (none, params.merge other)
  | .extend pairs => (none, params.insertMany pairs)

def after (params : Params) (operations : List Operation) : Params :=
  operations.foldl (fun params operation => (change params operation).2) params

def Operation.events : Operation → List (OrderedMap.Event String)
  | .insert name value => [.put name value]
  | .remove name => [.drop name]
  | .merge other => writings other.toList
  | .extend pairs => writings pairs

def history (pairs : List (String × String)) (operations : List Operation) :
    List (OrderedMap.Event String) :=
  writings pairs ++ operations.flatMap Operation.events

theorem change_snd (params : Params) (operation : Operation) :
    (change params operation).2 =
      operation.events.foldl OrderedMap.Event.apply params := by
  cases operation with
  | insert name value => rfl
  | remove name => rfl
  | merge other => exact params.insertMany_eq_foldl other.toList
  | extend pairs => exact params.insertMany_eq_foldl pairs

theorem after_eq_foldl (params : Params) (operations : List Operation) :
    after params operations =
      (operations.flatMap Operation.events).foldl OrderedMap.Event.apply params := by
  induction operations generalizing params with
  | nil => rfl
  | cons operation rest ih =>
      rw [List.flatMap_cons, List.foldl_append, ← change_snd]
      exact ih (change params operation).2

theorem records_after (pairs : List (String × String)) (operations : List Operation) :
    Records (history pairs operations) (after (.ofList pairs) operations) := by
  rw [after_eq_foldl, OrderedMap.ofList, OrderedMap.insertMany_eq_foldl,
    ← List.foldl_append]
  exact OrderedMap.records_replay (history pairs operations)

/-- Names, values and answers, as the history of parameters has them. -/
structure Shows (events : List (OrderedMap.Event String)) (params : Params) : Prop where
  distinct : params.keys.Nodup
  joined : ∀ name ∈ params.keys, ∃! place, Joined events name place
  ordered : params.keys.Pairwise (JoinedBefore events)
  latest : ∀ name value, params.get? name = some value ↔ Wrote events name value
  listed : ∀ name, name ∈ params.keys ↔ Present events name
  contained : ∀ name, params.contains name = true ↔ Present events name
  counted : params.size = params.keys.length
  iterated : params.toList =
    params.keys.filterMap fun name => (params.get? name).map fun value => (name, value)
  replaced : ∀ name value old,
    (change params (.insert name value)).1 = some old ↔ Wrote events name old
  removed : ∀ name old, (change params (.remove name)).1 = some old ↔ Wrote events name old

theorem shows_of_records {events : List (OrderedMap.Event String)} {params : Params}
    (h : Records events params) : Shows events params where
  distinct := params.nodup_keys
  joined := fun name => h.existsUnique_place
  ordered := h.ordered
  latest := h.wrote
  listed := fun name => h.present_iff.symm
  contained := fun name => OrderedMap.contains_iff.trans h.present_iff.symm
  counted := (List.length_map Prod.fst).symm
  iterated := params.toList_eq_filterMap
  replaced := by
    intro name value old
    simpa [change] using h.wrote name old
  removed := by
    intro name old
    simpa [change] using h.wrote name old

/-- Parameters show all that was done to them, and laying them over others is lawful. -/
theorem shows_changes_and_overlays (pairs : List (String × String))
    (operations : List Operation) :
    Shows (history pairs operations) (after (.ofList pairs) operations) ∧
    ∀ first second third : Params,
      (first.merge second).merge third = first.merge (second.merge third) ∧
      first.merge .empty = first ∧ OrderedMap.merge .empty first = first ∧
      (first.merge second).merge second = first.merge second ∧ first.merge first = first ∧
      (∀ more, first.insertMany more = first.merge (.ofList more)) ∧
      Overlays first second (first.merge second) := by
  refine ⟨shows_of_records (records_after pairs operations), ?_⟩
  intro first second third
  exact ⟨OrderedMap.merge_assoc first second third, first.merge_empty, first.empty_merge,
    first.merge_merge_self second, first.merge_self, first.insertMany_eq_merge,
    OrderedMap.overlays_merge first second⟩

/-- A name that is removed and inserted again goes behind the others. -/
example : (after (.ofList [("a", "1"), ("b", "2"), ("a", "3")])
    [.remove "a", .merge (.ofList [("c", "4"), ("b", "5")]), .insert "a" "6"]).toList =
    [("b", "5"), ("c", "4"), ("a", "6")] := by decide

end Params

end Signpost
