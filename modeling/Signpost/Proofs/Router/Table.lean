import Signpost.Proofs.Except
import Signpost.Proofs.History
import Signpost.Proofs.Router.Finding

namespace Signpost

open OrderedMap (Wrote Present Joined JoinedBefore Records writings)

namespace RouteTable

def Operation.events : Operation → List (OrderedMap.Event Route)
  | .insert name route => writings [(name, route)]
  | .extend pairs => writings pairs
  | .collect pairs => .clear :: writings pairs
  | .remove name => [.drop name]

def history (operations : List Operation) : List (OrderedMap.Event Route) :=
  operations.flatMap Operation.events

theorem change_snd (table : RouteTable) (operation : Operation) :
    (change table operation).2 = operation.events.foldl OrderedMap.Event.apply table := by
  cases operation with
  | insert name route => rfl
  | extend pairs => exact OrderedMap.insertMany_eq_foldl table pairs
  | collect pairs => exact OrderedMap.insertMany_eq_foldl .empty pairs
  | remove name => rfl

theorem after_eq_foldl (table : RouteTable) (operations : List Operation) :
    after table operations = (history operations).foldl OrderedMap.Event.apply table := by
  induction operations generalizing table with
  | nil => rfl
  | cons operation rest ih =>
      rw [history, List.flatMap_cons, List.foldl_append, ← change_snd]
      exact ih (change table operation).2

theorem records_after (operations : List Operation) :
    Records (history operations) (after .empty operations) := by
  rw [after_eq_foldl]
  exact OrderedMap.records_replay (history operations)

/-! Routers are filled by such changes. -/

theorem after_append (table : RouteTable) (earlier later : List Operation) :
    after table (earlier ++ later) = after (after table earlier) later :=
  List.foldl_append

/-- A route built from each definition, under its name. -/
def Builds (definition : Definition) (pair : String × Route) : Prop :=
  pair.1 = definition.name ∧ definition.draft.build = .ok pair.2

def insertions (pairs : List (String × Route)) : List Operation :=
  pairs.map fun pair => .insert pair.1 pair.2

theorem exists_insertions_of_define {table final : RouteTable}
    {definitions : List Definition} (h : Router.define table definitions = .ok final) :
    ∃ pairs, List.Forall₂ Builds definitions pairs ∧
      final = after table (insertions pairs) := by
  induction definitions generalizing table with
  | nil =>
      cases h
      exact ⟨[], .nil, rfl⟩
  | cons definition rest ih =>
      rw [Router.define] at h
      obtain ⟨route, hbuild, hrest⟩ := exists_of_bind_ok h
      obtain ⟨pairs, hpairs, hfinal⟩ := ih hrest
      exact ⟨(definition.name, route) :: pairs, .cons ⟨rfl, hbuild⟩ hpairs, hfinal⟩

theorem exists_insertions_of_ofDefinitions {router : Router}
    {definitions : List Definition} (h : Router.ofDefinitions definitions = .ok router) :
    ∃ pairs, List.Forall₂ Builds definitions pairs ∧
      router.routes = after .empty (insertions pairs) := by
  rw [Router.ofDefinitions] at h
  obtain ⟨table, hdefine, hrouter⟩ := exists_of_bind_ok h
  cases hrouter
  exact exists_insertions_of_define hdefine

structure Shows (events : List (OrderedMap.Event Route)) (table : RouteTable) : Prop where
  distinct : table.keys.Nodup
  listed : ∀ name, name ∈ table.keys ↔ Present events name
  joined : ∀ name ∈ table.keys, ∃! place, Joined events name place
  ordered : table.keys.Pairwise (JoinedBefore events)
  latest : ∀ name route, find table name = .ok route ↔ Wrote events name route
  missing : ∀ name,
    find table name = .error (.routeNotFound name) ↔ table.contains name = false
  replaced : ∀ name route old,
    (change table (.insert name route)).1 = some old ↔ find table name = .ok old
  removed : ∀ name old, (change table (.remove name)).1 = some old ↔
    find table name = .ok old
  decided : ∀ path found, Router.findByPath? ⟨table⟩ path = some found ↔
    ∃ earlier later route, table.keys = earlier ++ found.name :: later ∧
      (∀ name ∈ earlier, ∀ other,
        find table name = .ok other → other.matchPath? path = none) ∧
      find table found.name = .ok route ∧ route.matchPath? path = some found.route
  undecided : ∀ path, Router.findByPath? ⟨table⟩ path = none ↔
    ∀ name route, find table name = .ok route → route.matchPath? path = none

theorem shows_of_records {events : List (OrderedMap.Event Route)} {table : RouteTable}
    (h : Records events table) : Shows events table where
  distinct := table.nodup_keys
  listed := fun name => h.present_iff.symm
  joined := fun name => h.existsUnique_place
  ordered := h.ordered
  latest := by
    intro name route
    simpa using h.wrote name route
  missing := fun name => find_error_iff
  replaced := by simp [change]
  removed := by simp [change]
  decided := fun path found => Router.findByPath?_eq_some_iff_find
  undecided := fun path => Router.findByPath?_eq_none_iff_find

/-- Every table shows its history, and every router has a table with one. -/
theorem shows_history (operations : List Operation) :
    Shows (history operations) (after .empty operations) ∧
    (∀ name route, Router.add ⟨after .empty operations⟩ name route =
      ((change (after .empty operations) (.insert name route)).1,
        ⟨after .empty (operations ++ [.insert name route])⟩)) ∧
    ∀ definitions router, Router.ofDefinitions definitions = .ok router →
      ∃ pairs, List.Forall₂ Builds definitions pairs ∧
        router.routes = after .empty (insertions pairs) := by
  refine ⟨shows_of_records (records_after operations), ?_, ?_⟩
  · intro name route
    rw [after_append]
    rfl
  · intro definitions router h
    exact exists_insertions_of_ofDefinitions h

/-- A name that is defined twice is registered twice. -/
theorem shows_history_twice : ∃ router pairs,
    Router.ofDefinitions [⟨"a", { pattern := "/x/:id", action := "A" }⟩,
      ⟨"b", { pattern := "/x/:id", action := "B" }⟩,
      ⟨"a", { pattern := "/y", action := "C" }⟩] = .ok router ∧
    List.Forall₂ Builds [⟨"a", { pattern := "/x/:id", action := "A" }⟩,
      ⟨"b", { pattern := "/x/:id", action := "B" }⟩,
      ⟨"a", { pattern := "/y", action := "C" }⟩] pairs ∧
    router.routes = after .empty (insertions pairs) ∧ router.routes.keys = ["a", "b"] := by
  obtain ⟨router, hrouter, hkeys⟩ : ∃ router,
      Router.ofDefinitions [⟨"a", { pattern := "/x/:id", action := "A" }⟩,
        ⟨"b", { pattern := "/x/:id", action := "B" }⟩,
        ⟨"a", { pattern := "/y", action := "C" }⟩] = .ok router ∧
      router.routes.keys = ["a", "b"] := ⟨_, rfl, rfl⟩
  obtain ⟨pairs, hpairs, hroutes⟩ := (shows_history []).2.2 _ router hrouter
  exact ⟨router, pairs, hrouter, hpairs, hroutes, hkeys⟩

end RouteTable

end Signpost
