import Signpost.Proofs.OrderedMap
import Signpost.Router

namespace Signpost

variable {path name : String}

namespace RouteTable

variable {table : RouteTable} {route : Route}

@[simp] theorem find_ok_iff :
    find table name = .ok route ↔ table.get? name = some route := by
  rw [find]
  cases table.get? name <;> simp

@[simp] theorem find_error_iff :
    find table name = .error (.routeNotFound name) ↔ table.contains name = false := by
  rw [← Bool.not_eq_true, OrderedMap.contains_iff, ← OrderedMap.isSome_get?_iff, find]
  cases table.get? name <;> simp

end RouteTable

namespace Router

variable {router : Router} {found : RouteMatch}

theorem firstMatch?_eq_findSome? (path : String) (entries : List (String × Route)) :
    firstMatch? path entries =
      entries.findSome? fun entry =>
        (entry.2.matchPath? path).map fun matched => ⟨entry.1, matched⟩ := by
  induction entries with
  | nil => rfl
  | cons entry rest ih =>
      obtain ⟨name, route⟩ := entry
      rw [firstMatch?, List.findSome?_cons, ih]
      cases route.matchPath? path <;> rfl

theorem findByPath?_eq_some_iff : router.findByPath? path = some found ↔
    ∃ earlier route later, router.routes.toList = earlier ++ (found.name, route) :: later ∧
      (∀ entry ∈ earlier, entry.2.matchPath? path = none) ∧
      route.matchPath? path = some found.route := by
  rw [findByPath?, firstMatch?_eq_findSome?, List.findSome?_eq_some_iff]
  constructor
  · intro h
    obtain ⟨earlier, ⟨name, route⟩, later, hsplit, hentry, hearlier⟩ := h
    obtain ⟨matched, hmatch, rfl⟩ := Option.map_eq_some_iff.mp hentry
    refine ⟨earlier, route, later, hsplit, ?_, hmatch⟩
    intro entry hmem
    exact Option.map_eq_none_iff.mp (hearlier entry hmem)
  · intro h
    obtain ⟨earlier, route, later, hsplit, hearlier, hmatch⟩ := h
    refine ⟨earlier, (found.name, route), later, hsplit, ?_, ?_⟩
    · rw [hmatch]
      rfl
    · intro entry hmem
      rw [hearlier entry hmem]
      rfl

theorem findByPath?_eq_none_iff : router.findByPath? path = none ↔
    ∀ entry ∈ router.routes.toList, entry.2.matchPath? path = none := by
  rw [findByPath?, firstMatch?_eq_findSome?, List.findSome?_eq_none_iff]
  simp only [Option.map_eq_none_iff]

/-- The name that is found is registered, and its route matches as the match says. -/
theorem registered_of_findByPath? (h : router.findByPath? path = some found) :
    ∃ route, router.routes.get? found.name = some route ∧
      route.matchPath? path = some found.route := by
  obtain ⟨earlier, route, later, hsplit, -, hmatch⟩ := findByPath?_eq_some_iff.mp h
  exact ⟨route, OrderedMap.get?_of_split hsplit, hmatch⟩

theorem findByPath?_eq_some_iff_find : router.findByPath? path = some found ↔
    ∃ earlier later route, router.routes.keys = earlier ++ found.name :: later ∧
      (∀ name ∈ earlier, ∀ other,
        RouteTable.find router.routes name = .ok other → other.matchPath? path = none) ∧
      RouteTable.find router.routes found.name = .ok route ∧
      route.matchPath? path = some found.route := by
  simp only [RouteTable.find_ok_iff]
  rw [findByPath?_eq_some_iff]
  constructor
  · intro h
    obtain ⟨first, route, last, hsplit, hfirst, hmatch⟩ := h
    have hkeys : router.routes.keys = Entries.keys first ++
        found.name :: Entries.keys last := by
      change Entries.keys router.routes.toList = _
      rw [hsplit]
      exact List.map_append
    exact ⟨_, _, route, hkeys, (OrderedMap.forall_split_iff hsplit).mp hfirst,
      OrderedMap.get?_of_split hsplit, hmatch⟩
  · intro h
    obtain ⟨earlier, later, route, hkeys, hearlier, hget, hmatch⟩ := h
    obtain ⟨first, other, last, hsplit, rfl⟩ := OrderedMap.exists_split hkeys
    rw [OrderedMap.get?_of_split hsplit] at hget
    cases hget
    exact ⟨first, _, last, hsplit,
      (OrderedMap.forall_split_iff hsplit).mpr hearlier, hmatch⟩

theorem findByPath?_eq_none_iff_find : router.findByPath? path = none ↔
    ∀ name route, RouteTable.find router.routes name = .ok route →
      route.matchPath? path = none := by
  simp only [RouteTable.find_ok_iff, ← OrderedMap.mem_toList_iff]
  rw [findByPath?_eq_none_iff]
  constructor
  · intro h name route hmem
    exact h (name, route) hmem
  · intro h entry hmem
    exact h entry.1 entry.2 hmem

variable {exchange : Exchange}

theorem handle_settled (h : exchange.action.isSome) (method path : String) :
    router.handle method path exchange = ⟨none, [], exchange⟩ := by
  rw [handle, if_pos h]

theorem handle_missed (h : exchange.action = none) (hpath : router.findByPath? path = none)
    (method : String) :
    router.handle method path exchange = ⟨none, [.notFound method path], exchange⟩ := by
  rw [handle, h, hpath]
  rfl

theorem handle_hit (h : exchange.action = none)
    (hpath : router.findByPath? path = some found)
    (method : String) :
    router.handle method path exchange =
      ⟨some found, [.matched found.name method path], install found exchange⟩ := by
  rw [handle, h, hpath]
  rfl

end Router

end Signpost
