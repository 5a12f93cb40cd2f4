import Signpost.Proofs.Http.Answer

namespace Signpost

/-- The values of a match are those that the path captures, laid over the bound ones. -/
theorem Router.overlays_of_findByPath? {router : Router} {path : String}
    {found : RouteMatch} (h : router.findByPath? path = some found) :
    ∃ route captured, router.routes.get? found.name = some route ∧
      route.pattern.captures? path = some captured ∧
      OrderedMap.Overlays route.values captured found.route.values := by
  obtain ⟨route, hget, hmatch⟩ := registered_of_findByPath? h
  obtain ⟨captured, hcaptured, hfound⟩ := Option.map_eq_some_iff.mp hmatch
  refine ⟨route, captured, hget, hcaptured, ?_⟩
  rw [← hfound]
  exact OrderedMap.overlays_merge _ _

namespace Http

theorem Status.code_injective : Function.Injective Status.code := by
  intro first second h
  cases first <;> cases second <;> first | rfl | cases h

/-- How an answer tells what was found for a path.  The query holds the values of the
match, whatever else it holds. -/
structure Answer.Resolves (answer : Answer) (requestId : String)
    (found : Option RouteMatch) (query : Params) : Prop where
  status : answer.status.code = if found.isSome then 200 else 404
  body : Json.read answer.body =
    ⟨story requestId (found.map (·.route.action)) (found.map (·.name))
      ((found.map (·.route.args)).getD OrderedMap.empty) query, true⟩
  values : ∀ matched ∈ found, ∀ key ∈ matched.route.values.keys,
    query.get? key = matched.route.values.get? key

/-- Nothing of a request but its path enters into what is found. -/
theorem respond_resolves (router : Router) {request : Request}
    (hbody : HasBody request.method) (fresh : String) :
    ∃ query, (respond router request fresh).Resolves (request.id fresh)
      (router.findByPath? request.path) query := by
  cases hfind : router.findByPath? request.path with
  | some found =>
      have htells := respond_found hbody hfind fresh
      have hover := OrderedMap.overlays_merge request.query found.route.values
      refine ⟨request.query.merge found.route.values, htells.status, htells.body, ?_⟩
      intro matched hmatched key hkey
      obtain rfl := Option.some.inj hmatched
      exact hover.get?_of_mem hkey
  | none =>
      have htells := respond_missed hbody hfind fresh
      refine ⟨request.query, htells.status, htells.body, ?_⟩
      intro matched hmatched
      cases hmatched

/-- Two requests for the same path get the same status, action, arguments and route, and
under every key of the route that matches the same value. -/
theorem same_path_same_resolution (router : Router) {first second : Request}
    (hfirst : HasBody first.method) (hsecond : HasBody second.method)
    (hpath : first.path = second.path) (fresh other : String) :
    (respond router first fresh).status = (respond router second other).status ∧
      ∃ action route args query query',
        Json.read (respond router first fresh).body =
          ⟨story (first.id fresh) action route args query, true⟩ ∧
        Json.read (respond router second other).body =
          ⟨story (second.id other) action route args query', true⟩ ∧
        ∀ found, router.findByPath? first.path = some found →
          (∃ registered captured, router.routes.get? found.name = some registered ∧
            registered.pattern.captures? first.path = some captured ∧
            OrderedMap.Overlays registered.values captured found.route.values) ∧
          ∀ key ∈ found.route.values.keys,
            query.get? key = found.route.values.get? key ∧
              query'.get? key = found.route.values.get? key := by
  obtain ⟨query, hone⟩ := respond_resolves router hfirst fresh
  obtain ⟨query', htwo⟩ := respond_resolves router hsecond other
  rw [← hpath] at htwo
  refine ⟨?_, _, _, _, query, query', hone.body, htwo.body, ?_⟩
  · exact Status.code_injective (hone.status.trans htwo.status.symm)
  · intro found hfound
    refine ⟨Router.overlays_of_findByPath? hfound, ?_⟩
    intro key hkey
    exact ⟨hone.values found hfound key hkey, htwo.values found hfound key hkey⟩

/-- Neither a captured nor a bound value gives way to a parameter of the same name. -/
theorem same_path_same_resolution_page :
    ∃ (router : Router) (found : RouteMatch) (action route : Option String)
        (args query query' : Params),
      Router.ofDefinitions
        [⟨"user", ⟨"/:id", "Show", .empty, .ofList [("page", "1")], .empty⟩⟩] =
          .ok router ∧
      router.findByPath? "/7" = some found ∧
      found.route.values.toList = [("page", "1"), ("id", "7")] ∧
      (respond router ⟨"GET", ⟨"/7", some "id=8&page=2"⟩, []⟩ "a").status =
        (respond router ⟨"POST", ⟨"/7", none⟩, [("accept", [42])]⟩ "b").status ∧
      Json.read (respond router ⟨"GET", ⟨"/7", some "id=8&page=2"⟩, []⟩ "a").body =
        ⟨story "a" action route args query, true⟩ ∧
      Json.read (respond router ⟨"POST", ⟨"/7", none⟩, [("accept", [42])]⟩ "b").body =
        ⟨story "b" action route args query', true⟩ ∧
      query.get? "id" = some "7" ∧ query'.get? "id" = some "7" ∧
      query.get? "page" = some "1" ∧ query'.get? "page" = some "1" := by
  let definitions : List Definition :=
    [⟨"user", ⟨"/:id", "Show", .empty, .ofList [("page", "1")], .empty⟩⟩]
  let first : Request := ⟨"GET", ⟨"/7", some "id=8&page=2"⟩, []⟩
  let second : Request := ⟨"POST", ⟨"/7", none⟩, [("accept", [42])]⟩
  have hfirst : HasBody first.method := ⟨by decide, by decide⟩
  have hsecond : HasBody second.method := ⟨by decide, by decide⟩
  have hvalues : (match Router.ofDefinitions definitions with
      | .ok router => (router.findByPath? "/7").map fun found => found.route.values.toList
      | .error _ => none) = some [("page", "1"), ("id", "7")] := by decide +kernel
  cases hrouter : Router.ofDefinitions definitions with
  | error cause =>
      rw [hrouter] at hvalues
      cases hvalues
  | ok router =>
      rw [hrouter] at hvalues
      obtain ⟨found, hfound, hlist⟩ := Option.map_eq_some_iff.mp hvalues
      obtain ⟨hstatus, action, route, args, query, query', hone, htwo, hsame⟩ :=
        same_path_same_resolution router hfirst hsecond rfl "a" "b"
      have hkeys : ∀ key value, (key, value) ∈ [("page", "1"), ("id", "7")] →
          query.get? key = some value ∧ query'.get? key = some value := by
        intro key value hmem
        rw [← hlist] at hmem
        have hget := OrderedMap.get?_eq_some_of_mem hmem
        have hkey : key ∈ found.route.values.keys := List.mem_map_of_mem hmem
        rw [← hget]
        exact (hsame found hfound).2 key hkey
      exact ⟨router, found, action, route, args, query, query', rfl, hfound, hlist,
        hstatus, hone, htwo, (hkeys "id" "7" (by simp)).1, (hkeys "id" "7" (by simp)).2,
        (hkeys "page" "1" (by simp)).1, (hkeys "page" "1" (by simp)).2⟩

end Http

end Signpost
