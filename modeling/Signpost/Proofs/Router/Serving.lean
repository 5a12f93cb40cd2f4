import Signpost.Proofs.Overlay
import Signpost.Proofs.Router.Finding

namespace Signpost.Router

variable {router : Router} {exchange : Exchange} {call : Call} {calls : List Call}
  {found : RouteMatch}

def Call.report (call : Call) (notice : Notice) : List Notice :=
  if call.logged then [notice] else []

/-- The outcome of a request that changes nothing and is not reported. -/
def ignored (exchange : Exchange) : Handled := ⟨none, [], exchange⟩

def missed (exchange : Exchange) (call : Call) : Handled :=
  ⟨none, call.report (.notFound call.method call.path), exchange⟩

def hit (found : RouteMatch) (exchange : Exchange) (call : Call) : Handled :=
  ⟨some found, call.report (.matched found.name call.method call.path),
    install found exchange⟩

theorem answer_ignored (h : exchange.action.isSome) :
    router.answer exchange call = ignored exchange := by
  rw [answer, handle_settled h]
  cases call.logged <;> rfl

theorem answer_missed (h : exchange.action = none)
    (hpath : router.findByPath? call.path = none) :
    router.answer exchange call = missed exchange call := by
  rw [answer, handle_missed h hpath]
  rfl

theorem answer_hit (h : exchange.action = none)
    (hpath : router.findByPath? call.path = some found) :
    router.answer exchange call = hit found exchange call := by
  rw [answer, handle_hit h hpath]
  rfl

structure Resolves (found : RouteMatch) (exchange resolved : Exchange) : Prop where
  route : resolved.route = some found.name
  action : resolved.action = some found.route.action
  args : OrderedMap.Overlays exchange.args found.route.args resolved.args
  query : OrderedMap.Overlays exchange.query found.route.values resolved.query

theorem resolves_install (found : RouteMatch) (exchange : Exchange) :
    Resolves found exchange (install found exchange) :=
  ⟨rfl, rfl, OrderedMap.overlays_merge _ _, OrderedMap.overlays_merge _ _⟩

theorem serve_ignored (h : exchange.action.isSome) (calls : List Call) :
    router.serve exchange calls = calls.map fun _ => ignored exchange := by
  induction calls with
  | nil => rfl
  | cons call rest ih =>
      rw [serve, answer_ignored h]
      exact congrArg (ignored exchange :: ·) ih

theorem serve_missed_append (h : exchange.action = none)
    (hcalls : ∀ call ∈ calls, router.findByPath? call.path = none) (rest : List Call) :
    router.serve exchange (calls ++ rest) =
      calls.map (missed exchange) ++ router.serve exchange rest := by
  induction calls with
  | nil => rfl
  | cons call others ih =>
      -- What a miss leaves is the exchange it found, so the hypotheses carry over.
      rw [List.cons_append, serve, answer_missed h (hcalls call List.mem_cons_self)]
      apply congrArg (missed exchange call :: ·)
      apply ih
      intro other hother
      exact hcalls other (List.mem_cons_of_mem _ hother)

theorem serve_hit (h : exchange.action = none)
    (hpath : router.findByPath? call.path = some found) (rest : List Call) :
    router.serve exchange (call :: rest) =
      hit found exchange call :: rest.map fun _ => ignored (install found exchange) := by
  rw [serve, answer_hit h hpath]
  exact congrArg (hit found exchange call :: ·) (serve_ignored rfl rest)

theorem level_report (call : Call) (notice : Notice) :
    (call.report notice).map Notice.level =
      if call.logged then [notice.level] else [] := by
  rw [Call.report]
  split <;> rfl

/-- The first match wins, once. -/
theorem first_match_once (router : Router) (exchange : Exchange) (calls : List Call) :
    (exchange.action.isSome →
      router.serve exchange calls = calls.map fun _ => ⟨none, [], exchange⟩) ∧
    (exchange.action = none → (∀ call ∈ calls, router.findByPath? call.path = none) →
      router.serve exchange calls = calls.map (missed exchange)) ∧
    (∀ earlier call later found, exchange.action = none →
      calls = earlier ++ call :: later →
      (∀ other ∈ earlier, router.findByPath? other.path = none) →
      router.findByPath? call.path = some found →
      ∃ resolved registered,
        router.serve exchange calls = earlier.map (missed exchange) ++
          ⟨some found, call.report (.matched found.name call.method call.path),
              resolved⟩ ::
            later.map (fun _ => ⟨none, [], resolved⟩) ∧
        Resolves found exchange resolved ∧
        router.currentRoute? resolved = some registered ∧
        router.routes.get? found.name = some registered ∧
        registered.matchPath? call.path = some found.route) ∧
    ∀ call : Call,
      (missed exchange call).notices.map Notice.level =
        (if call.logged then [.warn] else []) ∧
      ∀ name, (call.report (.matched name call.method call.path)).map Notice.level =
        if call.logged then [.info] else [] := by
  refine ⟨fun h => serve_ignored h calls, ?_, ?_, ?_⟩
  · intro h hcalls
    have hserve := serve_missed_append h hcalls []
    rwa [List.append_nil, serve, List.append_nil] at hserve
  · intro earlier call later found h hsplit hearlier hpath
    obtain ⟨registered, hget, hmatch⟩ := registered_of_findByPath? hpath
    refine ⟨install found exchange, registered, ?_, resolves_install found exchange, hget,
      hget, hmatch⟩
    rw [hsplit, serve_missed_append h hearlier, serve_hit h hpath]
    rfl
  · intro call
    exact ⟨level_report call _, fun name => level_report call _⟩

/-- An exchange that names a route already, and a path that two routes match. -/
theorem first_match_once_again :
    ∃ (router : Router) (found : RouteMatch) (resolved : Exchange),
      router.findByPath? "/nope" = none ∧ router.findByPath? "/x/1" = some found ∧
      router.serve { route := some "old" }
        [⟨"GET", "/nope", true⟩, ⟨"PUT", "/x/1", false⟩, ⟨"GET", "/x/1", true⟩] =
          [⟨none, [.notFound "GET" "/nope"], { route := some "old" }⟩,
            ⟨some found, [], resolved⟩, ⟨none, [], resolved⟩] ∧
      Resolves found { route := some "old" } resolved := by
  have hpaths : (match ofDefinitions [⟨"a", { pattern := "/x/:id", action := "" }⟩,
      ⟨"b", { pattern := "/x/1", action := "B" }⟩] with
      | .ok router =>
          (router.findByPath? "/nope").isNone && (router.findByPath? "/x/1").isSome
      | .error _ => false) = true := by decide +kernel
  cases hrouter : ofDefinitions [⟨"a", { pattern := "/x/:id", action := "" }⟩,
      ⟨"b", { pattern := "/x/1", action := "B" }⟩] with
  | error problem =>
      rw [hrouter] at hpaths
      contradiction
  | ok router =>
      simp only [hrouter, Bool.and_eq_true, Option.isNone_iff_eq_none,
        Option.isSome_iff_exists] at hpaths
      obtain ⟨hnope, found, hfound⟩ := hpaths
      obtain ⟨resolved, -, hserve, hresolves, -⟩ := (first_match_once router
        { route := some "old" }
        [⟨"GET", "/nope", true⟩, ⟨"PUT", "/x/1", false⟩, ⟨"GET", "/x/1", true⟩]).2.2.1
          [⟨"GET", "/nope", true⟩] ⟨"PUT", "/x/1", false⟩
            [⟨"GET", "/x/1", true⟩] found rfl rfl
          (by simpa using hnope) hfound
      exact ⟨router, found, resolved, hnope, hfound, hserve, hresolves⟩

end Signpost.Router
