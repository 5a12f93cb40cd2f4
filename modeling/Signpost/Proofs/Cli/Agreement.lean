import Signpost.Cli.Outcome
import Signpost.Proofs.Http.Identifier
import Signpost.Proofs.Text.Order

namespace Signpost

namespace Http

theorem Target.eq_of_plain {path : String} {target : Target}
    (hslash : path.toList.head? = some '/')
    (hplain : ∀ c ∈ path.toList, endsPath c = false) (h : read? path = some target) :
    target = ⟨path, none⟩ := by
  have hends : ∀ c ∈ path.toList, (!endsPath c) = true := by
    intro c hc
    rw [hplain c hc]
    rfl
  have hne : path.toList ≠ [] := by
    intro hnil
    rw [hnil] at hslash
    cases hslash
  have hread : ofPath? path.toList = some target := by
    rw [read?] at h
    split at h
    · cases h
    · obtain ⟨rest, hrest⟩ := List.head?_eq_some_iff.mp hslash
      rw [hrest] at h ⊢
      exact h
  rw [ofPath?, List.takeWhile_eq_self_iff.mpr hends, List.dropWhile_eq_nil_iff.mpr hends]
    at hread
  simp only [query?, Option.bind_eq_bind, Option.bind_some] at hread
  split at hread
  · rw [List.isEmpty_eq_false_iff.mpr hne, String.ofList_toList] at hread
    exact (Option.some.inj hread).symm
  · cases hread

theorem Request.parts_of_read {method text : String} {headers : List (String × List UInt8)}
    {request : Request} (h : read method text headers = .ok request) :
    request.method = method ∧ Target.read? text = some request.target := by
  obtain ⟨target, htarget, rfl⟩ := read_ok h
  exact ⟨rfl, htarget⟩

end Http

namespace Cli

def textsNode (pairs : List (String × String)) : Node :=
  .ofMembers (pairs.map fun pair => (pair.1, .text (some pair.2)))

/-- A list of the parameters, each once, in the order of the bytes of their names. -/
structure Sorts (pairs : List (String × String)) (params : Params) : Prop where
  perm : pairs.Perm params.toList
  ascending : pairs.Pairwise fun first second =>
    Text.encodeUtf8 first.1.toList < Text.encodeUtf8 second.1.toList

theorem sorts_sorted (params : Params) : Sorts (sorted params) params := by
  have hperm : (sorted params).Perm params.toList := List.mergeSort_perm _ _
  have hnodup : ((sorted params).map Prod.fst).Nodup :=
    (hperm.map Prod.fst).nodup_iff.mpr params.nodup
  have hsorted : (sorted params).Pairwise fun first second => first.1 ≤ second.1 := by
    rw [sorted]
    apply (List.pairwise_mergeSort ?_ ?_ params.toList).imp of_decide_eq_true
    · intro first second third hfirst hsecond
      exact decide_eq_true
        (le_trans (of_decide_eq_true hfirst) (of_decide_eq_true hsecond))
    · intro first second
      simpa using le_total first.1 second.1
  refine ⟨hperm, hsorted.imp₂ ?_ (List.pairwise_map.mp hnodup)⟩
  intro first second hle hne
  apply Text.encodeUtf8_lt
  exact String.lt_iff_toList_lt.mp (lt_of_le_of_ne hle hne)

def resolution (name action : String) (args params : List (String × String)) : Node :=
  .ofMembers [("action", .text (some action)), ("args", textsNode args),
    ("params", textsNode params), ("route", .text (some name))]

theorem isExact_resolution (name action : String) (args params : List (String × String)) :
    (resolution name action args params).isExact := by
  apply Node.isExact_ofMembers
  simp [Node.isExact, textsNode, Node.isExact_texts]

variable {arguments : List String} {contentOf : String → Option (List UInt8)}
  {file path : String} {config : Config} {router : Router}

theorem positionals?_path (hslash : path.toList.head? = some '/') :
    Invocation.positionals? [path] = some [path] := by
  obtain ⟨rest, hrest⟩ := List.head?_eq_some_iff.mp hslash
  have hdashes : path ≠ "--" := by
    intro heq
    rw [heq] at hslash
    cases hslash
  rw [Invocation.positionals?, if_neg hdashes, hrest]
  rfl

theorem read?_match (hslash : path.toList.head? = some '/') :
    Invocation.read? ["match", path] = some ⟨Invocation.defaultConfig, .resolve path⟩ := by
  have hcommand : Invocation.command? "match" [path] = some (.resolve path) := by
    rw [Invocation.command?, positionals?_path hslash]
    rfl
  change ((Invocation.command? "match" [path]).map fun command =>
    Invocation.mk Invocation.defaultConfig command) = _
  rw [hcommand]
  rfl

theorem run_resolve (hread : Invocation.read? arguments = some ⟨file, .resolve path⟩)
    (hload : Config.load (contentOf file) = .ok config)
    (hrouter : Router.ofDefinitions config.routes = .ok router) :
    run arguments contentOf = resolve router path := by
  simp only [run, hread, Command.run, hload, hrouter, perform]

theorem read_matchNode (found : RouteMatch) :
    Json.read (Json.writePretty (matchNode found) ++ "\n") =
      ⟨resolution found.name found.route.action (sorted found.route.args)
        (sorted found.route.values), true⟩ :=
  Json.read_writePretty (isExact_resolution ..)

/-- An outcome of the command line and an answer of the server tell of the same match, or
of none. -/
structure Agrees (outcome : Outcome) (answer : Http.Answer)
    (requestId : String) : Prop where
  status : outcome.exit = 0 ↔ answer.status.code = 200
  hit : outcome.exit = 0 → ∃ name action args query printedArgs printedParams,
    Json.read outcome.stdout = ⟨resolution name action printedArgs printedParams, true⟩ ∧
    Json.read answer.body =
      ⟨Http.story requestId (some action) (some name) args query, true⟩ ∧
    Sorts printedArgs args ∧ Sorts printedParams query
  miss : outcome.exit ≠ 0 → outcome.exit = 1 ∧ outcome.stdout = "" ∧
    answer.status.code = 404

theorem resolve_agrees {request : Http.Request} (hbody : Http.HasBody request.method)
    (hpath : request.path = path) (hquery : request.query = OrderedMap.empty)
    (fresh : String) :
    Agrees (resolve router path) (Http.respond router request fresh)
      (request.id fresh) := by
  cases hfind : router.findByPath? path with
  | some found =>
      have htells := Http.respond_found hbody (hpath ▸ hfind) fresh
      -- The exchange of the request holds nothing before the match is laid over it.
      rw [hquery, OrderedMap.empty_merge] at htells
      simp only [resolve, hfind]
      constructor
      · exact iff_of_true rfl htells.status
      · intro _
        exact ⟨_, _, _, _, _, _, read_matchNode found, htells.body, sorts_sorted _,
          sorts_sorted _⟩
      · intro hexit
        exact absurd rfl hexit
  | none =>
      have htells := Http.respond_missed hbody (hpath ▸ hfind) fresh
      simp only [resolve, hfind]
      constructor
      · rw [htells.status]
        exact iff_of_false Nat.one_ne_zero (by decide)
      · intro hexit
        cases hexit
      · intro _
        exact ⟨rfl, rfl, htells.status⟩

/-- For every route file that is accepted and every plain path, the command line and the
server resolve the path alike. -/
theorem match_agrees_with_get {headers : List (String × List UInt8)}
    {request : Http.Request} (hload : Config.load (contentOf file) = .ok config)
    (hread : Invocation.read? arguments = some ⟨file, .resolve path⟩)
    (hslash : path.toList.head? = some '/') (hplain : ∀ c ∈ path.toList, c ≠ '?' ∧ c ≠ '#')
    (hrequest : Http.Request.read "GET" path headers = .ok request) :
    ∃ router, Router.ofDefinitions config.routes = .ok router ∧
      ∀ fresh, Agrees (run arguments contentOf) (Http.respond router request fresh)
        (request.id fresh) := by
  obtain ⟨router, hrouter, -⟩ :=
    Router.ofDefinitions_registers (Config.problems_of_load hload)
  obtain ⟨hmethod, htarget⟩ := Http.Request.parts_of_read hrequest
  have hends : ∀ c ∈ path.toList, Http.Target.endsPath c = false := by
    intro c hc
    simp [Http.Target.endsPath, hplain c hc]
  have htarget := Http.Target.eq_of_plain hslash hends htarget
  refine ⟨router, hrouter, fun fresh => ?_⟩
  rw [run_resolve hread hload hrouter]
  apply resolve_agrees
  · rw [hmethod]
    exact ⟨by decide, by decide⟩
  · rw [Http.Request.path, htarget]
  · rw [Http.Request.query, htarget]
    rfl

/-- Captured values that come in another order than their names. -/
theorem match_agrees_with_get_sorted :
    ∃ (contentOf : String → Option (List UInt8)) (config : Config) (router : Router)
        (request : Http.Request),
      contentOf "routes.toml" =
        some (Text.encodeUtf8 "routes=[[\"a\",\"/:y/:x\",\"A\"]]".toList) ∧
      Config.load (contentOf "routes.toml") = .ok config ∧
      Router.ofDefinitions config.routes = .ok router ∧
      Http.Request.read "GET" "/7/8" [] = .ok request ∧
      (run ["match", "/7/8"] contentOf).exit = 0 ∧
      Agrees (run ["match", "/7/8"] contentOf) (Http.respond router request "1")
        (request.id "1") := by
  let contentOf : String → Option (List UInt8) := fun _ =>
    some (Text.encodeUtf8 "routes=[[\"a\",\"/:y/:x\",\"A\"]]".toList)
  have hexit : (run ["match", "/7/8"] contentOf).exit = 0 := by decide +kernel
  have hloads : (match Config.load (contentOf "routes.toml") with
      | .ok _ => true
      | .error _ => false) = true := by decide +kernel
  cases hload : Config.load (contentOf "routes.toml") with
  | error cause =>
      rw [hload] at hloads
      cases hloads
  | ok config =>
      have hplain : ∀ c ∈ "/7/8".toList, c ≠ '?' ∧ c ≠ '#' := by simp
      have hrequest : Http.Request.read "GET" "/7/8" [] =
          .ok ⟨"GET", ⟨"/7/8", none⟩, []⟩ := rfl
      obtain ⟨router, hrouter, hagrees⟩ :=
        match_agrees_with_get hload (read?_match rfl) rfl hplain hrequest
      exact ⟨contentOf, config, router, _, rfl, hload, hrouter, hrequest, hexit,
        hagrees "1"⟩

end Cli

end Signpost
