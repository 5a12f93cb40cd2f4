import Signpost.Http.Answer
import Signpost.Proofs.Config.Registration
import Signpost.Proofs.Json.Reading
import Signpost.Proofs.Node
import Signpost.Proofs.Overlay
import Signpost.Proofs.Router.Finding

namespace Signpost

namespace Definition

/-- The route of a definition matches a path and captures these values. -/
def Captures (definition : Definition) (path : String) (captured : Params) : Prop :=
  ∃ route, definition.draft.build = .ok route ∧
    route.pattern.captures? path = some captured

def Matches (definition : Definition) (path : String) : Prop :=
  ∃ captured, definition.Captures path captured

structure First (definitions : List Definition) (path : String) (definition : Definition)
    (captured : Params) : Prop where
  split : ∃ earlier later, definitions = earlier ++ definition :: later ∧
    ∀ other ∈ earlier, ¬ other.Matches path
  captures : definition.Captures path captured

variable {definition : Definition} {definitions : List Definition} {path : String}
  {captured : Params}

theorem First.head (h : definition.Captures path captured) :
    First (definition :: definitions) path definition captured where
  split := by
    refine ⟨[], definitions, rfl, ?_⟩
    intro other hother
    cases hother
  captures := h

theorem First.tail {other : Definition} (h : First definitions path definition captured)
    (hother : ¬ other.Matches path) :
    First (other :: definitions) path definition captured where
  split := by
    obtain ⟨earlier, later, hsplit, hearlier⟩ := h.split
    refine ⟨other :: earlier, later, by rw [hsplit, List.cons_append], ?_⟩
    simpa using ⟨hother, hearlier⟩
  captures := h.captures

end Definition

namespace Registers

variable {definition : Definition} {entry : String × Route} {path : String}
  {captured : Params}

theorem captures_iff (h : Registers definition entry) :
    definition.Captures path captured ↔
      entry.2.pattern.captures? path = some captured := by
  constructor
  · intro hcaptures
    obtain ⟨route, hbuild, hcaptured⟩ := hcaptures
    rw [h.built] at hbuild
    cases hbuild
    exact hcaptured
  · intro hcaptured
    exact ⟨entry.2, h.built, hcaptured⟩

theorem not_matches_iff (h : Registers definition entry) :
    ¬ definition.Matches path ↔ entry.2.matchPath? path = none := by
  rw [Route.matchPath?, Option.map_eq_none_iff, Option.eq_none_iff_forall_ne_some]
  simp only [Definition.Matches, h.captures_iff, not_exists, ne_eq]

end Registers

namespace Router

/-- What is found for a path is the match of this definition. -/
structure Finds (found : RouteMatch) (definition : Definition)
    (captured : Params) : Prop where
  name : found.name = definition.name
  action : found.route.action = definition.draft.action
  args : found.route.args = definition.draft.args
  values : found.route.values = definition.draft.values.merge captured

theorem finds_of_draft {name : String} {definition : Definition} {route : Route}
    {captured : Params} (hname : name = definition.name)
    (hdraft : route.draft = definition.draft) :
    Finds ⟨name, { route with values := route.values.merge captured }⟩ definition
      captured where
  name := hname
  action := congrArg RouteDraft.action hdraft
  args := congrArg RouteDraft.args hdraft
  values := congrArg (fun draft => draft.values.merge captured) hdraft

/-- Searching the table is searching the definitions. -/
theorem firstMatch?_registers {definitions : List Definition}
    {entries : List (String × Route)} (h : List.Forall₂ Registers definitions entries)
    (path : String) :
    (∃ found definition captured, firstMatch? path entries = some found ∧
      Definition.First definitions path definition captured ∧
        Finds found definition captured) ∨
    firstMatch? path entries = none ∧ ∀ definition ∈ definitions,
      ¬ definition.Matches path := by
  induction h with
  | nil => exact .inr ⟨rfl, by simp⟩
  | @cons definition entry definitions entries hentry _ ih =>
      cases hmatch : entry.2.matchPath? path with
      | some matched =>
          obtain ⟨captured, hcaptured, rfl⟩ := Option.map_eq_some_iff.mp hmatch
          refine .inl ⟨_, definition, captured, ?_,
            .head (hentry.captures_iff.mpr hcaptured),
              finds_of_draft hentry.name hentry.draft⟩
          simp only [firstMatch?, hmatch]
      | none =>
          -- The search goes on, and so do the definitions before the first that matches.
          have hnot := hentry.not_matches_iff.mpr hmatch
          have hskip : firstMatch? path (entry :: entries) = firstMatch? path entries := by
            simp only [firstMatch?, hmatch]
          rw [hskip]
          cases ih with
          | inl hfound =>
              obtain ⟨found, later, captured, hfirst, hlater, hfinds⟩ := hfound
              exact .inl ⟨found, later, captured, hfirst, hlater.tail hnot, hfinds⟩
          | inr hmissed =>
              refine .inr ⟨hmissed.1, ?_⟩
              simpa using ⟨hnot, hmissed.2⟩

end Router

namespace Http

/-! What an answer says. -/

def textOrNull : Option String → Node
  | some text => .text (some text)
  | none => .null

def textMembers (params : Params) : Node :=
  .ofMembers (params.toList.map fun pair => (pair.1, .text (some pair.2)))

/-- The tree that is read from the body of an answer. -/
def story (requestId : String) (action route : Option String)
    (args query : Params) : Node :=
  .ofMembers [("request_id", .text (some requestId)), ("action", textOrNull action),
    ("args", textMembers args), ("query", textMembers query), ("route", textOrNull route)]

theorem textOrNull_injective : Function.Injective textOrNull := by
  intro first second h
  cases first with
  | none =>
      cases second with
      | none => rfl
      | some text => cases h
  | some text =>
      cases second with
      | none => cases h
      | some other => rw [Option.some.inj (Node.text.inj h)]

theorem textMembers_injective : Function.Injective textMembers := by
  intro first second h
  have hmember :
      Function.Injective fun pair : String × String =>
        (pair.1, Node.text (some pair.2)) := by
    intro pair other hpair
    obtain ⟨hkey, hvalue⟩ := Prod.mk.inj hpair
    exact Prod.ext hkey (Option.some.inj (Node.text.inj hvalue))
  exact OrderedMap.ext (hmember.list_map (Node.ofMembers_injective h))

theorem story_inj {requestId otherId : String}
    {action route otherAction otherRoute : Option String}
    {args query otherArgs otherQuery : Params}
    (h : story requestId action route args query =
      story otherId otherAction otherRoute otherArgs otherQuery) :
    requestId = otherId ∧ action = otherAction ∧ route = otherRoute ∧ args = otherArgs ∧
      query = otherQuery := by
  have hmembers := Node.ofMembers_injective h
  simp only [List.cons.injEq, Prod.mk.injEq, true_and, and_true] at hmembers
  obtain ⟨hid, haction, hargs, hquery, hroute⟩ := hmembers
  exact ⟨Option.some.inj (Node.text.inj hid), textOrNull_injective haction,
    textOrNull_injective hroute, textMembers_injective hargs, textMembers_injective hquery⟩

theorem isExact_textOrNull (text : Option String) : (textOrNull text).isExact := by
  cases text <;> rfl

theorem isExact_story (requestId : String) (action route : Option String)
    (args query : Params) : (story requestId action route args query).isExact := by
  apply Node.isExact_ofMembers
  simp [Node.isExact, textMembers, Node.isExact_texts, isExact_textOrNull]

theorem bodyNode_eq_story (requestId : String) (exchange : Exchange) :
    Answer.bodyNode requestId exchange =
      story requestId exchange.action exchange.route exchange.args exchange.query := by
  cases exchange with
  | mk action args query route => cases action <;> cases route <;> rfl

theorem read_bodyOf (requestId : String) (exchange : Exchange) :
    Json.read (Answer.bodyOf requestId exchange) =
      ⟨story requestId exchange.action exchange.route exchange.args exchange.query,
        true⟩ := by
  rw [Answer.bodyOf, bodyNode_eq_story]
  exact Json.read_writeCompact (isExact_story ..)

def Request.queryPairs (request : Request) : List (String × String) :=
  (request.target.query.map Form.decodePairs).getD []

theorem collects_query (request : Request) :
    OrderedMap.Collects request.queryPairs request.query := by
  rw [Request.queryPairs, Request.query]
  cases request.target.query with
  | none => exact OrderedMap.collects_ofList []
  | some text => exact OrderedMap.collects_ofList (Form.decodePairs text)

/-! What the router finds decides about all of the answer. -/

structure Answer.Tells (answer : Answer) (code : Nat) (body : Node) (level : Level)
    (message : String) : Prop where
  status : answer.status.code = code
  body : Json.read answer.body = ⟨body, true⟩
  report : answer.events.filter (·.target = "path_router::routing") =
    [⟨level, "path_router::routing", [("message", message)]⟩]

def HasBody (method : String) : Prop := method ≠ "HEAD" ∧ method ≠ "CONNECT"

variable {router : Router} {request : Request} {found : RouteMatch}

theorem isBare_eq_false {method : String} (h : HasBody method) (status : Status) :
    Answer.isBare method status = false := by
  simp [Answer.isBare, h.1, h.2]

theorem report_eq (requestId method path : String) (notice : Notice) :
    (Event.resolving requestId method path :: [Event.ofNotice notice]).filter
      (·.target = "path_router::routing") = [Event.ofNotice notice] := by
  simp [Event.resolving, Event.ofNotice, Event.serverTarget, Event.routingTarget]

theorem respond_found (hbody : HasBody request.method)
    (h : router.findByPath? request.path = some found) (fresh : String) :
    (respond router request fresh).Tells 200
      (story (request.id fresh) (some found.route.action) (some found.name)
        found.route.args (request.query.merge found.route.values))
      .info ("Route \"" ++ found.name ++ "\" matched for request: " ++
        request.method ++ " " ++ request.path) := by
  have hstart : (Exchange.ofQuery request.query).action = none := rfl
  have hhandle := Router.handle_hit hstart h request.method
  constructor
  · simp [respond, hhandle, Status.code]
  · rw [← OrderedMap.empty_merge found.route.args]
    simp only [respond, hhandle, isBare_eq_false hbody]
    exact read_bodyOf ..
  · simp only [respond, hhandle]
    exact report_eq ..

theorem respond_missed (hbody : HasBody request.method)
    (h : router.findByPath? request.path = none) (fresh : String) :
    (respond router request fresh).Tells 404
      (story (request.id fresh) none none OrderedMap.empty request.query)
      .warn ("Route not found for request: " ++ request.method ++ " " ++
        request.path) := by
  have hstart : (Exchange.ofQuery request.query).action = none := rfl
  have hhandle := Router.handle_missed hstart h request.method
  constructor
  · simp [respond, hhandle, Status.code]
  · simp only [respond, hhandle, isBare_eq_false hbody]
    exact read_bodyOf ..
  · simp only [respond, hhandle]
    exact report_eq ..

/-- Status, body and report of every answer tell the same story. -/
theorem answer_tells_story {text : String} {config : Config}
    (h : Config.parse text = .ok config) :
    ∃ router, Router.ofDefinitions config.routes = .ok router ∧
      ∀ (request : Request) (fresh : String), HasBody request.method →
        OrderedMap.Collects request.queryPairs request.query ∧
        ((∃ definition captured bound query,
            Definition.First config.routes request.path definition captured ∧
            OrderedMap.Overlays request.query definition.draft.values bound ∧
            OrderedMap.Overlays bound captured query ∧
            (respond router request fresh).Tells 200
              (story (request.id fresh) (some definition.draft.action)
                (some definition.name) definition.draft.args query)
              .info ("Route \"" ++ definition.name ++ "\" matched for request: " ++
                request.method ++ " " ++ request.path)) ∨
          (∀ definition ∈ config.routes, ¬ definition.Matches request.path) ∧
            (respond router request fresh).Tells 404
              (story (request.id fresh) none none OrderedMap.empty request.query)
              .warn ("Route not found for request: " ++ request.method ++ " " ++
                request.path)) := by
  obtain ⟨router, hrouter, hentries⟩ :=
    Router.ofDefinitions_registers (Config.problems_of_parse h)
  refine ⟨router, hrouter, fun request fresh hbody => ⟨collects_query request, ?_⟩⟩
  cases Router.firstMatch?_registers hentries request.path with
  | inl hfound =>
      obtain ⟨found, definition, captured, hpath, hfirst, hfinds⟩ := hfound
      refine .inl ⟨definition, captured, _, _, hfirst, OrderedMap.overlays_merge _ _,
        OrderedMap.overlays_merge _ _, ?_⟩
      have htells := respond_found hbody hpath fresh
      -- The match has the captured values over the bound ones already.
      rwa [hfinds.name, hfinds.action, hfinds.args, hfinds.values,
        ← OrderedMap.merge_assoc] at htells
  | inr hmissed => exact .inr ⟨hmissed.2, respond_missed hbody hmissed.1 fresh⟩

/-- A query parameter that a captured value overrides. -/
theorem answer_tells_story_overridden :
    ∃ (config : Config) (router : Router) (request : Request),
      Config.parse "routes=[[\"a\",\"/:x\",\"A\"]]" = .ok config ∧
      Router.ofDefinitions config.routes = .ok router ∧
      request.queryPairs = [("x", "1"), ("y", "2"), ("x", "3")] ∧
      ∃ definition captured bound query,
        Definition.First config.routes "/7" definition captured ∧
        OrderedMap.Overlays request.query definition.draft.values bound ∧
        OrderedMap.Overlays bound captured query ∧
        query.toList = [("x", "7"), ("y", "2")] ∧
        (respond router request "1").Tells 200
          (story "1" (some definition.draft.action) (some definition.name)
            definition.draft.args query)
          .info ("Route \"" ++ definition.name ++ "\" matched for request: " ++
            "GET" ++ " " ++ "/7") := by
  let request : Request := ⟨"GET", ⟨"/7", some "x=1&y=2&x=3"⟩, []⟩
  let told : Exchange := ⟨some "A", .empty, .ofList [("x", "7"), ("y", "2")], some "a"⟩
  have hruns : (Config.parse "routes=[[\"a\",\"/:x\",\"A\"]]").toOption.bind (fun config =>
      (Router.ofDefinitions config.routes).toOption.map fun router =>
        (respond router request "1").body) = some (Answer.bodyOf "1" told) := by
    decide +kernel
  obtain ⟨config, hparse, hruns⟩ := Option.bind_eq_some_iff.mp hruns
  obtain ⟨router, hrouter, hbody⟩ := Option.map_eq_some_iff.mp hruns
  rw [toOption_eq_some_iff] at hparse hrouter
  have hread := read_bodyOf "1" told
  rw [← hbody] at hread
  obtain ⟨other, hother, hanswers⟩ := answer_tells_story hparse
  obtain rfl := Except.ok.inj (hrouter.symm.trans hother)
  refine ⟨config, router, request, hparse, hrouter, by decide +kernel, ?_⟩
  cases (hanswers request "1" ⟨by decide, by decide⟩).2 with
  | inl hfound =>
      obtain ⟨definition, captured, bound, query, hfirst, hbound, hquery, htells⟩ := hfound
      have hsame := (Json.Reading.mk.inj (hread.symm.trans htells.body)).1
      obtain ⟨-, -, -, -, rfl⟩ := story_inj hsame
      exact ⟨definition, captured, bound, _, hfirst, hbound, hquery, rfl, htells⟩
  | inr hmissed =>
      have hsame := (Json.Reading.mk.inj (hread.symm.trans hmissed.2.body)).1
      obtain ⟨-, haction, -⟩ := story_inj hsame
      cases haction

end Http

end Signpost
