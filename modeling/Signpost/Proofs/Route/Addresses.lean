import Signpost.Proofs.Form
import Signpost.Proofs.Route.Built
import Signpost.Proofs.Route.Filling

namespace Signpost

open Pattern

def RoutingError.relabel (name : String) : RoutingError → RoutingError
  | .missingParameter _ param => .missingParameter name param
  | other => other

namespace Route

variable {route : Route} {params : Params}

def Covers (route : Route) (params : Params) (key : String) : Prop :=
  key ∈ params.keys ∨ key ∈ route.values.keys

/-- The parameters that are not for placeholders, in their order. -/
def unused (route : Route) (params : Params) : List (String × String) :=
  params.toList.filter (·.1 ∉ route.pattern.names)

theorem covers_iff {key : String} :
    route.Covers params key ↔ (filling? route.values params key).isSome := by
  simp [Covers, filling?]

theorem query_of_nil {remaining : Params} (h : remaining.toList = []) :
    query remaining = [] :=
  if_pos (List.isEmpty_iff.mpr h)

theorem query_of_used {remaining : Params}
    (hremaining : remaining.toList = route.unused params)
    (h : ∀ key ∈ params.keys, key ∈ route.pattern.names) : query remaining = [] := by
  apply query_of_nil
  rw [hremaining, unused, List.filter_eq_nil_iff]
  intro entry hentry
  simpa using h entry.1 (List.mem_map_of_mem hentry)

theorem query_of_unused {remaining : Params}
    (hremaining : remaining.toList = route.unused params)
    (h : ∃ key ∈ params.keys, key ∉ route.pattern.names) :
    query remaining = '?' :: Form.encodePairs remaining.toList := by
  obtain ⟨key, hkey, hunused⟩ := h
  obtain ⟨entry, hentry, rfl⟩ := List.mem_map.mp hkey
  have hmem : entry ∈ remaining.toList := by
    rw [hremaining]
    exact List.mem_filter.mpr ⟨hentry, decide_eq_true hunused⟩
  exact if_neg fun hempty => List.ne_nil_of_mem hmem (List.isEmpty_iff.mp hempty)

/-! The two ways in which a request for an address ends. -/

inductive Outcome (route : Route) (label : String) (params : Params) :
    Except RoutingError String → Prop
  | made {chosen : List (List Char)} {path : List Char} {remaining : Params}
      (hcovers : ∀ key ∈ route.pattern.names, route.Covers params key)
      (hspells : Spells (Fills route.values params) route.pattern.segments chosen path)
      (hremaining : remaining.toList = route.unused params) :
      Outcome route label params (.ok (String.ofList (path ++ query remaining)))
  | refused {earlier later : List String} {missing : String}
      (hnames : route.pattern.names = earlier ++ missing :: later)
      (hearlier : ∀ key ∈ earlier, route.Covers params key)
      (hmissing : ¬ route.Covers params missing) :
      Outcome route label params (.error (.missingParameter label missing))

theorem Built.nodup_names (hbuilt : route.Built) : route.pattern.names.Nodup :=
  (checkNames_ok (compiled_of_compile hbuilt.compiled).named).1

theorem Built.outcome (hbuilt : route.Built) (label : String) (params : Params) :
    Outcome route label params (route.uriFor label params) := by
  have hnodup := hbuilt.nodup_names
  rw [uriFor]
  cases hfirst : route.pattern.names.find?
      (fun key => (filling? route.values params key).isNone) with
  | none =>
      have hcovers :
          ∀ key ∈ route.pattern.names, (filling? route.values params key).isSome := by
        intro key hkey
        simpa [Option.isSome_iff_ne_none] using List.find?_eq_none.mp hfirst key hkey
      obtain ⟨chosen, path, remaining, hfill, hspells, -⟩ :=
        @fill_ok route.values params route.pattern.segments hnodup hcovers
      rw [hfill]
      exact .made (fun key hkey => covers_iff.mpr (hcovers key hkey)) hspells
        (toList_of_fill hfill)
  | some missing =>
      obtain ⟨hmissing, earlier, later, hnames, hearlier⟩ :=
        List.find?_eq_some_iff_append.mp hfirst
      have hfill : fill route.values route.pattern.segments params = .error missing :=
        fill_missing hnodup hfirst
      rw [hfill]
      apply Outcome.refused hnames
      · intro key hkey
        rw [covers_iff]
        simpa using hearlier key hkey
      · rw [covers_iff]
        simpa using hmissing

namespace Outcome

variable {label address : String}

theorem exists_ok_iff {result : Except RoutingError String}
    (h : Outcome route label params result) :
    (∃ address, result = .ok address) ↔ ∀ key ∈ route.pattern.names,
      route.Covers params key := by
  cases h with
  | made hcovers => exact ⟨fun _ => hcovers, fun _ => ⟨_, rfl⟩⟩
  | @refused earlier later missing hnames _ hmissing =>
      constructor
      · intro hok
        obtain ⟨address, haddress⟩ := hok
        cases haddress
      · intro hcovers
        have hmem : missing ∈ route.pattern.names := by
          rw [hnames]
          exact List.mem_append_right _ List.mem_cons_self
        exact absurd (hcovers missing hmem) hmissing

theorem of_ok (h : Outcome route label params (.ok address)) : ∃ chosen path remaining,
    Spells (Fills route.values params) route.pattern.segments chosen path ∧
      remaining.toList = route.unused params ∧
      address = String.ofList (path ++ query remaining) := by
  cases h with
  | made _ hspells hremaining => exact ⟨_, _, _, hspells, hremaining, rfl⟩

theorem of_error {cause : RoutingError} (h : Outcome route label params (.error cause)) :
    ∃ earlier missing later, route.pattern.names = earlier ++ missing :: later ∧
      (∀ key ∈ earlier, route.Covers params key) ∧ ¬ route.Covers params missing ∧
      cause = .missingParameter label missing := by
  cases h with
  | refused hnames hearlier hmissing => exact ⟨_, _, _, hnames, hearlier, hmissing, rfl⟩

end Outcome

theorem uriFor_relabel (route : Route) (name : String) (params : Params) :
    route.uriFor name params =
      (route.uri params).mapError (RoutingError.relabel name) := by
  rw [uri, uriFor, uriFor]
  cases fill route.values route.pattern.segments params <;> rfl

theorem router_uri_unregistered {router : Router} {name : String}
    (h : name ∉ router.routes.keys) (params : Params) :
    router.uri name params = .error (.routeNotFound name) := by
  have hnone : router.routes.get? name = none := OrderedMap.get?_eq_none_iff.mpr h
  rw [Router.uri, RouteTable.find, hnone]
  rfl

theorem router_uri_registered {router : Router} {name : String}
    (h : router.routes.get? name = some route) (params : Params) :
    router.uri name params = (route.uri params).mapError (RoutingError.relabel name) := by
  rw [Router.uri, RouteTable.find, h, ← uriFor_relabel]
  rfl

/-- An address is made exactly if every placeholder is covered.  Then it is the text of the
pattern as it is filled, with a query of the unused parameters if there are any; otherwise
the first placeholder that is not covered is reported. -/
theorem uri_fills_or_reports (hbuilt : route.Built) (params : Params) :
    ((∃ address, route.uri params = .ok address) ↔
      ∀ key ∈ route.pattern.names, route.Covers params key) ∧
    (∀ address, route.uri params = .ok address → ∃ chosen path,
      Spells (Fills route.values params) route.pattern.segments chosen path ∧
      ((∀ key ∈ params.keys, key ∈ route.pattern.names) → address = String.ofList path) ∧
      ((∃ key ∈ params.keys, key ∉ route.pattern.names) →
        address = String.ofList (path ++ '?' :: Form.encodePairs (route.unused params)))) ∧
    (∀ cause, route.uri params = .error cause → ∃ earlier missing later,
      route.pattern.names = earlier ++ missing :: later ∧
      (∀ key ∈ earlier, route.Covers params key) ∧ ¬ route.Covers params missing ∧
      cause = .missingParameter route.pattern.source missing) ∧
    ∀ (router : Router) (name : String),
      (name ∉ router.routes.keys → router.uri name params = .error (.routeNotFound name)) ∧
      ∀ registered, router.routes.get? name = some registered →
        router.uri name params =
          (registered.uri params).mapError (RoutingError.relabel name) := by
  have houtcome : Outcome route route.pattern.source params (route.uri params) :=
    hbuilt.outcome route.pattern.source params
  refine ⟨houtcome.exists_ok_iff, ?_, ?_, ?_⟩
  · intro address haddress
    rw [haddress] at houtcome
    obtain ⟨chosen, path, remaining, hspells, hremaining, rfl⟩ := houtcome.of_ok
    refine ⟨chosen, path, hspells, fun hused => ?_, fun hunused => ?_⟩
    · rw [query_of_used hremaining hused, List.append_nil]
    · rw [query_of_unused hremaining hunused, hremaining]
  · intro cause hcause
    rw [hcause] at houtcome
    exact houtcome.of_error
  · intro router name
    exact ⟨fun h => router_uri_unregistered h params,
      fun registered h => router_uri_registered h params⟩

/-- A parameter, a bound value and a query; without parameters the year is missing. -/
theorem uri_fills_or_reports_archive :
    ∃ (route : Route) (address : String) (chosen : List (List Char)) (path : List Char),
      route.Built ∧
      route.uri (.ofList [("tag", "rust lang"), ("year", "2024")]) = .ok address ∧
      address = "/archive/2024/1?tag=rust+lang" ∧
      Spells
        (Fills (.ofList [("page", "1")])
          (.ofList [("tag", "rust lang"), ("year", "2024")]))
        route.pattern.segments chosen path ∧
      address = String.ofList (path ++ '?' :: Form.encodePairs [("tag", "rust lang")]) ∧
      ∀ (router : Router) (name : String), router.routes.get? name = some route →
        router.uri name .empty = .error (.missingParameter name "year") := by
  obtain ⟨pattern, hcompile⟩ :
      ∃ pattern, compile "/archive/:year/:page" .empty = .ok pattern :=
    ⟨_, rfl⟩
  let route : Route := ⟨pattern, .empty, .ofList [("page", "1")], "Archive", .empty⟩
  have hbuilt : route.Built := ⟨Pattern.compile_source hcompile⟩
  have hsource : route.pattern.source = "/archive/:year/:page" :=
    (compiled_of_compile hcompile).sourced
  have hnames : route.pattern.names = ["year", "page"] := by
    rw [names, hsource]
    rfl
  have hfilled : route.uri (.ofList [("tag", "rust lang"), ("year", "2024")]) =
      .ok "/archive/2024/1?tag=rust+lang" := by
    rw [uri, uriFor, segments, hsource]
    rfl
  obtain ⟨-, hmade, -, -⟩ :=
    uri_fills_or_reports hbuilt (.ofList [("tag", "rust lang"), ("year", "2024")])
  obtain ⟨chosen, path, hspells, -, hquery⟩ := hmade _ hfilled
  have hunused : route.unused (.ofList [("tag", "rust lang"), ("year", "2024")]) =
      [("tag", "rust lang")] := by
    rw [unused, hnames]
    rfl
  rw [hunused, hnames] at hquery
  refine ⟨route, _, chosen, path, hbuilt, hfilled, rfl, hspells,
    hquery ⟨"tag", by decide, by decide⟩, fun router name hregistered => ?_⟩
  obtain ⟨-, -, -, hrouter⟩ := uri_fills_or_reports hbuilt .empty
  have hmissing :
      route.uri .empty = .error (.missingParameter route.pattern.source "year") := by
    rw [uri, uriFor, segments, hsource]
    rfl
  rw [(hrouter router name).2 route hregistered, hmissing]
  rfl

/-- The query of an address is read back as the parameters that no placeholder used up. -/
theorem query_keeps_unused (hbuilt : route.Built) {address : String}
    (haddress : route.uri params = .ok address)
    (hunused : ∃ key ∈ params.keys, key ∉ route.pattern.names) :
    ∃ chosen path text,
      Spells (Fills route.values params) route.pattern.segments chosen path ∧
      address = String.ofList (path ++ '?' :: text) ∧ (∀ c ∈ text, Form.IsQueryChar c) ∧
      (Form.decode (String.ofList text)).toList = route.unused params := by
  have houtcome : Outcome route route.pattern.source params (route.uri params) :=
    hbuilt.outcome route.pattern.source params
  rw [haddress] at houtcome
  obtain ⟨chosen, path, remaining, hspells, hremaining, rfl⟩ := houtcome.of_ok
  refine ⟨chosen, path, Form.encodePairs remaining.toList, hspells, ?_, ?_, ?_⟩
  · rw [query_of_unused hremaining hunused]
  · intro c hc
    exact Form.isQueryChar_encodePairs hc
  · rw [Form.decode_encodePairs, hremaining]

theorem query_keeps_unused_signs :
    ∃ (route : Route) (address : String) (chosen : List (List Char))
        (path text : List Char),
      route.Built ∧
      route.uri (.ofList [("id", "7"), ("", ""), ("a&b=", "é %+?#")]) = .ok address ∧
      Spells (Fills .empty (.ofList [("id", "7"), ("", ""), ("a&b=", "é %+?#")]))
        route.pattern.segments chosen path ∧
      address = String.ofList (path ++ '?' :: text) ∧ (∀ c ∈ text, Form.IsQueryChar c) ∧
      (Form.decode (String.ofList text)).toList = [("", ""), ("a&b=", "é %+?#")] := by
  obtain ⟨pattern, hcompile⟩ : ∃ pattern, compile "/users/:id" .empty = .ok pattern :=
    ⟨_, rfl⟩
  let route : Route := ⟨pattern, .empty, .empty, "UserShow", .empty⟩
  have hbuilt : route.Built := ⟨Pattern.compile_source hcompile⟩
  have hsource : route.pattern.source = "/users/:id" :=
    (compiled_of_compile hcompile).sourced
  have hnames : route.pattern.names = ["id"] := by
    rw [names, hsource]
    rfl
  obtain ⟨address, haddress⟩ :
      ∃ address, route.uri (.ofList [("id", "7"), ("", ""), ("a&b=", "é %+?#")]) =
        .ok address := by
    rw [uri, uriFor, segments, hsource]
    exact ⟨_, rfl⟩
  obtain ⟨chosen, path, text, hspells, htext, hchars, hdecode⟩ :=
    query_keeps_unused hbuilt haddress ⟨"", by decide, by rw [hnames]; decide⟩
  refine ⟨route, address, chosen, path, text, hbuilt, haddress, hspells, htext, hchars, ?_⟩
  rw [hdecode, unused, hnames]
  rfl

end Route

end Signpost
