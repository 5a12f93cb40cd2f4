import Signpost.Proofs.Form
import Signpost.Proofs.Pattern.Separated
import Signpost.Proofs.Route.Built
import Signpost.Proofs.Route.Filling

namespace Signpost

open Pattern

/-- What stands before the first question mark of an address, and what stands behind it. -/
def splitAddress (address : String) : String × String :=
  (String.ofList (address.toList.takeWhile (· ≠ '?')),
    String.ofList ((address.toList.dropWhile (· ≠ '?')).drop 1))

def Route.queryText (remaining : Params) : List Char :=
  if remaining.isEmpty then [] else Form.encodePairs remaining.toList

theorem splitAddress_query {path : List Char} (hpath : '?' ∉ path) (remaining : Params) :
    splitAddress (String.ofList (path ++ Route.query remaining)) =
      (String.ofList path, String.ofList (Route.queryText remaining)) := by
  rw [splitAddress, String.toList_ofList, Text.takeWhile_ne_append hpath,
    Text.dropWhile_ne_append hpath, Route.query, Route.queryText]
  split <;> simp

theorem decode_queryText (remaining : Params) :
    Form.decode (String.ofList (Route.queryText remaining)) = remaining := by
  rw [Route.queryText]
  split
  · rename_i hempty
    obtain rfl : remaining = OrderedMap.empty :=
      OrderedMap.ext (List.isEmpty_iff.mp hempty)
    exact Form.decode_encodePairs OrderedMap.empty
  · exact Form.decode_encodePairs remaining

namespace Route

/-- No constraints and no question mark in literal text; a slash or the end behind every
placeholder; at most one slash at the end of a folder pattern. -/
structure Recognizable (route : Route) : Prop where
  unconstrained : ∀ key ∈ route.pattern.names, route.constraints.get? key = none
  unqueried : ∀ text, .literal text ∈ route.pattern.segments → '?' ∉ text
  separated : Separated route.pattern.segments
  slashed : route.pattern.isFolder → ¬ ['/', '/'] <:+ route.pattern.source.toList

/-- Every placeholder is filled by a text that stays in its place. -/
def Suffices (route : Route) (params : Params) : Prop :=
  ∀ key ∈ route.pattern.names, ∃ value, filling? route.values params key = some value ∧
    value ≠ "" ∧ '/' ∉ value.toList ∧ '?' ∉ value.toList

variable {route : Route} {params : Params}

theorem Recognizable.body (h : route.Recognizable) :
    Separated (segmentsOf (bodyOf route.pattern.source.toList)) := by
  obtain ⟨slashes, hsource, hslashes, -⟩ := exists_slashes route.pattern.source.toList
  have hseparated := h.separated
  rw [segments, hsource, segmentsOf_append hslashes] at hseparated
  exact hseparated.of_appendLiteral fun _ => segmentsOf_literal

theorem slashes_cases {slashes : List Char} (hslashes : ∀ c ∈ slashes, c = '/')
    (h : ¬ ['/', '/'] <:+ slashes) : slashes = [] ∨ slashes = ['/'] := by
  rw [List.eq_replicate_of_mem hslashes] at h ⊢
  rcases hlength : slashes.length with _ | _ | more
  · exact .inl rfl
  · exact .inr rfl
  · have hmore : List.replicate (more + 2) '/' = List.replicate more '/' ++ ['/', '/'] :=
      List.replicate_add more 2 '/'
    rw [hlength, hmore] at h
    exact absurd (List.suffix_append ..) h

theorem Recognizable.decomposes (h : route.Recognizable) {chosen : List (List Char)}
    {path : List Char}
    (hspells : Spells (fun _ => Free) route.pattern.segments chosen path) :
    Decomposes (fun _ => Free) route.pattern.source.toList path chosen := by
  obtain ⟨slashes, hsource, hslashes, hfile⟩ := exists_slashes route.pattern.source.toList
  rw [segments, hsource, segmentsOf_append hslashes] at hspells
  obtain ⟨body, hpath, hbody⟩ := hspells.of_appendLiteral
  refine ⟨body, slashes, hpath, hbody, ?_⟩
  cases hfolder : isFolderText route.pattern.source.toList with
  | false => exact .inl (hfile hfolder)
  | true =>
      have hfew : ¬ ['/', '/'] <:+ slashes := fun hsuffix =>
        h.slashed hfolder (hsource ▸ hsuffix.trans (List.suffix_append _ _))
      exact (slashes_cases hslashes hfew).imp_right fun hone => ⟨rfl, hone⟩

theorem Suffices.free (h : route.Suffices params) {name value : List Char}
    (hname : .param name ∈ route.pattern.segments)
    (hfills : Fills route.values params name value) :
    Free value ∧ '?' ∉ value := by
  obtain ⟨text, htext, hne, hslash, hquery⟩ := h _ (mem_keys hname)
  obtain rfl : text = String.ofList value := Option.some.inj (htext.symm.trans hfills)
  rw [String.toList_ofList] at hslash hquery
  refine ⟨⟨?_, hslash⟩, hquery⟩
  rintro rfl
  exact hne rfl

theorem Recognizable.plain (h : route.Recognizable) :
    Unconstrained route.constraints (segmentsOf (bodyOf route.pattern.source.toList)) :=
  unconstrained_of_names h.unconstrained

/-- The values that filled the pattern are captured again, under the names of their
placeholders. -/
theorem Recognizable.captures? (h : route.Recognizable) (hbuilt : route.Built)
    (hsuffices : route.Suffices params) {chosen : List (List Char)} {path : List Char}
    (hspells : Spells (Fills route.values params) route.pattern.segments chosen path) :
    ∃ captured, route.pattern.captures? (String.ofList path) = some captured ∧
      ∀ key, captured.get? key =
        if key ∈ route.pattern.names then filling? route.values params key else none := by
  have hfree : Spells (fun _ => Free) route.pattern.segments chosen path :=
    hspells.mono fun name hname value hfills => (hsuffices.free hname hfills).1
  have hdecomposes := h.decomposes hfree
  rw [← @String.toList_ofList path] at hdecomposes
  obtain ⟨captured, hcaptured, hlist⟩ :=
    (compiled_of_compile hbuilt.compiled).captures?_separated h.plain h.body hdecomposes
  refine ⟨captured, hcaptured, fun key => ?_⟩
  have hlookup := lookup?_chosen hspells key
  rw [OrderedMap.get?, ← OrderedMap.toList, hlist]
  exact hlookup

end Route

namespace Router

theorem firstMatch?_append {path : String} {before : List (String × Route)}
    (h : ∀ entry ∈ before, entry.2.matchPath? path = none) (rest : List (String × Route)) :
    firstMatch? path (before ++ rest) = firstMatch? path rest := by
  induction before with
  | nil => rfl
  | cons entry before ih =>
      obtain ⟨name, route⟩ := entry
      rw [List.cons_append, firstMatch?, h _ List.mem_cons_self]
      exact ih fun entry hentry => h entry (List.mem_cons_of_mem _ hentry)

/-- The parameters of a route that is resolved from its own address. -/
theorem get?_resolved {values params captured remaining : Params} {keys : List String}
    (hcaptured : ∀ key, captured.get? key =
      if key ∈ keys then Route.filling? values params key else none)
    (hremaining : Route.Leaves params keys remaining)
    (hfilling : ∀ key ∈ keys, (Route.filling? values params key).isSome) (key : String) :
    (remaining.merge (values.merge captured)).get? key =
      if key ∈ keys then Route.filling? values params key
      else (values.get? key).or (params.get? key) := by
  have hleft := hremaining key
  by_cases hkey : key ∈ keys
  · obtain ⟨value, hvalue⟩ := Option.isSome_iff_exists.mp (hfilling key hkey)
    simp [hcaptured, hleft, hkey, hvalue]
  · simp [hcaptured, hleft, hkey]

/-- An address made from parameters resolves to the route that made it and gives the
parameters back: for a placeholder what filled it, else what is bound, else the
parameter. -/
theorem uri_resolves {router : Router} (hrouter : router.Built) {name : String}
    {route : Route} {before after : List (String × Route)}
    (hroute : router.routes.toList = before ++ (name, route) :: after)
    (hrecognizable : route.Recognizable) {params : Params}
    (hsuffices : route.Suffices params) :
    ∃ address path query, router.uri name params = .ok address ∧
      splitAddress address = (path, query) ∧ (route.matchPath? path).isSome ∧
      ((∀ entry ∈ before, entry.2.matchPath? path = none) → ∀ method,
        ∃ found notices exchange,
          router.handle method path (.ofQuery (Form.decode query)) =
            ⟨some found, notices, exchange⟩ ∧
          found.name = name ∧ exchange.route = some name ∧
            exchange.action = some route.action ∧
          ∀ key, exchange.query.get? key =
            if key ∈ route.pattern.names then Route.filling? route.values params key
            else (route.values.get? key).or (params.get? key)) := by
  have hmem : (name, route) ∈ router.routes.toList := by
    rw [hroute]
    exact List.mem_append_right _ List.mem_cons_self
  have hbuilt : route.Built := hrouter _ hmem
  have hnodup : route.pattern.names.Nodup :=
    (checkNames_ok (compiled_of_compile hbuilt.compiled).named).1
  have hfilling : ∀ key ∈ route.pattern.names,
      (Route.filling? route.values params key).isSome := by
    intro key hkey
    obtain ⟨value, hvalue, -⟩ := hsuffices key hkey
    rw [hvalue]
    rfl
  obtain ⟨chosen, path, remaining, hfill, hspells, hleaves⟩ :=
    @Route.fill_ok route.values params route.pattern.segments hnodup hfilling
  obtain ⟨captured, hcaptured, hget⟩ := hrecognizable.captures? hbuilt hsuffices hspells
  have hpath : '?' ∉ path := hspells.notMem hrecognizable.unqueried
    fun _ _ hname hfills => (hsuffices.free hname hfills).2
  have hmatch : route.matchPath? (String.ofList path) =
      some { route with values := route.values.merge captured } := by
    rw [Route.matchPath?, hcaptured]
    rfl
  refine ⟨String.ofList (path ++ Route.query remaining), String.ofList path,
    String.ofList (Route.queryText remaining), ?_,
      splitAddress_query hpath remaining, ?_, ?_⟩
  · rw [uri, RouteTable.find, OrderedMap.get?_eq_some_of_mem hmem]
    simp only [ok_bind, Route.uriFor, hfill]
  · rw [hmatch]
    rfl
  · intro hbefore method
    have hfound : router.findByPath? (String.ofList path) =
        some ⟨name, { route with values := route.values.merge captured }⟩ := by
      rw [findByPath?, hroute, firstMatch?_append hbefore, firstMatch?, hmatch]
    rw [decode_queryText, handle, hfound]
    exact ⟨_, _, _, rfl, rfl, rfl, rfl, get?_resolved hget hleaves hfilling⟩

theorem uri_resolves_bound :
    ∃ router : Router, router.Built ∧ ∃ address path query found notices exchange,
      router.uri "user" (.ofList [("id", "a b"), ("page", "2&3")]) = .ok address ∧
      splitAddress address = (path, query) ∧
      router.handle "GET" path (.ofQuery (Form.decode query)) =
        ⟨some found, notices, exchange⟩ ∧
      exchange.route = some "user" ∧ exchange.query.get? "id" = some "a b" ∧
      exchange.query.get? "lang" = some "en" ∧
        exchange.query.get? "page" = some "2&3" := by
  obtain ⟨pattern, hcompile⟩ :
      ∃ pattern, compile "/:lang/users/:id" .empty = .ok pattern :=
    ⟨_, rfl⟩
  let route : Route := ⟨pattern, .empty, .ofList [("lang", "en")], "UserShow", .empty⟩
  have hbuilt : (empty.add "user" route).2.Built :=
    built_empty.add "user" ⟨Pattern.compile_source hcompile⟩
  have hroutes :
      (empty.add "user" route).2.routes.toList = [] ++ ("user", route) :: [] := rfl
  have hsource : route.pattern.source = "/:lang/users/:id" :=
    (compiled_of_compile hcompile).sourced
  have hnames : route.pattern.names = ["lang", "id"] := by
    rw [names, hsource]
    rfl
  have hsegments : route.pattern.segments = [.literal ['/'], .param ['l', 'a', 'n', 'g'],
      .literal ['/', 'u', 's', 'e', 'r', 's', '/'], .param ['i', 'd']] := by
    rw [segments, hsource]
    rfl
  have hrecognizable : route.Recognizable := by
    refine ⟨fun _ _ => rfl, fun text htext => ?_, ?_, fun _ => ?_⟩
    · rw [hsegments] at htext
      simp only [List.mem_cons, Segment.literal.injEq, List.not_mem_nil, or_false,
        reduceCtorEq, false_or] at htext
      rcases htext with rfl | rfl <;> decide
    · rw [hsegments]
      exact .literal _ (.param _ _ (.literal _ (.last _)))
    · rw [hsource]
      decide
  have hsuffices : route.Suffices (.ofList [("id", "a b"), ("page", "2&3")]) := by
    intro key hkey
    rw [hnames] at hkey
    rcases List.mem_pair.mp hkey with rfl | rfl
    · exact ⟨"en", rfl, by decide, by decide, by decide⟩
    · exact ⟨"a b", rfl, by decide, by decide, by decide⟩
  obtain ⟨address, path, query, haddress, hsplit, -, hhandle⟩ :=
    uri_resolves hbuilt hroutes hrecognizable hsuffices
  obtain ⟨found, notices, exchange, hresolved, -, hroute, -, hquery⟩ :=
    hhandle (fun _ hentry => by cases hentry) "GET"
  rw [hnames] at hquery
  exact ⟨_, hbuilt, address, path, query, found, notices, exchange, haddress, hsplit,
    hresolved, hroute, hquery "id", hquery "lang", hquery "page"⟩

end Router

end Signpost
