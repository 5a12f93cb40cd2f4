import Signpost.Proofs.Overlay
import Signpost.Proofs.Pattern.Slashes
import Signpost.Proofs.Route.Built
import Signpost.Proofs.Router.Finding

namespace Signpost

variable {path : String}

namespace Route

open Pattern

/-- The pattern of the route has no dot, and none of its placeholders a constraint. -/
structure PlainFolder (route : Route) : Prop where
  undotted : '.' ∉ route.pattern.source.toList
  unconstrained : ∀ name ∈ route.pattern.names, route.constraints.get? name = none

/-- The path is the text of the pattern, slashes at its end apart, with free values. -/
def SpeltAs (route : Route) (path : String) : Prop :=
  ∃ values, Spells (fun _ => Free) (segmentsOf (bodyOf route.pattern.source.toList)) values
    path.toList

variable {route : Route}

theorem PlainFolder.of_compile {source : String} {pattern : Pattern}
    (hcompile : compile source .empty = .ok pattern) (hundotted : '.' ∉ source.toList)
    (values : Params) (action : String) (args : Params) :
    PlainFolder ⟨pattern, .empty, values, action, args⟩ where
  undotted := by
    rwa [← (compiled_of_compile hcompile).sourced] at hundotted
  unconstrained := fun _ _ => rfl

theorem PlainFolder.isFolder (h : route.PlainFolder) :
    isFolderText route.pattern.source.toList = true := by
  simpa [isFolderText] using h.undotted

theorem Built.matchPath?_slash (hbuilt : route.Built) (hplain : route.PlainFolder)
    (hpath : path.toList.getLast? ≠ some '/') :
    route.matchPath? (path ++ "/") = route.matchPath? path := by
  have hcompiled := compiled_of_compile hbuilt.compiled
  have hslash := hcompiled.captures?_slash (unconstrained_of_names hplain.unconstrained)
    hplain.isFolder hpath (.inr rfl)
  rw [String.ofList_append, String.ofList_toList] at hslash
  exact congrArg (Option.map fun captured =>
    { route with values := route.values.merge captured }) hslash

theorem Built.matchPath?_isSome_iff (hbuilt : route.Built) (hplain : route.PlainFolder)
    (hpath : path.toList.getLast? ≠ some '/') :
    (route.matchPath? path).isSome ↔ route.SpeltAs path := by
  have hcompiled := compiled_of_compile hbuilt.compiled
  have hunconstrained := unconstrained_of_names hplain.unconstrained
  rw [Route.matchPath?, Option.isSome_map]
  constructor
  · intro hsome
    obtain ⟨captured, hcaptured⟩ := Option.isSome_iff_exists.mp hsome
    obtain ⟨values, ⟨spelt, slash, heq, hspells, hslash⟩, -⟩ :=
      hcompiled.captures?_free_sound hunconstrained hcaptured
    rcases hslash with rfl | ⟨-, rfl⟩
    · rw [List.append_nil] at heq
      exact ⟨values, heq ▸ hspells⟩
    · exact absurd (heq ▸ getLast?_concat_slash spelt) hpath
  · intro hspelt
    obtain ⟨values, hspells⟩ := hspelt
    exact hcompiled.captures?_free_complete hunconstrained
      ⟨path.toList, [], (List.append_nil _).symm, hspells, .inl rfl⟩

end Route

namespace Router

variable {router : Router}

theorem firstMatch?_congr {other : String} {entries : List (String × Route)}
    (h : ∀ entry ∈ entries, entry.2.matchPath? path = entry.2.matchPath? other) :
    firstMatch? path entries = firstMatch? other entries := by
  induction entries with
  | nil => rfl
  | cons entry rest ih =>
      obtain ⟨hentry, hrest⟩ := List.forall_mem_cons.mp h
      rw [firstMatch?, firstMatch?, hentry, ih hrest]

theorem findByPath?_isSome_iff :
    (router.findByPath? path).isSome ↔
      ∃ entry ∈ router.routes.toList, (entry.2.matchPath? path).isSome := by
  rw [findByPath?, firstMatch?_eq_findSome?, List.findSome?_isSome_iff]
  simp only [Option.isSome_map]

/-- A slash more at the end of a path changes neither whether nor what is found for it. -/
theorem slash_changes_nothing (hbuilt : router.Built)
    (hplain : ∀ entry ∈ router.routes.toList, entry.2.PlainFolder)
    (hpath : path.toList.getLast? ≠ some '/') :
    router.findByPath? (path ++ "/") = router.findByPath? path ∧
      ((router.findByPath? path).isSome ↔
        ∃ entry ∈ router.routes.toList, entry.2.SpeltAs path) := by
  constructor
  · apply firstMatch?_congr
    intro entry hentry
    exact (hbuilt entry hentry).matchPath?_slash (hplain entry hentry) hpath
  · rw [findByPath?_isSome_iff]
    apply exists_congr
    intro entry
    apply and_congr_right
    intro hentry
    exact (hbuilt entry hentry).matchPath?_isSome_iff (hplain entry hentry) hpath

/-- Placeholders side by side share a path in the same way, in front of two slashes that
the pattern has at its end. -/
theorem slash_changes_nothing_shared :
    ∃ (router : Router) (found : RouteMatch), router.Built ∧
      (∀ entry ∈ router.routes.toList, entry.2.PlainFolder) ∧
      router.routes.keys = ["root", "pair"] ∧ "/xyz".toList.getLast? ≠ some '/' ∧
      router.findByPath? "/xyz" = some found ∧ router.findByPath? "/xyz/" = some found ∧
      found.name = "pair" ∧ found.route.values.toList = [("a", "xy"), ("b", "z")] := by
  have hruns : ((Pattern.compile "/" .empty).toOption.map fun root =>
        root.captures? "/xyz") = some none ∧
      ((Pattern.compile "/:a:b//" .empty).toOption.bind fun pair =>
        (pair.captures? "/xyz").map OrderedMap.toList) =
          some [("a", "xy"), ("b", "z")] := by
    decide +kernel
  obtain ⟨root, hroot, hmissed⟩ := Option.map_eq_some_iff.mp hruns.1
  obtain ⟨pair, hpair, hshared⟩ := Option.bind_eq_some_iff.mp hruns.2
  obtain ⟨captured, hcaptured, hvalues⟩ := Option.map_eq_some_iff.mp hshared
  rw [toOption_eq_some_iff] at hroot hpair
  let first : Route := ⟨root, .empty, .empty, "Home", .empty⟩
  let second : Route := ⟨pair, .empty, .empty, "Pair", .empty⟩
  let router : Router := ⟨.ofList [("root", first), ("pair", second)]⟩
  have hbuilt : router.Built :=
    (built_empty.add "root" ⟨Pattern.compile_source hroot⟩).add "pair"
      ⟨Pattern.compile_source hpair⟩
  have hplain : ∀ entry ∈ router.routes.toList, entry.2.PlainFolder := by
    intro entry hentry
    change entry ∈ [("root", first), ("pair", second)] at hentry
    rcases List.mem_pair.mp hentry with rfl | rfl
    · exact .of_compile hroot (by decide) ..
    · exact .of_compile hpair (by decide) ..
  have hpath : "/xyz".toList.getLast? ≠ some '/' := by decide
  have hfound : router.findByPath? "/xyz" =
      some ⟨"pair", { second with values := second.values.merge captured }⟩ := by
    change firstMatch? "/xyz" [("root", first), ("pair", second)] = _
    simp only [firstMatch?, Route.matchPath?, first, second, hmissed, hcaptured,
      Option.map]
  refine ⟨router, _, hbuilt, hplain, rfl, hpath, hfound, ?_, rfl, ?_⟩
  · exact (slash_changes_nothing hbuilt hplain hpath).1.trans hfound
  · rw [← hvalues]
    exact congrArg OrderedMap.toList (OrderedMap.empty_merge captured)

end Router

end Signpost
