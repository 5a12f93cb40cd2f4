import Signpost.Proofs.Pattern.Placeholders
import Signpost.Proofs.Pattern.Slashes
import Signpost.Proofs.Route.Addresses
import Signpost.Proofs.Route.Resolution

namespace Signpost.Route

open Pattern

variable {route matched : Route} {path : String} {captured : Params}

theorem Built.uri_captured (hbuilt : route.Built) {admits : List Char → List Char → Prop}
    {values : List (List Char)} {spelt : List Char}
    (hspells : Spells admits
      (segmentsOf (bodyOf route.pattern.source.toList)) values spelt)
    (hlist : captured.toList = route.pattern.names.zip (values.map String.ofList)) :
    uri { route with values := route.values.merge captured } .empty =
      .ok (String.ofList (spelt ++ droppedSlashes route.pattern.source.toList)) := by
  have hnodup : (route.pattern.segments.filterMap Segment.name?).Nodup :=
    hbuilt.nodup_names
  have hfills : Spells (Fills (route.values.merge captured) .empty)
      route.pattern.segments values
      (spelt ++ droppedSlashes route.pattern.source.toList) := by
    apply (hspells.of_body.under_names hnodup).mono
    intro name _ value hvalue
    have hcaptured : captured.get? (String.ofList name) = some (String.ofList value) := by
      rw [OrderedMap.get?, ← OrderedMap.toList, hlist]
      exact hvalue
    simp [Fills, filling?, hcaptured]
  obtain ⟨remaining, hfill⟩ := fill_of_spells hnodup hfills
  have hquery : query remaining = [] := by
    apply query_of_nil
    rw [toList_of_fill hfill]
    rfl
  simp only [uri, uriFor, hfill, hquery, List.append_nil]

/-- A path that a route matches is rebuilt from what was captured. -/
theorem matched_path_rebuilt (hbuilt : route.Built)
    (huncommented : ∀ name ∈ route.pattern.names, ∀ constraint,
      route.constraints.get? name = some constraint → '#' ∉ constraint.toList)
    (hmatch : route.matchPath? path = some matched) :
    ∃ address body, matched.uri .empty = .ok address ∧
      (route.pattern.isFolder = false → path = body ∧ address = body) ∧
      (route.pattern.isFolder = true → (path = body ∨ path = body ++ "/") ∧
        address = body ++
          String.ofList (trailingSlashes route.pattern.source.toList)) := by
  obtain ⟨captured, hcaptured, rfl⟩ := Option.map_eq_some_iff.mp hmatch
  obtain ⟨values, ⟨spelt, slash, hpath, hspells, hslash⟩, hlist⟩ :=
    (compiled_of_compile hbuilt.compiled).captures?_spelt
      (fun name hname => uncommented_constraintOf huncommented hname) hcaptured
  have htext : path = String.ofList spelt ++ String.ofList slash := by
    rw [← String.ofList_append, ← hpath, String.ofList_toList]
  refine ⟨_, String.ofList spelt, hbuilt.uri_captured hspells hlist, ?_, ?_⟩
  · intro hfile
    rcases hslash with rfl | ⟨hfolder, -⟩
    · rw [droppedSlashes_file hfile, List.append_nil]
      exact ⟨htext.trans String.append_empty, rfl⟩
    · exact absurd (hfolder.symm.trans hfile) (by decide)
  · intro hfolder
    rw [droppedSlashes_folder hfolder, String.ofList_append]
    refine ⟨?_, rfl⟩
    rcases hslash with rfl | ⟨-, rfl⟩
    · exact .inl (htext.trans String.append_empty)
    · exact .inr htext

/-- A value that takes the slash at the end of the path, and two slashes at the end of the
pattern. -/
theorem matched_path_rebuilt_greedy :
    ∃ (route matched : Route) (address body : String), route.Built ∧
      (∀ name ∈ route.pattern.names, ∀ constraint,
        route.constraints.get? name = some constraint → '#' ∉ constraint.toList) ∧
      route.matchPath? "/files/a/b/" = some matched ∧ matched.uri .empty = .ok address ∧
      ("/files/a/b/" = body ∨ "/files/a/b/" = body ++ "/") ∧ address = body ++ "//" ∧
      address = "/files/a/b///" := by
  have hruns : (compile "/files/:rest//" (.ofList [("rest", ".*")])).toOption.bind
      (fun pattern =>
        (Route.matchPath? ⟨pattern, .ofList [("rest", ".*")], .ofList [("rest", "index")],
            "Files", .empty⟩ "/files/a/b/").bind fun matched =>
          (matched.uri .empty).toOption) = some "/files/a/b///" := by
    decide +kernel
  obtain ⟨pattern, hcompile, hruns⟩ := Option.bind_eq_some_iff.mp hruns
  obtain ⟨matched, hmatch, hmade⟩ := Option.bind_eq_some_iff.mp hruns
  rw [toOption_eq_some_iff] at hcompile hmade
  let route : Route :=
    ⟨pattern, .ofList [("rest", ".*")], .ofList [("rest", "index")], "Files", .empty⟩
  have hbuilt : route.Built := ⟨Pattern.compile_source hcompile⟩
  have hsource : route.pattern.source = "/files/:rest//" :=
    (compiled_of_compile hcompile).sourced
  have huncommented : ∀ name ∈ route.pattern.names, ∀ constraint,
      route.constraints.get? name = some constraint → '#' ∉ constraint.toList := by
    intro name _ constraint hgiven
    have hmem := OrderedMap.mem_toList_iff.mpr hgiven
    change (name, constraint) ∈ [("rest", ".*")] at hmem
    obtain ⟨-, rfl⟩ := Prod.mk.inj (List.mem_singleton.mp hmem)
    decide
  obtain ⟨address, body, haddress, -, hfolder⟩ :=
    matched_path_rebuilt hbuilt huncommented hmatch
  have hisFolder : route.pattern.isFolder = true := by
    rw [isFolder, hsource]
    decide
  obtain ⟨hpath, hbody⟩ := hfolder hisFolder
  rw [hsource] at hbody
  exact ⟨route, matched, address, body, hbuilt, huncommented, hmatch, haddress, hpath,
    hbody, Except.ok.inj (haddress.symm.trans hmade)⟩

/-- A route without constraints recognizes the address of a matched copy, with the same
values, unless it is a folder route that ends in more than one slash; then it never
does. -/
theorem recognizes_own_address (hbuilt : route.Built)
    (hunconstrained : ∀ name ∈ route.pattern.names, route.constraints.get? name = none)
    (hmatch : route.matchPath? path = some matched) :
    ∃ address, matched.uri .empty = .ok address ∧
      ((route.pattern.isFolder = true → ¬ ['/', '/'] <:+ route.pattern.source.toList) →
        route.matchPath? address = some matched) ∧
      (route.pattern.isFolder = true → ['/', '/'] <:+ route.pattern.source.toList →
        route.matchPath? address = none) := by
  obtain ⟨captured, hcaptured, rfl⟩ := Option.map_eq_some_iff.mp hmatch
  have hcompiled := compiled_of_compile hbuilt.compiled
  have hplain := unconstrained_of_names hunconstrained
  obtain ⟨values, ⟨spelt, slash, hpath, hspells, hslash⟩, hlist⟩ :=
    hcompiled.captures?_free_sound hplain hcaptured
  have htext : path = String.ofList (spelt ++ slash) := by
    rw [← hpath, String.ofList_toList]
  refine ⟨_, hbuilt.uri_captured hspells hlist, ?_, ?_⟩
  · intro hfew
    suffices hagain : route.pattern.captures?
        (String.ofList (spelt ++ droppedSlashes route.pattern.source.toList)) =
          some captured by
      rw [matchPath?, hagain, Option.map_some]
    cases hfolder : isFolderText route.pattern.source.toList with
    | false =>
        obtain rfl : slash = [] := by simpa [hfolder] using hslash
        rw [droppedSlashes_file hfolder, ← hpath, String.ofList_toList, hcaptured]
    | true =>
        have hlast := hspells.getLast?_ne_slash hfolder
        have hone : trailingSlashes route.pattern.source.toList = [] ∨
            trailingSlashes route.pattern.source.toList = ['/'] := by
          apply slashes_cases fun _ => eq_slash_of_mem
          intro htwo
          exact hfew hfolder (htwo.trans (List.rtakeWhile_suffix _ _))
        rw [htext, hcompiled.captures?_slash hplain hfolder hlast
          (hslash.imp_right And.right)] at hcaptured
        rw [droppedSlashes_folder hfolder,
          hcompiled.captures?_slash hplain hfolder hlast hone, hcaptured]
  · intro hfolder hmany
    obtain ⟨front, hfront⟩ := hmany
    rw [droppedSlashes_folder hfolder, ← hfront, trailingSlashes_two, ← List.append_assoc,
      matchPath?, hcompiled.captures?_slashes hplain hfolder, Option.map_none]

/-- The slash at the end of the pattern stands in the address, whether it stood in the path
or not. -/
theorem recognizes_own_address_slash :
    ∃ (route matched : Route) (address : String), route.Built ∧
      (∀ name ∈ route.pattern.names, route.constraints.get? name = none) ∧
      route.matchPath? "/en/users/7" = some matched ∧ matched.uri .empty = .ok address ∧
      address = "/en/users/7/" ∧ ¬ ['/', '/'] <:+ route.pattern.source.toList ∧
      route.matchPath? address = some matched := by
  have hruns : (compile "/:lang/users/:id/" .empty).toOption.bind (fun pattern =>
      ((⟨pattern, .empty, .ofList [("lang", "de")], "UserShow", .empty⟩ :
          Route).matchPath? "/en/users/7").bind fun matched =>
        (matched.uri .empty).toOption) = some "/en/users/7/" := by
    decide +kernel
  obtain ⟨pattern, hcompile, hruns⟩ := Option.bind_eq_some_iff.mp hruns
  obtain ⟨matched, hmatch, hmade⟩ := Option.bind_eq_some_iff.mp hruns
  rw [toOption_eq_some_iff] at hcompile hmade
  let route : Route := ⟨pattern, .empty, .ofList [("lang", "de")], "UserShow", .empty⟩
  have hbuilt : route.Built := ⟨Pattern.compile_source hcompile⟩
  have hfew : ¬ ['/', '/'] <:+ route.pattern.source.toList := by
    have hsource : route.pattern.source = "/:lang/users/:id/" :=
      (compiled_of_compile hcompile).sourced
    rw [hsource]
    decide
  obtain ⟨address, haddress, hrecognized, -⟩ :=
    recognizes_own_address hbuilt (fun _ _ => rfl) hmatch
  exact ⟨route, matched, address, hbuilt, fun _ _ => rfl, hmatch, haddress,
    Except.ok.inj (haddress.symm.trans hmade), hfew, hrecognized fun _ => hfew⟩

/-- With two slashes at the end of its pattern a route does not match its own address. -/
theorem slashes_hide_own_address :
    ∃ (route matched : Route) (address : String),
      (RouteDraft.mk "/users/:id//" "UserShow" .empty .empty .empty).build = .ok route ∧
      route.matchPath? "/users/7" = some matched ∧ matched.uri .empty = .ok address ∧
      address = "/users/7//" ∧ route.matchPath? address = none := by
  have hrun : (RouteDraft.mk
        "/users/:id//" "UserShow" .empty .empty .empty).build.toOption.bind
      (fun route => (route.matchPath? "/users/7").bind fun matched =>
        (matched.uri .empty).toOption.map fun address =>
          (address, (route.matchPath? address).isNone)) = some ("/users/7//", true) := by
    decide +kernel
  obtain ⟨route, hbuild, hrun⟩ := Option.bind_eq_some_iff.mp hrun
  obtain ⟨matched, hmatch, hrun⟩ := Option.bind_eq_some_iff.mp hrun
  obtain ⟨address, haddress, hpair⟩ := Option.map_eq_some_iff.mp hrun
  obtain ⟨rfl, hnone⟩ := Prod.mk.inj hpair
  exact ⟨route, matched, _, toOption_eq_some_iff.mp hbuild, hmatch,
    toOption_eq_some_iff.mp haddress, rfl, Option.isNone_iff_eq_none.mp hnone⟩

end Signpost.Route
