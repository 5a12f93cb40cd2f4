import Signpost.Proofs.Overlay
import Signpost.Proofs.Pattern.Placeholders
import Signpost.Proofs.Route.Built
import Mathlib.Logic.Relation

namespace Signpost

namespace Route

variable {route matched last : Route} {path : String}

/-- No constraint of a placeholder has a number sign. -/
def Uncommented (route : Route) : Prop :=
  ∀ name ∈ route.pattern.names, ∀ constraint,
    route.constraints.get? name = some constraint → '#' ∉ constraint.toList

theorem uncommented_of_constraints
    (h : ∀ entry ∈ route.constraints.toList, '#' ∉ entry.2.toList) : route.Uncommented :=
  fun _ _ _ hgiven => h _ (OrderedMap.mem_toList_iff.mpr hgiven)

/-- One route is a matched copy of another. -/
def Becomes (route matched : Route) : Prop := ∃ path, route.matchPath? path = some matched

theorem Built.matchPath?_matched (hbuilt : route.Built) (huncommented : route.Uncommented)
    (hmatch : route.matchPath? path = some matched) (other : String) :
    matched.matchPath? other = route.matchPath? other := by
  obtain ⟨captured, hcaptured, rfl⟩ := Option.map_eq_some_iff.mp hmatch
  have hcompiled := Pattern.compiled_of_compile hbuilt.compiled
  rw [Route.matchPath?, Route.matchPath?]
  cases hother : route.pattern.captures? other with
  | none => rfl
  | some later =>
      have hkeys : later.keys = captured.keys :=
        (hcompiled.keys_captured huncommented hother).trans
          (hcompiled.keys_captured huncommented hcaptured).symm
      rw [Option.map_some, Option.map_some, OrderedMap.merge_assoc,
        OrderedMap.merge_eq_of_keys_eq hkeys]

/-- What remains of a route that is replaced by matched copies. -/
structure Remains (route last : Route) : Prop where
  built : last.Built
  uncommented : last.Uncommented
  matching : ∀ path, last.matchPath? path = route.matchPath? path

theorem Becomes.remains (h : route.Becomes matched) (hbuilt : route.Built)
    (huncommented : route.Uncommented) : route.Remains matched := by
  obtain ⟨path, hmatch⟩ := h
  refine ⟨hbuilt.matchPath? hmatch, ?_, hbuilt.matchPath?_matched huncommented hmatch⟩
  obtain ⟨captured, -, rfl⟩ := Option.map_eq_some_iff.mp hmatch
  exact huncommented

theorem remains_of_chain (h : Relation.ReflTransGen Becomes route last)
    (hbuilt : route.Built) (huncommented : route.Uncommented) : route.Remains last := by
  induction h with
  | refl => exact ⟨hbuilt, huncommented, fun _ => rfl⟩
  | tail _ hstep ih =>
      have hnext := hstep.remains ih.built ih.uncommented
      refine ⟨hnext.built, hnext.uncommented, fun path => ?_⟩
      rw [hnext.matching, ih.matching]

/-- What a route matches, and with which values, does not depend on what it matched
before. -/
theorem matches_alike_after_matches (hbuilt : route.Built)
    (huncommented : route.Uncommented) :
    (∀ path matched, route.matchPath? path = some matched →
      (∀ other, matched.matchPath? other = route.matchPath? other) ∧
      matched.matchPath? path = some matched) ∧
    ∀ last, Relation.ReflTransGen Becomes route last →
      ∀ path, last.matchPath? path = route.matchPath? path := by
  constructor
  · intro path matched hmatch
    have halike := hbuilt.matchPath?_matched huncommented hmatch
    exact ⟨halike, (halike path).trans hmatch⟩
  · intro last hchain
    exact (remains_of_chain hchain hbuilt huncommented).matching

/-- Two matches, of which the second captures other values, and then the path of the
first. -/
theorem matches_alike_after_matches_twice :
    ∃ route first second : Route, route.Built ∧ route.Uncommented ∧
      route.values.toList = [("page", "1"), ("sort", "asc")] ∧
      route.matchPath? "/en/a" = some first ∧ first.matchPath? "/fr/b" = some second ∧
      first.values.toList = [("page", "a"), ("sort", "asc"), ("lang", "en")] ∧
      second.matchPath? "/en/a" = some first := by
  have hruns : (Pattern.compile "/:lang/:page"
        (.ofList [("lang", "(en|fr)")])).toOption.bind
      (fun pattern => (pattern.captures? "/en/a").bind fun captured =>
        (pattern.captures? "/fr/b").map fun other => (captured.toList, other.toList)) =
      some ([("lang", "en"), ("page", "a")], [("lang", "fr"), ("page", "b")]) := by
    decide +kernel
  obtain ⟨pattern, hcompile, hruns⟩ := Option.bind_eq_some_iff.mp hruns
  obtain ⟨captured, hcaptured, hruns⟩ := Option.bind_eq_some_iff.mp hruns
  obtain ⟨other, hother, hlists⟩ := Option.map_eq_some_iff.mp hruns
  rw [toOption_eq_some_iff] at hcompile
  have hlist : captured = .ofList [("lang", "en"), ("page", "a")] :=
    OrderedMap.ext (Prod.mk.inj hlists).1
  let route : Route := ⟨pattern, .ofList [("lang", "(en|fr)")],
    .ofList [("page", "1"), ("sort", "asc")], "Show", .empty⟩
  let first : Route := { route with values := route.values.merge captured }
  let second : Route := { first with values := first.values.merge other }
  have hbuilt : route.Built := ⟨Pattern.compile_source hcompile⟩
  have huncommented : route.Uncommented := by
    apply uncommented_of_constraints
    change ∀ entry ∈ [("lang", "(en|fr)")], '#' ∉ entry.2.toList
    decide
  have hfirst : route.matchPath? "/en/a" = some first := by
    rw [Route.matchPath?, hcaptured]
    rfl
  have hsecond : first.matchPath? "/fr/b" = some second := by
    rw [Route.matchPath?, hother]
    rfl
  have hchain : Relation.ReflTransGen Becomes route second :=
    .tail (.single ⟨_, hfirst⟩) ⟨_, hsecond⟩
  refine ⟨route, first, second, hbuilt, huncommented, rfl, hfirst, hsecond, ?_, ?_⟩
  · change (route.values.merge captured).toList = _
    rw [hlist]
    rfl
  · rw [(matches_alike_after_matches hbuilt huncommented).2 second hchain, hfirst]

end Route

end Signpost
