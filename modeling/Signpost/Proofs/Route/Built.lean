import Signpost.Proofs.OrderedMap
import Signpost.Proofs.Pattern.Compiled
import Signpost.Router

namespace Signpost

theorem Pattern.compile_source {source : String} {constraints : Params} {pattern : Pattern}
    (h : compile source constraints = .ok pattern) :
    compile pattern.source constraints = .ok pattern := by
  rw [(compiled_of_compile h).sourced, h]

/-- The pattern of a route is the one that its text and the constraints of the route
compile to.  Building makes it so, and matching a path leaves it so. -/
structure Route.Built (route : Route) : Prop where
  compiled : Pattern.compile route.pattern.source route.constraints = .ok route.pattern

theorem RouteDraft.built_of_build {draft : RouteDraft} {route : Route}
    (h : draft.build = .ok route) : route.Built := by
  rw [build] at h
  obtain ⟨pattern, hcompile, hroute⟩ := exists_of_bind_ok h
  obtain rfl := Except.ok.inj hroute
  exact ⟨Pattern.compile_source hcompile⟩

namespace Route

variable {route changed : Route}

theorem Built.matchPath? (h : route.Built) {path : String}
    (hmatch : route.matchPath? path = some changed) : changed.Built := by
  obtain ⟨captured, -, rfl⟩ := Option.map_eq_some_iff.mp hmatch
  exact ⟨h.compiled⟩

end Route

namespace Router

def Built (router : Router) : Prop := ∀ entry ∈ router.routes.toList, entry.2.Built

theorem built_empty : empty.Built := by
  intro entry hentry
  cases hentry

theorem Built.add {router : Router} (h : router.Built) (name : String) {route : Route}
    (hroute : route.Built) : (router.add name route).2.Built := by
  intro entry hentry
  rcases Entries.mem_put hentry with rfl | hold
  · exact hroute
  · exact h entry hold

theorem built_of_define {table final : RouteTable} {definitions : List Definition}
    (htable : Built ⟨table⟩) (h : define table definitions = .ok final) :
    Built ⟨final⟩ := by
  induction definitions generalizing table with
  | nil =>
      obtain rfl := Except.ok.inj h
      exact htable
  | cons definition rest ih =>
      rw [define] at h
      obtain ⟨route, hbuild, hrest⟩ := exists_of_bind_ok h
      exact ih (htable.add definition.name (RouteDraft.built_of_build hbuild)) hrest

theorem built_of_ofDefinitions {router : Router} {definitions : List Definition}
    (h : ofDefinitions definitions = .ok router) : router.Built := by
  rw [ofDefinitions] at h
  obtain ⟨table, hdefine, hrouter⟩ := exists_of_bind_ok h
  obtain rfl := Except.ok.inj hrouter
  exact built_of_define built_empty hdefine

end Router

end Signpost
