import Signpost.Proofs.Pattern.Matching
import Signpost.Proofs.Route.Changes

namespace Signpost

variable {source : String} {first second : Params}

/-- Both maps hold the same under each of these names. -/
def Params.AgreeOn (names : List String) (first second : Params) : Prop :=
  ∀ name ∈ names, first.get? name = second.get? name

theorem Params.agreeOn_insert {names : List String} {name : String} (hname : name ∉ names)
    (params : Params) (value : String) :
    AgreeOn names (params.insert name value) params := by
  intro other hother
  have hne : name ≠ other := fun heq => hname (heq ▸ hother)
  simp [hne]

/-! Compiling reads constraints by the names of placeholders. -/

namespace Pattern

theorem checkConstraints_congr {segments : List Segment}
    (h : ∀ name, .param name ∈ segments →
      constraintOf first name = constraintOf second name) :
    checkConstraints first segments = checkConstraints second segments := by
  induction segments with
  | nil => rfl
  | cons segment rest ih =>
      have hrest := ih fun name hname => h name (List.mem_cons_of_mem _ hname)
      cases segment with
      | literal text => exact hrest
      | param name =>
          rw [checkConstraints, checkConstraints, hrest, checkConstraint, checkConstraint,
            h name List.mem_cons_self]

theorem segmentExpression_congr {segment : Segment}
    (h : ∀ name, segment = .param name →
      constraintOf first name = constraintOf second name) :
    segmentExpression first segment = segmentExpression second segment := by
  cases segment with
  | literal text => rfl
  | param name => rw [segmentExpression, segmentExpression, groupOf, groupOf, h name rfl]

theorem expressionOf_congr {source : List Char}
    (h : ∀ name, .param name ∈ segmentsOf (bodyOf source) →
      constraintOf first name = constraintOf second name) :
    expressionOf source first = expressionOf source second := by
  have hsegments : (segmentsOf (bodyOf source)).flatMap (segmentExpression first) =
      (segmentsOf (bodyOf source)).flatMap (segmentExpression second) := by
    apply List.flatMap_congr
    intro segment hsegment
    apply segmentExpression_congr
    intro name hname
    exact h name (hname ▸ hsegment)
  rw [expressionOf, expressionOf, hsegments]

theorem compile_congr (h : Params.AgreeOn (paramNames source) first second) :
    compile source first = compile source second := by
  -- The names come from the whole text, the constraints are looked up along its body.
  have hbody : ∀ name, .param name ∈ segmentsOf (bodyOf source.toList) →
      constraintOf first name = constraintOf second name := by
    intro name hname
    rw [constraintOf, constraintOf, h _ (mem_names hname)]
  rw [compile, compile, assemble, assemble, checkConstraints_congr hbody,
    expressionOf_congr hbody]

end Pattern

namespace Route

variable {route : Route} {name : String}

theorem Built.setConstraint_unused (hbuilt : route.Built)
    (hname : name ∉ route.pattern.names) (expression : String) :
    setConstraint name expression route =
      .ok () { route with constraints := route.constraints.insert name expression } := by
  have hcompile : Pattern.compile route.pattern.source
      (route.constraints.insert name expression) = .ok route.pattern :=
    (Pattern.compile_congr (Params.agreeOn_insert hname _ _)).trans hbuilt.compiled
  rw [setConstraint_eq, setConstraints_eq, hcompile]

/-- Nothing but its constraints tells one route from another. -/
structure SameButConstraints (first second : Route) : Prop where
  pattern : second.pattern = first.pattern
  matching : ∀ path, second.matchPath? path =
    (first.matchPath? path).map fun matched =>
      { matched with constraints := second.constraints }
  addresses : ∀ label params, second.uriFor label params = first.uriFor label params

theorem sameButConstraints (route : Route) (constraints : Params) :
    route.SameButConstraints { route with constraints := constraints } where
  pattern := rfl
  matching := by
    intro path
    rw [Route.matchPath?, Route.matchPath?, Option.map_map]
    rfl
  addresses := fun _ _ => rfl

/-- Constraints that no placeholder uses have no effect, neither on what a pattern compiles
to nor on what a route matches and which addresses it makes. -/
theorem unused_constraints_inert :
    (∀ (source : String) (first second : Params),
      Params.AgreeOn (paramNames source) first second →
      Pattern.compile source first = Pattern.compile source second) ∧
    ∀ route : Route, route.Built → ∀ name, name ∉ route.pattern.names → ∀ expression,
      ∃ changed, setConstraint name expression route = .ok () changed ∧
        changed.constraints = route.constraints.insert name expression ∧
        route.SameButConstraints changed := by
  constructor
  · intro source first second hagree
    exact Pattern.compile_congr hagree
  · intro route hbuilt name hname expression
    exact ⟨_, hbuilt.setConstraint_unused hname expression, rfl,
      route.sameButConstraints _⟩

/-- Constraints in another order, and one more that is no expression. -/
theorem unused_constraints_inert_invalid :
    ∃ (first second : Params) (pattern : Pattern) (route changed : Route),
      first.toList = [("a", "x+"), ("b", "[0-9]+")] ∧
      second.toList = [("slug", "("), ("b", "[0-9]+"), ("a", "x+")] ∧
      Pattern.compile "/:a/:b" first = .ok pattern ∧
      Pattern.compile "/:a/:b" second = .ok pattern ∧
      route.pattern = pattern ∧ setConstraint "slug" "(" route = .ok () changed ∧
      changed.constraints.toList = [("a", "x+"), ("b", "[0-9]+"), ("slug", "(")] ∧
      route.SameButConstraints changed := by
  obtain ⟨hcompile, hroute⟩ := unused_constraints_inert
  let first : Params := .ofList [("a", "x+"), ("b", "[0-9]+")]
  let second : Params := .ofList [("slug", "("), ("b", "[0-9]+"), ("a", "x+")]
  have hagree : Params.AgreeOn (paramNames "/:a/:b") first second := by
    intro name hname
    rcases List.mem_pair.mp hname with rfl | rfl <;> rfl
  have hcompiles :
      (Pattern.compile "/:a/:b"
        (.ofList [("a", "x+"), ("b", "[0-9]+")])).toOption.isSome := by
    decide +kernel
  obtain ⟨pattern, hpattern⟩ := Option.isSome_iff_exists.mp hcompiles
  rw [toOption_eq_some_iff] at hpattern
  let route : Route := ⟨pattern, first, .empty, "Show", .empty⟩
  have hunused : "slug" ∉ route.pattern.names := by
    rw [Pattern.names, (Pattern.compiled_of_compile hpattern).sourced]
    decide
  obtain ⟨changed, hchanged, hconstraints, hsame⟩ :=
    hroute route ⟨Pattern.compile_source hpattern⟩ "slug" hunused "("
  refine ⟨first, second, pattern, route, changed, rfl, rfl, hpattern, ?_, rfl, hchanged,
    ?_, hsame⟩
  · exact (hcompile _ _ _ hagree).symm.trans hpattern
  · rw [hconstraints]
    rfl

end Route

end Signpost
