import Signpost.Proofs.Route.Built

namespace Signpost.Route

variable {α : Type} {route : Route}

theorem Change.get_bind (next : Route → Change α) (route : Route) :
    (get >>= next) route = next route route := rfl

theorem setPattern_eq (source : String) (route : Route) :
    setPattern source route =
      match Pattern.compile source route.constraints with
      | .ok pattern => .ok () { route with pattern := pattern }
      | .error cause => .error cause route := by
  rw [setPattern, Change.get_bind, Change.compile]
  cases Pattern.compile source route.constraints <;> rfl

theorem setConstraints_eq (constraints : Params) (route : Route) :
    setConstraints constraints route =
      match Pattern.compile route.pattern.source constraints with
      | .ok pattern => .ok () { route with pattern := pattern, constraints := constraints }
      | .error cause => .error cause route := by
  rw [setConstraints, Change.get_bind, Change.compile]
  cases Pattern.compile route.pattern.source constraints <;> rfl

theorem setConstraint_eq (name expression : String) (route : Route) :
    setConstraint name expression route =
      setConstraints (route.constraints.insert name expression) route := rfl

theorem become_eq (path : String) (route : Route) :
    become path route =
      match route.matchPath? path with
      | some matched => .ok true matched
      | none => .ok false route := by
  rw [become, Change.get_bind]
  cases route.matchPath? path <;> rfl

theorem Change.discard_eq (change : Change α) (route : Route) :
    Functor.discard change route =
      match change route with
      | .ok _ left => .ok () left
      | .error cause left => .error cause left := by
  change EStateM.map _ change route = _
  rw [EStateM.map]
  cases change route <;> rfl

/-! What all changes have in common.  The compiled pattern follows the text and the
constraints, and it is compiled before anything is stored. -/

structure Change.Sound (change : Change α) : Prop where
  made : ∀ {route left : Route} {value : α},
    route.Built → change route = .ok value left → left.Built
  refused : ∀ {route left : Route} {cause : RoutingError},
    change route = .error cause left → left = route

/-- A change that compiles first and stores the pattern along with what it was compiled
from. -/
theorem Change.Sound.of_compile {change : Change Unit} {source : Route → String}
    {constraints : Route → Params} {stored : Route → Pattern → Route}
    (hchange : ∀ route, change route =
      match Pattern.compile (source route) (constraints route) with
      | .ok pattern => .ok () (stored route pattern)
      | .error cause => .error cause route)
    (hpattern : ∀ route pattern, (stored route pattern).pattern = pattern)
    (hconstraints :
      ∀ route pattern, (stored route pattern).constraints = constraints route) :
    change.Sound where
  made := by
    intro route left value hbuilt hmade
    rw [hchange] at hmade
    cases hcompile : Pattern.compile (source route) (constraints route) with
    | error cause =>
        rw [hcompile] at hmade
        cases hmade
    | ok pattern =>
        rw [hcompile] at hmade
        cases hmade
        constructor
        rw [hpattern, hconstraints]
        exact Pattern.compile_source hcompile
  refused := by
    intro route left cause hrefused
    rw [hchange] at hrefused
    cases hcompile : Pattern.compile (source route) (constraints route) with
    | error cause =>
        rw [hcompile] at hrefused
        cases hrefused
        rfl
    | ok pattern =>
        rw [hcompile] at hrefused
        cases hrefused

theorem Change.Sound.discard {change : Change α} (h : change.Sound) :
    Change.Sound (Functor.discard change) where
  made := by
    intro route left value hbuilt hmade
    rw [discard_eq] at hmade
    cases hchange : change route with
    | error cause other =>
        rw [hchange] at hmade
        cases hmade
    | ok result other =>
        rw [hchange] at hmade
        cases hmade
        exact h.made hbuilt hchange
  refused := by
    intro route left cause hrefused
    rw [discard_eq] at hrefused
    cases hchange : change route with
    | error cause other =>
        rw [hchange] at hrefused
        cases hrefused
        exact h.refused hchange
    | ok result other =>
        rw [hchange] at hrefused
        cases hrefused

theorem sound_setPattern (source : String) : (setPattern source).Sound := by
  apply Change.Sound.of_compile (setPattern_eq source)
  · intro route pattern
    rfl
  · intro route pattern
    rfl

theorem sound_setConstraints (constraints : Params) :
    (setConstraints constraints).Sound := by
  apply Change.Sound.of_compile (setConstraints_eq constraints)
  · intro route pattern
    rfl
  · intro route pattern
    rfl

theorem sound_setConstraint (name expression : String) :
    (setConstraint name expression).Sound where
  made := by
    intro route left value hbuilt hmade
    rw [setConstraint_eq] at hmade
    exact (sound_setConstraints _).made hbuilt hmade
  refused := by
    intro route left cause hrefused
    rw [setConstraint_eq] at hrefused
    exact (sound_setConstraints _).refused hrefused

theorem sound_setValue (name value : String) : (setValue name value).Sound where
  made := by
    intro route left result hbuilt hmade
    cases hmade
    exact ⟨hbuilt.compiled⟩
  refused := by
    intro route left cause hrefused
    cases hrefused

theorem sound_become (path : String) : (become path).Sound where
  made := by
    intro route left value hbuilt hmade
    rw [become_eq] at hmade
    cases hmatch : route.matchPath? path with
    | none =>
        rw [hmatch] at hmade
        cases hmade
        exact hbuilt
    | some matched =>
        rw [hmatch] at hmade
        cases hmade
        exact hbuilt.matchPath? hmatch
  refused := by
    intro route left cause hrefused
    rw [become_eq] at hrefused
    split at hrefused <;> cases hrefused

theorem Operation.sound (operation : Operation) : operation.change.Sound := by
  cases operation with
  | setPattern source => exact sound_setPattern source
  | setConstraints constraints => exact sound_setConstraints constraints
  | setConstraint name expression => exact sound_setConstraint name expression
  | setValue name value => exact sound_setValue name value
  | become path => exact (sound_become path).discard

theorem Change.Sound.built_left {change : Change α} (h : change.Sound)
    (hbuilt : route.Built) :
    (change.left route).Built := by
  rw [Change.left]
  cases hchange : change route with
  | ok value left => exact h.made hbuilt hchange
  | error cause left =>
      rw [h.refused hchange]
      exact hbuilt

theorem Change.Sound.left_of_error {change : Change α} (h : change.Sound)
    {cause : RoutingError} {left : Route} (hrefused : change route = .error cause left) :
    change.left route = route := by
  rw [Change.left, hrefused]
  exact h.refused hrefused

theorem Built.after (hbuilt : route.Built) (operations : List Operation) :
    (route.after operations).Built := by
  induction operations generalizing route with
  | nil => exact hbuilt
  | cons operation rest ih => exact ih (operation.sound.built_left hbuilt)

theorem after_append (route : Route) (earlier later : List Operation) :
    route.after (earlier ++ later) = (route.after earlier).after later :=
  List.foldl_append

/-- The draft that calls with everything a route holds now lead to. -/
def redraft (route : Route) : RouteDraft :=
  .ofCalls route.pattern.source route.action
    [.withConstraints route.constraints, .withValues route.values, .withArgs route.args]

theorem Built.build_redraft (hbuilt : route.Built) : route.redraft.build = .ok route := by
  change (do
    let pattern ← Pattern.compile route.pattern.source route.constraints
    pure (Route.mk pattern route.constraints route.values route.action route.args)) = _
  rw [hbuilt.compiled]
  rfl

/-- Nothing that a route can be asked tells two routes apart. -/
structure Alike (first second : Route) : Prop where
  equal : (first == second) = true
  expression : first.pattern.expression = second.pattern.expression
  folder : first.pattern.isFolder = second.pattern.isFolder
  names : first.pattern.names = second.pattern.names
  matching : ∀ path, first.matchPath? path = second.matchPath? path
  addresses : ∀ params, first.uri params = second.uri params

@[simp] theorem beq_self (route : Route) : (route == route) = true := by
  have hpattern : (route.pattern == route.pattern) = true := by
    change (decide (route.pattern.source = route.pattern.source) &&
      decide (route.pattern.expression = route.pattern.expression)) = true
    simp
  change (route.pattern == route.pattern && route.constraints == route.constraints &&
    route.values == route.values && route.action == route.action &&
    route.args == route.args) = true
  simp [hpattern]

theorem Alike.refl (route : Route) : route.Alike route :=
  ⟨beq_self route, rfl, rfl, rfl, fun _ => rfl, fun _ => rfl⟩

/-- A route is never out of date, and a change that ends in an error changes nothing. -/
theorem never_stale {pattern action : String} {calls : List RouteDraft.Call}
    {start : Route} (hbuild : (RouteDraft.ofCalls pattern action calls).build = .ok start)
    (operations : List Operation) :
    (∃ fresh, (start.after operations).redraft.build = .ok fresh ∧
      fresh.Alike (start.after operations)) ∧
    ∀ earlier operation later, operations = earlier ++ operation :: later →
      ∀ cause left, operation.change (start.after earlier) = .error cause left →
        left = start.after earlier ∧
        start.after (earlier ++ [operation]) = start.after earlier := by
  have hbuilt : start.Built := RouteDraft.built_of_build hbuild
  constructor
  · exact ⟨_, (hbuilt.after operations).build_redraft, Alike.refl _⟩
  · intro earlier operation later _ cause left hrefused
    constructor
    · exact operation.sound.refused hrefused
    · rw [after_append]
      exact operation.sound.left_of_error hrefused

/-- A constraint that is no expression is stored as long as nothing uses it, and then it
keeps a pattern that would use it out. -/
theorem never_stale_unused : ∃ start cause left,
    (RouteDraft.ofCalls "/users/:id" "UserShow" [.constrain "id" "[0-9]+"]).build =
      .ok start ∧
    Operation.change (.setPattern "/:slug") (start.after [.setConstraint "slug" "("]) =
      .error cause left ∧
    left = start.after [.setConstraint "slug" "("] ∧
    ∃ fresh,
      (start.after
        [.setConstraint "slug" "(", .setPattern "/:slug",
          .become "/users/7"]).redraft.build =
          .ok fresh ∧
      fresh.Alike
        (start.after [.setConstraint "slug" "(", .setPattern "/:slug",
          .become "/users/7"]) := by
  obtain ⟨start, cause, left, hbuild, hchange⟩ : ∃ start cause left,
      (RouteDraft.ofCalls "/users/:id" "UserShow" [.constrain "id" "[0-9]+"]).build =
        .ok start ∧
      Operation.change (.setPattern "/:slug") (start.after [.setConstraint "slug" "("]) =
        .error cause left := ⟨_, _, _, rfl, rfl⟩
  obtain ⟨hfresh, hkept⟩ := never_stale hbuild
    [.setConstraint "slug" "(", .setPattern "/:slug", .become "/users/7"]
  have hleft := hkept [.setConstraint "slug" "("] (.setPattern "/:slug")
    [.become "/users/7"] rfl cause left hchange
  exact ⟨start, cause, left, hbuild, hchange, hleft.1, hfresh⟩

end Signpost.Route
