import Signpost.Config.Load
import Signpost.Proofs.OrderedMap
import Signpost.Proofs.Pattern.Compiled
import Signpost.Router

namespace Signpost

/-- The error that keeps a definition out of a router. -/
def Definition.refusal? (definition : Definition) : Option RoutingError :=
  match Pattern.compile definition.draft.pattern definition.draft.constraints with
  | .ok _ => none
  | .error cause => some cause

def ConfigProblem.cause? : ConfigProblem → Option RoutingError
  | .pattern _ cause => some cause
  | _ => none

theorem Pattern.compile_empty (constraints : Params) :
    ∃ pattern, Pattern.compile "" constraints = .ok pattern := ⟨_, rfl⟩

namespace Definition

variable (definition : Definition)

theorem build_eq : definition.draft.build =
    (Pattern.compile definition.draft.pattern definition.draft.constraints).map
      fun pattern => ⟨pattern, definition.draft.constraints, definition.draft.values,
        definition.draft.action, definition.draft.args⟩ := by
  rw [RouteDraft.build]
  cases Pattern.compile definition.draft.pattern definition.draft.constraints <;> rfl

theorem build_error_iff {cause : RoutingError} :
    definition.draft.build = .error cause ↔ definition.refusal? = some cause := by
  rw [build_eq, refusal?]
  cases Pattern.compile definition.draft.pattern definition.draft.constraints with
  | ok pattern => simp [Except.map]
  | error cause => simp [Except.map]

theorem refusal?_of_empty (hempty : definition.draft.pattern.isEmpty) :
    definition.refusal? = none := by
  obtain ⟨pattern, hpattern⟩ := Pattern.compile_empty definition.draft.constraints
  rw [refusal?, String.isEmpty_iff.mp hempty, hpattern]

theorem cause?_nameProblems (index : Nat) (seen : List String) :
    (definition.nameProblems index seen).findSome? ConfigProblem.cause? = none := by
  rw [nameProblems]
  split
  · rfl
  · split <;> rfl

theorem cause?_actionProblems :
    definition.actionProblems.findSome? ConfigProblem.cause? = none := by
  rw [actionProblems]
  split <;> rfl

theorem cause?_startProblems :
    definition.startProblems.findSome? ConfigProblem.cause? = none := by
  rw [startProblems]
  split <;> rfl

theorem cause?_patternProblems :
    definition.patternProblems.findSome? ConfigProblem.cause? = definition.refusal? := by
  rw [patternProblems]
  split
  · rename_i hempty
    rw [refusal?_of_empty definition hempty]
    rfl
  · rw [List.findSome?_append, cause?_startProblems, Option.none_or, compileProblems,
      refusal?]
    cases Pattern.compile definition.draft.pattern definition.draft.constraints <;> rfl

theorem cause?_problems (index : Nat) (seen : List String) :
    (definition.problems index seen).findSome? ConfigProblem.cause? =
      definition.refusal? := by
  rw [problems, List.findSome?_append, List.findSome?_append, cause?_nameProblems,
    cause?_actionProblems, cause?_patternProblems]
  rfl

theorem cause?_problemsFrom (index : Nat) (seen : List String)
    (definitions : List Definition) :
    (problemsFrom index seen definitions).findSome? ConfigProblem.cause? =
      definitions.findSome? refusal? := by
  induction definitions generalizing index seen with
  | nil => rfl
  | cons definition rest ih =>
      rw [problemsFrom, List.findSome?_append, cause?_problems, ih, List.findSome?_cons]
      cases definition.refusal? <;> rfl

end Definition

/-! The builder stops at the first pattern error. -/

theorem Router.define_error_iff {table : RouteTable} {definitions : List Definition}
    {cause : RoutingError} :
    define table definitions = .error cause ↔
      definitions.findSome? Definition.refusal? = some cause := by
  induction definitions generalizing table with
  | nil => simp [define]
  | cons definition rest ih =>
      rw [List.findSome?_cons, define]
      cases hbuild : definition.draft.build with
      | error refusal =>
          rw [(definition.build_error_iff).mp hbuild]
          simp
      | ok route =>
          have hnone : definition.refusal? = none := by
            cases hrefusal : definition.refusal? with
            | none => rfl
            | some refusal =>
                rw [(definition.build_error_iff).mpr hrefusal] at hbuild
                cases hbuild
          rw [hnone]
          exact ih

theorem Router.ofDefinitions_error_iff {definitions : List Definition}
    {cause : RoutingError} :
    ofDefinitions definitions = .error cause ↔
      definitions.findSome? Definition.refusal? = some cause := by
  have hdefine := @define_error_iff OrderedMap.empty definitions cause
  rw [← hdefine, ofDefinitions]
  cases define OrderedMap.empty definitions with
  | error refusal => simp
  | ok table => simp

theorem Config.cause?_problems (config : Config) :
    config.problems.findSome? ConfigProblem.cause? =
      config.routes.findSome? Definition.refusal? := by
  have htimeout : config.timeoutProblems.findSome? ConfigProblem.cause? = none := by
    rw [timeoutProblems]
    split <;> rfl
  rw [problems, List.findSome?_append, htimeout, Option.none_or,
    Definition.cause?_problemsFrom]

/-- An entry of the table for a definition: a route built from its draft, under its
name. -/
structure Registers (definition : Definition) (entry : String × Route) : Prop where
  name : entry.1 = definition.name
  draft : entry.2.draft = definition.draft
  built : definition.draft.build = .ok entry.2

theorem Definition.registers_of_refusal? {definition : Definition}
    (h : definition.refusal? = none) :
    ∃ route, definition.draft.build = .ok route ∧
      Registers definition (definition.name, route) := by
  cases hcompile :
      Pattern.compile definition.draft.pattern definition.draft.constraints with
  | error cause =>
      rw [refusal?, hcompile] at h
      cases h
  | ok pattern =>
      have hbuild := definition.build_eq
      rw [hcompile] at hbuild
      have hsource := (Pattern.compiled_of_compile hcompile).sourced
      refine ⟨_, hbuild, rfl, ?_, hbuild⟩
      rw [Route.draft, hsource]

theorem Definition.new_of_problems {definition : Definition} {index : Nat}
    {seen : List String} (h : definition.problems index seen = []) :
    definition.name ∉ seen := by
  intro hseen
  have hnames := (List.append_eq_nil_iff.mp (List.append_eq_nil_iff.mp h).1).1
  rw [nameProblems, if_pos hseen] at hnames
  split at hnames <;> cases hnames

theorem Router.define_registers {definitions : List Definition} {index : Nat}
    {seen : List String} {table : RouteTable} (hseen : ∀ key ∈ table.keys, key ∈ seen)
    (hproblems : Definition.problemsFrom index seen definitions = []) :
    ∃ final entries, define table definitions = .ok final ∧
      final.toList = table.toList ++ entries ∧
        List.Forall₂ Registers definitions entries := by
  induction definitions generalizing index seen table with
  | nil => exact ⟨table, [], rfl, (List.append_nil _).symm, .nil⟩
  | cons definition rest ih =>
      obtain ⟨hfirst, hrest⟩ := List.append_eq_nil_iff.mp hproblems
      have hrefusal : definition.refusal? = none := by
        rw [← definition.cause?_problems index seen, hfirst]
        rfl
      obtain ⟨route, hbuild, hregisters⟩ := Definition.registers_of_refusal? hrefusal
      have hnew : definition.name ∉ table.keys :=
        fun hkey => Definition.new_of_problems hfirst (hseen _ hkey)
      have hkeys : ∀ key ∈ (table.insert definition.name route).keys,
          key ∈ definition.name :: seen := by
        intro key hkey
        rw [OrderedMap.keys_insert, if_neg hnew] at hkey
        rcases List.mem_append.mp hkey with hold | hname
        · exact List.mem_cons_of_mem _ (hseen key hold)
        · exact List.mem_singleton.mp hname ▸ List.mem_cons_self
      obtain ⟨final, entries, hdefine, hlist, hentries⟩ := ih hkeys hrest
      refine ⟨final, (definition.name, route) :: entries, ?_, ?_,
        .cons hregisters hentries⟩
      · rw [define, hbuild]
        exact hdefine
      · rw [hlist, OrderedMap.toList_insert_of_notMem hnew, List.append_assoc,
          List.singleton_append]

theorem Router.ofDefinitions_registers {config : Config} (h : config.problems = []) :
    ∃ router, ofDefinitions config.routes = .ok router ∧
      List.Forall₂ Registers config.routes router.routes.toList := by
  have hkeys : ∀ key ∈ (OrderedMap.empty : RouteTable).keys, key ∈ ([] : List String) := by
    intro key hkey
    cases hkey
  obtain ⟨final, entries, hdefine, hlist, hentries⟩ :=
    define_registers hkeys (List.append_eq_nil_iff.mp h).2
  refine ⟨⟨final⟩, ?_, ?_⟩
  · rw [ofDefinitions, hdefine]
    rfl
  · rw [hlist]
    exact hentries

theorem Config.problems_of_parse {text : String} {config : Config}
    (h : parse text = .ok config) : config.problems = [] := by
  rw [parse] at h
  cases hdecode : decodeToml text with
  | error cause =>
      rw [hdecode] at h
      cases h
  | ok decoded =>
      simp only [hdecode, check] at h
      split at h
      · rename_i hnone
        obtain rfl := Except.ok.inj h
        exact hnone
      · cases h

theorem Config.problems_of_load {content : Option (List UInt8)} {config : Config}
    (h : load content = .ok config) : config.problems = [] := by
  rw [load] at h
  split at h
  · exact problems_of_parse h
  · cases h

theorem ConfigProblem.exists_cause?_iff (problems : List ConfigProblem) :
    (∃ cause, problems.findSome? cause? = some cause) ↔
      ∃ name cause, .pattern name cause ∈ problems := by
  rw [← Option.isSome_iff_exists, List.findSome?_isSome_iff]
  constructor
  · rintro ⟨problem, hmem, hcause⟩
    cases problem with
    | pattern name cause => exact ⟨name, cause, hmem⟩
    | _ => cases hcause
  · rintro ⟨name, cause, hmem⟩
    exact ⟨_, hmem, rfl⟩

/-- Validation and registration agree on every configuration. -/
theorem Config.registration_agrees (config : Config) :
    (config.problems = [] → ∃ router, Router.ofDefinitions config.routes = .ok router ∧
      List.Forall₂ Registers config.routes router.routes.toList) ∧
    (∀ cause, Router.ofDefinitions config.routes = .error cause ↔
      config.problems.findSome? ConfigProblem.cause? = some cause) ∧
    ((∃ cause, Router.ofDefinitions config.routes = .error cause) ↔
      ∃ name cause, .pattern name cause ∈ config.problems) ∧
    ∀ text, Config.parse text = .ok config →
      ∃ router, Router.ofDefinitions config.routes = .ok router := by
  have herror : ∀ cause, Router.ofDefinitions config.routes = .error cause ↔
      config.problems.findSome? ConfigProblem.cause? = some cause := by
    intro cause
    rw [Router.ofDefinitions_error_iff, config.cause?_problems]
  refine ⟨Router.ofDefinitions_registers, herror, ?_, fun text htext => ?_⟩
  · simp only [herror, ConfigProblem.exists_cause?_iff]
  · obtain ⟨router, hrouter, -⟩ :=
      Router.ofDefinitions_registers (problems_of_parse htext)
    exact ⟨router, hrouter⟩

theorem Config.registration_agrees_users :
    ∃ config : Config, config.problems = [] ∧ config.routes.length = 2 ∧
      ∃ router, Router.ofDefinitions config.routes = .ok router ∧
        List.Forall₂ Registers config.routes router.routes.toList := by
  let config : Config :=
    { routes := [⟨"users", { pattern := "/users", action := "UserList" }⟩,
        ⟨"user", { pattern := "/users/:id", action := "UserShow" }⟩] }
  have hproblems : config.problems = [] := rfl
  exact ⟨config, hproblems, rfl, (registration_agrees config).1 hproblems⟩

end Signpost
