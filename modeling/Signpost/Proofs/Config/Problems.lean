import Signpost.Config.Load
import Mathlib.Data.List.DropRight

namespace Signpost

namespace Text

def trim (text : String) : List Char :=
  (text.toList.dropWhile isWhitespace).rdropWhile isWhitespace

theorem isBlank_iff_trim {text : String} : isBlank text ↔ trim text = [] := by
  rw [isBlank, trim, List.all_eq_true, List.rdropWhile_eq_nil_iff]
  constructor
  · exact fun h c hc => h c (List.dropWhile_subset _ hc)
  · intro h
    -- The first character that is left would have to be white space and is not.
    apply List.dropWhile_eq_nil_iff.mp
    by_contra hne
    have hfirst := List.head_dropWhile_not isWhitespace hne
    rw [h _ (List.head_mem hne)] at hfirst
    cases hfirst

end Text

namespace Definition

inductive ReportsName (earlier : List Definition) (definition : Definition) :
    List ConfigProblem → Prop
  | blank (hblank : Text.trim definition.name = []) :
      ReportsName earlier definition [.emptyName earlier.length]
  | again (hnamed : Text.trim definition.name ≠ [])
      (hagain : ∃ other ∈ earlier, other.name = definition.name) :
      ReportsName earlier definition [.duplicateName definition.name]
  | first (hnamed : Text.trim definition.name ≠ [])
      (hfirst : ∀ other ∈ earlier, other.name ≠ definition.name) :
      ReportsName earlier definition []

inductive ReportsAction (definition : Definition) : List ConfigProblem → Prop
  | blank (hblank : Text.trim definition.draft.action = []) :
      ReportsAction definition [.emptyAction definition.name]
  | given (hgiven : Text.trim definition.draft.action ≠ []) : ReportsAction definition []

inductive ReportsStart (definition : Definition) : List ConfigProblem → Prop
  | relative (hstart : ∀ rest, definition.draft.pattern.toList ≠ '/' :: rest) :
      ReportsStart definition [.relativePattern definition.name definition.draft.pattern]
  | absolute {rest : List Char} (hstart : definition.draft.pattern.toList = '/' :: rest) :
      ReportsStart definition []

inductive ReportsCompile (definition : Definition) : List ConfigProblem → Prop
  | refused {cause : RoutingError}
      (hcompile : Pattern.compile definition.draft.pattern definition.draft.constraints =
        .error cause) :
      ReportsCompile definition [.pattern definition.name cause]
  | compiled {pattern : Pattern}
      (hcompile : Pattern.compile definition.draft.pattern definition.draft.constraints =
        .ok pattern) :
      ReportsCompile definition []

/-- An empty pattern is reported alone. -/
inductive ReportsPattern (definition : Definition) : List ConfigProblem → Prop
  | empty (hempty : definition.draft.pattern = "") :
      ReportsPattern definition [.emptyPattern definition.name]
  | given {start compile : List ConfigProblem} (hgiven : definition.draft.pattern ≠ "")
      (hstart : ReportsStart definition start)
      (hcompile : ReportsCompile definition compile) :
      ReportsPattern definition (start ++ compile)

inductive Reports (earlier : List Definition) (definition : Definition) :
    List ConfigProblem → Prop
  | intro {name action pattern : List ConfigProblem}
      (hname : ReportsName earlier definition name)
      (haction : ReportsAction definition action)
      (hpattern : ReportsPattern definition pattern) :
      Reports earlier definition (name ++ action ++ pattern)

variable {definition changed : Definition} {earlier definitions : List Definition}
  {seen : List String} {index : Nat}

def Sees (earlier : List Definition) (seen : List String) : Prop :=
  ∀ name, name ∈ seen ↔ ∃ other ∈ earlier, other.name = name

theorem reportsName_nameProblems (hseen : Sees earlier seen) :
    ReportsName earlier definition (definition.nameProblems earlier.length seen) := by
  rw [nameProblems]
  split
  · rename_i hblank
    exact .blank (Text.isBlank_iff_trim.mp hblank)
  · rename_i hblank
    have hnamed := mt Text.isBlank_iff_trim.mpr hblank
    split
    · rename_i hagain
      exact .again hnamed ((hseen _).mp hagain)
    · rename_i hnew
      exact .first hnamed fun other hother heq => hnew ((hseen _).mpr ⟨other, hother, heq⟩)

theorem reportsAction_actionProblems :
    ReportsAction definition definition.actionProblems := by
  rw [actionProblems]
  split
  · rename_i hblank
    exact .blank (Text.isBlank_iff_trim.mp hblank)
  · rename_i hblank
    exact .given (mt Text.isBlank_iff_trim.mpr hblank)

theorem reportsStart_startProblems : ReportsStart definition definition.startProblems := by
  rw [startProblems]
  cases htext : definition.draft.pattern.toList with
  | nil => exact .relative fun rest heq => List.cons_ne_nil _ _ (heq.symm.trans htext)
  | cons c rest =>
      split
      · rename_i hslash
        obtain rfl := Option.some.inj hslash
        exact .absolute htext
      · rename_i hslash
        refine .relative fun others heq => hslash ?_
        rw [← htext, heq]
        rfl

theorem reportsCompile_compileProblems :
    ReportsCompile definition definition.compileProblems := by
  rw [compileProblems]
  split
  · rename_i pattern hcompile
    exact .compiled hcompile
  · rename_i cause hcompile
    exact .refused hcompile

theorem reportsPattern_patternProblems :
    ReportsPattern definition definition.patternProblems := by
  rw [patternProblems]
  split
  · rename_i hempty
    exact .empty (String.isEmpty_iff.mp hempty)
  · rename_i hempty
    exact .given (mt String.isEmpty_iff.mpr hempty) reportsStart_startProblems
      reportsCompile_compileProblems

theorem reports_problems (hseen : Sees earlier seen) :
    Reports earlier definition (definition.problems earlier.length seen) :=
  .intro (reportsName_nameProblems hseen) reportsAction_actionProblems
    reportsPattern_patternProblems

/-! The blocks of definitions in order, from a place on. -/

def blocksFrom (index : Nat) (seen : List String) :
    List Definition → List (List ConfigProblem)
  | [] => []
  | definition :: rest =>
      definition.problems index seen :: blocksFrom (index + 1)
        (definition.name :: seen) rest

theorem problemsFrom_eq_flatten (index : Nat) (seen : List String)
    (definitions : List Definition) :
    problemsFrom index seen definitions = (blocksFrom index seen definitions).flatten := by
  induction definitions generalizing index seen with
  | nil => rfl
  | cons definition rest ih => rw [problemsFrom, blocksFrom, List.flatten_cons, ih]

theorem length_blocksFrom (index : Nat) (seen : List String)
    (definitions : List Definition) :
    (blocksFrom index seen definitions).length = definitions.length := by
  induction definitions generalizing index seen with
  | nil => rfl
  | cons definition rest ih => rw [blocksFrom, List.length_cons, List.length_cons, ih]

theorem Sees.append (hseen : Sees earlier seen) (definition : Definition) :
    Sees (earlier ++ [definition]) (definition.name :: seen) := by
  intro name
  rw [List.mem_cons, hseen name]
  simp only [List.mem_append, List.mem_singleton, or_and_right, exists_or, exists_eq_left]
  rw [or_comm, eq_comm]

theorem blocksFrom_at (hseen : Sees earlier seen)
    (hindex : definitions[index]? = some definition) :
    (∃ block, (blocksFrom earlier.length seen definitions)[index]? = some block ∧
      Reports (earlier ++ definitions.take index) definition block) ∧
    ∀ changed : Definition, changed.name = definition.name →
      ∃ block, Reports (earlier ++ definitions.take index) changed block ∧
        blocksFrom earlier.length seen (definitions.set index changed) =
          (blocksFrom earlier.length seen definitions).set index block := by
  induction definitions generalizing earlier seen index with
  | nil => cases hindex
  | cons first rest ih =>
      cases index with
      | zero =>
          obtain rfl := Option.some.inj hindex
          rw [List.take_zero, List.append_nil]
          refine ⟨⟨_, rfl, reports_problems hseen⟩, fun changed hname => ?_⟩
          refine ⟨_, reports_problems hseen, ?_⟩
          rw [List.set_cons_zero, blocksFrom, blocksFrom, List.set_cons_zero, hname]
      | succ index =>
          have hrest := ih (hseen.append first) hindex
          rw [List.length_append, List.append_assoc] at hrest
          obtain ⟨hblock, hchanged⟩ := hrest
          refine ⟨hblock, fun changed hname => ?_⟩
          obtain ⟨block, hreports, hset⟩ := hchanged changed hname
          refine ⟨block, hreports, ?_⟩
          rw [List.set_cons_succ, blocksFrom, blocksFrom, List.set_cons_succ]
          exact congrArg _ hset

/-! Names that come again. -/

theorem count_duplicateName_problems {name : String} (hname : Text.trim name ≠ [])
    (index : Nat) (seen : List String) :
    (definition.problems index seen).count (.duplicateName name) =
      if definition.name = name ∧ name ∈ seen then 1 else 0 := by
  have haction : definition.actionProblems.count (.duplicateName name) = 0 := by
    rw [actionProblems]
    split <;> rfl
  have hstart : definition.startProblems.count (.duplicateName name) = 0 := by
    rw [startProblems]
    split <;> rfl
  have hcompile : definition.compileProblems.count (.duplicateName name) = 0 := by
    rw [compileProblems]
    split <;> rfl
  have hpattern : definition.patternProblems.count (.duplicateName name) = 0 := by
    rw [patternProblems]
    split
    · rfl
    · rw [List.count_append, hstart, hcompile]
  rw [problems, List.count_append, List.count_append, haction, hpattern, nameProblems]
  by_cases heq : definition.name = name
  · subst heq
    rw [if_neg (mt Text.isBlank_iff_trim.mp hname)]
    by_cases hseen : definition.name ∈ seen
    · simp [hseen]
    · simp [hseen]
  · have hother : ¬ (definition.name = name ∧ name ∈ seen) := fun h => heq h.1
    rw [if_neg hother]
    split
    · rfl
    · split
      · simp [heq]
      · rfl

/-- A name that has been seen counts every time, another one every time but the first. -/
theorem count_duplicateName {name : String} (hname : Text.trim name ≠ []) (index : Nat)
    (seen : List String) (definitions : List Definition) :
    (problemsFrom index seen definitions).count (.duplicateName name) =
      (definitions.map Definition.name).count name - if name ∈ seen then 0 else 1 := by
  induction definitions generalizing index seen with
  | nil => simp [problemsFrom]
  | cons definition rest ih =>
      rw [problemsFrom, List.count_append, count_duplicateName_problems hname, ih,
        List.map_cons, List.count_cons]
      by_cases heq : definition.name = name
      · subst heq
        by_cases hseen : definition.name ∈ seen
        · simp [hseen, Nat.add_comm]
        · simp [hseen]
      · have hne : ¬ name = definition.name := fun h => heq h.symm
        simp [heq, hne, List.mem_cons]

end Definition

namespace Config

open Definition

theorem check_eq (config : Config) :
    ((∃ accepted, config.check = .ok accepted) ↔ config.problems = []) ∧
      (config.problems ≠ [] → config.check = .error (.invalid config.problems)) := by
  rw [check]
  split
  · rename_i hnone
    exact ⟨iff_of_true ⟨config, rfl⟩ hnone, fun hsome => absurd hnone hsome⟩
  · rename_i hsome
    exact ⟨iff_of_false (fun haccepted => nomatch haccepted) hsome, fun _ => rfl⟩

/-- The problems are the one with the timeout and then a block for every route in order. -/
theorem problems_complete (config : Config) :
    ∃ (timeout : List ConfigProblem) (blocks : List (List ConfigProblem)),
      config.problems = timeout ++ blocks.flatten ∧
      (timeout = if config.server.requestTimeout = 0 then [.zeroTimeout] else []) ∧
      blocks.length = config.routes.length ∧
      (∀ index definition, config.routes[index]? = some definition →
        (∃ block, blocks[index]? = some block ∧
          Reports (config.routes.take index) definition block) ∧
        ∀ changed : Definition, changed.name = definition.name →
          ∃ block, Reports (config.routes.take index) changed block ∧
            problems { config with routes := config.routes.set index changed } =
              timeout ++ (blocks.set index block).flatten) ∧
      ((∃ accepted, config.check = .ok accepted) ↔ config.problems = []) ∧
      (config.problems ≠ [] → config.check = .error (.invalid config.problems)) ∧
      ∀ name, Text.trim name ≠ [] → config.problems.count (.duplicateName name) =
        (config.routes.map Definition.name).count name - 1 := by
  have hseen : Sees [] [] := fun name => iff_of_false List.not_mem_nil (by simp)
  obtain ⟨haccepted, hrefused⟩ := config.check_eq
  refine ⟨config.timeoutProblems, blocksFrom 0 [] config.routes, ?_, rfl,
    length_blocksFrom 0 [] config.routes, ?_, haccepted, hrefused, ?_⟩
  · rw [problems, problemsFrom_eq_flatten]
  · intro index definition hindex
    obtain ⟨hblock, hchanged⟩ := blocksFrom_at hseen hindex
    refine ⟨hblock, fun changed hname => ?_⟩
    obtain ⟨block, hreports, hset⟩ := hchanged changed hname
    refine ⟨block, hreports, ?_⟩
    rw [problems, problemsFrom_eq_flatten]
    exact congrArg _ (congrArg _ hset)
  · intro name hname
    have htimeout : config.timeoutProblems.count (.duplicateName name) = 0 := by
      rw [timeoutProblems]
      split <;> rfl
    rw [problems, List.count_append, htimeout, count_duplicateName hname, Nat.zero_add]
    rfl

/-- Three routes of one name, the second of which gets a pattern in place of an empty
one. -/
theorem problems_complete_thrice :
    ∃ (config : Config) (empty changed : Definition) (timeout : List ConfigProblem)
      (blocks : List (List ConfigProblem)) (block : List ConfigProblem),
      config.routes.map Definition.name = ["a", "a", "a"] ∧ Text.trim "a" ≠ [] ∧
      config.problems.count (.duplicateName "a") = 2 ∧
      config.routes[1]? = some empty ∧ empty.draft.pattern = "" ∧
        changed.name = empty.name ∧
      config.problems = timeout ++ blocks.flatten ∧
      Reports (config.routes.take 1) changed block ∧
      problems { config with routes := config.routes.set 1 changed } =
        timeout ++ (blocks.set 1 block).flatten := by
  let config : Config :=
    { routes :=
        [⟨"a", { pattern := "/a", action := "A" }⟩,
          ⟨"a", { pattern := "", action := "A" }⟩,
          ⟨"a", { pattern := "c", action := " " }⟩] }
  obtain ⟨timeout, blocks, hproblems, -, -, hblocks, -, -, hcount⟩ :=
    problems_complete config
  let changed : Definition := ⟨"a", { pattern := "/b", action := "A" }⟩
  obtain ⟨-, hchanged⟩ := hblocks 1 ⟨"a", { pattern := "", action := "A" }⟩ rfl
  obtain ⟨block, hreports, hset⟩ := hchanged changed rfl
  have hnamed : Text.trim "a" ≠ [] := by decide
  exact ⟨config, _, changed, timeout, blocks, block, rfl, hnamed, hcount "a" hnamed, rfl,
    rfl, rfl, hproblems, hreports, hset⟩

end Config

end Signpost
