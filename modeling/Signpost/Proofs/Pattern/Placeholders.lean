import Signpost.Proofs.Pattern.Matching

namespace Signpost

open Pattern

variable {constraints : Params} {source : String} {pattern : Pattern} {path : String}
  {captured : Params}

namespace Pattern

theorem Decomposes.length_values {admits : List Char → List Char → Prop}
    {source path : List Char} {values : List (List Char)}
    (h : Decomposes admits source path values) :
    values.length = ((segmentsOf source).filterMap Segment.name?).length := by
  obtain ⟨spelt, slash, -, hspells, -⟩ := h
  rw [hspells.length_values, names_bodyOf]

theorem uncommented_constraintOf
    (huncommented : ∀ name ∈ paramNames source, ∀ constraint,
      constraints.get? name = some constraint → '#' ∉ constraint.toList)
    {name : List Char} (hname : .param name ∈ segmentsOf (bodyOf source.toList)) :
    '#' ∉ constraintOf constraints name := by
  cases hgiven : constraints.get? (String.ofList name) with
  | none =>
      rw [constraintOf_default hgiven]
      decide
  | some constraint =>
      rw [constraintOf, hgiven, Option.getD_some]
      exact huncommented _ (mem_names hname) constraint hgiven

theorem Compiled.keys_captured (hcompiled : Compiled source constraints pattern)
    (huncommented : ∀ name ∈ paramNames source, ∀ constraint,
      constraints.get? name = some constraint → '#' ∉ constraint.toList)
    (hcaptured : pattern.captures? path = some captured) :
    captured.keys = paramNames source := by
  obtain ⟨values, hdecomposes, hlist⟩ := hcompiled.captures?_spelt
    (fun name hname => uncommented_constraintOf huncommented hname) hcaptured
  have hlength : (paramNames source).length = (values.map String.ofList).length := by
    rw [List.length_map, hdecomposes.length_values]
    rfl
  change captured.toList.map Prod.fst = _
  rw [hlist, List.map_fst_zip hlength.le]

/-- Every placeholder is captured, in the order of the pattern.  Behind a number sign a
verbose constraint would take the rest of its line as a comment, and with it the
parenthesis that closes the group of its placeholder. -/
theorem captures_every_placeholder (hcompile : compile source constraints = .ok pattern)
    (huncommented : ∀ name ∈ pattern.names, ∀ constraint,
      constraints.get? name = some constraint → '#' ∉ constraint.toList)
    (hcaptured : pattern.captures? path = some captured) :
    captured.keys = pattern.names := by
  have hcompiled := compiled_of_compile hcompile
  have hnames : pattern.names = paramNames source := by rw [names, hcompiled.sourced]
  rw [hnames] at huncommented ⊢
  exact hcompiled.keys_captured huncommented hcaptured

/-- An inner group, a condition on a position, and a verbose constraint. -/
theorem captures_every_placeholder_verbose :
    ∃ constraints pattern captured,
      constraints = OrderedMap.ofList
        [("lang", "(en|fr)\\b"), ("page", "(?x) ^ x | [a-z]+ $")] ∧
      compile "/:lang/:page" constraints = .ok pattern ∧
      (∀ name ∈ pattern.names, ∀ constraint,
        constraints.get? name = some constraint → '#' ∉ constraint.toList) ∧
      pattern.captures? "/fr/intro" = some captured ∧
      captured.toList = [("lang", "fr"), ("page", "intro")] ∧
      captured.keys = pattern.names := by
  let constraints : Params :=
    .ofList [("lang", "(en|fr)\\b"), ("page", "(?x) ^ x | [a-z]+ $")]
  have huncommented : ∀ name, ∀ constraint,
      constraints.get? name = some constraint → '#' ∉ constraint.toList := by
    intro name constraint hgiven
    have hmem := OrderedMap.mem_toList_iff.mpr hgiven
    rw [OrderedMap.toList_ofList (by decide)] at hmem
    simp only [List.mem_cons, List.not_mem_nil, Prod.mk.injEq, or_false] at hmem
    rcases hmem with ⟨-, rfl⟩ | ⟨-, rfl⟩ <;> decide
  have hruns : (compile "/:lang/:page" constraints).toOption.bind (fun pattern =>
      (pattern.captures? "/fr/intro").map OrderedMap.toList) =
      some [("lang", "fr"), ("page", "intro")] := by
    decide +kernel
  obtain ⟨pattern, hcompile, hruns⟩ := Option.bind_eq_some_iff.mp hruns
  obtain ⟨captured, hcaptured, hlist⟩ := Option.map_eq_some_iff.mp hruns
  rw [toOption_eq_some_iff] at hcompile
  exact ⟨constraints, pattern, captured, rfl, hcompile, fun name _ => huncommented name,
    hcaptured, hlist,
    captures_every_placeholder hcompile (fun name _ => huncommented name) hcaptured⟩

/-- The comment in the first constraint runs on into the second. -/
theorem comment_hides_placeholder :
    ∃ pattern captured,
      compile "/:a/:b" (.ofList [("a", "(?x).*#"), ("b", "y|\n")]) = .ok pattern ∧
      pattern.captures? "/x/y" = some captured ∧
      pattern.names = ["a", "b"] ∧ captured.keys = ["a"] :=
  ⟨_, _, rfl, rfl, rfl, rfl⟩

end Pattern

end Signpost
