import Signpost.Proofs.Pattern.Slashes
import Signpost.Proofs.Route.Filling

namespace Signpost

open Pattern

variable {tail : List Char} {segments : List Segment}

theorem appendLiteral_concat_literal (tail : List Char) (front : List Segment)
    (text : List Char) :
    appendLiteral tail (front ++ [.literal text]) = front ++
      [.literal (text ++ tail)] := by
  induction front with
  | nil => rfl
  | cons segment front ih =>
      have hne : front ++ [.literal text] ≠ [] := by simp
      obtain ⟨first, rest, hrest⟩ := List.exists_cons_of_ne_nil hne
      rw [List.cons_append, hrest, appendLiteral_cons_cons, ← hrest, ih, List.cons_append]

theorem appendLiteral_of_getLast? (h : ∀ text, segments.getLast? ≠ some (.literal text)) :
    appendLiteral tail segments = segments ++ afterName tail [] := by
  fun_induction appendLiteral tail segments with
  | case1 hempty => simp [afterName, hempty]
  | case2 hempty => simp [afterName, hempty]
  | case3 text => exact absurd rfl (h text)
  | case4 segment rest hlast ih =>
      rw [ih, List.cons_append]
      intro text htext
      apply h text
      rw [List.getLast?_cons, htext]
      rfl

theorem Route.fill_appendLiteral (values : Params) (tail : List Char)
    (segments : List Segment) (params : Params) :
    fill values (appendLiteral tail segments) params =
      (fill values segments params).map fun filled => (filled.1 ++ tail, filled.2) := by
  fun_induction appendLiteral tail segments generalizing params with
  | case1 hempty =>
      rw [List.isEmpty_iff.mp hempty]
      rfl
  | case2 hempty => simp [fill, Except.map]
  | case3 text => simp [fill, Except.map]
  | case4 segment rest _ ih =>
      cases segment with
      | literal text =>
          rw [fill, fill, ih]
          cases fill values rest params with
          | error key => rfl
          | ok filled => simp [Except.map]
      | param name =>
          rw [fill_param, fill_param]
          cases filling? values params (String.ofList name) with
          | none => rfl
          | some value =>
              simp only [ih]
              cases fill values rest (params.erase (String.ofList name)) with
              | error key => rfl
              | ok filled => simp [Except.map]

/-- Longer segments are others with more literal text at their end. -/
structure Continues (segments : List Segment) (tail : List Char) (longer : List Segment) :
    Prop where
  names : longer.filterMap Segment.name? = segments.filterMap Segment.name?
  literal : ∀ text, segments.getLast? = some (.literal text) →
    longer = segments.dropLast ++ [.literal (text ++ tail)]
  other : (∀ text, segments.getLast? ≠ some (.literal text)) →
    longer = segments ++ if tail = [] then [] else [.literal tail]
  filled : ∀ values params, Route.fill values longer params =
    (Route.fill values segments params).map fun filled => (filled.1 ++ tail, filled.2)

theorem continues_appendLiteral (tail : List Char) (segments : List Segment) :
    Continues segments tail (appendLiteral tail segments) where
  names := names_appendLiteral tail segments
  literal := by
    intro text htext
    obtain ⟨front, rfl⟩ := List.getLast?_eq_some_iff.mp htext
    rw [appendLiteral_concat_literal, List.dropLast_concat]
  other := by
    intro h
    rw [appendLiteral_of_getLast? h, afterName]
    simp only [List.isEmpty_iff]
  filled := fun values params => Route.fill_appendLiteral values tail segments params

theorem continues_of_append {body source : List Char} (hsource : body ++ tail = source)
    (htail : ∀ c ∈ tail, c = '/') :
    Continues (segmentsOf body) tail (segmentsOf source) := by
  rw [← hsource, segmentsOf_append htail]
  exact continues_appendLiteral tail (segmentsOf body)

/-- The segments of a pattern go on from those of the pattern without its last slashes, and
from those that its expression is made from. -/
theorem slashes_continue_segments (pattern : String) :
    Continues (segmentsOf (pattern.toList.rdropWhile (· = '/')))
      (trailingSlashes pattern.toList) (segmentsOf pattern.toList) ∧
    Continues (segmentsOf (bodyOf pattern.toList)) (droppedSlashes pattern.toList)
      (segmentsOf pattern.toList) := by
  constructor
  · exact continues_of_append List.rdropWhile_append_rtakeWhile fun _ => eq_slash_of_mem
  · exact continues_of_append (bodyOf_append_droppedSlashes _) fun _ => eq_slash_of_dropped

/-- Slashes behind a placeholder are a segment of their own. -/
example : segmentsOf "/:a//".toList = segmentsOf "/:a".toList ++
    [.literal ['/', '/']] := rfl

end Signpost
