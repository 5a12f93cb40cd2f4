import Signpost.Proofs.Pattern.Expression
import Signpost.Proofs.Regex.Finding

namespace Signpost

open Regex Regex.Reading

variable {constraints : Params}

namespace Regex

theorem compile_ok {text : List Char} {regex : Regex} (h : compile text = .ok regex) :
    parse text = .ok regex ∧ regex.totalBytes ≤ sizeLimit := by
  rw [compile] at h
  obtain ⟨parsed, hparse, hsized⟩ := exists_of_bind_ok h
  split at hsized
  · cases hsized
  · rename_i hsize
    obtain rfl := Except.ok.inj hsized
    exact ⟨hparse, Nat.le_of_not_lt hsize⟩

theorem compile_eq {text : List Char} {regex : Regex} (hparse : parse text = .ok regex)
    (hsize : regex.totalBytes ≤ sizeLimit) : compile text = .ok regex := by
  simp only [compile, hparse, ok_bind, if_neg (Nat.not_lt.mpr hsize), pure_eq_ok]

end Regex

namespace Pattern

theorem checkConstraint_ok {name : List Char}
    (h : checkConstraint constraints name = .ok ()) :
    ∃ regex, Regex.compile (constraintOf constraints name) = .ok regex := by
  rw [checkConstraint] at h
  split at h
  · exact ⟨_, ‹_›⟩
  · cases h

theorem checkConstraints_ok {segments : List Segment}
    (h : checkConstraints constraints segments = .ok ()) {name : List Char}
    (hname : .param name ∈ segments) :
    ∃ regex, Regex.compile (constraintOf constraints name) = .ok regex := by
  induction segments with
  | nil => cases hname
  | cons segment rest ih =>
      cases segment with
      | literal text =>
          rw [checkConstraints] at h
          exact ih h (by simpa using hname)
      | param other =>
          rw [checkConstraints] at h
          obtain ⟨_, hother, hothers⟩ := exists_of_bind_ok h
          rcases List.mem_cons.mp hname with heq | hrest
          · obtain rfl := Segment.param.inj heq
            exact checkConstraint_ok hother
          · exact ih hothers hrest

structure Compiled (source : String) (constraints : Params)
    (pattern : Pattern) : Prop where
  sourced : pattern.source = source
  named : checkNames [] (paramNames source) = .ok ()
  constrained : checkConstraints constraints (segmentsOf (bodyOf source.toList)) = .ok ()
  expressed : Regex.compile (expressionOf source.toList constraints) = .ok pattern.regex

theorem compiled_of_compile {source : String} {pattern : Pattern}
    (h : compile source constraints = .ok pattern) :
    Compiled source constraints pattern := by
  rw [compile] at h
  split at h
  · rename_i expression regex hassemble
    obtain rfl := Except.ok.inj h
    rw [assemble] at hassemble
    obtain ⟨_, hnames, hchecked⟩ := exists_of_bind_ok hassemble
    obtain ⟨_, hconstraints, hexpression⟩ := exists_of_bind_ok hchecked
    simp only at hexpression
    split at hexpression
    · rename_i found hfound
      obtain ⟨rfl, rfl⟩ := Prod.mk.inj (Except.ok.inj hexpression)
      exact ⟨rfl, hnames, hconstraints, hfound⟩
    · cases hexpression
  · cases h

end Pattern

/-- What a placeholder needs for its constraint to be read as it is alone. -/
structure Placed (constraints : Params) (name : List Char) : Prop where
  named : Segment.Named name
  digit : Pattern.startsWithDigit (String.ofList name) = false
  uncommented : '#' ∉ Pattern.constraintOf constraints name
  alone : ∃ final, Alone (Pattern.constraintOf constraints name) final

theorem readAll_segments {segments : List Segment} {more : List Char} {whole : Reading}
    {groups : Nat} {names : List String} {before : List Regex}
    (hplaced : ∀ name, .param name ∈ segments → Placed constraints name)
    (h : (top groups names before).readAll
      (segments.flatMap (Pattern.segmentExpression constraints) ++ more) = .ok whole) :
    ∃ parts groups' names', Assembled constraints groups names segments parts ∧
      (top groups' names' (parts.reverse ++ before)).readAll more = .ok whole := by
  induction segments generalizing groups names before with
  | nil => exact ⟨[], groups, names, .nil groups names, h⟩
  | cons segment rest ih =>
      have hrest := fun name hname => hplaced name (List.mem_cons_of_mem segment hname)
      rw [List.flatMap_cons, List.append_assoc] at h
      cases segment with
      | literal text =>
          rw [Pattern.segmentExpression, readAll_escape] at h
          obtain ⟨parts, groups', names', hassembled, hread⟩ := ih hrest h
          refine ⟨text.map Regex.char ++ parts, groups', names',
            .literal text hassembled, ?_⟩
          rwa [List.reverse_append, List.append_assoc]
      | param name =>
          obtain ⟨hnamed, hdigit, huncommented, final, halone⟩ :=
            hplaced name List.mem_cons_self
          have hgroup : Pattern.segmentExpression constraints (.param name) ++
              (rest.flatMap (Pattern.segmentExpression constraints) ++ more) =
              '(' :: '?' :: 'P' :: '<' ::
                (name ++ '>' :: (Pattern.constraintOf constraints name ++ ')' ::
                  (rest.flatMap (Pattern.segmentExpression constraints) ++ more))) := by
            simp [Pattern.segmentExpression, Pattern.groupOf]
          rw [hgroup] at h
          obtain ⟨hfresh, hread, hstart⟩ :=
            readAll_group hnamed hdigit halone huncommented h
          obtain ⟨parts, groups', names', hassembled, hread⟩ := ih hrest hread
          refine ⟨_ :: parts, groups', names', .param halone hfresh hstart hassembled, ?_⟩
          simpa using hread

theorem readAll_start (text : List Char) :
    initial.readAll ('^' :: text) = (top 0 [] [.look .start]).readAll text := by
  rw [readAll_step (skipBlank_false _)]
  rfl

theorem current_anchored (groups : Nat) (names : List String) (parts : List Regex) :
    (top groups names (.look .finish :: (parts.reverse ++ [.look .start]))).current =
      anchored parts := by
  simp only [current, top, List.reverse_cons, List.reverse_append, List.reverse_reverse,
    List.reverse_nil, List.nil_append, List.cons_append, alternateOf]
  cases parts <;> rfl

namespace Pattern

def ending (source : List Char) : List Regex :=
  if isFolderText source then [.iterate ⟨0, some 1, true⟩ (.char '/')] else []

theorem readAll_ending (source : List Char) {groups : Nat} {names : List String}
    {parts : List Regex} :
    (top groups names parts).readAll
      (if isFolderText source then ['/', '?', '$'] else ['$']) =
        .ok (top groups names (.look .finish :: ((ending source).reverse ++ parts))) := by
  rw [ending]
  split
  · rfl
  · rfl

theorem placed_of_compiled {source : String} {pattern : Pattern}
    (hcompiled : Compiled source constraints pattern) {name : List Char}
    (hname : .param name ∈ segmentsOf (bodyOf source.toList))
    (huncommented : '#' ∉ constraintOf constraints name) : Placed constraints name := by
  obtain ⟨regex, hregex⟩ := checkConstraints_ok hcompiled.constrained hname
  obtain ⟨final, halone, -, -⟩ := alone_of_parse (compile_ok hregex).1
  have hmem : String.ofList name ∈ paramNames source := by
    rw [paramNames, ← names_bodyOf]
    exact List.mem_filterMap.mpr ⟨_, hname, rfl⟩
  exact ⟨segmentsOf_named hname, ((checkNames_ok hcompiled.named).2 _ hmem).1,
    huncommented, final, halone⟩

/-- The expression of a compiled pattern, and that of its text, is the row of its parts. -/
theorem Compiled.assembled {source : String} {pattern : Pattern}
    (hcompiled : Compiled source constraints pattern)
    (huncommented : ∀ name, .param name ∈ segmentsOf (bodyOf source.toList) →
      '#' ∉ constraintOf constraints name) :
    ∃ parts, Assembled constraints 0 [] (segmentsOf (bodyOf source.toList)) parts ∧
      pattern.regex = anchored (parts ++ ending source.toList) ∧
      pattern.regex.height ≤ nestLimit := by
  obtain ⟨whole, halone, hcurrent, hheight⟩ :=
    alone_of_parse (compile_ok hcompiled.expressed).1
  have hread := halone.read
  rw [expressionOf, readAll_start] at hread
  obtain ⟨parts, groups, names, hassembled, hread⟩ := readAll_segments
    (fun name hname => placed_of_compiled hcompiled hname (huncommented name hname)) hread
  rw [readAll_ending] at hread
  obtain rfl := Except.ok.inj hread
  refine ⟨parts, hassembled, ?_, hheight⟩
  rw [← hcurrent, ← List.append_assoc, ← List.reverse_append, current_anchored]

end Pattern

end Signpost
