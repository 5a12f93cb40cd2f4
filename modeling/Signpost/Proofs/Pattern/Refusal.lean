import Signpost.Proofs.Pattern.Matching

namespace Signpost

open Regex Regex.Reading

variable {constraints : Params} {source : String}

namespace Pattern

/-- Names without a digit in front, none of which comes again. -/
structure WellNamed (names : List String) : Prop where
  nodup : names.Nodup
  undigited : ∀ name ∈ names, startsWithDigit name = false

def Valid (constraints : Params) (name : String) : Prop :=
  ∃ regex, Regex.compile (constraintOf constraints name.toList) = .ok regex

/-- The reasons for a refusal.  Each needs all that come before it to be absent. -/
inductive Refusal (source : String) (constraints : Params) : PatternProblem → Prop
  | digit {before after : List String} {name : String}
      (hsplit : paramNames source = before ++ name :: after) (hbefore : WellNamed before)
      (hdigit : startsWithDigit name = true) :
      Refusal source constraints (.nameStartsWithDigit name)
  | twice {before after : List String} {name : String}
      (hsplit : paramNames source = before ++ name :: after) (hbefore : WellNamed before)
      (hdigit : startsWithDigit name = false) (htwice : name ∈ before) :
      Refusal source constraints (.nameTwice name)
  | constraint {before after : List String} {name : String} {cause : RegexError}
      (hnamed : WellNamed (paramNames source))
      (hsplit : paramNames source = before ++ name :: after)
      (hbefore : ∀ other ∈ before, Valid constraints other)
      (hname : Regex.compile (constraintOf constraints name.toList) = .error cause) :
      Refusal source constraints (.constraint name cause)
  | expression {cause : RegexError} (hnamed : WellNamed (paramNames source))
      (hvalid : ∀ name ∈ paramNames source, Valid constraints name)
      (hexpression :
        Regex.compile (expressionOf source.toList constraints) = .error cause) :
      Refusal source constraints (.expression cause)

variable {seen names before : List String}

theorem wellNamed_append_single {name : String} :
    WellNamed (names ++ [name]) ↔
      WellNamed names ∧ startsWithDigit name = false ∧ name ∉ names := by
  constructor
  · intro h
    obtain ⟨hnames, -, hnew⟩ := List.nodup_append.mp h.nodup
    obtain ⟨hothers, hname⟩ := List.forall_mem_append.mp h.undigited
    exact ⟨⟨hnames, hothers⟩, hname name List.mem_cons_self,
      fun hmem => hnew name hmem name List.mem_cons_self rfl⟩
  · intro ⟨⟨hnames, hothers⟩, hdigit, hnew⟩
    refine ⟨List.nodup_append.mpr ⟨hnames, List.nodup_singleton name, ?_⟩, ?_⟩
    · intro other hother last hlast heq
      obtain rfl := List.mem_singleton.mp hlast
      exact hnew (heq ▸ hother)
    · exact List.forall_mem_append.mpr ⟨hothers, List.forall_mem_singleton.mpr hdigit⟩

theorem wellNamed_cases (names : List String) :
    WellNamed names ∨ ∃ before name after, names = before ++ name :: after ∧
      WellNamed before ∧
      (startsWithDigit name = true ∨ startsWithDigit name = false ∧ name ∈ before) := by
  induction names using List.reverseRecOn with
  | nil => exact .inl ⟨List.nodup_nil, fun _ h => nomatch h⟩
  | append_singleton names name ih =>
      rcases ih with hnames | ⟨before, bad, after, rfl, hbefore, hbad⟩
      · by_cases hgood : startsWithDigit name = false ∧ name ∉ names
        · exact .inl (wellNamed_append_single.mpr ⟨hnames, hgood⟩)
        · refine .inr ⟨names, name, [], rfl, hnames, ?_⟩
          cases hdigit : startsWithDigit name with
          | true => exact .inl rfl
          | false => exact .inr ⟨rfl, by_contra fun hnew => hgood ⟨hdigit, hnew⟩⟩
      · exact .inr ⟨before, bad, after ++ [name], List.append_assoc _ _ _, hbefore, hbad⟩

theorem checkNames_append (hbefore : WellNamed before)
    (hnew : ∀ name ∈ before, name ∉ seen) (rest : List String) :
    checkNames seen (before ++ rest) = checkNames (before.reverse ++ seen) rest := by
  induction before generalizing seen with
  | nil => rfl
  | cons name before ih =>
      obtain ⟨hfirst, hothers⟩ := List.nodup_cons.mp hbefore.nodup
      obtain ⟨hdigit, hundigited⟩ := List.forall_mem_cons.mp hbefore.undigited
      obtain ⟨hname, hlater⟩ := List.forall_mem_cons.mp hnew
      rw [List.cons_append, checkNames, hdigit, if_neg (by decide), if_neg hname,
        List.reverse_cons, List.append_assoc, List.singleton_append]
      apply ih ⟨hothers, hundigited⟩
      intro other hother hseen
      rcases List.mem_cons.mp hseen with rfl | hold
      · exact hfirst hother
      · exact hlater other hother hold

theorem checkNames_wellNamed (h : WellNamed names) : checkNames [] names = .ok () := by
  have happend := checkNames_append h (fun _ _ => List.not_mem_nil) []
  rwa [List.append_nil] at happend

theorem checkNames_digit (hbefore : WellNamed before) {name : String}
    (hdigit : startsWithDigit name = true) (after : List String) :
    checkNames [] (before ++ name :: after) = .error (.nameStartsWithDigit name) := by
  rw [checkNames_append hbefore fun _ _ => List.not_mem_nil, checkNames, if_pos hdigit]

theorem checkNames_twice (hbefore : WellNamed before) {name : String}
    (hdigit : startsWithDigit name = false) (htwice : name ∈ before)
    (after : List String) :
    checkNames [] (before ++ name :: after) = .error (.nameTwice name) := by
  have hseen : name ∈ before.reverse ++ [] := by simpa using htwice
  rw [checkNames_append hbefore fun _ _ => List.not_mem_nil, checkNames, hdigit,
    if_neg (by decide), if_pos hseen]

/-! The constraints, one after another in the order of the names. -/

theorem checkConstraints_eq (segments : List Segment) :
    checkConstraints constraints segments =
      forM (segments.filterMap Segment.name?) (checkConstraint constraints ·.toList) := by
  induction segments with
  | nil => rfl
  | cons segment rest ih =>
      cases segment with
      | literal text => exact ih
      | param name =>
          rw [checkConstraints, ih, List.filterMap_cons, Segment.name?, List.forM_cons,
            String.toList_ofList]

theorem checkConstraint_valid {name : String} (h : Valid constraints name) :
    checkConstraint constraints name.toList = .ok () := by
  obtain ⟨regex, hregex⟩ := h
  rw [checkConstraint, hregex]

theorem checkConstraint_invalid {name : String} {cause : RegexError}
    (h : Regex.compile (constraintOf constraints name.toList) = .error cause) :
    checkConstraint constraints name.toList = .error (.constraint name cause) := by
  rw [checkConstraint, h, String.ofList_toList]

theorem valid_cases (constraints : Params) (names : List String) :
    (∀ name ∈ names, Valid constraints name) ∨ ∃ before name after cause,
      names = before ++ name :: after ∧ (∀ other ∈ before, Valid constraints other) ∧
      Regex.compile (constraintOf constraints name.toList) = .error cause := by
  induction names with
  | nil => exact .inl fun _ h => nomatch h
  | cons name rest ih =>
      cases hname : Regex.compile (constraintOf constraints name.toList) with
      | error cause =>
          exact .inr ⟨[], name, rest, cause, rfl, fun _ h => (nomatch h), hname⟩
      | ok regex =>
          rcases ih with hrest | ⟨before, bad, after, cause, rfl, hbefore, hbad⟩
          · exact .inl (List.forall_mem_cons.mpr ⟨⟨regex, hname⟩, hrest⟩)
          · exact .inr ⟨name :: before, bad, after, cause, rfl,
              List.forall_mem_cons.mpr ⟨⟨regex, hname⟩, hbefore⟩, hbad⟩

theorem assemble_eq (source : String) (constraints : Params) :
    assemble source.toList constraints = (do
      checkNames [] (paramNames source)
      forM (paramNames source) (checkConstraint constraints ·.toList)
      match Regex.compile (expressionOf source.toList constraints) with
      | .ok regex => pure (expressionOf source.toList constraints, regex)
      | .error cause => .error (.expression cause)) := by
  rw [assemble, checkConstraints_eq, names_bodyOf]
  rfl

theorem Refusal.assemble {problem : PatternProblem}
    (h : Refusal source constraints problem) :
    assemble source.toList constraints = .error problem := by
  rw [assemble_eq]
  cases h with
  | digit hsplit hbefore hdigit => rw [hsplit, checkNames_digit hbefore hdigit, error_bind]
  | twice hsplit hbefore hdigit htwice =>
      rw [hsplit, checkNames_twice hbefore hdigit htwice, error_bind]
  | constraint hnamed hsplit hbefore hname =>
      rw [checkNames_wellNamed hnamed, ok_bind, hsplit,
        forM_of_error (fun other hother => checkConstraint_valid (hbefore other hother))
          (checkConstraint_invalid hname), error_bind]
  | expression hnamed hvalid hexpression =>
      rw [checkNames_wellNamed hnamed, ok_bind,
        forM_of_ok fun name hname => checkConstraint_valid (hvalid name hname), ok_bind,
        hexpression]

/-- A pattern is accepted, or there is a reason to refuse it. -/
theorem assemble_cases (source : String) (constraints : Params) :
    (∃ built, assemble source.toList constraints = .ok built) ∨
      ∃ problem, Refusal source constraints problem := by
  rcases wellNamed_cases (paramNames source) with
    hnamed | ⟨before, name, after, hsplit, hbefore, hdigit | ⟨hdigit, htwice⟩⟩
  · rcases valid_cases constraints (paramNames source) with
      hvalid | ⟨before, name, after, cause, hsplit, hbefore, hname⟩
    · cases hexpression : Regex.compile (expressionOf source.toList constraints) with
      | error cause => exact .inr ⟨_, .expression hnamed hvalid hexpression⟩
      | ok regex =>
          refine .inl ⟨(expressionOf source.toList constraints, regex), ?_⟩
          rw [assemble_eq, checkNames_wellNamed hnamed, ok_bind,
            forM_of_ok fun name hname =>
              checkConstraint_valid (hvalid name hname), ok_bind,
            hexpression]
          rfl
    · exact .inr ⟨_, .constraint hnamed hsplit hbefore hname⟩
  · exact .inr ⟨_, .digit hsplit hbefore hdigit⟩
  · exact .inr ⟨_, .twice hsplit hbefore hdigit htwice⟩

theorem compile_error_iff {error : RoutingError} :
    compile source constraints = .error error ↔
      ∃ problem, Refusal source constraints problem ∧
        error = .invalidPattern source problem := by
  rw [compile]
  rcases assemble_cases source constraints with
    ⟨⟨expression, regex⟩, hbuilt⟩ | ⟨problem, hproblem⟩
  · rw [hbuilt]
    constructor
    · intro h
      cases h
    · rintro ⟨problem, hproblem, -⟩
      rw [hproblem.assemble] at hbuilt
      cases hbuilt
  · rw [hproblem.assemble]
    constructor
    · intro h
      exact ⟨problem, hproblem, (Except.error.inj h).symm⟩
    · rintro ⟨other, hother, rfl⟩
      have hsame := hproblem.assemble.symm.trans hother.assemble
      rw [Except.error.inj hsame]

end Pattern

/-! Reading an expression without constraints.  Its groups are those of its placeholders
alone. -/

namespace Regex.Reading

variable {groups : Nat} {names : List String} {parts : List Regex}
  {outer inner next : Reading}

theorem readAll_carried {c : Char} {rest after : List Char}
    (hverbose : inner.flags.verbose = false) (hfree : '#' ∉ rest) (hfits : outer.Fits next)
    (h : inner.step c rest = .ok (next, after)) (more : List Char) :
    (outer.within inner).readAll (c :: (rest ++ ')' :: more)) =
      (outer.within next).readAll (after ++ ')' :: more) := by
  have hskip : skipBlank (outer.within inner).flags.verbose (c :: (rest ++ ')' :: more)) =
      c :: (rest ++ ')' :: more) := by
    change skipBlank inner.flags.verbose _ = _
    rw [hverbose, skipBlank_false]
  rw [readAll_step hskip, (carries_step c h).2 hfree hfits more, ok_bind]

theorem readAll_default (groups : Nat) (parts : List Regex) {name : List Char}
    (hnamed : Segment.Named name)
    (hdigit : Pattern.startsWithDigit (String.ofList name) = false)
    (hnew : String.ofList name ∉ names) (more : List Char) :
    (top groups names parts).readAll
        ('(' :: '?' :: 'P' :: '<' :: (name ++ '>' ::
          (Pattern.defaultConstraint.toList ++ ')' :: more))) =
      (top (groups + 1) (String.ofList name :: names)
        (.group (groups + 1) (some (String.ofList name)) unslashed :: parts)).readAll
          more := by
  let outer := inGroup groups names parts (String.ofList name)
  let bracket : Reading := initial.push (.set CharSet.notSlash)
  have hfits : ∀ inner :
      Reading, inner.opened = [] → inner.names = [] → outer.Fits inner := by
    intro inner hopened hnames
    refine ⟨?_, ?_⟩
    · rw [hopened]
      exact (by decide : 1 ≤ nestLimit)
    · rw [hnames]
      exact fun _ h => nomatch h
  have hclass : initial.step '[' ['^', '/', ']', '+'] = .ok (bracket, ['+']) := rfl
  have hplus : bracket.step '+' [] = .ok (⟨{}, 0, [], [], [unslashed], []⟩, []) := rfl
  have hinitial : outer.within initial = outer := within_initial rfl rfl rfl
  rw [readAll_top, step_group hnamed hdigit, if_neg hnew, ok_bind]
  change outer.readAll _ = _
  rw [← hinitial]
  refine (readAll_carried rfl (by decide) (hfits bracket rfl rfl) hclass more).trans ?_
  refine (readAll_carried rfl (by decide) (hfits _ rfl rfl) hplus more).trans ?_
  exact readAll_closeGroup rfl more

/-- The parts of segments whose placeholders have no constraint are low. -/
theorem readAll_free (groups : Nat) (names : List String) (parts : List Regex)
    {segments : List Segment} (hplain : Unconstrained constraints segments)
    (hnamed : ∀ name, .param name ∈ segments → Segment.Named name)
    (hgood : Pattern.WellNamed (segments.filterMap Segment.name?))
    (hnew : ∀ name ∈ segments.filterMap Segment.name?, name ∉ names) :
    ∃ (groups' : Nat) (names' : List String) (others : List Regex),
      (∀ part ∈ others, part.height ≤ 2) ∧ ∀ more,
      (top groups names parts).readAll
        (segments.flatMap (Pattern.segmentExpression constraints) ++ more) =
      (top groups' names' (others.reverse ++ parts)).readAll more := by
  induction segments generalizing groups names parts with
  | nil => exact ⟨groups, names, [], fun _ h => (nomatch h), fun _ => rfl⟩
  | cons segment rest ih =>
      have hplainRest : Unconstrained constraints rest :=
        fun name hname => hplain name (List.mem_cons_of_mem _ hname)
      have hnamedRest := fun name hname => hnamed name (List.mem_cons_of_mem segment hname)
      cases segment with
      | literal text =>
          obtain ⟨groups', names', others, hlow, hread⟩ :=
            ih _ _ _ hplainRest hnamedRest hgood hnew
          refine ⟨groups', names', text.map Regex.char ++ others, ?_, fun more => ?_⟩
          · refine List.forall_mem_append.mpr ⟨fun part hpart => ?_, hlow⟩
            obtain ⟨c, -, rfl⟩ := List.mem_map.mp hpart
            exact Nat.zero_le _
          · rw [List.flatMap_cons, List.append_assoc, Pattern.segmentExpression,
              readAll_escape, hread, List.reverse_append, List.append_assoc]
      | param name =>
          rw [List.filterMap_cons, Segment.name?] at hgood hnew
          obtain ⟨hfirst, hothers⟩ := List.nodup_cons.mp hgood.nodup
          obtain ⟨hdigit, hundigited⟩ := List.forall_mem_cons.mp hgood.undigited
          obtain ⟨hname, hlater⟩ := List.forall_mem_cons.mp hnew
          have hnewRest : ∀ other ∈ rest.filterMap Segment.name?,
              other ∉ String.ofList name :: names := by
            intro other hother hmem
            rcases List.mem_cons.mp hmem with rfl | hold
            · exact hfirst hother
            · exact hlater other hother hold
          obtain ⟨groups', names', others, hlow, hread⟩ :=
            ih _ _ _ hplainRest hnamedRest ⟨hothers, hundigited⟩ hnewRest
          refine ⟨groups', names',
            .group (groups + 1) (some (String.ofList name)) unslashed :: others,
            List.forall_mem_cons.mpr ⟨Nat.le_refl 2, hlow⟩, fun more => ?_⟩
          have hgroup : Pattern.segmentExpression constraints (.param name) =
              '(' :: '?' :: 'P' :: '<' :: (name ++ '>' ::
                (Pattern.defaultConstraint.toList ++ [')'])) := by
            rw [Pattern.segmentExpression, Pattern.groupOf, hplain name List.mem_cons_self]
          have hdefault := readAll_default groups parts (hnamed name List.mem_cons_self)
            hdigit hname (rest.flatMap (Pattern.segmentExpression constraints) ++ more)
          rw [List.flatMap_cons, hgroup]
          simp only [List.cons_append, List.append_assoc, List.nil_append,
            List.reverse_cons]
          exact hdefault.trans (hread more)

end Regex.Reading

theorem RegexSeq.height_ofList_le {parts : List Regex} {bound : Nat}
    (h : ∀ part ∈ parts, part.height ≤ bound) : (ofList parts).height ≤ bound := by
  induction parts with
  | nil => exact Nat.zero_le _
  | cons part rest ih =>
      obtain ⟨hpart, hrest⟩ := List.forall_mem_cons.mp h
      exact Nat.max_le.mpr ⟨hpart, ih hrest⟩

theorem Regex.height_anchored_le {parts : List Regex} {bound : Nat}
    (h : ∀ part ∈ parts, part.height ≤ bound) : (anchored parts).height ≤ bound + 1 := by
  apply Nat.succ_le_succ
  apply RegexSeq.height_ofList_le
  intro part hpart
  rcases List.mem_cons.mp hpart with rfl | hpart
  · exact Nat.zero_le _
  · rcases List.mem_append.mp hpart with hparts | hlast
    · exact h part hparts
    · obtain rfl := List.mem_singleton.mp hlast
      exact Nat.zero_le _

namespace Pattern

/-- Whatever the literal text is, the expression of a pattern without constraints can be
read. -/
theorem parse_free (hnamed : WellNamed (paramNames source))
    (hplain : ∀ name ∈ paramNames source, constraints.get? name = none) :
    ∃ regex, Regex.parse (expressionOf source.toList constraints) = .ok regex := by
  have hbody : WellNamed
      ((segmentsOf (bodyOf source.toList)).filterMap Segment.name?) := by
    rw [names_bodyOf]
    exact hnamed
  obtain ⟨groups, names, others, hlow, hread⟩ :=
    readAll_free 0 [] [.look .start] (unconstrained_of_names hplain)
      (fun _ hname => segmentsOf_named hname) hbody (fun _ _ => List.not_mem_nil)
  have hfinal : initial.readAll (expressionOf source.toList constraints) =
      .ok (top groups names (.look .finish :: ((ending source.toList).reverse ++
        (others.reverse ++ [.look .start])))) := by
    rw [expressionOf, readAll_start, hread, readAll_ending]
  have hheight : (anchored (others ++ ending source.toList)).height ≤ nestLimit := by
    have hparts : ∀ part ∈ others ++ ending source.toList, part.height ≤ 2 := by
      refine List.forall_mem_append.mpr ⟨hlow, fun part hpart => ?_⟩
      rw [ending] at hpart
      split at hpart
      · obtain rfl := List.mem_singleton.mp hpart
        exact (by decide : 1 ≤ 2)
      · cases hpart
    exact Nat.le_trans (height_anchored_le hparts) (by decide)
  rw [Regex.parse]
  change ∃ regex, (initial.readAll _ >>= Reading.finish) = .ok regex
  rw [hfinal, ok_bind, Reading.finish]
  rw [← List.append_assoc, ← List.reverse_append, current_anchored,
    if_neg (Nat.not_lt.mpr hheight)]
  exact ⟨_, rfl⟩

/-- When names and constraints can stand, the expression is what a refusal is about. -/
theorem Refusal.expression_of_valid {problem : PatternProblem}
    (h : Refusal source constraints problem) (hnamed : WellNamed (paramNames source))
    (hvalid : ∀ name ∈ paramNames source, Valid constraints name) :
    ∃ cause, Regex.compile (expressionOf source.toList constraints) = .error cause ∧
      problem = .expression cause := by
  cases h with
  | @digit before after name hsplit hbefore hdigit =>
      have hname := hnamed.undigited name (by rw [hsplit]; simp)
      rw [hdigit] at hname
      cases hname
  | @twice before after name hsplit hbefore hdigit htwice =>
      have hnodup := hnamed.nodup
      rw [hsplit] at hnodup
      exact absurd rfl
        ((List.nodup_append.mp hnodup).2.2 name htwice name List.mem_cons_self)
  | @constraint before after name cause hnamed' hsplit hbefore hname =>
      obtain ⟨regex, hregex⟩ := hvalid name (by rw [hsplit]; simp)
      rw [hname] at hregex
      cases hregex
  | expression hnamed' hvalid' hexpression => exact ⟨_, hexpression, rfl⟩

/-- A refusal names the first reason there is, and without constraints that can only be the
size. -/
theorem refused_for_first_reason (source : String) (constraints : Params) :
    (∀ error, compile source constraints = .error error ↔
      ∃ problem, Refusal source constraints problem ∧
        error = .invalidPattern source problem) ∧
    (WellNamed (paramNames source) →
      (∀ name ∈ paramNames source, constraints.get? name = none) →
      ∃ regex, Regex.parse (expressionOf source.toList constraints) = .ok regex ∧
        ((∃ pattern, compile source constraints = .ok pattern) ↔
          regex.totalBytes ≤ sizeLimit) ∧
        ∀ error, compile source constraints = .error error →
          error = .invalidPattern source (.expression .sizeLimit)) := by
  refine ⟨fun error => compile_error_iff, fun hnamed hplain => ?_⟩
  obtain ⟨regex, hparse⟩ := parse_free hnamed hplain
  have hvalid : ∀ name ∈ paramNames source, Valid constraints name := by
    intro name hname
    rw [Valid, constraintOf, String.ofList_toList, hplain name hname]
    exact ⟨_, rfl⟩
  have hcompile : Regex.compile (expressionOf source.toList constraints) =
      if sizeLimit < regex.totalBytes then .error .sizeLimit else .ok regex := by
    rw [Regex.compile, hparse]
    rfl
  have hlarge : ∀ error, compile source constraints = .error error →
      sizeLimit < regex.totalBytes ∧
        error = .invalidPattern source (.expression .sizeLimit) := by
    intro error herror
    obtain ⟨problem, hproblem, rfl⟩ := compile_error_iff.mp herror
    obtain ⟨cause, hcause, rfl⟩ := hproblem.expression_of_valid hnamed hvalid
    rw [hcompile] at hcause
    split at hcause
    · next hsize => exact ⟨hsize, by rw [← Except.error.inj hcause]⟩
    · cases hcause
  refine ⟨regex, hparse, ⟨?_, fun hsmall => ?_⟩, fun error herror =>
    (hlarge error herror).2⟩
  · rintro ⟨pattern, hpattern⟩
    refine Nat.le_of_not_lt fun hsize => ?_
    rw [if_pos hsize] at hcompile
    have herror := compile_error_iff.mpr ⟨_, .expression hnamed hvalid hcompile, rfl⟩
    rw [hpattern] at herror
    cases herror
  · cases hresult : compile source constraints with
    | ok pattern => exact ⟨pattern, rfl⟩
    | error error => exact absurd (hlarge error hresult).1 (Nat.not_lt.mpr hsmall)

/-- A digit in front of a name comes ahead of a constraint that is no expression, which is
a reason by itself.  Signs of expressions, a line break and colons without a name are
literal text. -/
theorem refused_for_first_reason_signs :
    compile "/:a/:1st" (.ofList [("a", "(")]) =
        .error (.invalidPattern "/:a/:1st" (.nameStartsWithDigit "1st")) ∧
      compile "/:a/:b" (.ofList [("a", "(")]) =
        .error (.invalidPattern "/:a/:b" (.constraint "a" .groupUnclosed)) ∧
      paramNames "/(\\[*:x:\n:/+:y?" = ["x", "y"] ∧
      WellNamed (paramNames "/(\\[*:x:\n:/+:y?") ∧
      (∀ name ∈ paramNames "/(\\[*:x:\n:/+:y?",
        (OrderedMap.empty : Params).get? name = none) ∧
      ∃ regex, Regex.parse (expressionOf "/(\\[*:x:\n:/+:y?".toList .empty) = .ok regex ∧
        regex.totalBytes ≤ sizeLimit := by
  have hdigit : Refusal "/:a/:1st" (.ofList [("a", "(")]) (.nameStartsWithDigit "1st") :=
    .digit (show _ = ["a"] ++ "1st" :: [] by decide) ⟨by decide, by decide⟩ (by decide)
  have hconstraint :
      Refusal "/:a/:b" (.ofList [("a", "(")]) (.constraint "a" .groupUnclosed) :=
    .constraint ⟨by decide, by decide⟩ (show _ = [] ++ "a" :: ["b"] by decide)
      (fun _ h => nomatch h) rfl
  have hnames : paramNames "/(\\[*:x:\n:/+:y?" = ["x", "y"] := by decide
  have hnamed : WellNamed (paramNames "/(\\[*:x:\n:/+:y?") := by
    rw [hnames]
    exact ⟨by decide, by decide⟩
  have hfree : ∀ name ∈ paramNames "/(\\[*:x:\n:/+:y?",
      (OrderedMap.empty : Params).get? name = none := fun _ _ => rfl
  obtain ⟨regex, hparse, hsize, -⟩ := (refused_for_first_reason _ .empty).2 hnamed hfree
  exact ⟨((refused_for_first_reason _ _).1 _).mpr ⟨_, hdigit, rfl⟩,
    ((refused_for_first_reason _ _).1 _).mpr ⟨_, hconstraint, rfl⟩,
    hnames, hnamed, hfree, regex, hparse, hsize.mp ⟨_, rfl⟩⟩

end Pattern

end Signpost
