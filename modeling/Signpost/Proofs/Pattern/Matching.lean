import Signpost.Proofs.Pattern.Captures
import Signpost.Proofs.Pattern.Default

namespace Signpost

open Regex Regex.Reading Pattern

variable {constraints : Params} {text : Array Char} {source : String} {pattern : Pattern}

namespace Pattern

theorem mem_product_ending {source word : List Char} :
    word ∈ (RegexSeq.ofList (ending source)).product ↔
      word = [] ∨ isFolderText source = true ∧ word = ['/'] := by
  rw [ending]
  split
  · rename_i hfolder
    rw [RegexSeq.ofList, RegexSeq.product, RegexSeq.ofList, RegexSeq.product, mul_one]
    constructor
    · rintro ⟨number, ⟨-, hmost⟩, hword⟩
      rcases Nat.le_one_iff_eq_zero_or_eq_one.mp (hmost 1 rfl) with rfl | rfl
      · rw [pow_zero] at hword
        exact .inl hword
      · rw [pow_one] at hword
        exact .inr ⟨hfolder, hword⟩
    · rintro (rfl | ⟨-, rfl⟩)
      · exact ⟨0, ⟨Nat.zero_le _, by simp⟩, by rw [pow_zero]; rfl⟩
      · exact ⟨1, ⟨Nat.zero_le _, by simp⟩, by rw [pow_one]; rfl⟩
  · rename_i hfile
    simp [RegexSeq.ofList, RegexSeq.product, hfile, Language.mem_one]

theorem groups_ending (source : List Char) :
    (RegexSeq.ofList (ending source)).groups = [] := by
  rw [ending]
  split <;> rfl

theorem lookFree_ending (source : List Char) :
    ∀ part ∈ ending source, part.lookFree = true := by
  rw [ending]
  split
  · simp [lookFree]
  · simp

theorem inTurn_ending {source : List Char} {start finish : Nat} {saved : Slots}
    (h : (RegexSeq.ofList (ending source)).inTurn text start finish saved) :
    saved = [] ∧ ∃ slash, Stands text start slash finish ∧
      (slash = [] ∨ isFolderText source = true ∧ slash = ['/']) := by
  have hsaved := (RegexSeq.ofList (ending source)).inTurn_slots h
  rw [groups_ending] at hsaved
  have hfree := RegexSeq.lookFree_ofList.mpr (lookFree_ending source)
  obtain ⟨slash, hslash, hstands⟩ :=
    (RegexSeq.along_product text _ hfree _ _).mp ⟨saved, h⟩
  exact ⟨hsaved.eq_nil, slash, hstands, mem_product_ending.mp hslash⟩

theorem stands_all {path word : List Char} :
    Stands path.toArray 0 word path.length ↔ word = path := by
  rw [Stands, List.drop_zero, Nat.zero_add]
  constructor
  · rintro ⟨hfront, hlength⟩
    exact hfront.eq_of_length hlength.symm
  · rintro rfl
    exact ⟨List.prefix_refl _, rfl⟩

variable {segments : List Segment} {parts : List Regex}

/-- A match goes along the segments, and then over a slash that may follow them. -/
theorem find?_assembled_walk (hassembled : Assembled constraints 0 [] segments parts)
    {path : String} {source : List Char} {found : Match}
    (h : (anchored (parts ++ ending source)).find? path = some found) :
    ∃ values middle slash,
      Walk constraints path.toList.toArray 0 segments values 0 middle found.slots ∧
      Stands path.toList.toArray middle slash path.toList.length ∧
      (slash = [] ∨ isFolderText source = true ∧ slash = ['/']) ∧
      List.Forall₂ (Keeps found.text (RegexSeq.ofList parts).groupNames found.slots)
        (segments.filterMap Segment.name?) values := by
  obtain ⟨htext, hparts⟩ := find?_anchored_sound h
  rw [RegexSeq.inTurn_append] at hparts
  obtain ⟨middle, before, after, hbefore, hafter, hslots⟩ := hparts
  obtain ⟨rfl, slash, hslashStands, hslash⟩ := inTurn_ending hafter
  obtain ⟨values, hwalk⟩ := hassembled.exists_walk hbefore
  rw [List.nil_append] at hslots
  rw [hslots, htext]
  exact ⟨values, middle, slash, hwalk, hslashStands, hslash, hwalk.keeps hassembled⟩

theorem find?_assembled_sound (hassembled : Assembled constraints 0 [] segments parts)
    (hfree : Unconditional constraints segments) {path : String} {source : List Char}
    (hsegments : segments = segmentsOf (bodyOf source)) {found : Match}
    (h : (anchored (parts ++ ending source)).find? path = some found) :
    ∃ values, Decomposes (Admits constraints) source path.toList values ∧
      List.Forall₂ (Keeps found.text (RegexSeq.ofList parts).groupNames found.slots)
        (segments.filterMap Segment.name?) values := by
  obtain ⟨values, middle, slash, hwalk, hslashStands, hslash, hkeeps⟩ :=
    find?_assembled_walk hassembled h
  obtain ⟨spelt, hspells, hstands⟩ := hwalk.spells hfree
  have hwhole := stands_all.mp (stands_append.mpr ⟨middle, hstands, hslashStands⟩)
  subst hsegments
  exact ⟨values, ⟨spelt, slash, hwhole.symm, hspells, hslash⟩, hkeeps⟩

theorem find?_assembled_complete (hassembled : Assembled constraints 0 [] segments parts)
    (hfree : Unconditional constraints segments) {path : String} {source : List Char}
    (hsegments : segments = segmentsOf (bodyOf source)) {values : List (List Char)}
    (h : Decomposes (Admits constraints) source path.toList values) :
    ((anchored (parts ++ ending source)).find? path).isSome := by
  obtain ⟨spelt, slash, hpath, hspells, hslash⟩ := h
  subst hsegments
  have hword : path.toList ∈ (RegexSeq.ofList (parts ++ ending source)).product := by
    rw [RegexSeq.product_append, Language.mem_mul]
    exact ⟨spelt, hassembled.mem_product_iff.mpr ⟨values, hspells⟩, slash,
      mem_product_ending.mpr hslash, hpath.symm⟩
  have hparts : (RegexSeq.ofList (parts ++ ending source)).lookFree := by
    rw [RegexSeq.lookFree_ofList]
    intro part hpart
    rcases List.mem_append.mp hpart with hpart | hending
    · exact hassembled.lookFree hfree part hpart
    · exact lookFree_ending source part hending
  obtain ⟨saved, hsaved⟩ := (RegexSeq.along_product path.toList.toArray _ hparts 0
    path.toList.length).mpr ⟨path.toList, hword, stands_all.mpr rfl⟩
  exact find?_anchored_complete hsaved

/-! The values that the captures list. -/

theorem groupNames_anchored (parts : List Regex) (source : List Char) :
    (anchored (parts ++ ending source)).groupNames =
      (RegexSeq.ofList parts).groupNames := by
  have hending : (RegexSeq.ofList (ending source)).groupNames = [] := by
    rw [RegexSeq.groupNames_eq, groups_ending]
    rfl
  simp [anchored, RegexSeq.ofList, RegexSeq.groupNames, Regex.groupNames, hending]

theorem filterMap_captured {found : Match} {names : List String}
    {values : List (List Char)}
    (hkeeps : List.Forall₂
      (Keeps found.text pattern.regex.groupNames found.slots) names values) :
    (names.filterMap fun name =>
        (pattern.captured? found name).map fun value => (name, value)) =
      names.zip (values.map String.ofList) := by
  induction hkeeps with
  | nil => rfl
  | cons hkeep _ ih =>
      obtain ⟨index, hlabel, hgroup⟩ := hkeep
      rw [List.filterMap_cons, captured?, hlabel, ih]
      have hsome : found.group? index = some (String.ofList _) := hgroup
      simp only [Option.bind_eq_bind, Option.bind_some, hsome, Option.map_some,
        List.map_cons, List.zip_cons_cons]

theorem toList_valuesOf {found : Match} {values : List (List Char)}
    (hnodup : pattern.names.Nodup)
    (hkeeps : List.Forall₂ (Keeps found.text pattern.regex.groupNames found.slots)
      pattern.names values) :
    (pattern.valuesOf found).toList = pattern.names.zip (values.map String.ofList) := by
  rw [valuesOf, filterMap_captured hkeeps]
  apply OrderedMap.toList_ofList
  have hlength : pattern.names.length ≤ (values.map String.ofList).length := by
    rw [List.length_map, hkeeps.length_eq]
  rwa [List.map_fst_zip hlength]

theorem isMatch_eq_isSome (pattern : Pattern) (path : String) :
    pattern.isMatch path = (pattern.captures? path).isSome := by
  rw [isMatch, captures?, Option.isSome_map]

theorem Compiled.toList_valuesOf (hcompiled : Compiled source constraints pattern)
    (hregex : pattern.regex = anchored (parts ++ ending source.toList)) {found : Match}
    {values : List (List Char)}
    (hkeeps : List.Forall₂
      (Keeps found.text (RegexSeq.ofList parts).groupNames found.slots)
      ((segmentsOf (bodyOf source.toList)).filterMap Segment.name?) values) :
    (pattern.valuesOf found).toList =
      (paramNames source).zip (values.map String.ofList) := by
  have hnames : pattern.names = paramNames source := by rw [names, hcompiled.sourced]
  rw [names_bodyOf, ← groupNames_anchored parts source.toList, ← hregex] at hkeeps
  rw [Pattern.toList_valuesOf, hnames]
  · exact hnames ▸ (checkNames_ok hcompiled.named).1
  · exact hnames ▸ hkeeps

/-- The captures are the values that stand in the path for the placeholders. -/
theorem Compiled.captures?_spelt (hcompiled : Compiled source constraints pattern)
    (huncommented : ∀ name, .param name ∈ segmentsOf (bodyOf source.toList) →
      '#' ∉ constraintOf constraints name) {path : String} {captured : Params}
    (h : pattern.captures? path = some captured) :
    ∃ values, Decomposes (fun _ _ => True) source.toList path.toList values ∧
      captured.toList = (paramNames source).zip (values.map String.ofList) := by
  obtain ⟨parts, hassembled, hregex, -⟩ := hcompiled.assembled huncommented
  obtain ⟨found, hfound, rfl⟩ := Option.map_eq_some_iff.mp h
  rw [hregex] at hfound
  obtain ⟨values, middle, slash, hwalk, hslashStands, hslash, hkeeps⟩ :=
    find?_assembled_walk hassembled hfound
  obtain ⟨spelt, hspells, hstands⟩ := hwalk.spelt
  have hwhole := stands_all.mp (stands_append.mpr ⟨middle, hstands, hslashStands⟩)
  exact ⟨values, ⟨spelt, slash, hwhole.symm, hspells, hslash⟩,
    hcompiled.toList_valuesOf hregex hkeeps⟩

theorem Compiled.captures?_sound (hcompiled : Compiled source constraints pattern)
    (huncommented : ∀ name, .param name ∈ segmentsOf (bodyOf source.toList) →
      '#' ∉ constraintOf constraints name)
    (hfree : Unconditional constraints (segmentsOf (bodyOf source.toList))) {path : String}
    {captured : Params} (h : pattern.captures? path = some captured) :
    ∃ values, Decomposes (Admits constraints) source.toList path.toList values ∧
      captured.toList = (paramNames source).zip (values.map String.ofList) := by
  obtain ⟨parts, hassembled, hregex, -⟩ := hcompiled.assembled huncommented
  obtain ⟨found, hfound, rfl⟩ := Option.map_eq_some_iff.mp h
  rw [hregex] at hfound
  obtain ⟨values, hdecomposes, hkeeps⟩ := find?_assembled_sound hassembled hfree rfl hfound
  exact ⟨values, hdecomposes, hcompiled.toList_valuesOf hregex hkeeps⟩

theorem Compiled.captures?_complete (hcompiled : Compiled source constraints pattern)
    (huncommented : ∀ name, .param name ∈ segmentsOf (bodyOf source.toList) →
      '#' ∉ constraintOf constraints name)
    (hfree : Unconditional constraints (segmentsOf (bodyOf source.toList))) {path : String}
    {values : List (List Char)}
    (h : Decomposes (Admits constraints) source.toList path.toList values) :
    (pattern.captures? path).isSome := by
  obtain ⟨parts, hassembled, hregex, -⟩ := hcompiled.assembled huncommented
  rw [captures?, Option.isSome_map, hregex]
  exact find?_assembled_complete hassembled hfree rfl h

/-! Values that a constraint matches as a whole. -/

/-- No comment and no condition on a position, so that a constraint reads and matches the
same wherever it stands. -/
structure Plain (constraint : List Char) : Prop where
  uncommented : '#' ∉ constraint
  unconditional : ∀ regex, Regex.parse constraint = .ok regex → regex.lookFree = true

theorem plain_default : Plain defaultConstraint.toList where
  uncommented := by decide
  unconditional := by
    intro regex hregex
    have hdefault : Regex.parse defaultConstraint.toList = .ok unslashed := rfl
    obtain rfl := Except.ok.inj (hdefault.symm.trans hregex)
    rfl

theorem alone_finish {constraint : List Char} {final : Reading}
    (halone : Alone constraint final) (hheight : final.current.height ≤ nestLimit) :
    Regex.parse constraint = .ok final.current := by
  have hrun : initial.run constraint.length constraint = .ok final := halone.read
  simp only [Regex.parse, hrun, ok_bind, finish, halone.closed, List.isEmpty_nil,
    if_true, if_neg (Nat.not_lt.mpr hheight)]

end Pattern

theorem Assembled.exists_group {groups : Nat} {names : List String}
    {segments : List Segment} {parts : List Regex}
    (h : Assembled constraints groups names segments parts)
    {name : List Char} (hname : .param name ∈ segments) :
    ∃ final index, Alone (constraintOf constraints name) final ∧
      ReadsBehindStart (constraintOf constraints name) final ∧
      .group index (some (String.ofList name)) (final.current.shift index) ∈ parts := by
  induction h with
  | nil => cases hname
  | literal text _ ih =>
      obtain ⟨final, index, halone, hstart, hmem⟩ := ih (by simpa using hname)
      exact ⟨final, index, halone, hstart, List.mem_append_right _ hmem⟩
  | @param groups _ _ _ other final halone _ hstart _ ih =>
      rcases List.mem_cons.mp hname with heq | hrest
      · obtain rfl := Segment.param.inj heq
        exact ⟨final, groups + 1, halone, hstart, List.mem_cons_self⟩
      · obtain ⟨final, index, halone, hstart, hmem⟩ := ih hrest
        exact ⟨final, index, halone, hstart, List.mem_cons_of_mem _ hmem⟩

namespace Pattern

theorem Compiled.admits_iff (hcompiled : Compiled source constraints pattern)
    (hplain : ∀ name, .param name ∈ segmentsOf (bodyOf source.toList) →
      Plain (constraintOf constraints name))
    {name : List Char} (hname : .param name ∈ segmentsOf (bodyOf source.toList))
    (value : List Char) :
    Admits constraints name value ↔
      MatchesWhole (constraintOf constraints name) value := by
  obtain ⟨parts, hassembled, hregex, hheight⟩ :=
    hcompiled.assembled fun name hname => (hplain name hname).uncommented
  obtain ⟨final, index, halone, hstart, hmem⟩ := hassembled.exists_group hname
  have hbounded : (anchored (parts ++ ending source.toList)).Bounded :=
    ⟨hregex ▸ hheight, hregex ▸ (compile_ok hcompiled.expressed).2⟩
  have hwhole := bounded_of_group hbounded (List.mem_append_left _ hmem)
  have hsmall : final.current.height ≤ nestLimit := by
    have hle := hwhole.height
    simp only [anchored, height, RegexSeq.ofList, List.cons_append, List.nil_append,
      RegexSeq.height, height_shift] at hle
    omega
  have hfree := (hplain name hname).unconditional _ (alone_finish halone hsmall)
  rw [matchesWhole_iff hstart hwhole hfree]
  constructor
  · rintro ⟨other, hother, hvalue⟩
    rwa [halone.unique hother]
  · intro hvalue
    exact ⟨final, halone, hvalue⟩

theorem Compiled.unconditional (hcompiled : Compiled source constraints pattern)
    (hplain : ∀ name, .param name ∈ segmentsOf (bodyOf source.toList) →
      Plain (constraintOf constraints name)) :
    Unconditional constraints (segmentsOf (bodyOf source.toList)) := by
  intro name hname final halone
  obtain ⟨regex, hregex⟩ := checkConstraints_ok hcompiled.constrained hname
  obtain ⟨other, hother, rfl, -⟩ := alone_of_parse (compile_ok hregex).1
  rw [halone.unique hother]
  exact (hplain name hname).unconditional _ (compile_ok hregex).1

theorem mem_names {name : List Char}
    (h : .param name ∈ segmentsOf (bodyOf source.toList)) :
    String.ofList name ∈ paramNames source := by
  rw [paramNames, ← names_bodyOf]
  exact List.mem_filterMap.mpr ⟨_, h, rfl⟩

theorem unconstrained_of_names
    (h : ∀ name ∈ paramNames source, constraints.get? name = none) :
    Unconstrained constraints (segmentsOf (bodyOf source.toList)) :=
  fun _ hname => constraintOf_default (h _ (mem_names hname))

theorem Compiled.captures?_free_sound (hcompiled : Compiled source constraints pattern)
    (hplain : Unconstrained constraints (segmentsOf (bodyOf source.toList)))
    {path : String} {captured : Params} (h : pattern.captures? path = some captured) :
    ∃ values, Decomposes (fun _ => Free) source.toList path.toList values ∧
      captured.toList = (paramNames source).zip (values.map String.ofList) := by
  obtain ⟨values, hvalues, hlist⟩ :=
    hcompiled.captures?_sound (fun _ => hplain.uncommented) hplain.unconditional h
  exact ⟨values, (decomposes_free_iff hplain).mpr hvalues, hlist⟩

theorem Compiled.captures?_free_complete (hcompiled : Compiled source constraints pattern)
    (hplain : Unconstrained constraints (segmentsOf (bodyOf source.toList)))
    {path : String} {values : List (List Char)}
    (h : Decomposes (fun _ => Free) source.toList path.toList values) :
    (pattern.captures? path).isSome :=
  hcompiled.captures?_complete (fun _ => hplain.uncommented) hplain.unconditional
    ((decomposes_free_iff hplain).mp h)

theorem plain_constraintOf
    (hplain : ∀ name ∈ paramNames source, ∀ constraint,
      constraints.get? name = some constraint →
      Plain constraint.toList)
    {name : List Char} (hname : .param name ∈ segmentsOf (bodyOf source.toList)) :
    Plain (constraintOf constraints name) := by
  cases hgiven : constraints.get? (String.ofList name) with
  | none =>
      rw [constraintOf_default hgiven]
      exact plain_default
  | some constraint =>
      rw [constraintOf, hgiven, Option.getD_some]
      exact hplain _ (mem_names hname) constraint hgiven

/-- Constraints are enforced, and nothing else is. -/
theorem matches_iff_constraints_match (hcompile : compile source constraints = .ok pattern)
    (hplain : ∀ name ∈ pattern.names, ∀ constraint,
      constraints.get? name = some constraint →
      Plain constraint.toList) (path : String) :
    (pattern.isMatch path ↔ ∃ values,
      Decomposes (fun name => MatchesWhole (constraintOf constraints name)) source.toList
        path.toList values) ∧
    (pattern.isMatch path → ∃ captured values, pattern.captures? path = some captured ∧
      Decomposes (fun name => MatchesWhole (constraintOf constraints name)) source.toList
        path.toList values ∧
      captured.toList = pattern.names.zip (values.map String.ofList)) := by
  have hcompiled := compiled_of_compile hcompile
  have hnames : pattern.names = paramNames source := by rw [names, hcompiled.sourced]
  have hbody : ∀ name, .param name ∈ segmentsOf (bodyOf source.toList) →
      Plain (constraintOf constraints name) :=
    fun name hname => plain_constraintOf (hnames ▸ hplain) hname
  have huncommented := fun name hname => (hbody name hname).uncommented
  have hfree := hcompiled.unconditional hbody
  have hsound : pattern.isMatch path → ∃ captured values,
      pattern.captures? path = some captured ∧
      Decomposes (fun name => MatchesWhole (constraintOf constraints name)) source.toList
        path.toList values ∧
      captured.toList = pattern.names.zip (values.map String.ofList) := by
    intro hmatch
    rw [isMatch_eq_isSome] at hmatch
    obtain ⟨captured, hcaptured⟩ := Option.isSome_iff_exists.mp hmatch
    obtain ⟨values, hdecomposes, hlist⟩ :=
      hcompiled.captures?_sound huncommented hfree hcaptured
    refine ⟨captured, values, hcaptured, hdecomposes.mono fun name hname value => ?_, ?_⟩
    · exact (hcompiled.admits_iff hbody hname value).mp
    · rw [hnames, hlist]
  refine ⟨⟨fun hmatch => ?_, ?_⟩, hsound⟩
  · obtain ⟨-, values, -, hdecomposes, -⟩ := hsound hmatch
    exact ⟨values, hdecomposes⟩
  · rintro ⟨values, hdecomposes⟩
    rw [isMatch_eq_isSome]
    exact hcompiled.captures?_complete huncommented hfree
      (hdecomposes.mono fun name hname value =>
        (hcompiled.admits_iff hbody hname value).mpr)

/-- Digits are asked for, and a path with letters has no values that would do. -/
theorem matches_iff_constraints_match_digits :
    ∃ pattern, compile "/u/:id" (.ofList [("id", "[0-9]+")]) = .ok pattern ∧
      (∀ name ∈ pattern.names, ∀ constraint,
        (OrderedMap.ofList [("id", "[0-9]+")]).get? name = some constraint →
        Plain constraint.toList) ∧
      (pattern.isMatch "/u/42" ↔ ∃ values,
        Decomposes
          (fun name => MatchesWhole (constraintOf (.ofList [("id", "[0-9]+")]) name))
          "/u/:id".toList "/u/42".toList values) ∧
      pattern.isMatch "/u/42" = true ∧
      (∃ captured values, pattern.captures? "/u/42" = some captured ∧
        Decomposes
          (fun name => MatchesWhole (constraintOf (.ofList [("id", "[0-9]+")]) name))
          "/u/:id".toList "/u/42".toList values ∧
        captured.toList = pattern.names.zip (values.map String.ofList)) ∧
      pattern.isMatch "/u/abc" = false ∧
      ¬ ∃ values,
        Decomposes
          (fun name => MatchesWhole (constraintOf (.ofList [("id", "[0-9]+")]) name))
          "/u/:id".toList "/u/abc".toList values := by
  have hruns : (compile "/u/:id" (.ofList [("id", "[0-9]+")])).toOption.map (fun pattern =>
      (pattern.isMatch "/u/42", pattern.isMatch "/u/abc")) = some (true, false) := by
    decide +kernel
  obtain ⟨pattern, hcompile, hmatches⟩ := Option.map_eq_some_iff.mp hruns
  obtain ⟨hdigits, hletters⟩ := Prod.mk.inj hmatches
  rw [toOption_eq_some_iff] at hcompile
  have hplain : ∀ name ∈ pattern.names, ∀ constraint,
      (OrderedMap.ofList [("id", "[0-9]+")]).get? name = some constraint →
      Plain constraint.toList := by
    intro name _ constraint hgiven
    have hcases : constraint = "[0-9]+" := by
      by_cases hname : "id" = name
      · simpa [OrderedMap.ofList, hname] using hgiven.symm
      · simp [OrderedMap.ofList, hname] at hgiven
    subst hcases
    refine ⟨by decide, fun regex hregex => ?_⟩
    have hparse : Regex.parse "[0-9]+".toList =
        .ok (.iterate ⟨1, none, true⟩ (.set [⟨'0', '9'⟩])) := rfl
    obtain rfl := Except.ok.inj (hparse.symm.trans hregex)
    rfl
  obtain ⟨hiff, hvalues⟩ := matches_iff_constraints_match hcompile hplain "/u/42"
  obtain ⟨hnever, -⟩ := matches_iff_constraints_match hcompile hplain "/u/abc"
  refine ⟨pattern, hcompile, hplain, hiff, hdigits, hvalues hdigits, hletters,
    fun hsome => ?_⟩
  rw [hnever.mpr hsome] at hletters
  cases hletters

end Pattern

end Signpost
