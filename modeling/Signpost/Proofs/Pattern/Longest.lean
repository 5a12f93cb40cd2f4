import Signpost.Proofs.Pattern.Greedy
import Signpost.Proofs.Pattern.Matching

namespace Signpost

open Regex Regex.Reading Pattern

/-! The greatest of finitely many lists of numbers. -/

theorem exists_greatest (lists : List Nat → Prop) (length bound : Nat)
    (hlength : ∀ list, lists list → list.length = length)
    (hbound : ∀ list, lists list → ∀ number ∈ list, number ≤ bound)
    (hsome : ∃ list, lists list) :
    ∃ list, lists list ∧ ∀ other, lists other → other ≤ list := by
  classical
  induction length generalizing lists with
  | zero =>
      obtain ⟨list, hlist⟩ := hsome
      refine ⟨list, hlist, fun other hother => ?_⟩
      rw [List.eq_nil_of_length_eq_zero (hlength other hother)]
      exact not_lt.mp (List.not_lt_nil _)
  | succ length ih =>
      obtain ⟨list, hlist⟩ := hsome
      have hfirsts : ∃ first ≤ bound, ∃ rest, lists (first :: rest) := by
        cases list with
        | nil => cases hlength [] hlist
        | cons first rest =>
            exact ⟨first, hbound _ hlist first List.mem_cons_self, rest, hlist⟩
      obtain ⟨first, hfirst, hrest⟩ := hfirsts
      have hgreatest :=
        Nat.findGreatest_spec (P := fun first => ∃ rest, lists (first :: rest))
          hfirst hrest
      obtain ⟨rest, hrest, hmost⟩ := ih
        (fun rest => lists (Nat.findGreatest _ bound :: rest))
        (fun rest hrest => Nat.succ.inj (hlength _ hrest))
        (fun rest hrest number hnumber =>
          hbound _ hrest number (List.mem_cons_of_mem _ hnumber))
        hgreatest
      refine ⟨_, hrest, fun other hother => ?_⟩
      cases other with
      | nil => exact not_lt.mp (List.not_lt_nil _)
      | cons number others =>
          rw [cons_lengths_le_iff]
          have hle := Nat.le_findGreatest (P := fun first => ∃ rest, lists (first :: rest))
            (hbound _ hother number List.mem_cons_self) ⟨others, hother⟩
          rcases Nat.lt_or_eq_of_le hle with hlt | heq
          · exact .inl hlt
          · exact .inr ⟨heq, hmost others (heq ▸ hother)⟩

namespace Pattern

variable {admits : List Char → List Char → Prop}

theorem Spells.length_le {segments : List Segment} {values : List (List Char)}
    {spelt : List Char} (h : Spells admits segments values spelt) :
    ∀ value ∈ values, value.length ≤ spelt.length := by
  induction h with
  | nil => simp
  | literal text _ ih =>
      intro value hvalue
      have hle := ih value hvalue
      rw [List.length_append]
      omega
  | param _ _ ih =>
      intro value hvalue
      rw [List.length_append]
      rcases List.mem_cons.mp hvalue with rfl | hrest
      · omega
      · have hle := ih value hrest
        omega

theorem Decomposes.exists_longest {source path : List Char}
    (h : ∃ values, Decomposes admits source path values) :
    ∃ values, Decomposes admits source path values ∧
      ∀ others, Decomposes admits source path others →
        others.map List.length ≤ values.map List.length := by
  obtain ⟨values, hvalues⟩ := h
  have hlength : ∀ lengths, (∃ values, Decomposes admits source path values ∧
      values.map List.length = lengths) →
      lengths.length = ((segmentsOf (bodyOf source)).filterMap Segment.name?).length := by
    rintro _ ⟨values, ⟨spelt, slash, -, hspells, -⟩, rfl⟩
    rw [List.length_map, hspells.length_values]
  have hbound : ∀ lengths, (∃ values, Decomposes admits source path values ∧
      values.map List.length = lengths) → ∀ number ∈ lengths, number ≤ path.length := by
    rintro _ ⟨values, ⟨spelt, slash, rfl, hspells, -⟩, rfl⟩ number hnumber
    obtain ⟨value, hvalue, rfl⟩ := List.mem_map.mp hnumber
    have hle := hspells.length_le value hvalue
    rw [List.length_append]
    omega
  obtain ⟨_, ⟨longest, hlongest, rfl⟩, hmost⟩ :=
    exists_greatest _ _ _ hlength hbound ⟨_, values, hvalues, rfl⟩
  exact ⟨longest, hlongest, fun others hothers => hmost _ ⟨others, hothers, rfl⟩⟩

end Pattern

/-! The end of a pattern on the preferred way. -/

variable {program : Array Instr} {text : Array Char} {constraints : Params}
  {segments : List Segment} {parts : List Regex}

theorem Prefers.to_end {source slash : List Char} {pc finish : Nat} {slots : Slots}
    (hholds : Holds program pc
      ((RegexSeq.ofList (ending source)).code.flatten ++ [.assert .finish]))
    (hend : pc + ((RegexSeq.ofList (ending source)).code.flatten ++
      [Instr.assert .finish]).length = program.size)
    (hslash : slash = [] ∨ isFolderText source = true ∧ slash = ['/'])
    (hstands : Stands text finish slash text.size) :
    ∃ steps, Prefers program text steps ⟨pc, finish, slots⟩
      ⟨program.size, text.size, slots⟩ := by
  have hlast : Look.finish.holds
      (Thread.charBefore? text text.size) text[text.size]? = true :=
    (Look.holds_finish (Nat.le_refl _)).mpr rfl
  cases hfolder : isFolderText source with
  | false =>
      rw [ending, hfolder] at hholds hend
      rcases hslash with rfl | ⟨hfalse, -⟩
      · obtain rfl := stands_nil.mp hstands
        obtain ⟨hassert, -⟩ := hholds
        have hpc : program.size = pc + 1 := hend.symm
        rw [hpc]
        exact ⟨_, .assert hassert hlast (.finish hpc.symm)⟩
      · rw [hfolder] at hfalse
        cases hfalse
  | true =>
      rw [ending, hfolder] at hholds hend
      have hfork : program[pc]? = some (.fork [1, 2]) := hholds.1
      have hconsume : program[pc + 1]? = some (.consume [CharRange.single '/']) :=
        hholds.2.1
      have hassert : program[pc + 2]? = some (.assert .finish) := hholds.2.2.1
      have hone : ((pc : Int) + 1).toNat = pc + 1 := by omega
      have htwo : ((pc : Int) + 2).toNat = pc + 2 := by omega
      have hpc : program.size = pc + 3 := hend.symm
      rw [hpc]
      rcases hslash with rfl | ⟨-, rfl⟩
      · obtain rfl := stands_nil.mp hstands
        refine ⟨2, .fork_second hfork ?_ ?_⟩
        · -- Behind the text there is no character for the optional slash.
          rw [hone]
          intro hlive
          have hthread :
              Live program text (Thread.point ⟨pc + 1, text.size, slots⟩) := hlive
          obtain ⟨final, ⟨steps, hsteps⟩, hfinal⟩ := hthread.reaches
          obtain ⟨fewer, next, -, hnext, -⟩ := hsteps.leave hfinal hconsume
          rw [next_consume hconsume] at hnext
          simp at hnext
        · rw [htwo]
          exact .assert hassert hlast (.finish hpc.symm)
      · obtain ⟨hchar, hsize⟩ := stands_single.mp hstands
        refine ⟨3, .fork_first hfork ?_⟩
        rw [hone]
        apply Prefers.char hconsume hchar
        rw [← hsize]
        exact .assert hassert hlast (.finish hpc.symm)

theorem live_exit {source : List Char} {pc finish : Nat}
    (hholds : Holds program pc
      ((RegexSeq.ofList (ending source)).code.flatten ++ [.assert .finish]))
    (hfinish : finish ≤ text.size) (hlive : Live program text (pc, finish)) :
    ∃ slash, Stands text finish slash text.size ∧
      (slash = [] ∨ isFolderText source = true ∧ slash = ['/']) := by
  have hthread : Live program text (Thread.point ⟨pc, finish, []⟩) := hlive
  obtain ⟨final, ⟨steps, hsteps⟩, hpc⟩ := hthread.reaches
  obtain ⟨last, saved, fewer, -, ⟨_, _, _, hending, ⟨hlast, rfl, rfl⟩, rfl⟩, hleads⟩ :=
    (((RegexSeq.ofList (ending source)).perform program text).append
      (.assert .finish)).sound hholds hsteps hpc
  obtain ⟨-, slash, hstands, hslash⟩ := inTurn_ending hending
  obtain rfl := (Look.holds_finish (stands_le hstands hfinish)).mp hlast
  exact ⟨slash, hstands, hslash⟩

/-- The search finds the decomposition with the longest values. -/
theorem find?_longest (hassembled : Assembled constraints 0 [] segments parts)
    (hplain : Unconstrained constraints segments) {path : String} {source : List Char}
    (hsegments : segments = segmentsOf (bodyOf source)) {values : List (List Char)}
    (hvalues : Decomposes (Admits constraints) source path.toList values)
    (hlongest : ∀ others, Decomposes (Admits constraints) source path.toList others →
      others.map List.length ≤ values.map List.length) :
    ∃ found, (anchored (parts ++ ending source)).find? path = some found ∧
      List.Forall₂ (Keeps found.text (RegexSeq.ofList parts).groupNames found.slots)
        (segments.filterMap Segment.name?) values := by
  subst hsegments
  obtain ⟨spelt, slash, hpath, hspells, hslash⟩ := hvalues
  have hsize : path.toList.toArray.size = path.toList.length := List.size_toArray ..
  obtain ⟨middle, hspelt, hend⟩ := stands_append.mp (stands_all.mpr hpath.symm)
  rw [← hsize] at hend
  have hholds := holds_self (anchored (parts ++ ending source)).code
  have hcode : (anchored (parts ++ ending source)).code = .assert .start ::
      ((RegexSeq.ofList parts).code.flatten ++
        ((RegexSeq.ofList (ending source)).code.flatten ++ [.assert .finish])) := by
    rw [anchored, Regex.code, RegexSeq.ofList, RegexSeq.code, List.flatten_cons,
      RegexSeq.code_append, RegexSeq.code_append, List.append_assoc]
    rfl
  have hprogram : (anchored (parts ++ ending source)).program.size = 0 + 1 +
      (RegexSeq.ofList parts).code.flatten.length +
      ((RegexSeq.ofList (ending source)).code.flatten ++
        [Instr.assert .finish]).length := by
    rw [program, List.size_toArray, hcode, List.length_cons, List.length_append]
    omega
  have hholds' : Holds (anchored (parts ++ ending source)).program 0 (.assert .start ::
      ((RegexSeq.ofList parts).code.flatten ++
        ((RegexSeq.ofList (ending source)).code.flatten ++ [.assert .finish]))) :=
          hcode ▸ hholds
  obtain ⟨hstart, hrest⟩ := hholds'
  obtain ⟨hparts, hending⟩ := (holds_append ..).mp hrest
  obtain ⟨saved, hwalk, hprefers⟩ := hassembled.prefers hplain hparts hspells hspelt
    (fun others spelt' finish' hothers hspelt' hlive => by
      obtain ⟨slash', hslash', hlast⟩ :=
        live_exit hending (stands_le hspelt' (Nat.zero_le _)) hlive
      rw [hsize] at hslash'
      refine hlongest others ⟨spelt', slash', ?_, hothers, hlast⟩
      exact (stands_all.mp (stands_append.mpr ⟨finish', hspelt', hslash'⟩)).symm) []
  obtain ⟨steps, hsteps⟩ := Prefers.to_end hending hprogram.symm hslash hend
  obtain ⟨more, hmore⟩ := hprefers steps _ hsteps
  have hfirst := Prefers.assert hstart ((Look.holds_start (Nat.zero_le _)).mpr rfl) hmore
  refine ⟨⟨path.toList.toArray, saved ++ []⟩, ?_, ?_⟩
  · rw [find?, run_prefers hfirst]
    rfl
  · rw [List.append_nil]
    exact hwalk.keeps hassembled

namespace Pattern

variable {source : String} {pattern : Pattern}

/-- Without constraints a path matches exactly if it is the text of the pattern with free
values, and the longest such values are captured. -/
theorem captures_longest_values (hcompile : compile source constraints = .ok pattern)
    (hfree : ∀ name ∈ pattern.names, constraints.get? name = none) (path : String) :
    ((pattern.captures? path).isSome ↔ ∃ values,
      Decomposes (fun _ => Free) source.toList path.toList values) ∧
    (pattern.isMatch path ↔ ∃ values,
      Decomposes (fun _ => Free) source.toList path.toList values) ∧
    ∀ captured, pattern.captures? path = some captured → ∃ values,
      Decomposes (fun _ => Free) source.toList path.toList values ∧
      (∀ others, Decomposes (fun _ => Free) source.toList path.toList others →
        others.map List.length ≤ values.map List.length) ∧
      captured.toList = pattern.names.zip (values.map String.ofList) := by
  have hcompiled := compiled_of_compile hcompile
  have hnames : pattern.names = paramNames source := by rw [names, hcompiled.sourced]
  have hplain : Unconstrained constraints (segmentsOf (bodyOf source.toList)) :=
    unconstrained_of_names (hnames ▸ hfree)
  have hiff : (pattern.captures? path).isSome ↔ ∃ values,
      Decomposes (fun _ => Free) source.toList path.toList values := by
    constructor
    · intro hsome
      obtain ⟨captured, hcaptured⟩ := Option.isSome_iff_exists.mp hsome
      obtain ⟨values, hvalues, -⟩ := hcompiled.captures?_free_sound hplain hcaptured
      exact ⟨values, hvalues⟩
    · rintro ⟨values, hvalues⟩
      exact hcompiled.captures?_free_complete hplain hvalues
  refine ⟨hiff, by rw [isMatch_eq_isSome, hiff], fun captured hcaptured => ?_⟩
  obtain ⟨values, hvalues, hlongest⟩ :=
    Decomposes.exists_longest (hiff.mp (by rw [hcaptured]; rfl))
  refine ⟨values, hvalues, hlongest, ?_⟩
  obtain ⟨parts, hassembled, hregex, -⟩ := hcompiled.assembled fun _ => hplain.uncommented
  simp only [decomposes_free_iff hplain] at hvalues hlongest
  obtain ⟨found, hfound, hkeeps⟩ := find?_longest hassembled hplain rfl hvalues hlongest
  rw [captures?, hregex, hfound] at hcaptured
  obtain rfl := Option.some.inj hcaptured
  rw [names_bodyOf, ← groupNames_anchored parts source.toList, ← hregex] at hkeeps
  apply toList_valuesOf (hnames ▸ (checkNames_ok hcompiled.named).1)
  rw [hnames]
  exact hkeeps

/-- The first of two adjacent placeholders takes all but one of the characters. -/
theorem captures_longest_values_adjacent :
    ∃ pattern captured, compile "/:a:b" .empty = .ok pattern ∧
      (∀ name ∈ pattern.names, (OrderedMap.empty : Params).get? name = none) ∧
      ((pattern.captures? "/xyz").isSome ↔ ∃ values,
        Decomposes (fun _ => Free) "/:a:b".toList "/xyz".toList values) ∧
      pattern.captures? "/xyz" = some captured ∧
      captured.toList = [("a", "xy"), ("b", "z")] ∧
      ∃ values, Decomposes (fun _ => Free) "/:a:b".toList "/xyz".toList values ∧
        (∀ others, Decomposes (fun _ => Free) "/:a:b".toList "/xyz".toList others →
          others.map List.length ≤ values.map List.length) ∧
        captured.toList = pattern.names.zip (values.map String.ofList) := by
  have hruns : (compile "/:a:b" .empty).toOption.bind (fun pattern =>
      (pattern.captures? "/xyz").map OrderedMap.toList) =
        some [("a", "xy"), ("b", "z")] := by
    decide +kernel
  obtain ⟨pattern, hcompile, hruns⟩ := Option.bind_eq_some_iff.mp hruns
  obtain ⟨captured, hcaptured, hlist⟩ := Option.map_eq_some_iff.mp hruns
  rw [toOption_eq_some_iff] at hcompile
  have hfree : ∀ name ∈ pattern.names, (OrderedMap.empty : Params).get? name = none :=
    fun _ _ => rfl
  obtain ⟨hsome, -, hlongest⟩ := captures_longest_values hcompile hfree "/xyz"
  exact ⟨pattern, captured, hcompile, hfree, hsome, hcaptured, hlist,
    hlongest captured hcaptured⟩

end Pattern

end Signpost
