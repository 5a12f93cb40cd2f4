import Signpost.Proofs.Pattern.Segments
import Signpost.Proofs.Regex.Enclosed

namespace Signpost

open Regex

namespace Regex

theorem escapeOf_meta {c : Char} (hmeta : isMeta c = true) (rest : List Char) :
    escapeOf {} (c :: rest) = .ok (.char c, rest) := by
  have hplain : ∀ d ∈ metaChars, d.isDigit = false ∧ ¬ (d = 'p' ∨ d = 'P') := by
    simp [metaChars]
  obtain ⟨hdigit, hclass⟩ := hplain c (List.contains_iff_mem.mp hmeta)
  have hescapable : isEscapable c = true := by rw [isEscapable, hmeta, Bool.true_or]
  rw [escapeOf, hdigit, if_neg hclass, hescapable]
  rfl

theorem escape_cons (c : Char) (text : List Char) :
    escape (c :: text) = (if isMeta c then ['\\', c] else [c]) ++ escape text := rfl

namespace Reading

def top (groups : Nat) (names : List String) (parts : List Regex) : Reading :=
  ⟨{}, groups, names, [], parts, []⟩

variable {groups : Nat} {names : List String} {parts : List Regex}

theorem readAll_top (c : Char) (rest : List Char) :
    (top groups names parts).readAll (c :: rest) =
      (top groups names parts).step c rest >>= fun found => found.1.readAll found.2 :=
  readAll_step rfl

theorem step_plain {c : Char} (hplain : isMeta c = false) (rest : List Char) :
    (top groups names parts).step c rest =
      .ok (top groups names (.char c :: parts), rest) := by
  have hother : ∀ d ∈ metaChars, c ≠ d := by
    rintro d hd rfl
    rw [isMeta, List.contains_iff_mem.mpr hd] at hplain
    cases hplain
  simp only [metaChars, List.forall_mem_cons] at hother
  simp [step, hother, top, push, charOf]

theorem step_meta {c : Char} (hmeta : isMeta c = true) (rest : List Char) :
    (top groups names parts).step '\\' (c :: rest) =
      .ok (top groups names (.char c :: parts), rest) := by
  have hescape :
      escapeOf (top groups names parts).flags (c :: rest) = .ok (.char c, rest) :=
    escapeOf_meta hmeta rest
  simp only [step, hescape, ok_bind]
  rfl

theorem readAll_escape (text more : List Char) :
    (top groups names parts).readAll (escape text ++ more) =
      (top groups names ((text.map Regex.char).reverse ++ parts)).readAll more := by
  induction text generalizing parts with
  | nil => rfl
  | cons c text ih =>
      have hparts : ((c :: text).map Regex.char).reverse ++ parts =
          (text.map Regex.char).reverse ++ .char c :: parts := by simp
      rw [escape_cons, List.append_assoc, hparts]
      cases hmeta : isMeta c with
      | true =>
          rw [if_pos rfl, List.cons_append, List.cons_append, List.nil_append, readAll_top,
            step_meta hmeta]
          exact ih
      | false =>
          rw [if_neg (by decide), List.cons_append, List.nil_append, readAll_top,
            step_plain hmeta]
          exact ih

end Reading

theorem toNat_lt_of_isAlphanum {c : Char} (hc : c.isAlphanum = true) : c.toNat < 128 := by
  have hmost : c.val ≤ 'z'.val := by
    rcases Bool.or_eq_true_iff.mp hc with hletter | hdigit
    · rcases Bool.or_eq_true_iff.mp hletter with hupper | hlower
      · exact UInt32.le_trans (of_decide_eq_true hupper).2 (by decide)
      · exact of_decide_eq_true (Bool.and_eq_true_iff.mp hlower).2
    · exact UInt32.le_trans (of_decide_eq_true (Bool.and_eq_true_iff.mp hdigit).2)
        (by decide)
  exact Nat.lt_of_le_of_lt (UInt32.le_iff_toNat_le.mp hmost) (by decide)

theorem isNameChar_false {c : Char} (hc : Segment.isNameChar c = true) :
    c ≠ '>' ∧ isNameChar false c = true := by
  rw [Segment.isNameChar, Bool.or_eq_true] at hc
  constructor
  · rintro rfl
    revert hc
    decide
  · rcases hc with hletter | hunderscore
    · have hascii := toNat_lt_of_isAlphanum hletter
      simp [isNameChar, Text.isAlphanumeric_ascii hascii, hletter]
    · simp [isNameChar, hunderscore]

theorem isNameChar_true {c : Char} (hc : Segment.isNameChar c = true)
    (hdigit : c.isDigit = false) : isNameChar true c = true := by
  rw [Segment.isNameChar, Bool.or_eq_true] at hc
  rcases hc with hletter | hunderscore
  · have hascii := toNat_lt_of_isAlphanum hletter
    rw [Char.isAlphanum, hdigit, Bool.or_false] at hletter
    simp [isNameChar, Text.isAlphabetic_ascii hascii, hletter]
  · simp [isNameChar, hunderscore]

theorem nameFrom_false {name : List Char} (hname : ∀ c ∈ name, Segment.isNameChar c = true)
    (rest : List Char) : nameFrom false (name ++ '>' :: rest) = .ok (name, rest) := by
  induction name with
  | nil => rfl
  | cons c name ih =>
      obtain ⟨hne, hchar⟩ := isNameChar_false (hname c List.mem_cons_self)
      rw [List.cons_append, nameFrom, if_neg hne, if_pos hchar,
        ih fun d hd => hname d (List.mem_cons_of_mem _ hd)]
      rfl

theorem groupName_named {taken : List String} {name : List Char}
    (hnamed : Segment.Named name)
    (hdigit : Pattern.startsWithDigit (String.ofList name) = false) (rest : List Char) :
    groupName taken (name ++ '>' :: rest) =
      if String.ofList name ∈ taken then .error .groupNameTwice
      else .ok (String.ofList name, rest) := by
  cases name with
  | nil => exact (hnamed.nonempty rfl).elim
  | cons c name =>
      have hchar := hnamed.chars c List.mem_cons_self
      have hstart : c.isDigit = false := by
        simpa [Pattern.startsWithDigit] using hdigit
      have hrest := nameFrom_false
        (fun d hd => hnamed.chars d (List.mem_cons_of_mem _ hd)) rest
      have hread : nameFrom true (c :: name ++ '>' :: rest) = .ok (c :: name, rest) := by
        rw [List.cons_append, nameFrom, if_neg (isNameChar_false hchar).1,
          if_pos (isNameChar_true hchar hstart), hrest]
        rfl
      rw [groupName, hread]
      simp only [List.cons_append, List.isEmpty_cons, ok_bind]
      rfl

namespace Reading

variable {groups : Nat} {names : List String} {parts : List Regex}

def inGroup (groups : Nat) (names : List String) (parts : List Regex) (name : String) :
    Reading :=
  ⟨{}, groups + 1, name :: names, [⟨some (groups + 1, some name), {}, parts, []⟩], [], []⟩

theorem step_group {name : List Char} (hnamed : Segment.Named name)
    (hdigit : Pattern.startsWithDigit (String.ofList name) = false) (rest : List Char) :
    (top groups names parts).step '(' ('?' :: 'P' :: '<' :: (name ++ '>' :: rest)) =
      if String.ofList name ∈ names then .error .groupNameTwice
      else .ok (inGroup groups names parts (String.ofList name), rest) := by
  have hopening : openingOf (top groups names parts).flags (top groups names parts).names
      ('?' :: 'P' :: '<' :: (name ++ '>' :: rest)) =
      groupName names (name ++ '>' :: rest) >>= fun found =>
        .ok (.capture (some found.1), found.2) := rfl
  rw [step, if_pos rfl, openGroup_eq, hopening, groupName_named hnamed hdigit]
  split
  · rfl
  · rfl

/-- What a constraint is by itself. -/
structure Alone (text : List Char) (final : Reading) : Prop where
  read : initial.readAll text = .ok final
  closed : final.opened = []

theorem alone_of_parse {text : List Char} {regex : Regex} (h : parse text = .ok regex) :
    ∃ final, Alone text final ∧ final.current = regex ∧ regex.height ≤ nestLimit := by
  rw [parse] at h
  obtain ⟨final, hread, hfinish⟩ := exists_of_bind_ok h
  rw [finish] at hfinish
  split at hfinish
  · rename_i hclosed
    split at hfinish
    · cases hfinish
    · rename_i hheight
      obtain rfl := Except.ok.inj hfinish
      exact ⟨final, ⟨hread, List.isEmpty_iff.mp hclosed⟩, rfl, Nat.le_of_not_lt hheight⟩
  · cases hfinish

theorem Alone.unique {text : List Char} {first second : Reading}
    (hfirst : Alone text first) (hsecond : Alone text second) : first = second :=
  Except.ok.inj (hfirst.read.symm.trans hsecond.read)

theorem Alone.numbered {text : List Char} {final : Reading} (halone : Alone text final) :
    ∀ group ∈ final.current.groups, Numbered final.groups final.names group :=
  (allNumbered_initial.readAll halone.read).current

def inStart : Reading := ⟨{}, 0, [], [⟨none, {}, [.look .start], []⟩], [], []⟩

theorem inStart_looser (name : String) :
    inStart.Looser (inGroup groups names parts name) :=
  ⟨Nat.le_refl _, List.nil_subset _⟩

theorem readAll_closeGroup {name : String} {final : Reading} (hclosed : final.opened = [])
    (more : List Char) :
    ((inGroup groups names parts name).within final).readAll (')' :: more) =
      (top (groups + 1 + final.groups) (final.names ++ name :: names)
        (.group (groups + 1) (some name) (final.current.shift (groups + 1)) ::
          parts)).readAll more := by
  have hclose : ((inGroup groups names parts name).within final).closeGroup =
      .ok (top (groups + 1 + final.groups) (final.names ++ name :: names)
        (.group (groups + 1) (some name)
          (final.current.shift (groups + 1)) :: parts)) := by
    have hcurrent := @within_current (inGroup groups names parts name) final
    rw [closeGroup, hcurrent]
    simp only [within, hclosed]
    rfl
  rw [readAll_step (skipBlank_paren _ more), step, if_neg (by decide), if_pos rfl, hclose]
  rfl

theorem readAll_closeStart {final : Reading} (hclosed : final.opened = [])
    (more : List Char) :
    (inStart.within final).readAll (')' :: more) =
      (top (0 + final.groups) (final.names ++ [])
        [final.current.shift 0, .look .start]).readAll more := by
  have hclose : (inStart.within final).closeGroup =
      .ok (top (0 + final.groups) (final.names ++ [])
        [final.current.shift 0, .look .start]) := by
    have hcurrent := @within_current inStart final
    rw [closeGroup, hcurrent]
    simp only [within, hclosed]
    rfl
  rw [readAll_step (skipBlank_paren _ more), step, if_neg (by decide), if_pos rfl, hclose]
  rfl

/-- A text reads the same behind the start of another text as it does alone. -/
def ReadsBehindStart (text : List Char) (final : Reading) : Prop :=
  ∀ more, inStart.readAll (text ++ ')' :: more) =
    (top (0 + final.groups) (final.names ++ [])
      [final.current.shift 0, .look .start]).readAll more

/-- The name of a placeholder and the names inside its constraint are all new. -/
structure Fresh (names : List String) (name : String) (final : Reading) : Prop where
  outside : name ∉ names
  inside : ∀ other ∈ final.names, other ∉ name :: names

theorem readAll_group {name text more : List Char} {final whole : Reading}
    (hnamed : Segment.Named name)
    (hdigit : Pattern.startsWithDigit (String.ofList name) = false)
    (halone : Alone text final) (hfree : '#' ∉ text)
    (hwhole : (top groups names parts).readAll
      ('(' :: '?' :: 'P' :: '<' :: (name ++ '>' :: (text ++ ')' :: more))) = .ok whole) :
    Fresh names (String.ofList name) final ∧
      (top (groups + 1 + final.groups) (final.names ++ String.ofList name :: names)
        (.group (groups + 1) (some (String.ofList name))
          (final.current.shift (groups + 1)) :: parts)).readAll more = .ok whole ∧
      ReadsBehindStart text final := by
  rw [readAll_top, step_group hnamed hdigit] at hwhole
  split at hwhole
  · cases hwhole
  · rename_i hnew
    have hinitial : (inGroup groups names parts (String.ofList name)).within initial =
        inGroup groups names parts (String.ofList name) := within_initial rfl rfl rfl
    have hfits : (inGroup groups names parts (String.ofList name)).Fits initial :=
      ⟨by simp [initial, inGroup, nestLimit], by simp [initial]⟩
    simp only [ok_bind] at hwhole
    rw [← hinitial] at hwhole
    obtain ⟨hfinal, hothers⟩ := readAll_within hfree hfits halone.read hwhole
    rw [hothers (.refl _), readAll_closeGroup halone.closed] at hwhole
    refine ⟨⟨hnew, hfinal.names⟩, hwhole, fun more => ?_⟩
    have hstart := hothers (inStart_looser (String.ofList name)) more
    have hinitial : inStart.within initial = inStart := within_initial rfl rfl rfl
    rwa [hinitial, readAll_closeStart halone.closed] at hstart

end Reading

end Regex

/-! The parts of a whole pattern, counted on from the groups and names before them. -/

open Regex.Reading in
inductive Assembled (constraints : Params) :
    Nat → List String → List Segment → List Regex → Prop
  | nil (groups : Nat) (names : List String) : Assembled constraints groups names [] []
  | literal {groups : Nat} {names : List String} {rest : List Segment} {parts : List Regex}
      (text : List Char) (hrest : Assembled constraints groups names rest parts) :
      Assembled constraints groups names (.literal text :: rest)
        (text.map Regex.char ++ parts)
  | param {groups : Nat} {names : List String} {rest : List Segment} {parts : List Regex}
      {name : List Char} {final : Reading}
      (halone : Alone (Pattern.constraintOf constraints name) final)
      (hfresh : Fresh names (String.ofList name) final)
      (hstart : ReadsBehindStart (Pattern.constraintOf constraints name) final)
      (hrest : Assembled constraints (groups + 1 + final.groups)
        (final.names ++ String.ofList name :: names) rest parts) :
      Assembled constraints groups names (.param name :: rest)
        (.group (groups + 1) (some (String.ofList name))
          (final.current.shift (groups + 1)) :: parts)

end Signpost
