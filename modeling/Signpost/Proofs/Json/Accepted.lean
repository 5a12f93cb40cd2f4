import Signpost.Proofs.Json.Grammar

namespace Signpost.Json

variable {fuel : Nat} {text rest run : List Char} {node : Node}

theorem digits_of_digits? (h : digits? text = some (run, rest)) :
    Digits run ∧ text = run ++ rest := by
  have hdigits : digits? text =
      if (digits text).1.isEmpty then none else some (digits text) := rfl
  rw [hdigits] at h
  split at h
  · cases h
  · rename_i hsome
    cases h
    have hrun : Digits (digits text).1 :=
      ⟨fun hnil => hsome (List.isEmpty_iff.mpr hnil), fun _ hc =>
        List.mem_takeWhile_imp hc⟩
    exact ⟨hrun, List.takeWhile_append_dropWhile.symm⟩

theorem spells_of_readFraction? {fraction : Option (List Char)}
    (h : readFraction? text = some (fraction, rest)) :
    ∃ point, SpellsFraction fraction point ∧ text = point ++ rest := by
  rw [readFraction?.eq_def] at h
  split at h
  · rename_i others
    obtain ⟨⟨run, after⟩, hdigits, heq⟩ := Option.map_eq_some_iff.mp h
    obtain ⟨rfl, rfl⟩ := Prod.mk.inj heq
    obtain ⟨hrun, rfl⟩ := digits_of_digits? hdigits
    exact ⟨_, .digits hrun, rfl⟩
  · obtain ⟨rfl, rfl⟩ := Prod.mk.inj (Option.some.inj h)
    exact ⟨[], .absent, rfl⟩

theorem spells_of_readSign {negative : Bool} (h : readSign text = (negative, rest)) :
    ∃ sign, SpellsSign negative sign ∧ text = sign ++ rest := by
  rw [readSign.eq_def] at h
  split at h
  · cases h
    exact ⟨_, .minus, rfl⟩
  · cases h
    exact ⟨_, .plus, rfl⟩
  · cases h
    exact ⟨_, .absent, rfl⟩

theorem spells_of_readExponent? {exponent : Option (Bool × List Char)}
    (h : readExponent? text = some (exponent, rest)) :
    ∃ power, SpellsExponent exponent power ∧ text = power ++ rest := by
  cases text with
  | nil =>
      cases h
      exact ⟨[], .absent, rfl⟩
  | cons mark others =>
      rw [readExponent?] at h
      split at h
      · rename_i hmark
        rcases hread : readSign others with ⟨negative, unsigned⟩
        obtain ⟨sign, hsign, rfl⟩ := spells_of_readSign hread
        rw [hread] at h
        obtain ⟨⟨run, after⟩, hdigits, heq⟩ := Option.map_eq_some_iff.mp h
        obtain ⟨rfl, rfl⟩ := Prod.mk.inj heq
        obtain ⟨hrun, rfl⟩ := digits_of_digits? hdigits
        refine ⟨_, .digits hmark hsign hrun, ?_⟩
        rw [List.cons_append, List.append_assoc]
      · cases h
        exact ⟨[], .absent, rfl⟩

theorem zero_of_hasLeadingZero (hrun : Digits run) (h : hasLeadingZero run = false) :
    run = ['0'] ∨ run.head? ≠ some '0' := by
  obtain ⟨c, others, rfl, -⟩ := hrun.exists_cons
  by_cases hc : c = '0'
  · subst hc
    cases others with
    | nil => exact .inl rfl
    | cons d others => cases h
  · exact .inr fun heq => hc (Option.some.inj heq)

theorem spells_of_readNumeral? {negative : Bool} {numeral : Numeral}
    (h : readNumeral? negative text = some (numeral, rest)) :
    ∃ spelled, SpellsMagnitude numeral spelled ∧ numeral.negative = negative ∧
      text = spelled ++ rest := by
  simp only [readNumeral?, Option.bind_eq_bind, Option.bind_eq_some_iff] at h
  obtain ⟨⟨whole, afterWhole⟩, hwhole, h⟩ := h
  obtain ⟨hdigits, rfl⟩ := digits_of_digits? hwhole
  split at h
  · cases h
  · rename_i hzero
    obtain ⟨⟨fraction, afterFraction⟩, hfraction, h⟩ := Option.bind_eq_some_iff.mp h
    obtain ⟨point, hpoint, rfl⟩ := spells_of_readFraction? hfraction
    obtain ⟨⟨exponent, afterExponent⟩, hexponent, h⟩ := Option.bind_eq_some_iff.mp h
    obtain ⟨power, hpower, rfl⟩ := spells_of_readExponent? hexponent
    cases h
    refine ⟨_, .parts negative hdigits ?_ hpoint hpower, rfl, ?_⟩
    · exact zero_of_hasLeadingZero hdigits (Bool.not_eq_true _ ▸ hzero)
    · simp only [List.append_assoc]

theorem spells_of_readPieces? {pieces : List Piece}
    (h : readPieces? text = some (pieces, rest)) :
    ∃ spelled, SpellsPieces pieces spelled ∧ text = spelled ++ '"' :: rest := by
  fun_induction readPieces? text generalizing pieces with
  | case1 => cases h
  | case2 rest' =>
      cases h
      exact ⟨[], .nil, rfl⟩
  | case3 first second third fourth others ih =>
      obtain ⟨value, hvalue, h⟩ := Option.bind_eq_some_iff.mp h
      obtain ⟨⟨tail, after⟩, htail, h⟩ := Option.bind_eq_some_iff.mp h
      cases h
      obtain ⟨spelled, hspelled, rfl⟩ := ih htail
      exact ⟨_, .cons (.unit hvalue) hspelled, rfl⟩
  | case4 letter others hother ih =>
      obtain ⟨c, hletter, h⟩ := Option.bind_eq_some_iff.mp h
      obtain ⟨⟨tail, after⟩, htail, h⟩ := Option.bind_eq_some_iff.mp h
      cases h
      obtain ⟨spelled, hspelled, rfl⟩ := ih htail
      exact ⟨_, .cons (.letter hletter) hspelled, rfl⟩
  | case5 c others => cases h
  | case6 c others hquote _ _ hplain ih =>
      obtain ⟨⟨tail, after⟩, htail, h⟩ := Option.bind_eq_some_iff.mp h
      cases h
      obtain ⟨spelled, hspelled, rfl⟩ := ih htail
      obtain ⟨hcode, hslash⟩ := not_or.mp hplain
      exact ⟨_, .cons (.plain hquote hslash hcode) hspelled, rfl⟩

theorem spells_of_readText? {value : Option String}
    (h : readText? text = some (value, rest)) :
    ∃ spelled, SpellsText value spelled ∧ '"' :: text = spelled ++ rest := by
  obtain ⟨⟨pieces, after⟩, hpieces, heq⟩ := Option.map_eq_some_iff.mp h
  cases heq
  obtain ⟨spelled, hspelled, rfl⟩ := spells_of_readPieces? hpieces
  refine ⟨_, .quoted hspelled, ?_⟩
  rw [List.cons_append, List.append_assoc, List.singleton_append]

/-! Leaves.  A tree that is whole has been read up to its end. -/

/-- A text starts with a spelling of a tree, and this is what follows. -/
def Starts (node : Node) (text : List Char) (left : Option (List Char)) : Prop :=
  ∃ spelled rest, Spells node spelled ∧ text = spelled ++ rest ∧ left = some rest

theorem append_of_after? {word : List Char} (h : after? word text = some rest) :
    text = word ++ rest := by
  induction word generalizing text with
  | nil => exact Option.some.inj h
  | cons c word ih =>
      cases text with
      | nil => cases h
      | cons d text =>
          rw [after?] at h
          split at h
          · rename_i heq
            rw [ih h, heq]
            rfl
          · cases h

variable {left : Option (List Char)} {found : Node}

theorem starts_readWord {c : Char} {word : List Char} (hspells : Spells node (c :: word))
    (h : readWord word node text = (found, left)) (hwhole : found.isWhole) :
    Starts found (c :: text) left := by
  rw [readWord] at h
  split at h
  · rename_i rest hafter
    cases h
    exact ⟨_, rest, hspells, congrArg (c :: ·) (append_of_after? hafter), rfl⟩
  · cases h
    cases hwhole

theorem starts_readTextNode (h : readTextNode text = (found, left))
    (hwhole : found.isWhole) :
    Starts found ('"' :: text) left := by
  rw [readTextNode] at h
  split at h
  · rename_i value rest htext
    cases h
    obtain ⟨spelled, hspelled, heq⟩ := spells_of_readText? htext
    exact ⟨spelled, rest, .text hspelled, heq, rfl⟩
  · cases h
    cases hwhole

theorem starts_readNumber {negative : Bool} (h : readNumber negative text = (found, left))
    (hwhole : found.isWhole) :
    Starts found (if negative then '-' :: text else text) left := by
  rw [readNumber] at h
  split at h
  · rename_i numeral rest hnumeral
    cases h
    obtain ⟨spelled, hspelled, rfl, rfl⟩ := spells_of_readNumeral? hnumeral
    cases hsign : numeral.negative with
    | true => exact ⟨_, rest, .number (.negative hsign hspelled), rfl, rfl⟩
    | false => exact ⟨_, rest, .number (.natural hsign hspelled), rfl, rfl⟩
  · cases h
    cases hwhole

theorem starts_readLeaf {c : Char} (h : readLeaf c text = (found, left))
    (hwhole : found.isWhole) :
    Starts found (c :: text) left := by
  rw [readLeaf] at h
  split_ifs at h with hquote hnull htrue hfalse hminus
  · subst hquote
    exact starts_readTextNode h hwhole
  · subst hnull
    exact starts_readWord .null h hwhole
  · subst htrue
    exact starts_readWord .yes h hwhole
  · subst hfalse
    exact starts_readWord .no h hwhole
  · subst hminus
    exact starts_readNumber h hwhole
  · exact starts_readNumber h hwhole

/-! What one step of reading a sequence does, if the sequence is whole. -/

theorem exists_blanks (text : List Char) :
    ∃ blanks, blanks.all isBlank ∧ text = blanks ++ skipBlank text :=
  ⟨text.takeWhile isBlank, List.all_eq_true.mpr fun _ hc => List.mem_takeWhile_imp hc,
    List.takeWhile_append_dropWhile.symm⟩

theorem exists_of_readElements {elements : NodeSeq}
    (h : readElements (fuel + 1) text = (elements, left)) (hwhole : elements.isWhole) :
    ∃ node closing, readNode fuel text = (node, some closing) ∧ node.isWhole ∧
      ((∃ rest, skipBlank closing = ']' :: rest ∧ elements = .cons node .nil ∧
        left = some rest) ∨
      ∃ next tail, skipBlank closing = ',' :: next ∧ elements = .cons node tail ∧
        readElements fuel next = (tail, left) ∧ tail.isWhole) := by
  rw [readElements] at h
  rcases hnode : readNode fuel text with ⟨node, _ | closing⟩
  · rw [hnode] at h
    cases h
    cases (Bool.and_eq_true_iff.mp hwhole).2
  · rw [hnode] at h
    dsimp only at h
    split at h
    · rename_i next hcomma
      cases h
      obtain ⟨hfirst, htail⟩ := Bool.and_eq_true_iff.mp hwhole
      exact ⟨node, closing, rfl, hfirst, .inr ⟨next, _, hcomma, rfl, rfl, htail⟩⟩
    · rename_i rest hend
      cases h
      exact ⟨node, closing, rfl, (Bool.and_eq_true_iff.mp hwhole).1,
        .inl ⟨rest, hend, rfl, rfl⟩⟩
    · cases h
      cases (Bool.and_eq_true_iff.mp hwhole).2

theorem spells_of_readKey {key : Option String} (h : readKey text = (key, some rest)) :
    ∃ name, SpellsText key name ∧ text = name ++ rest := by
  rw [readKey.eq_def] at h
  split at h
  · split at h
    · rename_i value after htext
      cases h
      exact spells_of_readText? htext
    · cases h
  · cases h

theorem colon_of_readValue {next : List Char}
    (h : readValue fuel text = (node, some next)) :
    ∃ steps others, fuel = steps + 1 ∧ text = ':' :: others ∧
      readNode steps others = (node, some next) := by
  rw [readValue.eq_def] at h
  split at h
  · cases h
  · exact ⟨_, _, rfl, rfl, h⟩
  · cases h

theorem exists_of_readMembers {members : MemberSeq}
    (h : readMembers (fuel + 1) text = (members, left)) (hwhole : members.isWhole) :
    ∃ key node afterKey steps others closing,
      readKey (skipBlank text) = (key, some afterKey) ∧
      skipBlank afterKey = ':' :: others ∧ fuel = steps + 1 ∧
      readNode steps others = (node, some closing) ∧ node.isWhole ∧
      ((∃ rest, skipBlank closing = '\x7d' :: rest ∧ members = .cons key node .nil ∧
        left = some rest) ∨
      ∃ next tail, skipBlank closing = ',' :: next ∧ members = .cons key node tail ∧
        readMembers fuel next = (tail, left) ∧ tail.isWhole) := by
  rw [readMembers] at h
  rcases hkey : readKey (skipBlank text) with ⟨key, _ | afterKey⟩
  · rw [hkey] at h
    cases h
    cases hwhole
  · rw [hkey] at h
    dsimp only at h
    rcases hvalue : readValue fuel (skipBlank afterKey) with ⟨node, _ | closing⟩
    · rw [hvalue] at h
      cases h
      cases (Bool.and_eq_true_iff.mp hwhole).2
    · obtain ⟨steps, others, hfuel, hcolon, hnode⟩ := colon_of_readValue hvalue
      rw [hvalue] at h
      dsimp only at h
      refine ⟨key, node, afterKey, steps, others, closing, rfl, hcolon, hfuel, hnode, ?_⟩
      split at h
      · rename_i next hcomma
        cases h
        obtain ⟨hfirst, htail⟩ := Bool.and_eq_true_iff.mp hwhole
        exact ⟨hfirst, .inr ⟨next, _, hcomma, rfl, rfl, htail⟩⟩
      · rename_i rest hend
        cases h
        exact ⟨(Bool.and_eq_true_iff.mp hwhole).1, .inl ⟨rest, hend, rfl, rfl⟩⟩
      · cases h
        cases (Bool.and_eq_true_iff.mp hwhole).2

theorem Starts.between (h : Starts node (skipBlank text) (some rest)) :
    ∃ before spelled behind, before.all isBlank ∧ Spells node spelled ∧
      behind.all isBlank ∧
      text = before ++ (spelled ++ (behind ++ skipBlank rest)) := by
  obtain ⟨spelled, after, hspelled, hstart, hafter⟩ := h
  obtain rfl := Option.some.inj hafter
  obtain ⟨before, hbefore, htext⟩ := exists_blanks text
  obtain ⟨behind, hbehind, hrest⟩ := exists_blanks rest
  rw [hstart, hrest] at htext
  exact ⟨before, spelled, behind, hbefore, hspelled, hbehind, htext⟩

mutual

theorem starts_readNode : ∀ (fuel : Nat) (text : List Char) (node : Node)
    (left : Option (List Char)), readNode fuel text = (node, left) → node.isWhole →
    Starts node (skipBlank text) left := by
  intro fuel text node left h hwhole
  cases fuel with
  | zero =>
      cases h
      cases hwhole
  | succ fuel =>
      rw [readNode] at h
      cases hskip : skipBlank text with
      | nil =>
          rw [hskip] at h
          cases h
          cases hwhole
      | cons c rest =>
          rw [hskip] at h
          dsimp only at h
          obtain ⟨blanks, hblanks, hrest⟩ := exists_blanks rest
          split_ifs at h with harray hobject
          · subst harray
            split at h
            · rename_i after hend
              cases h
              rw [hrest, hend]
              exact ⟨_, after, .emptyArray hblanks, by simp, rfl⟩
            · rw [readElements_skipBlank] at h
              rcases helements : readElements fuel rest with ⟨elements, after⟩
              rw [helements] at h
              cases h
              obtain ⟨spelled, after, hspelled, rfl, rfl⟩ :=
                spells_of_readElements fuel rest elements _ helements hwhole
              exact ⟨_, after, .array hspelled, by simp, rfl⟩
          · subst hobject
            split at h
            · rename_i after hend
              cases h
              rw [hrest, hend]
              exact ⟨_, after, .emptyObject hblanks, by simp, rfl⟩
            · rw [readMembers_congr (skipBlank_skipBlank rest)] at h
              rcases hmembers : readMembers fuel rest with ⟨members, after⟩
              rw [hmembers] at h
              cases h
              obtain ⟨spelled, after, hspelled, rfl, rfl⟩ :=
                spells_of_readMembers fuel rest members _ hmembers hwhole
              exact ⟨_, after, .object hspelled, by simp, rfl⟩
          · exact starts_readLeaf h hwhole

theorem spells_of_readElements : ∀ (fuel : Nat) (text : List Char) (elements : NodeSeq)
    (left : Option (List Char)), readElements fuel text = (elements, left) →
      elements.isWhole →
    ∃ spelled rest, SpellsElements elements spelled ∧ text = spelled ++ ']' :: rest ∧
      left = some rest := by
  intro fuel text elements left h hwhole
  cases fuel with
  | zero =>
      cases h
      cases hwhole
  | succ fuel =>
      obtain ⟨node, closing, hread, hnode, hsequel⟩ := exists_of_readElements h hwhole
      obtain ⟨before, spelled, behind, hbefore, hspelled, hbehind, htext⟩ :=
        (starts_readNode fuel text node _ hread hnode).between
      rcases hsequel with ⟨rest, hend, rfl, rfl⟩ | ⟨next, tail, hcomma, rfl, hnext, htail⟩
      · refine ⟨_, rest, .last hbefore hspelled hbehind, ?_, rfl⟩
        rw [htext, hend]
        simp
      · obtain ⟨others, rest, hothers, rfl, hleft⟩ :=
          spells_of_readElements fuel next tail left hnext htail
        refine ⟨_, rest, .more hbefore hspelled hbehind hothers, ?_, hleft⟩
        rw [htext, hcomma]
        simp

theorem spells_of_readMembers : ∀ (fuel : Nat) (text : List Char) (members : MemberSeq)
    (left : Option (List Char)), readMembers fuel text = (members, left) →
      members.isWhole →
    ∃ spelled rest, SpellsMembers members spelled ∧ text = spelled ++ '\x7d' :: rest ∧
      left = some rest := by
  intro fuel text members left h hwhole
  cases fuel with
  | zero =>
      cases h
      cases hwhole
  | succ fuel =>
      obtain ⟨key, node, afterKey, steps, others, closing, hkey, hcolon, rfl, hread, hnode,
        hsequel⟩ := exists_of_readMembers h hwhole
      obtain ⟨before, hbefore, htext⟩ := exists_blanks text
      obtain ⟨name, hname, hstart⟩ := spells_of_readKey hkey
      obtain ⟨gap, hgap, hafterKey⟩ := exists_blanks afterKey
      obtain ⟨space, spelled, behind, hspace, hspelled, hbehind, hothers⟩ :=
        (starts_readNode steps others node _ hread hnode).between
      rcases hsequel with ⟨rest, hend, rfl, rfl⟩ | ⟨next, tail, hcomma, rfl, hnext, htail⟩
      · refine ⟨_, rest, .last hbefore hname hgap hspace hspelled hbehind, ?_, rfl⟩
        rw [htext, hstart, hafterKey, hcolon, hothers, hend]
        simp
      · obtain ⟨sequel, rest, hsequel, rfl, hleft⟩ :=
          spells_of_readMembers (steps + 1) next tail left hnext htail
        refine ⟨_, rest, .more hbefore hname hgap hspace hspelled hbehind hsequel,
          ?_, hleft⟩
        rw [htext, hstart, hafterKey, hcolon, hothers, hcomma]
        simp

end

/-! Trees with a spelling are whole. -/

mutual

theorem Spells.isWhole {node : Node} {text : List Char} (h : Spells node text) :
    node.isWhole := by
  match h with
  | .null => rfl
  | .yes => rfl
  | .no => rfl
  | .number _ => rfl
  | .text _ => rfl
  | .emptyArray _ => rfl
  | .array helements => exact helements.isWhole
  | .emptyObject _ => rfl
  | .object hmembers => exact hmembers.isWhole

theorem SpellsElements.isWhole {elements : NodeSeq} {text : List Char}
    (h : SpellsElements elements text) : elements.isWhole := by
  match h with
  | .last _ hnode _ => exact Bool.and_eq_true_iff.mpr ⟨hnode.isWhole, rfl⟩
  | .more _ hnode _ hothers =>
      exact Bool.and_eq_true_iff.mpr ⟨hnode.isWhole, hothers.isWhole⟩

theorem SpellsMembers.isWhole {members : MemberSeq} {text : List Char}
    (h : SpellsMembers members text) : members.isWhole := by
  match h with
  | .last _ _ _ _ hnode _ => exact Bool.and_eq_true_iff.mpr ⟨hnode.isWhole, rfl⟩
  | .more _ _ _ _ hnode _ hothers =>
      exact Bool.and_eq_true_iff.mpr ⟨hnode.isWhole, hothers.isWhole⟩

end

/-- A text is in the notation exactly if it is read to its end without a fault, and the
tree that it spells is the one that is read. -/
theorem document_iff {text : String} {node : Node} :
    Document node text ↔ read text = ⟨node, true⟩ ∧ node.isWhole := by
  constructor
  · intro h
    refine ⟨h.read, ?_⟩
    cases h with
    | padded hbefore hspelled hbehind => exact hspelled.isWhole
  · intro ⟨hread, hwhole⟩
    rcases hnode : readNode (3 * text.toList.length + 3) text.toList with ⟨root, left⟩
    simp only [read, hnode] at hread
    cases left with
    | none =>
        cases hread
        obtain ⟨spelled, rest, -, -, hleft⟩ := starts_readNode _ _ _ _ hnode hwhole
        cases hleft
    | some rest =>
        obtain ⟨rfl, hends⟩ := Reading.mk.inj hread
        obtain ⟨before, spelled, behind, hbefore, hspelled, hbehind, htext⟩ :=
          (starts_readNode _ _ _ _ hnode hwhole).between
        rw [List.isEmpty_iff.mp hends, List.append_nil] at htext
        rw [← String.ofList_toList (s := text), htext]
        exact .padded hbefore hspelled hbehind

end Signpost.Json
