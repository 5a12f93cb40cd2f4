import Signpost.Proofs.Regex.Passage
import Signpost.Proofs.Regex.Shift
import Mathlib.Computability.Language

namespace Signpost

mutual

def Regex.lookFree : Regex → Bool
  | .empty => true
  | .char _ => true
  | .set _ => true
  | .look _ => false
  | .group _ _ body => body.lookFree
  | .concat parts => parts.lookFree
  | .alternate branches => branches.lookFree
  | .iterate _ body => body.lookFree

def RegexSeq.lookFree : RegexSeq → Bool
  | .nil => true
  | .cons head tail => head.lookFree && tail.lookFree

end

mutual

def Regex.words : Regex → Language Char
  | .empty => 1
  | .char c => {word | word = [c]}
  | .set ranges => {word | ∃ c, ranges.contains c = true ∧ word = [c]}
  | .look _ => 1
  | .group _ _ body => body.words
  | .concat parts => parts.product
  | .alternate branches => branches.sum
  | .iterate count body =>
      {word | ∃ number, count.allows number ∧ word ∈ body.words ^ number}

def RegexSeq.product : RegexSeq → Language Char
  | .nil => 1
  | .cons head tail => head.words * tail.product

def RegexSeq.sum : RegexSeq → Language Char
  | .nil => 0
  | .cons head tail => head.words + tail.sum

end

mutual

@[simp] theorem Regex.lookFree_shift (offset : Nat) :
    (regex : Regex) → (regex.shift offset).lookFree = regex.lookFree
  | .empty => rfl
  | .char _ => rfl
  | .set _ => rfl
  | .look _ => rfl
  | .group _ _ body => body.lookFree_shift offset
  | .concat parts => parts.lookFree_shift offset
  | .alternate branches => branches.lookFree_shift offset
  | .iterate _ body => body.lookFree_shift offset

@[simp] theorem RegexSeq.lookFree_shift (offset : Nat) :
    (parts : RegexSeq) → (parts.shift offset).lookFree = parts.lookFree
  | .nil => rfl
  | .cons head tail => by
      rw [RegexSeq.shift, RegexSeq.lookFree, RegexSeq.lookFree, head.lookFree_shift,
        tail.lookFree_shift]

end

mutual

@[simp] theorem Regex.words_shift (offset : Nat) :
    (regex : Regex) → (regex.shift offset).words = regex.words
  | .empty => rfl
  | .char _ => rfl
  | .set _ => rfl
  | .look _ => rfl
  | .group _ _ body => body.words_shift offset
  | .concat parts => parts.product_shift offset
  | .alternate branches => branches.sum_shift offset
  | .iterate count body => by rw [Regex.shift, Regex.words, Regex.words, body.words_shift]

@[simp] theorem RegexSeq.product_shift (offset : Nat) :
    (parts : RegexSeq) → (parts.shift offset).product = parts.product
  | .nil => rfl
  | .cons head tail => by
      rw [RegexSeq.shift, RegexSeq.product, RegexSeq.product, head.words_shift,
        tail.product_shift]

@[simp] theorem RegexSeq.sum_shift (offset : Nat) :
    (parts : RegexSeq) → (parts.shift offset).sum = parts.sum
  | .nil => rfl
  | .cons head tail => by
      rw [RegexSeq.shift, RegexSeq.sum, RegexSeq.sum, head.words_shift, tail.sum_shift]

end

def Stands (text : Array Char) (start : Nat) (word : List Char) (finish : Nat) : Prop :=
  word <+: text.toList.drop start ∧ finish = start + word.length

@[simp] theorem stands_nil {text : Array Char} {start finish : Nat} :
    Stands text start [] finish ↔ finish = start := by
  simp [Stands]

@[simp] theorem stands_single {text : Array Char} {start finish : Nat} {c : Char} :
    Stands text start [c] finish ↔ text[start]? = some c ∧ finish = start + 1 := by
  rw [Stands, List.length_singleton, ← Array.getElem?_toList, ← List.head?_drop]
  cases text.toList.drop start <;> simp [eq_comm]

theorem stands_append {text : Array Char} {start finish : Nat} {first second : List Char} :
    Stands text start (first ++ second) finish ↔
      ∃ middle, Stands text start first middle ∧ Stands text middle second finish := by
  constructor
  · rintro ⟨⟨rest, hrest⟩, rfl⟩
    rw [List.append_assoc] at hrest
    refine ⟨start + first.length, ⟨⟨second ++ rest, hrest⟩, rfl⟩,
      ?_, by simp [Nat.add_assoc]⟩
    rw [← List.drop_drop, ← hrest, List.drop_left]
    exact List.prefix_append _ _
  · rintro ⟨middle, ⟨⟨rest, hrest⟩, rfl⟩, hsecond, rfl⟩
    rw [← List.drop_drop, ← hrest, List.drop_left] at hsecond
    refine ⟨?_, by simp [Nat.add_assoc]⟩
    rw [← hrest]
    exact (List.prefix_append_right_inj first).mpr hsecond

theorem stands_le {text : Array Char} {start finish : Nat} {word : List Char}
    (hstands : Stands text start word finish) (hstart : start ≤ text.size) :
    finish ≤ text.size := by
  obtain ⟨hfront, rfl⟩ := hstands
  have hlength := hfront.length_le
  have hsize : text.toList.length = text.size := Array.length_toList
  rw [List.length_drop] at hlength
  omega

theorem stands_unique {text : Array Char} {start finish : Nat} {first second : List Char}
    (hfirst : Stands text start first finish) (hsecond : Stands text start second finish) :
    first = second := by
  obtain ⟨hfirst, hlength⟩ := hfirst
  obtain ⟨hsecond, rfl⟩ := hsecond
  have hle : first.length ≤ second.length := by omega
  exact (List.prefix_of_prefix_length_le hfirst hsecond hle).eq_of_length (by omega)

/-! Passages go along the text.  Conditions on positions move nothing. -/

namespace Passage

variable {text : Array Char} {first second body : Passage}

def Spans (text : Array Char) (passage : Passage) : Prop :=
  ∀ start finish saved, passage start finish saved → ∃ word, Stands text start word finish

theorem spans_still {passage : Passage}
    (h : ∀ start finish saved, passage start finish saved → finish = start) :
    passage.Spans text := by
  intro start finish saved hpassage
  exact ⟨[], stands_nil.mpr (h start finish saved hpassage)⟩

theorem spans_step (accepts : Char → Prop) :
    (step fun pos => ∃ c, text[pos]? = some c ∧ accepts c).Spans text := by
  intro start finish saved hpassage
  obtain ⟨⟨c, hc, -⟩, rfl, -⟩ := hpassage
  exact ⟨[c], stands_single.mpr ⟨hc, rfl⟩⟩

theorem Spans.andThen (hfirst : first.Spans text) (hsecond : second.Spans text) :
    (first.andThen second).Spans text := by
  intro start finish saved hpassage
  obtain ⟨middle, before, after, hbefore, hafter, -⟩ := hpassage
  obtain ⟨word, hword⟩ := hfirst _ _ _ hbefore
  obtain ⟨word', hword'⟩ := hsecond _ _ _ hafter
  exact ⟨word ++ word', stands_append.mpr ⟨middle, hword, hword'⟩⟩

theorem Spans.either (hfirst : first.Spans text) (hsecond : second.Spans text) :
    (first.either second).Spans text := by
  intro start finish saved hpassage
  cases hpassage with
  | inl hbefore => exact hfirst _ _ _ hbefore
  | inr hafter => exact hsecond _ _ _ hafter

theorem Spans.times (hbody : body.Spans text) (number : Nat) :
    (body.times number).Spans text := by
  induction number with
  | zero => exact spans_still fun _ _ _ h => h.1
  | succ number ih => exact hbody.andThen ih

theorem Spans.turns (hbody : body.Spans text) (allowed : Nat → Prop) :
    (body.turns allowed).Spans text := by
  intro start finish saved hpassage
  obtain ⟨number, -, htimes⟩ := hpassage
  exact hbody.times number _ _ _ htimes

end Passage

mutual

theorem Regex.passage_spans (text : Array Char) :
    (regex : Regex) → (regex.passage text).Spans text
  | .empty => Passage.spans_still fun _ _ _ h => h.1
  | .char c => by
      have hstep := @Passage.spans_step text fun d => d = c
      simpa [Regex.passage] using hstep
  | .set ranges => by
      have hstep := @Passage.spans_step text fun d => ranges.contains d = true
      simpa [Regex.passage, Option.any_eq_true] using hstep
  | .look _ => Passage.spans_still fun _ _ _ h => h.2.1
  | .group _ _ body =>
      (Passage.spans_still fun _ _ _ h => h.1).andThen
        ((body.passage_spans text).andThen (Passage.spans_still fun _ _ _ h => h.1))
  | .concat parts => parts.inTurn_spans text
  | .alternate branches => branches.anyOf_spans text
  | .iterate count body => (body.passage_spans text).turns count.allows

theorem RegexSeq.inTurn_spans (text : Array Char) :
    (parts : RegexSeq) → (parts.inTurn text).Spans text
  | .nil => Passage.spans_still fun _ _ _ h => h.1
  | .cons head tail => (head.passage_spans text).andThen (tail.inTurn_spans text)

theorem RegexSeq.anyOf_spans (text : Array Char) :
    (branches : RegexSeq) → (branches.anyOf text).Spans text
  | .nil => fun _ _ _ h => h.elim
  | .cons head tail => (head.passage_spans text).either (tail.anyOf_spans text)

end

namespace Passage

variable {text : Array Char} {first second body : Passage} {words words' : Language Char}

def Along (text : Array Char) (words : Language Char) (passage : Passage) : Prop :=
  ∀ start finish, (∃ saved, passage start finish saved) ↔
    ∃ word ∈ words, Stands text start word finish

theorem along_stay : stay.Along text 1 := by
  intro start finish
  constructor
  · rintro ⟨saved, rfl, -⟩
    exact ⟨[], rfl, stands_nil.mpr rfl⟩
  · rintro ⟨word, hword, hstands⟩
    obtain rfl := (Language.mem_one word).mp hword
    exact ⟨[], stands_nil.mp hstands, rfl⟩

theorem along_mark (slot : Nat) : (mark slot).Along text 1 := by
  intro start finish
  constructor
  · rintro ⟨saved, rfl, -⟩
    exact ⟨[], rfl, stands_nil.mpr rfl⟩
  · rintro ⟨word, hword, hstands⟩
    obtain rfl := (Language.mem_one word).mp hword
    exact ⟨[(slot, start)], stands_nil.mp hstands, rfl⟩

theorem along_step (accepts : Char → Prop) :
    (step fun pos => ∃ c, text[pos]? = some c ∧ accepts c).Along text
      {word | ∃ c, accepts c ∧ word = [c]} := by
  intro start finish
  constructor
  · rintro ⟨saved, ⟨c, hc, haccepts⟩, rfl, -⟩
    exact ⟨[c], ⟨c, haccepts, rfl⟩, stands_single.mpr ⟨hc, rfl⟩⟩
  · rintro ⟨word, ⟨c, haccepts, rfl⟩, hstands⟩
    obtain ⟨hc, rfl⟩ := stands_single.mp hstands
    exact ⟨[], ⟨c, hc, haccepts⟩, rfl, rfl⟩

theorem along_never : never.Along text 0 := by
  intro start finish
  constructor
  · rintro ⟨saved, hfalse⟩
    exact hfalse.elim
  · rintro ⟨word, hword, -⟩
    exact (Language.notMem_zero word hword).elim

theorem Along.andThen (hfirst : first.Along text words)
    (hsecond : second.Along text words') :
    (first.andThen second).Along text (words * words') := by
  intro start finish
  constructor
  · rintro ⟨saved, middle, before, after, hbefore, hafter, -⟩
    obtain ⟨word, hword, hstands⟩ := (hfirst _ _).mp ⟨before, hbefore⟩
    obtain ⟨word', hword', hstands'⟩ := (hsecond _ _).mp ⟨after, hafter⟩
    exact ⟨word ++ word', Language.append_mem_mul hword hword',
      stands_append.mpr ⟨middle, hstands, hstands'⟩⟩
  · rintro ⟨_, hmul, hstands⟩
    obtain ⟨word, hword, word', hword', rfl⟩ := Language.mem_mul.mp hmul
    obtain ⟨middle, hbefore, hafter⟩ := stands_append.mp hstands
    obtain ⟨before, hbefore⟩ := (hfirst _ _).mpr ⟨word, hword, hbefore⟩
    obtain ⟨after, hafter⟩ := (hsecond _ _).mpr ⟨word', hword', hafter⟩
    exact ⟨after ++ before, middle, before, after, hbefore, hafter, rfl⟩

theorem Along.either (hfirst : first.Along text words)
    (hsecond : second.Along text words') :
    (first.either second).Along text (words + words') := by
  intro start finish
  constructor
  · rintro ⟨saved, hbefore | hafter⟩
    · obtain ⟨word, hword, hstands⟩ := (hfirst _ _).mp ⟨saved, hbefore⟩
      exact ⟨word, (Language.mem_add ..).mpr (.inl hword), hstands⟩
    · obtain ⟨word, hword, hstands⟩ := (hsecond _ _).mp ⟨saved, hafter⟩
      exact ⟨word, (Language.mem_add ..).mpr (.inr hword), hstands⟩
  · rintro ⟨word, hadd, hstands⟩
    rcases (Language.mem_add ..).mp hadd with hword | hword
    · obtain ⟨saved, hsaved⟩ := (hfirst _ _).mpr ⟨word, hword, hstands⟩
      exact ⟨saved, .inl hsaved⟩
    · obtain ⟨saved, hsaved⟩ := (hsecond _ _).mpr ⟨word, hword, hstands⟩
      exact ⟨saved, .inr hsaved⟩

theorem Along.times (hbody : body.Along text words) (number : Nat) :
    (body.times number).Along text (words ^ number) := by
  induction number with
  | zero => exact pow_zero words ▸ along_stay
  | succ number ih =>
      rw [pow_succ']
      exact hbody.andThen ih

theorem Along.turns (hbody : body.Along text words) (allowed : Nat → Prop) :
    (body.turns allowed).Along text
      {word | ∃ number, allowed number ∧ word ∈ words ^ number} := by
  intro start finish
  constructor
  · rintro ⟨saved, number, hallowed, htimes⟩
    obtain ⟨word, hword, hstands⟩ := (hbody.times number _ _).mp ⟨saved, htimes⟩
    exact ⟨word, ⟨number, hallowed, hword⟩, hstands⟩
  · rintro ⟨word, ⟨number, hallowed, hword⟩, hstands⟩
    obtain ⟨saved, htimes⟩ := (hbody.times number _ _).mpr ⟨word, hword, hstands⟩
    exact ⟨saved, number, hallowed, htimes⟩

end Passage

mutual

theorem Regex.along_words (text : Array Char) :
    (regex : Regex) → regex.lookFree → (regex.passage text).Along text regex.words
  | .empty, _ => Passage.along_stay
  | .char c, _ => by
      have hstep := @Passage.along_step text fun d => d = c
      simpa [Regex.passage, Regex.words] using hstep
  | .set ranges, _ => by
      have hstep := @Passage.along_step text fun d => ranges.contains d = true
      simpa [Regex.passage, Regex.words, Option.any_eq_true] using hstep
  | .group index _ body, hfree => by
      have hbody := body.along_words text hfree
      have hgroup := (Passage.along_mark (2 * index)).andThen
        (hbody.andThen (Passage.along_mark (2 * index + 1)))
      rwa [one_mul, mul_one] at hgroup
  | .concat parts, hfree => parts.along_product text hfree
  | .alternate branches, hfree => branches.along_sum text hfree
  | .iterate count body, hfree => (body.along_words text hfree).turns count.allows

theorem RegexSeq.along_product (text : Array Char) :
    (parts : RegexSeq) → parts.lookFree → (parts.inTurn text).Along text parts.product
  | .nil, _ => Passage.along_stay
  | .cons head tail, hfree => by
      obtain ⟨hhead, htail⟩ := Bool.and_eq_true_iff.mp hfree
      exact (head.along_words text hhead).andThen (tail.along_product text htail)

theorem RegexSeq.along_sum (text : Array Char) :
    (branches : RegexSeq) → branches.lookFree →
    (branches.anyOf text).Along text branches.sum
  | .nil, _ => Passage.along_never
  | .cons head tail, hfree => by
      obtain ⟨hhead, htail⟩ := Bool.and_eq_true_iff.mp hfree
      exact (head.along_words text hhead).either (tail.along_sum text htail)

end

end Signpost
