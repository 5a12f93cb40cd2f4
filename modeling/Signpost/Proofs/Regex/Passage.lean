import Signpost.Regex.Search

namespace Signpost

abbrev Slots := List (Nat × Nat)

/-- What an expression spans: the position at which it starts in a text, the position at
which it finishes, and the positions saved on the way, the latest first. -/
abbrev Passage := Nat → Nat → Slots → Prop

namespace Passage

def stay : Passage :=
  fun start finish saved => finish = start ∧ saved = []

def never : Passage := fun _ _ _ => False

def step (condition : Nat → Prop) : Passage :=
  fun start finish saved => condition start ∧ finish = start + 1 ∧ saved = []

def check (condition : Nat → Prop) : Passage :=
  fun start finish saved => condition start ∧ finish = start ∧ saved = []

def mark (slot : Nat) : Passage :=
  fun start finish saved => finish = start ∧ saved = [(slot, start)]

def andThen (first second : Passage) : Passage :=
  fun start finish saved => ∃ middle before after,
    first start middle before ∧ second middle finish after ∧ saved = after ++ before

def either (first second : Passage) : Passage :=
  fun start finish saved => first start finish saved ∨ second start finish saved

def times (body : Passage) : Nat → Passage
  | 0 => stay
  | number + 1 => body.andThen (body.times number)

/-- Any number of turns that the condition allows. -/
def turns (allowed : Nat → Prop) (body : Passage) : Passage :=
  fun start finish saved => ∃ number, allowed number ∧ body.times number start finish saved

theorem andThen_assoc (first second third : Passage) :
    (first.andThen second).andThen third = first.andThen (second.andThen third) := by
  funext start finish saved
  apply propext
  constructor
  · rintro ⟨_, _, last, ⟨middle, before, between, hfirst, hsecond, rfl⟩, hthird, rfl⟩
    exact ⟨middle, before, last ++ between, hfirst,
      ⟨_, between, last, hsecond, hthird, rfl⟩, by simp⟩
  · rintro ⟨middle, before, _, hfirst, ⟨_, between, last, hsecond, hthird, rfl⟩, rfl⟩
    exact ⟨_, between ++ before, last, ⟨middle, before, between, hfirst, hsecond, rfl⟩,
      hthird, by simp⟩

@[simp] theorem andThen_stay (first : Passage) : first.andThen stay = first := by
  funext start finish saved
  apply propext
  constructor
  · rintro ⟨_, _, _, hfirst, ⟨rfl, rfl⟩, rfl⟩
    simpa using hfirst
  · intro hfirst
    exact ⟨finish, saved, [], hfirst, ⟨rfl, rfl⟩, rfl⟩

@[simp] theorem stay_andThen (second : Passage) : stay.andThen second = second := by
  funext start finish saved
  apply propext
  constructor
  · rintro ⟨_, _, _, ⟨rfl, rfl⟩, hsecond, rfl⟩
    simpa using hsecond
  · intro hsecond
    exact ⟨start, [], saved, ⟨rfl, rfl⟩, hsecond, by simp⟩

theorem times_add (body : Passage) (first second : Nat) :
    body.times (first + second) = (body.times first).andThen (body.times second) := by
  induction first with
  | zero => simp [times]
  | succ first ih => rw [Nat.succ_add, times, times, ih, andThen_assoc]

end Passage

/-- The numbers of turns that a count allows.  The least number is allowed in any case. -/
def Count.allows (count : Count) (number : Nat) : Prop :=
  count.least ≤ number ∧ ∀ most ∈ count.most, number ≤ max count.least most

mutual

def Regex.passage (text : Array Char) : Regex → Passage
  | .empty => .stay
  | .char c => .step fun pos => text[pos]? = some c
  | .set ranges => .step fun pos => text[pos]?.any ranges.contains = true
  | .look condition =>
      .check fun pos => condition.holds (Thread.charBefore? text pos) text[pos]? = true
  | .group index _ body =>
      (Passage.mark (2 * index)).andThen
        ((body.passage text).andThen (Passage.mark (2 * index + 1)))
  | .concat parts => parts.inTurn text
  | .alternate branches => branches.anyOf text
  | .iterate count body => (body.passage text).turns count.allows

def RegexSeq.inTurn (text : Array Char) : RegexSeq → Passage
  | .nil => .stay
  | .cons head tail => (head.passage text).andThen (tail.inTurn text)

def RegexSeq.anyOf (text : Array Char) : RegexSeq → Passage
  | .nil => .never
  | .cons head tail => (head.passage text).either (tail.anyOf text)

end

end Signpost
