import Signpost.Proofs.Pattern.Whole

namespace Signpost

open Regex Regex.Reading

namespace Pattern

/-- The segments in order: literal text as it stands, and one admitted value per
placeholder. -/
inductive Spells (admits : List Char → List Char → Prop) :
    List Segment → List (List Char) → List Char → Prop
  | nil : Spells admits [] [] []
  | literal {rest : List Segment} {values : List (List Char)} {spelt : List Char}
      (text : List Char) (hrest : Spells admits rest values spelt) :
      Spells admits (.literal text :: rest) values (text ++ spelt)
  | param {rest : List Segment} {values : List (List Char)} {spelt name value : List Char}
      (hvalue : admits name value) (hrest : Spells admits rest values spelt) :
      Spells admits (.param name :: rest) (value :: values) (value ++ spelt)

/-- The text of a pattern with values; one slash more may follow a folder pattern. -/
def Decomposes (admits : List Char → List Char → Prop) (source path : List Char)
    (values : List (List Char)) : Prop :=
  ∃ spelt slash, path = spelt ++ slash ∧
    Spells admits (segmentsOf (bodyOf source)) values spelt ∧
    (slash = [] ∨ isFolderText source = true ∧ slash = ['/'])

variable {admits others : List Char → List Char → Prop} {segments : List Segment}
  {values : List (List Char)} {spelt : List Char}

theorem Spells.mono (h : Spells admits segments values spelt)
    (hadmits : ∀ name, .param name ∈ segments → ∀ value, admits name value →
      others name value) :
    Spells others segments values spelt := by
  induction h with
  | nil => exact .nil
  | literal text _ ih =>
      exact .literal text
        (ih fun name hname => hadmits name (List.mem_cons_of_mem _ hname))
  | param hvalue _ ih =>
      exact .param (hadmits _ List.mem_cons_self _ hvalue)
        (ih fun name hname => hadmits name (List.mem_cons_of_mem _ hname))

/-- The values decide about the text. -/
theorem Spells.unique_of_admits {chosen : List (List Char)} {text : List Char}
    (hadmits : ∀ name value other, admits name value → admits name other → value = other)
    (h : Spells admits segments values spelt)
    (hother : Spells admits segments chosen text) :
    spelt = text := by
  induction h generalizing chosen text with
  | nil =>
      cases hother
      rfl
  | literal literal _ ih =>
      cases hother with
      | literal _ hrest => rw [ih hrest]
  | param hvalue _ ih =>
      cases hother with
      | param hchosen hrest => rw [hadmits _ _ _ hvalue hchosen, ih hrest]

theorem Spells.exists_admitted (h : Spells admits segments values spelt) {name : List Char}
    (hname : .param name ∈ segments) : ∃ value, admits name value := by
  induction h with
  | nil => cases hname
  | literal text _ ih => exact ih (by simpa using hname)
  | param hvalue _ ih =>
      rcases List.mem_cons.mp hname with heq | hrest
      · obtain rfl := Segment.param.inj heq
        exact ⟨_, hvalue⟩
      · exact ih hrest

/-- Each value is the one that is listed under the name of its placeholder. -/
theorem Spells.under_names (hnodup : (segments.filterMap Segment.name?).Nodup)
    (h : Spells admits segments values spelt) :
    Spells (fun name value => Entries.lookup? (String.ofList name)
        ((segments.filterMap Segment.name?).zip (values.map String.ofList)) =
      some (String.ofList value)) segments values spelt := by
  induction h with
  | nil => exact .nil
  | literal text _ ih => exact .literal text (ih hnodup)
  | @param rest values spelt name value _ hrest ih =>
      obtain ⟨hfresh, hnodup⟩ := List.nodup_cons.mp hnodup
      have hkeys : (Segment.param name :: rest).filterMap Segment.name? =
          String.ofList name :: rest.filterMap Segment.name? := rfl
      rw [hkeys, List.map_cons, List.zip_cons_cons]
      apply Spells.param
      · rw [Entries.lookup?, if_pos rfl]
      · apply (ih hnodup).mono
        intro other hother value hvalue
        have hne : String.ofList name ≠ String.ofList other := by
          intro heq
          exact hfresh (heq ▸ List.mem_filterMap.mpr ⟨_, hother, rfl⟩)
        rwa [Entries.lookup?, if_neg hne]

theorem Spells.length_values (h : Spells admits segments values spelt) :
    values.length = (segments.filterMap Segment.name?).length := by
  induction h with
  | nil => rfl
  | literal text _ ih => exact ih
  | param _ _ ih => exact congrArg Nat.succ ih

theorem Decomposes.mono {source path : List Char}
    (h : Decomposes admits source path values)
    (hadmits : ∀ name, .param name ∈ segmentsOf (bodyOf source) → ∀ value,
      admits name value → others name value) : Decomposes others source path values := by
  obtain ⟨spelt, slash, hpath, hspells, hslash⟩ := h
  exact ⟨spelt, slash, hpath, hspells.mono hadmits, hslash⟩

end Pattern

open Pattern

variable {constraints : Params} {groups : Nat} {names : List String}
  {segments : List Segment} {parts : List Regex} {text : Array Char}

/-- A value among the words of its constraint. -/
def Admits (constraints : Params) (name value : List Char) : Prop :=
  ∃ final, Alone (constraintOf constraints name) final ∧ value ∈ final.current.words

@[simp] theorem RegexSeq.product_append (first second : List Regex) :
    (RegexSeq.ofList (first ++ second)).product =
      (RegexSeq.ofList first).product * (RegexSeq.ofList second).product := by
  induction first with
  | nil => exact (one_mul _).symm
  | cons head tail ih =>
      rw [List.cons_append, RegexSeq.ofList, RegexSeq.ofList, RegexSeq.product,
        RegexSeq.product, ih, mul_assoc]

theorem RegexSeq.mem_product_chars {literal word : List Char} :
    word ∈ (RegexSeq.ofList (literal.map Regex.char)).product ↔ word = literal := by
  induction literal generalizing word with
  | nil => exact Language.mem_one word
  | cons c literal ih =>
      rw [List.map_cons, RegexSeq.ofList, RegexSeq.product, Language.mem_mul]
      constructor
      · rintro ⟨_, rfl, rest, hrest, rfl⟩
        rw [ih.mp hrest, List.singleton_append]
      · rintro rfl
        exact ⟨[c], rfl, literal, ih.mpr rfl, rfl⟩

theorem Assembled.mem_product_iff (h : Assembled constraints groups names segments parts)
    {word : List Char} :
    word ∈ (RegexSeq.ofList parts).product ↔
      ∃ values, Spells (Admits constraints) segments values word := by
  induction h generalizing word with
  | nil =>
      refine (Language.mem_one word).trans ⟨?_, ?_⟩
      · rintro rfl
        exact ⟨[], .nil⟩
      · rintro ⟨_, ⟨⟩⟩
        rfl
  | literal literal _ ih =>
      rw [RegexSeq.product_append, Language.mem_mul]
      constructor
      · rintro ⟨first, hfirst, rest, hrest, rfl⟩
        obtain rfl := RegexSeq.mem_product_chars.mp hfirst
        obtain ⟨values, hvalues⟩ := ih.mp hrest
        exact ⟨values, .literal _ hvalues⟩
      · rintro ⟨values, hvalues⟩
        cases hvalues with
        | literal _ hrest =>
            exact ⟨literal, RegexSeq.mem_product_chars.mpr rfl, _,
              ih.mpr ⟨values, hrest⟩, rfl⟩
  | @param groups _ _ _ _ final halone _ _ _ ih =>
      rw [RegexSeq.ofList, RegexSeq.product, Regex.words, words_shift, Language.mem_mul]
      constructor
      · rintro ⟨value, hvalue, rest, hrest, rfl⟩
        obtain ⟨values, hvalues⟩ := ih.mp hrest
        exact ⟨value :: values, .param ⟨final, halone, hvalue⟩ hvalues⟩
      · rintro ⟨values, hvalues⟩
        cases hvalues with
        | param hvalue hrest =>
            obtain ⟨other, hother, hvalue⟩ := hvalue
            obtain rfl := halone.unique hother
            exact ⟨_, hvalue, _, ih.mpr ⟨_, hrest⟩, rfl⟩

@[simp] theorem RegexSeq.lookFree_ofList {parts : List Regex} :
    (RegexSeq.ofList parts).lookFree = true ↔ ∀ part ∈ parts, part.lookFree = true := by
  induction parts with
  | nil => simp [RegexSeq.ofList, RegexSeq.lookFree]
  | cons head tail ih =>
      rw [RegexSeq.ofList, RegexSeq.lookFree, Bool.and_eq_true, ih, List.forall_mem_cons]

/-- No constraint of a placeholder has a condition on a position. -/
def Unconditional (constraints : Params) (segments : List Segment) : Prop :=
  ∀ name, .param name ∈ segments → ∀ final, Alone (constraintOf constraints name) final →
    final.current.lookFree

theorem Assembled.lookFree (h : Assembled constraints groups names segments parts)
    (hfree : Unconditional constraints segments) :
    ∀ part ∈ parts, part.lookFree = true := by
  induction h with
  | nil => simp
  | literal literal _ ih =>
      intro part hpart
      rcases List.mem_append.mp hpart with hchar | hrest
      · obtain ⟨c, -, rfl⟩ := List.mem_map.mp hchar
        rfl
      · exact ih (fun name hname => hfree name (List.mem_cons_of_mem _ hname)) part hrest
  | param halone _ _ _ ih =>
      intro part hpart
      rcases List.mem_cons.mp hpart with rfl | hrest
      · simpa [Regex.lookFree] using hfree _ List.mem_cons_self _ halone
      · exact ih (fun name hname => hfree name (List.mem_cons_of_mem _ hname)) part hrest

end Signpost
