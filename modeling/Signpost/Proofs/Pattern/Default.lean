import Signpost.Proofs.Pattern.Decomposition

namespace Signpost

open Regex Regex.Reading Pattern

variable {constraints : Params} {segments : List Segment}

def CharSet.notSlash : CharSet := [⟨Char.ofNat 0, '.'⟩, ⟨'0', CharSet.lastChar⟩]

def Regex.unslashed : Regex := .iterate ⟨1, none, true⟩ (.set CharSet.notSlash)

theorem alone_default :
    Alone defaultConstraint.toList ⟨{}, 0, [], [], [unslashed], []⟩ := ⟨rfl, rfl⟩

theorem CharSet.contains_notSlash (c : Char) : notSlash.contains c = true ↔ c ≠ '/' := by
  have hvalid : c.toNat < 0xd800 ∨ (0xdfff < c.toNat ∧ c.toNat < 0x110000) := c.valid
  have heq : c = '/' ↔ c.toNat = 47 := ⟨fun h => h ▸ rfl, fun h => Char.toNat_inj.mp h⟩
  have hbounds : notSlash.contains c = true ↔
      (0 ≤ c.toNat ∧ c.toNat ≤ 46) ∨ (48 ≤ c.toNat ∧ c.toNat ≤ 0x10ffff) := by
    simp only [notSlash, CharSet.contains, List.any_cons, List.any_nil, CharRange.contains,
      Bool.or_false, Bool.or_eq_true, Bool.and_eq_true, decide_eq_true_eq]
    rfl
  rw [hbounds, Ne, heq]
  omega

/-- Text for a placeholder without a constraint. -/
def Pattern.Free (value : List Char) : Prop := value ≠ [] ∧ '/' ∉ value

theorem mem_words_unslashed {value : List Char} :
    value ∈ unslashed.words ↔ Free value := by
  constructor
  · rintro ⟨number, ⟨hleast, -⟩, hvalue⟩
    obtain ⟨chars, rfl, hlength, hchars⟩ := Language.mem_pow.mp hvalue
    have hsingle : ∀ word ∈ chars, ∃ c, c ≠ '/' ∧ word = [c] := by
      intro word hword
      obtain ⟨c, hc, rfl⟩ := hchars word hword
      exact ⟨c, (CharSet.contains_notSlash c).mp hc, rfl⟩
    have hpositive : 1 ≤ number := hleast
    constructor
    · intro hnil
      obtain ⟨first, hfirst⟩ := List.exists_mem_of_length_pos (l := chars) (by omega)
      obtain ⟨c, -, rfl⟩ := hsingle first hfirst
      exact List.cons_ne_nil _ _ (List.flatten_eq_nil_iff.mp hnil _ hfirst)
    · intro hslash
      obtain ⟨word, hword, hmem⟩ := List.mem_flatten.mp hslash
      obtain ⟨c, hc, rfl⟩ := hsingle word hword
      exact hc (List.mem_singleton.mp hmem).symm
  · rintro ⟨hvalue, hslash⟩
    refine ⟨value.length, ⟨List.length_pos_iff.mpr hvalue, by simp⟩,
      Language.mem_pow.mpr ⟨value.map fun c => [c], ?_, by simp, ?_⟩⟩
    · induction value with
      | nil => rfl
      | cons c value ih => simp [← List.flatMap_def]
    · intro word hword
      obtain ⟨c, hc, rfl⟩ := List.mem_map.mp hword
      exact ⟨c, (CharSet.contains_notSlash c).mpr fun h => hslash (h ▸ hc), rfl⟩

theorem Pattern.constraintOf_default {name : List Char}
    (h : constraints.get? (String.ofList name) = none) :
    constraintOf constraints name = defaultConstraint.toList := by
  rw [constraintOf, h, Option.getD_none]

def Unconstrained (constraints : Params) (segments : List Segment) : Prop :=
  ∀ name, .param name ∈ segments → constraintOf constraints name = defaultConstraint.toList

theorem Unconstrained.unconditional (h : Unconstrained constraints segments) :
    Unconditional constraints segments := by
  intro name hname final halone
  rw [h name hname] at halone
  obtain rfl := alone_default.unique halone
  rfl

theorem Unconstrained.uncommented (h : Unconstrained constraints segments)
    {name : List Char} (hname : .param name ∈ segments) :
    '#' ∉ constraintOf constraints name := by
  rw [h name hname]
  decide

theorem admits_default {name value : List Char}
    (hname : constraintOf constraints name = defaultConstraint.toList) :
    Admits constraints name value ↔ Free value := by
  rw [← mem_words_unslashed, Admits, hname]
  constructor
  · rintro ⟨final, halone, hvalue⟩
    obtain rfl := alone_default.unique halone
    exact hvalue
  · intro hvalue
    exact ⟨_, alone_default, hvalue⟩

theorem Pattern.decomposes_free_iff {source : String}
    (hplain : Unconstrained constraints (segmentsOf (bodyOf source.toList)))
    {path : List Char} {values : List (List Char)} :
    Decomposes (fun _ => Free) source.toList path values ↔
      Decomposes (Admits constraints) source.toList path values := by
  constructor
  · exact fun h => h.mono fun name hname value => (admits_default (hplain name hname)).mpr
  · exact fun h => h.mono fun name hname value => (admits_default (hplain name hname)).mp

end Signpost
