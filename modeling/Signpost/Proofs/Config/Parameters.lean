import Signpost.Proofs.Config.Codec
import Signpost.Proofs.Node
import Signpost.Proofs.Overlay

namespace Signpost

namespace Decode

/-- A value of a parameter, and the text that it becomes. -/
inductive Becomes : Node → String → Prop
  | text (value : String) : Becomes (.text (some value)) value
  | yes : Becomes (.bool true) "true"
  | no : Becomes (.bool false) "false"
  | integer {numeral : Json.Numeral} {n : Int} (h : numeral.Denotes n) :
      Becomes (.number numeral.value?) (toString n)

/-- What is no value of a parameter, however it goes on. -/
inductive Unfit : Node → Prop
  | null : Unfit .null
  | array (elements : NodeSeq) : Unfit (.array elements)
  | object (members : MemberSeq) : Unfit (.object members)

theorem ofList_integer (n : Int) : String.ofList (Writing.integer n) = toString n := by
  cases n with
  | ofNat n => exact Nat.toString_eq_ofList_toDigits.symm
  | negSucc n =>
      change _ = "-" ++ toString (n + 1)
      rw [Nat.toString_eq_ofList_toDigits, Writing.integer, String.ofList_cons]
      rfl

theorem scalar_becomes {node : Node} {value : String} (h : Becomes node value) :
    scalar node = .ok value := by
  cases h with
  | text value => rfl
  | yes => rfl
  | no => rfl
  | integer hdenotes =>
      rw [hdenotes.value?, scalar, ofList_integer]

theorem scalar_unfit {node : Node} (h : Unfit node) (value : String) :
    scalar node ≠ .ok value := by
  cases h with
  | null => nofun
  | array elements => nofun
  | object members => nofun

theorem paramsFrom_becomes {members : List (String × Node)}
    {pairs : List (String × String)}
    (h : List.Forall₂ (fun member pair => member.1 = pair.1 ∧ Becomes member.2 pair.2)
      members pairs) (map : Params) :
    paramsFrom map (.ofList members) = .ok (map.insertMany pairs) := by
  induction h generalizing map with
  | nil => rfl
  | @cons member pair members pairs hpair hrest ih =>
      obtain ⟨hname, hbecomes⟩ := hpair
      rw [MemberSeq.ofList, paramsFrom, key, ok_bind, scalar_becomes hbecomes,
        ok_bind, hname]
      exact ih (map.insert pair.1 pair.2)

theorem fit_of_paramsFrom : ∀ {members : MemberSeq} {map result : Params},
    paramsFrom map members = .ok result → ∀ member ∈ members.toList,
      (∃ name, key member.1 = .ok name) ∧ ∃ value, scalar member.2 = .ok value := by
  intro members map result h member hmember
  cases members with
  | nil => cases hmember
  | fault => cases hmember
  | cons name node tail =>
      obtain ⟨found, hname, hrest⟩ := exists_of_bind_ok h
      obtain ⟨value, hvalue, htail⟩ := exists_of_bind_ok hrest
      rcases List.mem_cons.mp hmember with heq | hlater
      · rw [heq]
        exact ⟨⟨found, hname⟩, ⟨value, hvalue⟩⟩
      · exact fit_of_paramsFrom htail member hlater

/-- An object is collected in the order of its text, where a name that comes again keeps
its place and takes the new value, and the collection comes back from JSON.  One unfit
member is enough for a refusal. -/
theorem params_collected :
    (∀ (text : String) (members : List (String × Node)) (pairs : List (String × String)),
      Json.Document (.ofMembers members) text →
      List.Forall₂ (fun member pair => member.1 = pair.1 ∧ Becomes member.2 pair.2)
        members pairs →
      paramsFromJson text = .ok (.ofList pairs) ∧
        OrderedMap.Collects pairs (.ofList pairs) ∧
        paramsFromJson (Json.writeCompact (Params.node (.ofList pairs))) =
          .ok (.ofList pairs)) ∧
    ∀ (text : String) (members : MemberSeq), Json.Document (.object members) text →
      (∃ member ∈ members.toList, member.1 = none ∨ Unfit member.2) →
      ∃ cause, paramsFromJson text = .error cause := by
  refine ⟨fun text members pairs hdocument hpairs => ⟨?_, ?_, ?_⟩, ?_⟩
  · rw [paramsFromJson, fromJson_of_read hdocument.read]
    exact paramsFrom_becomes hpairs OrderedMap.empty
  · exact OrderedMap.collects_ofList pairs
  · exact params_undoes.fromJson (.ofList pairs)
  · intro text members hdocument ⟨member, hmember, hbad⟩
    rw [paramsFromJson, fromJson_of_read hdocument.read]
    cases hresult : params (.object members) with
    | error cause => exact ⟨cause, rfl⟩
    | ok map =>
        obtain ⟨⟨name, hname⟩, value, hvalue⟩ := fit_of_paramsFrom hresult member hmember
        rcases hbad with hnone | hunfit
        · rw [hnone] at hname
          cases hname
        · exact absurd hvalue (scalar_unfit hunfit value)

/-- A name that comes again, the least number of 64 bits and an escaped letter; and a value
that is absent. -/
theorem params_collected_again :
    let text := "\x7b \"b\":-9223372036854775808,\"a\":true, \"b\":\"\\u0041\"\x7d"
    let members : List (String × Node) :=
      [("b", .number (some (.integer (-9223372036854775808)))), ("a", .bool true),
        ("b", .ofText "A")]
    let pairs := [("b", "-9223372036854775808"), ("a", "true"), ("b", "A")]
    let spoilt := "\x7b\"a\":null\x7d"
    (Json.Document (.ofMembers members) text ∧
      List.Forall₂ (fun member pair => member.1 = pair.1 ∧ Becomes member.2 pair.2)
        members pairs ∧
      Json.Document (.object (.cons (some "a") .null .nil)) spoilt) ∧
    paramsFromJson text = .ok (.ofList pairs) ∧
    (OrderedMap.ofList pairs).toList = [("b", "A"), ("a", "true")] ∧
    ∃ cause, paramsFromJson spoilt = .error cause := by
  intro text members pairs spoilt
  have hleast : Json.Numeral.Denotes
      ⟨true, Nat.toDigits 10 9223372036854775808, none, none⟩ (-9223372036854775808) :=
    Json.denotes_negative (by decide) (by decide)
  have hdocument : Json.Document (.ofMembers members) text := by
    have hunit : Json.unitOf? '0' '0' '4' '1' = some 65 := by decide
    have hescaped : Json.SpellsText (some "A") ['"', '\\', 'u', '0', '0', '4', '1', '"'] :=
      Json.SpellsText.quoted (.cons (.unit hunit) .nil)
    have hlast := Json.SpellsMembers.last (by decide : [' '].all Json.isBlank)
      (Json.spellsText_written "b") Json.blank_nil Json.blank_nil
        (.text hescaped) Json.blank_nil
    have hmiddle := Json.SpellsMembers.more Json.blank_nil (Json.spellsText_written "a")
      Json.blank_nil Json.blank_nil .yes Json.blank_nil hlast
    have hfirst := Json.SpellsMembers.more (by decide : [' '].all Json.isBlank)
      (Json.spellsText_written "b") Json.blank_nil Json.blank_nil
      (Json.spells_integer (by decide : (Number.integer (-9223372036854775808)).isExact))
      Json.blank_nil hmiddle
    exact .padded Json.blank_nil (.object hfirst) Json.blank_nil
  have hpairs : List.Forall₂
      (fun member pair => member.1 = pair.1 ∧ Becomes member.2 pair.2) members pairs := by
    have hnumber := Becomes.integer hleast
    rw [hleast.value?] at hnumber
    exact .cons ⟨rfl, hnumber⟩ (.cons ⟨rfl, .yes⟩ (.cons ⟨rfl, .text "A"⟩ .nil))
  have hspoilt : Json.Document (.object (.cons (some "a") .null .nil)) spoilt :=
    .padded Json.blank_nil (.object (.last Json.blank_nil (Json.spellsText_written "a")
      Json.blank_nil Json.blank_nil .null Json.blank_nil)) Json.blank_nil
  obtain ⟨hcollected, hrefused⟩ := params_collected
  exact ⟨⟨hdocument, hpairs, hspoilt⟩, (hcollected text members pairs hdocument hpairs).1,
    by decide, hrefused spoilt _ hspoilt ⟨_, List.mem_singleton_self _, .inr .null⟩⟩

end Decode

end Signpost
