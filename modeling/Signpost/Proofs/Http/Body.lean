import Signpost.Proofs.Http.Answer

namespace Signpost

namespace Http

variable {requestId otherId : String} {exchange other : Exchange} {node : Node}

theorem bodyOf_inj (h : Answer.bodyOf requestId exchange = Answer.bodyOf otherId other) :
    requestId = otherId ∧ exchange = other := by
  have hread := congrArg Json.read h
  rw [read_bodyOf, read_bodyOf] at hread
  obtain ⟨hid, haction, hroute, hargs, hquery⟩ := story_inj (Json.Reading.mk.inj hread).1
  refine ⟨hid, ?_⟩
  cases exchange
  cases other
  simp only [Exchange.mk.injEq]
  exact ⟨haction, hargs, hquery, hroute⟩

theorem document_bodyOf_iff :
    Json.Document node (Answer.bodyOf requestId exchange) ↔
      node = story requestId exchange.action exchange.route exchange.args
        exchange.query := by
  constructor
  · intro h
    have hread := h.read
    rw [read_bodyOf] at hread
    exact (Json.Reading.mk.inj hread).1.symm
  · rintro rfl
    rw [Answer.bodyOf, bodyNode_eq_story]
    exact Json.document_writeCompact (isExact_story ..)

/-- A body tells apart all that it is made from, and has the same five members whatever
that is. -/
theorem body_loses_nothing :
    (∀ requestId exchange otherId other,
      Answer.bodyOf requestId exchange = Answer.bodyOf otherId other ↔
        requestId = otherId ∧ exchange = other) ∧
    ∀ requestId exchange node, Json.Document node (Answer.bodyOf requestId exchange) ↔
      node = .ofMembers [("request_id", .text (some requestId)),
        ("action", textOrNull exchange.action), ("args", textMembers exchange.args),
        ("query", textMembers exchange.query), ("route", textOrNull exchange.route)] := by
  refine ⟨fun requestId exchange otherId other => ⟨bodyOf_inj, ?_⟩,
    fun requestId exchange node => document_bodyOf_iff⟩
  rintro ⟨rfl, rfl⟩
  rfl

/-- A name that looks like the end of the query and another member. -/
example : Answer.bodyOf "1" (.ofQuery (.ofList [("\"\x7d,\"route\":", "\\")])) =
    "\x7b\"request_id\":\"1\",\"action\":null,\"args\":\x7b\x7d," ++
      "\"query\":\x7b\"\\\"\x7d,\\\"route\\\":\":\"\\\\\"\x7d,\"route\":null\x7d" := by
  decide +kernel

end Http

end Signpost
