import Signpost.Node
import Mathlib.Data.List.Basic
import Mathlib.Data.Option.Basic
import Mathlib.Data.Prod.Basic

namespace Signpost

/-- The elements of an array, up to a fault. -/
def NodeSeq.toList : NodeSeq → List Node
  | .cons head tail => head :: tail.toList
  | _ => []

/-- The members of an object, up to a fault. -/
def MemberSeq.toList : MemberSeq → List (Option String × Node)
  | .cons key value tail => (key, value) :: tail.toList
  | _ => []

@[simp] theorem NodeSeq.toList_ofList (nodes : List Node) :
    (ofList nodes).toList = nodes := by
  induction nodes with
  | nil => rfl
  | cons node rest ih => exact congrArg (List.cons node) ih

@[simp] theorem MemberSeq.toList_ofList (items : List (String × Node)) :
    (ofList items).toList = items.map (Prod.map some id) := by
  induction items with
  | nil => rfl
  | cons item rest ih => exact congrArg (List.cons _) ih

theorem NodeSeq.ofList_injective : Function.Injective ofList :=
  Function.LeftInverse.injective toList_ofList

theorem MemberSeq.ofList_injective : Function.Injective ofList := by
  intro first second h
  have hlists := congrArg toList h
  rw [toList_ofList, toList_ofList] at hlists
  exact ((Option.some_injective String).prodMap Function.injective_id).list_map hlists

theorem Node.ofMembers_injective : Function.Injective ofMembers := by
  intro first second h
  exact MemberSeq.ofList_injective (Node.object.inj h)

theorem NodeSeq.isWhole_ofList {nodes : List Node} (h : ∀ node ∈ nodes, node.isWhole) :
    (ofList nodes).isWhole := by
  induction nodes with
  | nil => rfl
  | cons node rest ih =>
      obtain ⟨hnode, hrest⟩ := List.forall_mem_cons.mp h
      exact Bool.and_eq_true_iff.mpr ⟨hnode, ih hrest⟩

theorem MemberSeq.isWhole_ofList {items : List (String × Node)}
    (h : ∀ item ∈ items, item.2.isWhole) : (ofList items).isWhole := by
  induction items with
  | nil => rfl
  | cons item rest ih =>
      obtain ⟨hitem, hrest⟩ := List.forall_mem_cons.mp h
      exact Bool.and_eq_true_iff.mpr ⟨hitem, ih hrest⟩

end Signpost
