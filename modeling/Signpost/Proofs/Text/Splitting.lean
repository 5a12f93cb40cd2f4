import Mathlib.Data.List.Basic

namespace Signpost.Text

variable {α : Type} [DecidableEq α] {mark : α} {text : List α}

theorem ne_of_notMem (h : mark ∉ text) : ∀ item ∈ text, decide (item ≠ mark) = true :=
  fun _ hitem => decide_eq_true fun heq => h (heq ▸ hitem)

theorem takeWhile_ne_append (h : mark ∉ text) (rest : List α) :
    (text ++ rest).takeWhile (· ≠ mark) = text ++ rest.takeWhile (· ≠ mark) :=
  List.takeWhile_append_of_pos (ne_of_notMem h)

theorem dropWhile_ne_append (h : mark ∉ text) (rest : List α) :
    (text ++ rest).dropWhile (· ≠ mark) = rest.dropWhile (· ≠ mark) :=
  List.dropWhile_append_of_pos (ne_of_notMem h)

end Signpost.Text
