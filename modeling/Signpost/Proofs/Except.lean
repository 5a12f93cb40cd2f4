namespace Signpost

variable {ε α β : Type}

@[simp] theorem ok_bind (value : α) (next : α → Except ε β) :
    (.ok value : Except ε α) >>= next = next value := rfl

@[simp] theorem error_bind (refusal : ε) (next : α → Except ε β) :
    (.error refusal : Except ε α) >>= next = .error refusal := rfl

@[simp] theorem pure_eq_ok (value : α) : (pure value : Except ε α) = .ok value := rfl

theorem exists_of_bind_ok {first : Except ε α} {next : α → Except ε β} {result : β}
    (h : first >>= next = .ok result) :
    ∃ value, first = .ok value ∧ next value = .ok result := by
  cases first with
  | error refusal => cases h
  | ok value => exact ⟨value, rfl, h⟩

theorem bind_eq_ok_iff {first : Except ε α} {next : α → Except ε β} {result : β} :
    first >>= next = .ok result ↔ ∃ value, first = .ok value ∧
      next value = .ok result := by
  constructor
  · exact exists_of_bind_ok
  · intro ⟨value, hfirst, hnext⟩
    rw [hfirst]
    exact hnext

@[simp] theorem toOption_eq_some_iff {result : Except ε α} {value : α} :
    result.toOption = some value ↔ result = .ok value := by
  cases result with
  | error refusal => exact iff_of_false nofun nofun
  | ok found => exact ⟨fun h => congrArg Except.ok (Option.some.inj h),
      fun h => congrArg some (Except.ok.inj h)⟩

/-! A check of one item after another ends at the first that is refused. -/

theorem forM_of_ok {check : α → Except ε Unit} {items : List α}
    (h : ∀ item ∈ items, check item = .ok ()) : forM items check = .ok () := by
  induction items with
  | nil => rfl
  | cons item rest ih =>
      rw [List.forM_cons, h item List.mem_cons_self, ok_bind]
      exact ih fun other hother => h other (List.mem_cons_of_mem _ hother)

theorem forM_of_error {check : α → Except ε Unit} {before after : List α} {item : α}
    {refusal : ε} (hbefore : ∀ other ∈ before, check other = .ok ())
    (hitem : check item = .error refusal) :
    forM (before ++ item :: after) check = .error refusal := by
  rw [List.forM_append, forM_of_ok hbefore, ok_bind, List.forM_cons, hitem, error_bind]

end Signpost
