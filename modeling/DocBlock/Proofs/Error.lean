import DocBlock.Error

/-! # Outcomes

What it says about a step that it succeeded: a sequence of two steps succeeds with the outcome of the
second one after the first one did (`Error.bind_eq_ok`). -/

namespace DocBlock.Error

variable {ε α β : Type}

theorem bind_eq_ok {e : Except ε α} {f : α → Except ε β} {b : β} :
    (e >>= f) = .ok b ↔ ∃ a, e = .ok a ∧ f a = .ok b := by
  cases e with
  | error error => simp [bind, Except.bind]
  | ok a => simp [bind, Except.bind]

theorem exists_of_isOk {e : Except ε α} (h : e.isOk = true) : ∃ a, e = .ok a := by
  cases e with
  | error error => cases h
  | ok a => exact ⟨a, rfl⟩

theorem toOption_eq_some {e : Except ε α} {a : α} : e.toOption = some a ↔ e = .ok a := by
  cases e with
  | error error => simp [Except.toOption]
  | ok a' => simp [Except.toOption]

end DocBlock.Error
