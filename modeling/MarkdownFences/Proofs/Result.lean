namespace MarkdownFences

variable {ε δ α β : Type}

@[simp]
theorem mapError_ok (f : ε → δ) (a : α) : (Except.ok a : Except ε α).mapError f = .ok a := rfl

@[simp]
theorem mapError_error (f : ε → δ) (e : ε) :
    (Except.error e : Except ε α).mapError f = .error (f e) := rfl

theorem mapError_eq_ok {m : Except ε α} {f : ε → δ} {a : α} :
    m.mapError f = .ok a ↔ m = .ok a := by
  cases m with
  | error e => simp
  | ok b => simp

theorem toOption_eq_some {m : Except ε α} {a : α} : m.toOption = some a ↔ m = .ok a := by
  cases m with
  | error e => simp [Except.toOption]
  | ok b => simp [Except.toOption]

theorem ok_of_map {m : Except ε α} {f : α → β} {b : β} (h : m.map f = .ok b) :
    ∃ a, m = .ok a ∧ f a = b := by
  cases m with
  | error e => cases h
  | ok a => exact ⟨a, rfl, Except.ok.inj h⟩

theorem bind_eq_ok {m : Except ε α} {f : α → Except ε β} {b : β} :
    m >>= f = .ok b ↔ ∃ a, m = .ok a ∧ f a = .ok b := by
  cases m with
  | error e => simp [bind, Except.bind]
  | ok a => simp [bind, Except.bind]

theorem bind_ne_error {m : Except ε α} {f : α → Except ε β} {e : ε} (hm : m ≠ .error e)
    (hf : ∀ a, f a ≠ .error e) : m >>= f ≠ .error e := by
  cases m with
  | error e' => exact fun h => hm (congrArg Except.error (Except.error.inj h))
  | ok a => exact hf a

theorem ok_of_bind {m : Except ε α} {f : α → Except ε β} {b : β} (h : m.bind f = .ok b) :
    ∃ a, m = .ok a ∧ f a = .ok b :=
  bind_eq_ok.mp h

end MarkdownFences
