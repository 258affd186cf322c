/-!
# Results — when a computation that may fail has succeeded

A sequence succeeds when each part does, and a guarded computation when the guard is passed.  The
inversion of an operation is read off its definition with these two.
-/

namespace PoolExchange

variable {ε α β : Type}

theorem bind_eq_ok {x : Except ε α} {f : α → Except ε β} {b : β} :
    (x >>= f) = .ok b ↔ ∃ a, x = .ok a ∧ f a = .ok b := by
  cases x <;> simp [bind, Except.bind]

theorem guard_eq_ok {c : Prop} [Decidable c] {e : ε} {x : Except ε α} {a : α} :
    (if c then .error e else x) = .ok a ↔ ¬c ∧ x = .ok a := by
  by_cases h : c <;> simp [h]

/-- A result is met by what holds of every value that it can be. -/
theorem exists_ok_of_isOk {x : Except ε (α × β)} {P : α → β → Prop} (h : x.isOk = true)
    (hp : ∀ a b, x = .ok (a, b) → P a b) : ∃ a b, x = .ok (a, b) ∧ P a b := by
  cases x with
  | error e => cases h
  | ok o => exact ⟨o.1, o.2, rfl, hp o.1 o.2 rfl⟩

/-- Two results with one image succeed together. -/
theorem exists_ok_of_map_eq {x y : Except ε α} {f : α → β} {a : α} (h : x.map f = y.map f)
    (hx : x = .ok a) : ∃ b, y = .ok b ∧ f b = f a := by
  subst hx
  cases y with
  | error e => cases h
  | ok b => exact ⟨b, rfl, (Except.ok.inj h).symm⟩

theorem pure_eq_ok {a b : α} : (pure a : Except ε α) = .ok b ↔ a = b := by
  simp [pure, Except.pure]

end PoolExchange
