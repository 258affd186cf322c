import PoolExchange.StoreError

/-!
# Procedure — what writes as it goes

A procedure reads a state and writes to it as it goes; what it has written stays, also when it
fails afterwards.  One that fails only before its first write leaves the state alone
(`lift_bind`), and is then a function that returns the whole new state, or none (`settle`).
-/

namespace PoolExchange

/-- What reads a state and writes to it as it goes.  A failure does not undo what was written. -/
abbrev Procedure (σ α : Type) := EStateM StoreError σ α

namespace Procedure

variable {σ α β : Type}

/-- A computation that reads and writes nothing. -/
def lift : Except StoreError α → Procedure σ α
  | .ok a => pure a
  | .error e => throw e

/-- The state that a computation returns, or the state `s` where it returns none. -/
def settle (s : σ) : Except StoreError (σ × α) → EStateM.Result StoreError σ α
  | .ok (s', a) => .ok a s'
  | .error e => .error e s

/-- What is settled keeps the state when it fails. -/
theorem eq_of_settle_error {s s' : σ} {r : Except StoreError (σ × α)} {e : StoreError}
    (h : settle s r = .error e s') : s' = s := by
  cases r with
  | ok out => cases h
  | error e' =>
      cases h
      rfl

/-- As long as nothing has been written, a failure leaves the state as it was. -/
theorem lift_bind {x : Except StoreError α} {f : α → Procedure σ β}
    {g : α → Except StoreError (σ × β)} {s : σ} (h : ∀ a, f a s = settle s (g a)) :
    (lift x >>= f) s = settle s (x >>= g) := by
  cases x with
  | ok a => exact h a
  | error e => rfl

theorem bind_of_run {p : Procedure σ α} {f : α → Procedure σ β} {s s' : σ} {a : α}
    (h : p.run s = .ok a s') : (p >>= f) s = f a s' := by
  rw [EStateM.run] at h
  show EStateM.bind p f s = f a s'
  rw [EStateM.bind, h]

/-- A loop that writes once for each item. -/
theorem run_forM_modify (write : α → σ → σ) (items : List α) (s : σ) :
    (items.forM fun a => (modify (write a) : Procedure σ Unit)).run s =
      .ok () (items.foldl (fun s a => write a s) s) := by
  induction items generalizing s with
  | nil => rfl
  | cons a items ih => exact ih (write a s)

/-- A procedure without its result. -/
theorem run_discard {p : Procedure σ α} {s : σ} {r : Except StoreError (σ × α)}
    (h : p.run s = settle s r) :
    (discard p : Procedure σ Unit).run s = settle s (r.map fun out => (out.1, ())) := by
  rw [EStateM.run] at h ⊢
  simp only [discard, Functor.mapConst, Function.comp, EStateM.map, h]
  cases r <;> rfl

end Procedure

end PoolExchange
