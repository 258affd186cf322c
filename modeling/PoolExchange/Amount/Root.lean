import PoolExchange.Amount

/-!
# Amount — integer square root

`Amount.root a` is the largest number whose square is at most `a`.  It is computed by Newton's
iteration `y ↦ (x / y + y) / 2` from half of `x`, rounded up, which falls until it meets the root.
-/

namespace PoolExchange

/-- Iterates from the guess `z` with the next guess `y`, as long as the guesses fall. -/
def newton (x z y : Nat) : Nat :=
  if y < z then newton x y ((x / y + y) / 2) else z
termination_by z

/-- The integer square root of a natural number. -/
def rootNat (x : Nat) : Nat :=
  if x < 2 then x else newton x x (x / 2 + x % 2)

theorem newton_le (x z y : Nat) : newton x z y ≤ z := by
  fun_induction newton x z y with
  | case1 z y h ih => omega
  | case2 z y h => omega

theorem rootNat_le (x : Nat) : rootNat x ≤ x := by
  unfold rootNat
  split
  · exact Nat.le_refl x
  · exact newton_le x x _

/-- The integer square root. -/
def Amount.root (a : Amount) : Amount :=
  ⟨rootNat a.toNat, Nat.lt_of_le_of_lt (rootNat_le _) a.toNat_lt⟩

end PoolExchange
