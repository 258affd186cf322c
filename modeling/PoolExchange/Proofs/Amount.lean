import Mathlib.Tactic
import PoolExchange.Fixed
import PoolExchange.PoolError
import PoolExchange.Proofs.Results

/-!
# Amount — results as numbers

An operation that reports succeeds with the exact result and with nothing else, and so does a ratio
carried to eighteen places (`Fixed.ratio?_eq_ok`).

Sums and products of capped numbers are the capped sums and products of the numbers
(`clamp_add_clamp`, `clamp_mul_clamp`), so what stops on the way to a quotient shows in its two sides
alone.  A numerator that stops makes the quotient smaller; a denominator that stops makes it larger,
by one unit at most (`clamp_div_le_iff`).
-/

namespace PoolExchange

theorem PoolError.ofAmount_eq_ok {α : Type} {x : Except AmountError α} {a : α} :
    PoolError.ofAmount x = .ok a ↔ x = .ok a := by
  cases x <;> simp [PoolError.ofAmount]

/-- Quotients are compared by multiplying crosswise; a divisor of zero makes a quotient of zero. -/
theorem div_le_div_of_cross {n d n' d' : Nat} (hd : 0 < d') (h : n * d' ≤ n' * d) :
    n / d ≤ n' / d' := by
  rcases Nat.eq_zero_or_pos d with rfl | hpos
  · rw [Nat.div_zero]
    exact Nat.zero_le _
  · rw [Nat.le_div_iff_mul_le hd]
    refine Nat.le_of_mul_le_mul_right ?_ hpos
    calc n / d * d' * d = n / d * d * d' := Nat.mul_right_comm _ _ _
      _ ≤ n * d' := Nat.mul_le_mul_right _ (Nat.div_mul_le_self n d)
      _ ≤ n' * d := h

namespace Amount

variable {a b c : Amount}

/-! ### Operations that report -/

theorem report_eq_ok {n : Nat} {e : AmountError} :
    (match ofNat? n with
      | some d => Except.ok d
      | none => .error e) = .ok c ↔ c.toNat = n := by
  rw [ofNat?]
  by_cases h : n < bound
  · simp [h, Amount.ext_iff, eq_comm]
  · have hne : c.toNat ≠ n := fun heq => h (heq ▸ c.toNat_lt)
    simp [h, hne]

theorem add?_eq_ok : a.add? b = .ok c ↔ c.toNat = a.toNat + b.toNat := report_eq_ok

theorem mul?_eq_ok : a.mul? b = .ok c ↔ c.toNat = a.toNat * b.toNat := report_eq_ok

theorem quo?_eq_ok : a.quo? b = .ok c ↔ b.toNat ≠ 0 ∧ c.toNat = a.toNat / b.toNat := by
  rw [quo?, guard_eq_ok, isZero_iff, Except.ok.injEq, Amount.ext_iff, toNat_div,
    eq_comm (b := c.toNat)]

theorem rem?_eq_ok : a.rem? b = .ok c ↔ b.toNat ≠ 0 ∧ c.toNat = a.toNat % b.toNat := by
  have hlt : a.toNat % b.toNat < bound := Nat.lt_of_le_of_lt (Nat.mod_le _ _) a.toNat_lt
  rw [rem?, guard_eq_ok, isZero_iff, Except.ok.injEq, Amount.ext_iff, toNat_clamp_of_lt hlt,
    eq_comm (b := c.toNat)]

/-! ### Stopping at the largest amount -/

theorem toNat_clamp_le (n : Nat) : (clamp n).toNat ≤ n := Nat.min_le_left _ _

theorem toNat_add_le (a b : Amount) : (a + b).toNat ≤ a.toNat + b.toNat :=
  Nat.min_le_left _ _

theorem toNat_mul_le (a b : Amount) : (a * b).toNat ≤ a.toNat * b.toNat :=
  Nat.min_le_left _ _

theorem toNat_add_eq_zero {a b : Amount} : (a + b).toNat = 0 ↔ a.toNat = 0 ∧ b.toNat = 0 := by
  have hbound : 1 < bound := by decide
  rw [toNat_add]
  omega

theorem le_toNat_add (a b : Amount) : a.toNat ≤ (a + b).toNat := by
  have := a.toNat_lt
  rw [toNat_add]
  omega

protected theorem zero_add (a : Amount) : 0 + a = a := by
  have := a.toNat_lt
  refine Amount.ext ?_
  rw [toNat_add, toNat_zero]
  omega

/-- A sum stops at the largest amount or not, in whatever order it is taken. -/
protected theorem add_assoc (a b c : Amount) : a + b + c = a + (b + c) := by
  refine Amount.ext ?_
  rw [toNat_add, toNat_add, toNat_add, toNat_add]
  omega

/-- What is added to two amounts alike does not show in their difference. -/
protected theorem add_sub_add {a b c : Amount} (ha : a.toNat + c.toNat < bound)
    (hb : b.toNat + c.toNat < bound) : a + c - (b + c) = a - b := by
  refine Amount.ext ?_
  rw [toNat_sub, toNat_sub, toNat_add_of_lt ha, toNat_add_of_lt hb, Nat.add_sub_add_right]

/-! ### Capped numbers -/

theorem clamp_toNat (a : Amount) : clamp a.toNat = a :=
  Amount.ext (toNat_clamp_of_lt a.toNat_lt)

theorem clamp_add_clamp (m n : Nat) : clamp m + clamp n = clamp (m + n) := by
  refine Amount.ext ?_
  rw [toNat_add, toNat_clamp, toNat_clamp, toNat_clamp]
  omega

/-- A factor that stops makes the product stop, unless the other one is zero. -/
theorem min_min_mul (cap m n : Nat) : min (min m cap * n) cap = min (m * n) cap := by
  rcases Nat.le_total m cap with hle | hge
  · rw [min_eq_left hle]
  · rw [min_eq_right hge]
    rcases Nat.eq_zero_or_pos n with rfl | hpos
    · rfl
    · have hstop : cap ≤ cap * n := Nat.le_mul_of_pos_right cap hpos
      rw [min_eq_right hstop, min_eq_right (hstop.trans (Nat.mul_le_mul_right n hge))]

theorem clamp_mul_clamp (m n : Nat) : clamp m * clamp n = clamp (m * n) := by
  refine Amount.ext ?_
  rw [toNat_mul, toNat_clamp, toNat_clamp, toNat_clamp, min_min_mul, Nat.mul_comm, min_min_mul,
    Nat.mul_comm]

/-- The quotient of capped numbers: a denominator that stops leaves one unit, or nothing. -/
theorem toNat_clamp_div (num den : Nat) : (clamp num / clamp den).toNat =
    if den < bound then min num (bound - 1) / den else if num < bound - 1 then 0 else 1 := by
  have hcap : 0 < bound - 1 := by decide
  rw [toNat_div, toNat_clamp, toNat_clamp]
  split
  · rename_i hden
    rw [min_eq_left (Nat.le_sub_one_of_lt hden)]
  · rename_i hden
    rw [min_eq_right (show bound - 1 ≤ den by omega)]
    split
    · rename_i hnum
      rw [min_eq_left hnum.le, Nat.div_eq_of_lt hnum]
    · rename_i hnum
      rw [min_eq_right (Nat.not_lt.mp hnum), Nat.div_self hcap]

/-- The quotient is less than one, but both its sides stop at the largest amount. -/
def Raised (num den : Nat) : Prop := bound - 1 ≤ num ∧ num < den

instance (num den : Nat) : Decidable (Raised num den) := inferInstanceAs (Decidable (_ ∧ _))

/-- **A quotient of capped numbers is at most the exact one, unless it is raised.** -/
theorem clamp_div_le_iff (num den : Nat) :
    (clamp num / clamp den).toNat ≤ num / den ↔ ¬ Raised num den := by
  rw [toNat_clamp_div, Raised]
  split
  · have hle : min num (bound - 1) / den ≤ num / den := Nat.div_le_div_right (min_le_left _ _)
    exact iff_of_true hle (by omega)
  · split
    · exact iff_of_true (Nat.zero_le _) (by omega)
    · have hone : 1 ≤ num / den ↔ den ≤ num := Nat.one_le_div_iff (by have := bound_pos; omega)
      rw [hone]
      omega

/-- A quotient that is raised is raised to one. -/
theorem clamp_div_le_max (num den : Nat) :
    (clamp num / clamp den).toNat ≤ max (num / den) 1 := by
  rw [toNat_clamp_div]
  split
  · exact le_max_of_le_left (Nat.div_le_div_right (min_le_left _ _))
  · split <;> omega

end Amount

/-! ### Ratios -/

namespace Fixed

/-- What carries a quotient to eighteen places is an amount. -/
structure Fits (num den : Nat) : Prop where
  rest : num % den * scale.toNat < Amount.bound
  whole : num / den * scale.toNat < Amount.bound
  places : num / den * scale.toNat + num % den * scale.toNat / den < Amount.bound

variable {num den : Amount} {f : Fixed}

/-- A ratio is taken exactly when it fits. -/
theorem ratio?_eq_ok : ratio? num den = .ok f ↔ den.toNat ≠ 0 ∧ Fits num.toNat den.toNat ∧
    f.raw.toNat = num.toNat / den.toNat * scale.toNat +
      num.toNat % den.toNat * scale.toNat / den.toNat := by
  simp only [ratio?, bind_eq_ok, pure_eq_ok, Amount.add?_eq_ok, Amount.mul?_eq_ok,
    Amount.quo?_eq_ok, Amount.rem?_eq_ok]
  constructor
  · rintro ⟨whole, ⟨hden, hwhole⟩, left, ⟨-, hleft⟩, scaled, hscaled, fraction, ⟨-, hfraction⟩,
      units, hunits, raw, hraw, rfl⟩
    rw [hleft] at hscaled
    rw [hscaled] at hfraction
    rw [hwhole] at hunits
    rw [hunits, hfraction] at hraw
    exact ⟨hden, ⟨hscaled ▸ scaled.toNat_lt, hunits ▸ units.toNat_lt, hraw ▸ raw.toNat_lt⟩, hraw⟩
  · rintro ⟨hden, hfits, hraw⟩
    exact ⟨num / den, ⟨hden, Amount.toNat_div num den⟩,
      ⟨_, (Nat.mod_le _ _).trans_lt num.toNat_lt⟩, ⟨hden, rfl⟩,
      ⟨_, hfits.rest⟩, rfl, ⟨_, (Nat.div_le_self _ _).trans_lt hfits.rest⟩, ⟨hden, rfl⟩,
      ⟨_, hfits.whole⟩, by rw [Amount.toNat_div], f.raw, hraw, rfl⟩

/-- **The part of a ratio before the point is the quotient.** -/
theorem truncate_ratio? (h : ratio? num den = .ok f) :
    f.truncate.toNat = num.toNat / den.toNat := by
  obtain ⟨hden, -, hraw⟩ := ratio?_eq_ok.mp h
  have hpos := Nat.pos_of_ne_zero hden
  have hscale : 0 < scale.toNat := by decide
  -- the part after the point is less than one
  have hsmall : num.toNat % den.toNat * scale.toNat / den.toNat < scale.toNat := by
    rw [Nat.div_lt_iff_lt_mul hpos, Nat.mul_comm]
    exact Nat.mul_lt_mul_of_pos_left (Nat.mod_lt _ hpos) hscale
  rw [truncate, Amount.toNat_div, hraw, Nat.add_comm, Nat.add_mul_div_right _ _ hscale,
    Nat.div_eq_of_lt hsmall, Nat.zero_add]

end Fixed

end PoolExchange
