import PoolExchange.Amount.Share
import PoolExchange.Proofs.Amount

/-!
# Share — proportional parts are rounded down

A share is one quotient: `part * allocation`, stopped at the largest amount, over `total`
(`toNat_share`), with `part` cut to `total` for a capped one (`toNat_cappedShare`).  What stops makes
the numerator smaller, and the quotient drops its remainder: both are in favour of whoever pays.

A capped share is at most the exact one, which is at most the allocation.  The shares of a part and
of the rest of the total are each rounded down on their own; so **together they are at most the
allocation, and one unit less at least where no product stops** (`cappedShare_fair`).
-/

namespace PoolExchange

/-- A part of `t` and the rest, each with its fraction of `a` rounded down, lose one unit at most. -/
theorem div_add_div_rest {p t : Nat} (a : Nat) (hp : p ≤ t) (ht : 0 < t) :
    p * a / t + (t - p) * a / t ≤ a ∧ a ≤ p * a / t + (t - p) * a / t + 1 := by
  have hwhole : (p * a + (t - p) * a) / t = a := by
    rw [← Nat.add_mul, Nat.add_sub_cancel' hp, Nat.mul_div_cancel_left a ht]
  have hsplit := Nat.add_div (a := p * a) (b := (t - p) * a) ht
  split at hsplit <;> omega

namespace Amount

variable {part total allocation : Amount}

/-! ### Shares as numbers -/

theorem toNat_share (part total allocation : Amount) :
    (share part total allocation).toNat =
      min (part.toNat * allocation.toNat) (bound - 1) / total.toNat := by
  rw [share]
  split
  · rename_i h
    rw [Bool.or_eq_true, Bool.or_eq_true, isZero_iff, isZero_iff, isZero_iff] at h
    rcases h with (h | h) | h <;> simp [h]
  · rw [toNat_div, toNat_mul]

theorem toNat_cappedShare (part total allocation : Amount) :
    (cappedShare part total allocation).toNat =
      min (min part.toNat total.toNat * allocation.toNat) (bound - 1) / total.toNat := by
  rw [cappedShare]
  split
  · rename_i h
    rw [Bool.or_eq_true, isZero_iff, isZero_iff] at h
    rcases h with h | h <;> simp [h]
  · rw [toNat_share, toNat_min]

theorem toNat_share_of_lt (h : part.toNat * allocation.toNat < bound) :
    (share part total allocation).toNat = part.toNat * allocation.toNat / total.toNat := by
  rw [toNat_share, min_eq_left (Nat.le_sub_one_of_lt h)]

theorem toNat_cappedShare_of_lt (h : min part.toNat total.toNat * allocation.toNat < bound) :
    (cappedShare part total allocation).toNat =
      min part.toNat total.toNat * allocation.toNat / total.toNat := by
  rw [toNat_cappedShare, min_eq_left (Nat.le_sub_one_of_lt h)]

/-! ### Rounding down -/

/-- A share of `total` parts is at most its part of the allocation. -/
theorem share_mul_le (part total allocation : Amount) :
    (share part total allocation).toNat * total.toNat ≤ part.toNat * allocation.toNat := by
  rw [toNat_share]
  exact (Nat.div_mul_le_self _ _).trans (min_le_left _ _)

/-- A capped share is at most the exact one. -/
theorem cappedShare_le_exact (part total allocation : Amount) :
    (cappedShare part total allocation).toNat ≤
      min part.toNat total.toNat * allocation.toNat / total.toNat := by
  rw [toNat_cappedShare]
  exact Nat.div_le_div_right (min_le_left _ _)

/-- The exact share is at most the allocation. -/
theorem exact_le_allocation (part total allocation : Amount) :
    min part.toNat total.toNat * allocation.toNat / total.toNat ≤ allocation.toNat :=
  Nat.div_le_of_le_mul (Nat.mul_le_mul_right _ (min_le_right _ _))

theorem cappedShare_mul_le (part total allocation : Amount) :
    (cappedShare part total allocation).toNat * total.toNat ≤ part.toNat * allocation.toNat :=
  calc (cappedShare part total allocation).toNat * total.toNat
      ≤ min part.toNat total.toNat * allocation.toNat / total.toNat * total.toNat :=
        Nat.mul_le_mul_right _ (cappedShare_le_exact _ _ _)
    _ ≤ min part.toNat total.toNat * allocation.toNat := Nat.div_mul_le_self _ _
    _ ≤ part.toNat * allocation.toNat := Nat.mul_le_mul_right _ (min_le_left _ _)

/-- A capped share never exceeds the allocation. -/
theorem cappedShare_le (part total allocation : Amount) :
    (cappedShare part total allocation).toNat ≤ allocation.toNat :=
  (cappedShare_le_exact _ _ _).trans (exact_le_allocation _ _ _)

/-- Less than the whole is a share of less than the allocation. -/
theorem cappedShare_lt (h : part.toNat < total.toNat) (ha : allocation.toNat ≠ 0) :
    (cappedShare part total allocation).toNat < allocation.toNat := by
  refine Nat.lt_of_mul_lt_mul_right (a := total.toNat) ?_
  calc (cappedShare part total allocation).toNat * total.toNat
      ≤ part.toNat * allocation.toNat := cappedShare_mul_le _ _ _
    _ < total.toNat * allocation.toNat := Nat.mul_lt_mul_of_pos_right h (Nat.pos_of_ne_zero ha)
    _ = allocation.toNat * total.toNat := Nat.mul_comm _ _

/-- The share of the whole is the allocation. -/
theorem cappedShare_self (h : total.toNat ≠ 0)
    (hfit : total.toNat * allocation.toNat < bound) :
    cappedShare total total allocation = allocation := by
  refine Amount.ext ?_
  rw [toNat_cappedShare_of_lt (by rw [min_self]; exact hfit), min_self,
    Nat.mul_div_cancel_left _ (Nat.pos_of_ne_zero h)]

/-- A larger part of a larger allocation, among fewer, is more. -/
theorem share_mono {part' total' allocation' : Amount} (hpart : part ≤ part')
    (htotal : total' ≤ total) (hpos : total'.toNat ≠ 0) (hallocation : allocation ≤ allocation') :
    share part total allocation ≤ share part' total' allocation' := by
  rw [le_def, toNat_share, toNat_share]
  exact Nat.div_le_div (min_le_min_right _ (Nat.mul_le_mul hpart hallocation)) htotal hpos

/-- Of nothing there is no share, and among nobody. -/
theorem share_eq_zero (h : part.toNat = 0 ∨ total.toNat = 0) :
    (share part total allocation).toNat = 0 := by
  rw [toNat_share]
  rcases h with h | h <;> simp [h]

/-! ### A part and the rest -/

/-- What a part gets and what the rest gets is at most the allocation. -/
theorem cappedShare_add_le (h : part ≤ total) (ht : total.toNat ≠ 0) :
    (cappedShare part total allocation).toNat +
      (cappedShare (total - part) total allocation).toNat ≤ allocation.toNat := by
  have hpart := cappedShare_le_exact part total allocation
  have hrest := cappedShare_le_exact (total - part) total allocation
  rw [min_eq_left (le_def.mp h)] at hpart
  rw [toNat_sub, min_eq_left (Nat.sub_le _ _)] at hrest
  exact (Nat.add_le_add hpart hrest).trans
    (div_add_div_rest allocation.toNat (le_def.mp h) (Nat.pos_of_ne_zero ht)).1

/-- Where the whole does not stop, neither does a part of it, and one unit is lost at most. -/
theorem le_cappedShare_add (h : part ≤ total) (ht : total.toNat ≠ 0)
    (hfit : total.toNat * allocation.toNat < bound) :
    allocation.toNat ≤ (cappedShare part total allocation).toNat +
      (cappedShare (total - part) total allocation).toNat + 1 := by
  have hfits (p : Amount) : min p.toNat total.toNat * allocation.toNat < bound :=
    (Nat.mul_le_mul_right _ (min_le_right _ _)).trans_lt hfit
  rw [toNat_cappedShare_of_lt (hfits _), toNat_cappedShare_of_lt (hfits _), toNat_sub,
    min_eq_left (le_def.mp h), min_eq_left (Nat.sub_le _ _)]
  exact (div_add_div_rest allocation.toNat (le_def.mp h) (Nat.pos_of_ne_zero ht)).2

/-- **Shares are rounded down, also where they stop.**  A capped share is at most the exact one,
which is at most the allocation, and equal to it where the product is an amount; among nobody it is
zero.  A part of the total and the rest of it share at most the allocation, and lose one unit of it
at most where the product of the whole is an amount. -/
theorem cappedShare_fair (part total allocation : Amount) :
    (cappedShare part total allocation).toNat ≤
        min part.toNat total.toNat * allocation.toNat / total.toNat ∧
      min part.toNat total.toNat * allocation.toNat / total.toNat ≤ allocation.toNat ∧
      (total.toNat = 0 → (cappedShare part total allocation).toNat = 0) ∧
      (min part.toNat total.toNat * allocation.toNat < bound →
        (cappedShare part total allocation).toNat =
          min part.toNat total.toNat * allocation.toNat / total.toNat) ∧
      (part ≤ total → total.toNat ≠ 0 →
        (cappedShare part total allocation).toNat +
            (cappedShare (total - part) total allocation).toNat ≤ allocation.toNat ∧
          (total.toNat * allocation.toNat < bound →
            allocation.toNat ≤ (cappedShare part total allocation).toNat +
              (cappedShare (total - part) total allocation).toNat + 1)) := by
  refine ⟨cappedShare_le_exact _ _ _, exact_le_allocation _ _ _, fun hzero => ?_,
    toNat_cappedShare_of_lt, fun h ht => ⟨cappedShare_add_le h ht, le_cappedShare_add h ht⟩⟩
  rw [toNat_cappedShare, hzero, Nat.div_zero]

/-- Of ten units for three, one gets three and two get six: the last unit is lost. -/
theorem cappedShare_fair_thirds :
    (1 : Amount) ≤ 3 ∧ (3 : Amount).toNat ≠ 0 ∧
      (3 : Amount).toNat * (10 : Amount).toNat < bound ∧
      10 = (cappedShare 1 3 10).toNat + (cappedShare (3 - 1) 3 10).toNat + 1 := by
  have hle : (1 : Amount) ≤ 3 := by decide
  have hne : (3 : Amount).toNat ≠ 0 := by decide
  have hfit : (3 : Amount).toNat * (10 : Amount).toNat < bound := by decide
  obtain ⟨-, -, -, -, hrest⟩ := cappedShare_fair 1 3 10
  exact ⟨hle, hne, hfit, le_antisymm ((hrest hle hne).2 hfit) (by decide)⟩

end Amount

end PoolExchange
