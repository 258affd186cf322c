import PoolExchange.Proofs.Amount
import PoolExchange.Slicing

/-!
# Slicing — the number of slices of a stream

A stream whose slices may be of any size has one.  The slices of any other are of the least size or
larger, as far as the caps allow, and there is at least one, with an exception: the cap by length is
applied before the number is raised to one, and it is zero when the interval is longer than the
stream may be.  **A stream gets no slices exactly when its interval is longer than the greatest
length and its deposit would fill a slice** (`Slicing.maxQuantity_eq_zero`).
-/

namespace PoolExchange.Slicing

/-- The least size of a slice in units of the source; zero if slices may be of any size. -/
def leastSize (pools : PoolSource) (source target : Asset) (config : Config) :
    Except PoolError Amount := do
  match ← poolLegs pools source target with
  | [] => .error .noPoolsSelected
  | first :: rest => return sourceSize source first.2 (← nativeSize (first :: rest) config)

/-! ### Caps -/

/-- **The cap of derived assets** is what the least positive share of an anchor's depth leaves. -/
theorem derivedCap?_eq_some {pools : PoolSource} {legs : List (Asset × Pool)} {most : Nat} :
    derivedCap? pools legs = some most ↔
      ∃ share, least? (((legs.filter fun leg => leg.1.isDerived).map (anchorShare pools)).filter
          fun s => !s.isZero) = some share ∧
        fullBasisPoints - share.toNat ≠ 0 ∧
        most = fullBasisPoints / (fullBasisPoints - share.toNat) := by
  simp only [derivedCap?, Option.bind_eq_bind, Option.bind_eq_some_iff]
  refine exists_congr fun share => and_congr_right fun _ => ?_
  have hrest : (Curve.full - share).toNat = fullBasisPoints - share.toNat :=
    Amount.toNat_sub Curve.full share
  have hcap : (Curve.full / (Curve.full - share)).toNat =
      fullBasisPoints / (fullBasisPoints - share.toNat) := by
    rw [Amount.toNat_div, hrest]
    rfl
  have hword : fullBasisPoints / (fullBasisPoints - share.toNat) < wordBound 64 :=
    (Nat.div_le_self _ _).trans_lt (by decide)
  rw [Amount.toWord?, hcap, if_pos hword]
  split
  · rename_i hzero
    rw [Amount.isZero_iff, hrest] at hzero
    simp [hzero]
  · rename_i hzero
    rw [Amount.isZero_iff, hrest] at hzero
    rw [Option.some.injEq, eq_comm, and_iff_right hzero]

/-- The cap of derived assets leaves a slice. -/
theorem derivedCap?_ne_zero {pools : PoolSource} {legs : List (Asset × Pool)} {most : Nat}
    (h : derivedCap? pools legs = some most) : most ≠ 0 := by
  obtain ⟨share, -, hrest, rfl⟩ := derivedCap?_eq_some.mp h
  exact (Nat.div_pos (Nat.sub_le _ _) (Nat.pos_of_ne_zero hrest)).ne'

/-- The slices of the least size that the deposit fills, as a word. -/
theorem getD_toWord?_div (deposit size : Amount) :
    ((deposit / size).toWord? 64).getD (wordBound 64 - 1) =
      min (deposit.toNat / size.toNat) (wordBound 64 - 1) := by
  have := wordBound_pos 64
  rw [Amount.toWord?, Amount.toNat_div]
  split
  · rw [Option.getD_some]
    omega
  · rw [Option.getD_none]
    omega

variable {deposit size : Amount} {byLength : Nat} {cap : Option Nat}

theorem quantityFor_le : quantityFor deposit size byLength cap ≤
    max (deposit.toNat / size.toNat) 1 := by
  simp only [quantityFor, getD_toWord?_div]
  split
  · omega
  · split <;> omega

theorem quantityFor_eq_zero (hsize : size.toNat ≠ 0) (hcap : ∀ most, cap = some most → most ≠ 0) :
    quantityFor deposit size byLength cap = 0 ↔ byLength = 0 ∧ size ≤ deposit := by
  have hfills : deposit.toNat / size.toNat ≠ 0 ↔ size ≤ deposit := by
    rw [Amount.le_def, Nat.div_ne_zero_iff]
    exact ⟨fun h => h.2, fun h => ⟨hsize, h⟩⟩
  have hword : 1 < wordBound 64 := by decide
  simp only [quantityFor, getD_toWord?_div]
  rw [← hfills]
  generalize deposit.toNat / size.toNat = slices
  -- what is not clamped by length is raised to one before the other cap, which is positive
  split
  · omega
  · cases cap with
    | none => simp only; omega
    | some most =>
        have := hcap most rfl
        simp only
        omega

theorem quantityFor_lt : quantityFor deposit size byLength cap < wordBound 64 := by
  have hword : 1 < wordBound 64 := by decide
  simp only [quantityFor, getD_toWord?_div]
  split
  · omega
  · split <;> omega

/-! ### The sizer -/

variable {pools : PoolSource} {source target : Asset} {interval n : Nat} {config : Config}

/-- **Inversion of the sizer.** -/
theorem maxQuantity_inv (hinterval : interval ≠ 0)
    (h : maxQuantity pools source target deposit interval config = .ok n) :
    ∃ legs size, poolLegs pools source target = .ok legs ∧
      leastSize pools source target config = .ok size ∧
      n = if size.isZero then 1
        else quantityFor deposit size (maxLength source target config / interval)
          (derivedCap? pools legs) := by
  rw [maxQuantity, if_neg hinterval, bind_eq_ok] at h
  obtain ⟨legs, hlegs, h⟩ := h
  cases legs with
  | nil => cases h
  | cons first rest =>
      simp only [bind_eq_ok] at h
      obtain ⟨size, hsize, h⟩ := h
      refine ⟨_, sourceSize source first.2 size, hlegs, ?_, ?_⟩
      · rw [leastSize, bind_eq_ok]
        exact ⟨_, hlegs, bind_eq_ok.mpr ⟨size, hsize, rfl⟩⟩
      · split at h
        · rename_i hzero
          rw [if_pos hzero, pure_eq_ok.mp h]
        · rename_i hzero
          rw [if_neg hzero, pure_eq_ok.mp h]

theorem maxQuantity_of_no_interval :
    maxQuantity pools source target deposit 0 config = .ok n ↔ n = 0 := by
  rw [maxQuantity, if_pos rfl, Except.ok.injEq, eq_comm]

/-- The number of slices is a word. -/
theorem maxQuantity_lt (h : maxQuantity pools source target deposit interval config = .ok n) :
    n < wordBound 64 := by
  by_cases hinterval : interval = 0
  · rw [hinterval, maxQuantity_of_no_interval] at h
    exact h ▸ wordBound_pos 64
  · obtain ⟨legs, size, -, -, rfl⟩ := maxQuantity_inv hinterval h
    split
    · decide
    · exact quantityFor_lt

/-- Slices are not cut finer than the deposit. -/
theorem maxQuantity_le (h : maxQuantity pools source target deposit interval config = .ok n) :
    n ≤ max deposit.toNat 1 := by
  by_cases hinterval : interval = 0
  · rw [hinterval, maxQuantity_of_no_interval] at h
    omega
  · obtain ⟨legs, size, -, -, rfl⟩ := maxQuantity_inv hinterval h
    split
    · omega
    · have := Nat.div_le_self deposit.toNat size.toNat
      exact quantityFor_le.trans (by omega)

/-- **A stream gets no slices exactly when its interval is longer than the greatest length and its
deposit would fill a slice.** -/
theorem maxQuantity_eq_zero (hinterval : interval ≠ 0)
    (h : maxQuantity pools source target deposit interval config = .ok n) :
    n = 0 ↔ maxLength source target config < interval ∧
      ∃ size, leastSize pools source target config = .ok size ∧ size.toNat ≠ 0 ∧
        size ≤ deposit := by
  obtain ⟨legs, size, -, hsize, rfl⟩ := maxQuantity_inv hinterval h
  simp only [hsize, Except.ok.injEq, exists_eq_left']
  by_cases hzero : size.isZero = true
  · simp [hzero, Amount.isZero_iff.mp hzero]
  · have hpos : size.toNat ≠ 0 := fun e => hzero (Amount.isZero_iff.mpr e)
    rw [if_neg hzero, quantityFor_eq_zero hpos fun _ => derivedCap?_ne_zero,
      Nat.div_eq_zero_iff, or_iff_right hinterval]
    simp [hpos]

end PoolExchange.Slicing
