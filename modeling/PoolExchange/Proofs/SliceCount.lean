import Mathlib.Order.Bounds.Basic
import PoolExchange.Proofs.Backing
import PoolExchange.Proofs.Slicing

/-!
# SliceCount — the bounds on the number of slices

Three bounds meet in the number of slices: the stream fits its greatest length, its slices fill no
more than the deposit, and where the length does not clamp the number it is within the cap of the
derived assets (`Slicing.InBounds`).  They are applied one after the other, and the last not always,
but **a number of two or more is the greatest within the bounds**
(`Slicing.maxQuantity_isGreatest`).  Zero and one are apart: the number is raised to one even if the
deposit does not fill a slice.

The cap is that of the derived leg which leaves most of its anchor's depth: with a share `d` of it,
`n` slices have `n (10000 - d) ≤ 10000`.  A number within the cap has it for every other derived leg
as well (`Slicing.WithinAnchors`).
-/

namespace PoolExchange.Slicing

/-! ### The derived cap -/

theorem foldl_min_le {first a : Amount} {rest : List Amount} (h : first ≤ a ∨ a ∈ rest) :
    rest.foldl min first ≤ a := by
  induction rest generalizing first with
  | nil => exact h.resolve_right List.not_mem_nil
  | cons b rest ih =>
      refine ih (or_iff_not_imp_right.mpr fun hrest => ?_)
      rw [Amount.le_def, Amount.toNat_min]
      rcases h with hle | hmem
      · exact (Nat.min_le_left _ _).trans hle
      · rcases List.mem_cons.mp hmem with rfl | hmem
        · exact Nat.min_le_right _ _
        · exact absurd hmem hrest

/-- A list with an element has a least one, which is no greater. -/
theorem exists_least? {amounts : List Amount} {a : Amount} (ha : a ∈ amounts) :
    ∃ m, least? amounts = some m ∧ m ≤ a := by
  cases amounts with
  | nil => cases ha
  | cons first rest =>
      refine ⟨_, rfl, foldl_min_le ((List.mem_cons.mp ha).imp_left ?_)⟩
      rintro rfl
      exact Nat.le_refl _

/-- What each derived leg leaves of its anchor's depth is at most one part in `n` of it; a leg that
has no share of the depth does not count. -/
def WithinAnchors (pools : PoolSource) (legs : List (Asset × Pool)) (n : Nat) : Prop :=
  ∀ leg ∈ legs, leg.1.isDerived = true → (anchorShare pools leg).toNat ≠ 0 →
    n * (fullBasisPoints - (anchorShare pools leg).toNat) ≤ fullBasisPoints

/-- **The cap holds for every derived leg**, not only for the one it is computed from; and where
there is none, no number is too great for any of them. -/
theorem withinAnchors_of_derivedCap? {pools : PoolSource} {legs : List (Asset × Pool)} {n : Nat}
    (h : ∀ most, derivedCap? pools legs = some most → n ≤ most) : WithinAnchors pools legs n := by
  intro leg hleg hderived hshare
  obtain ⟨least, hleast, hle⟩ : ∃ least,
      least? (((legs.filter fun leg => leg.1.isDerived).map (anchorShare pools)).filter
        fun s => !s.isZero) = some least ∧ least ≤ anchorShare pools leg := by
    refine exists_least? (List.mem_filter.mpr ⟨?_, ?_⟩)
    · exact List.mem_map_of_mem (List.mem_filter.mpr ⟨hleg, hderived⟩)
    · rw [Bool.not_eq_true', ← Bool.not_eq_true, Amount.isZero_iff]
      exact hshare
  have hleaves : fullBasisPoints - (anchorShare pools leg).toNat ≤
      fullBasisPoints - least.toNat := Nat.sub_le_sub_left hle _
  by_cases hrest : fullBasisPoints - least.toNat = 0
  · -- no leg leaves anything
    rw [hrest] at hleaves
    rw [Nat.eq_zero_of_le_zero hleaves, Nat.mul_zero]
    exact Nat.zero_le _
  · have hcap := h _ (derivedCap?_eq_some.mpr ⟨least, hleast, hrest, rfl⟩)
    calc n * (fullBasisPoints - (anchorShare pools leg).toNat)
        ≤ fullBasisPoints / (fullBasisPoints - least.toNat) * (fullBasisPoints - least.toNat) :=
          Nat.mul_le_mul hcap hleaves
      _ ≤ fullBasisPoints := Nat.div_mul_le_self _ _

/-! ### The bounds together -/

/-- The slices of size `size` that a deposit fills, as far as a word counts them. -/
def fills (deposit size : Amount) : Nat :=
  min (deposit.toNat / size.toNat) (wordBound 64 - 1)

/-- The bounds on the number of slices of a stream. -/
structure InBounds (deposit size : Amount) (interval length : Nat) (cap : Option Nat) (n : Nat) :
    Prop where
  inLength : n * interval ≤ length
  inDeposit : n * size.toNat ≤ deposit.toNat
  /-- The cap is not applied to a number that the length has clamped. -/
  inCap : fills deposit size ≤ length / interval → ∀ most, cap = some most → n ≤ most

variable {pools : PoolSource} {source target : Asset} {deposit size : Amount}
  {interval length n : Nat} {cap : Option Nat} {config : Config}

theorem quantityFor_isGreatest (hinterval : interval ≠ 0) (hsize : size.toNat ≠ 0)
    (hn : 2 ≤ quantityFor deposit size (length / interval) cap) :
    IsGreatest {m | m < wordBound 64 ∧ InBounds deposit size interval length cap m}
      (quantityFor deposit size (length / interval) cap) := by
  have hlength : ∀ m, m * interval ≤ length ↔ m ≤ length / interval := fun m =>
    (Nat.le_div_iff_mul_le (Nat.pos_of_ne_zero hinterval)).symm
  have hdeposit : ∀ m, m * size.toNat ≤ deposit.toNat ↔ m ≤ deposit.toNat / size.toNat := fun m =>
    (Nat.le_div_iff_mul_le (Nat.pos_of_ne_zero hsize)).symm
  have hword := wordBound_pos 64
  have hfills : fills deposit size =
      min (deposit.toNat / size.toNat) (wordBound 64 - 1) := rfl
  simp only [quantityFor, getD_toWord?_div, ← hfills] at hn ⊢
  by_cases hclamp : length / interval < fills deposit size
  · -- clamped by length, and then the cap is out of play
    rw [if_pos hclamp] at hn ⊢
    refine ⟨⟨by omega, (hlength _).mpr le_rfl, (hdeposit _).mpr (by omega), ?_⟩, ?_⟩
    · exact fun hle => absurd hclamp (Nat.not_lt.mpr hle)
    · exact fun m hm => (hlength m).mp hm.2.inLength
  · rw [if_neg hclamp] at hn ⊢
    have hfits : fills deposit size ≤ length / interval := Nat.not_lt.mp hclamp
    cases cap with
    | none =>
        simp only at hn ⊢
        refine ⟨⟨by omega, (hlength _).mpr (by omega), (hdeposit _).mpr (by omega), ?_⟩, ?_⟩
        · intro _ _ h
          cases h
        · rintro m ⟨hm, hbounds⟩
          have := (hdeposit m).mp hbounds.inDeposit
          omega
    | some most =>
        simp only at hn ⊢
        refine ⟨⟨by omega, (hlength _).mpr (by omega), (hdeposit _).mpr (by omega), ?_⟩, ?_⟩
        · intro _ _ h
          rw [← Option.some.inj h]
          exact Nat.min_le_right _ _
        · rintro m ⟨hm, hbounds⟩
          have := (hdeposit m).mp hbounds.inDeposit
          have := hbounds.inCap hfits most rfl
          omega

/-- **A number of two slices or more is the greatest that the bounds allow:** the stream fits the
greatest length, slices of the least size fill no more than the deposit, and wherever the length
does not clamp the number, the cap of derived assets is kept, and kept for every derived leg. -/
theorem maxQuantity_isGreatest
    (h : maxQuantity pools source target deposit interval config = .ok n) (hn : 2 ≤ n) :
    ∃ legs size, poolLegs pools source target = .ok legs ∧
      leastSize pools source target config = .ok size ∧ size.toNat ≠ 0 ∧
      IsGreatest {m | m < wordBound 64 ∧
        InBounds deposit size interval (maxLength source target config)
          (derivedCap? pools legs) m} n ∧
      (fills deposit size ≤ maxLength source target config / interval →
        WithinAnchors pools legs n) := by
  have hinterval : interval ≠ 0 := by
    rintro rfl
    rw [maxQuantity, if_pos rfl] at h
    cases h
    omega
  obtain ⟨legs, size, hlegs, hleast, rfl⟩ := maxQuantity_inv hinterval h
  by_cases hzero : size.isZero = true
  · rw [if_pos hzero] at hn
    omega
  · have hsize : size.toNat ≠ 0 := fun e => hzero (Amount.isZero_iff.mpr e)
    rw [if_neg hzero] at hn ⊢
    have hgreatest : IsGreatest {m | m < wordBound 64 ∧
        InBounds deposit size interval (maxLength source target config)
          (derivedCap? pools legs) m} _ := quantityFor_isGreatest hinterval hsize hn
    exact ⟨legs, size, hlegs, hleast, hsize, hgreatest, fun hfits =>
      withinAnchors_of_derivedCap? (hgreatest.1.2.inCap hfits)⟩

/-- The even pool, and a pool of the derived form of its asset with half of its depth. -/
def halfAnchored : PoolSource :=
  ((Store.empty.setPool Leg.evenPool).setPool
    { Leg.evenPool with
      asset := SlipClass.derived.sample
      balanceNative := 500
      balanceAsset := 500 }).source

/-- The deposit fills twenty slices of five, and half of the anchor's depth leaves two. -/
theorem maxQuantity_isGreatest_halfAnchored :
    let config : Config := { slipFloors := { derived := 100 } }
    maxQuantity halfAnchored SlipClass.derived.sample .native 100 1 config = .ok 2 ∧ 2 ≤ 2 ∧
      ∃ legs size, poolLegs halfAnchored SlipClass.derived.sample .native = .ok legs ∧
        leastSize halfAnchored SlipClass.derived.sample .native config = .ok size ∧
        size.toNat ≠ 0 ∧
        IsGreatest {m | m < wordBound 64 ∧
          InBounds 100 size 1 (maxLength SlipClass.derived.sample .native config)
            (derivedCap? halfAnchored legs) m} 2 ∧
        (fills 100 size ≤ maxLength SlipClass.derived.sample .native config / 1 →
          WithinAnchors halfAnchored legs 2) := by
  intro config
  have h : maxQuantity halfAnchored SlipClass.derived.sample .native 100 1 config = .ok 2 := by
    decide +kernel
  exact ⟨h, le_rfl, maxQuantity_isGreatest h le_rfl⟩

end PoolExchange.Slicing
