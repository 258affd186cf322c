import PoolExchange.Issue
import PoolExchange.Proofs.Amount

/-!
# Issue — the units of a deposit, exactly

A deposit of `r` and `a` into a pool of `P` units over `R` and `A` is worth `N / D` units, where

  `N = P * (r * A + a * R + 2 * r * a)` and `D = r * A + a * R + 2 * A * R`.

The quotient is carried through eighteen places, of which only the part before the point is kept,
and that part is the integer quotient.  No step stops at the largest amount in silence: **a deposit
is valued exactly when each number on the way is an amount** (`Issue.forPool_eq_ok`).

Both `N` and `D` grow with the deposit, and `N` outgrows `D`, crosswise
(`Issue.numerator_mul_denominator_le`): **a larger deposit is never worth fewer units**
(`Issue.issued_exact_mono`).
-/

namespace PoolExchange.Issue

/-- The units times the value of the deposit. -/
def numerator (P R A r a : Nat) : Nat := P * (r * A + a * R + 2 * r * a)

/-- The value of the pool with the deposit. -/
def denominator (R A r a : Nat) : Nat := r * A + a * R + 2 * A * R

/-- The sums and products of the fraction are amounts. -/
structure FractionFits (P R A r a : Nat) : Prop where
  native_cross : r * A < Amount.bound
  asset_cross : a * R < Amount.bound
  cross : r * A + a * R < Amount.bound
  double_native : 2 * r < Amount.bound
  double_add : 2 * r * a < Amount.bound
  value : r * A + a * R + 2 * r * a < Amount.bound
  numerator : numerator P R A r a < Amount.bound
  double_asset : 2 * A < Amount.bound
  double_depth : 2 * A * R < Amount.bound
  denominator : denominator R A r a < Amount.bound

/-- Each number from which the units of a deposit are computed is an amount. -/
structure Fits (P R A r a : Nat) : Prop extends FractionFits P R A r a,
    Fixed.Fits (Issue.numerator P R A r a) (Issue.denominator R A r a) where
  native_total : R + r < Amount.bound
  asset_total : A + a < Amount.bound

variable {units native asset addNative addAsset : Amount} {i : Issue}

/-! ### The fraction -/

theorem cross_eq_ok {c : Amount} : Issue.cross native asset addNative addAsset = .ok c ↔
    c.toNat = addNative.toNat * asset.toNat + addAsset.toNat * native.toNat := by
  simp only [Issue.cross, bind_eq_ok, Amount.mul?_eq_ok, Amount.add?_eq_ok]
  constructor
  · rintro ⟨left, hleft, right, hright, hc⟩
    rw [hc, hleft, hright]
  · intro hc
    have hlt := hc ▸ c.toNat_lt
    exact ⟨⟨_, (Nat.le_add_right _ _).trans_lt hlt⟩, rfl,
      ⟨_, (Nat.le_add_left _ _).trans_lt hlt⟩, rfl, hc⟩

theorem twice_eq_ok {x y c : Amount} :
    twice x y = .ok c ↔ 2 * x.toNat < Amount.bound ∧ c.toNat = 2 * x.toNat * y.toNat := by
  simp only [twice, bind_eq_ok, Amount.mul?_eq_ok]
  constructor
  · rintro ⟨d, hd, hc⟩
    have hd : d.toNat = 2 * x.toNat := hd
    exact ⟨hd ▸ d.toNat_lt, by rw [hc, hd]⟩
  · rintro ⟨hlt, hc⟩
    exact ⟨⟨_, hlt⟩, rfl, hc⟩

/-- The two sides of the fraction are the exact ones. -/
theorem fraction_eq_ok {f : Amount × Amount} :
    fraction units native asset addNative addAsset = .ok f ↔
      FractionFits units.toNat native.toNat asset.toNat addNative.toNat addAsset.toNat ∧
        f.1.toNat = Issue.numerator units.toNat native.toNat asset.toNat addNative.toNat
          addAsset.toNat ∧
        f.2.toNat = Issue.denominator native.toNat asset.toNat addNative.toNat addAsset.toNat := by
  simp only [fraction, bind_eq_ok, pure_eq_ok, cross_eq_ok, twice_eq_ok, Amount.mul?_eq_ok,
    Amount.add?_eq_ok]
  constructor
  · rintro ⟨cross, hcross, added, ⟨hnative, hadded⟩, value, hvalue, num, hnum, depth,
      ⟨hasset, hdepth⟩, den, hden, rfl⟩
    rw [hcross, hadded] at hvalue
    rw [hvalue] at hnum
    rw [hcross, hdepth] at hden
    have hlt := hcross ▸ cross.toNat_lt
    exact ⟨⟨(Nat.le_add_right _ _).trans_lt hlt, (Nat.le_add_left _ _).trans_lt hlt, hlt, hnative,
      hadded ▸ added.toNat_lt, hvalue ▸ value.toNat_lt, hnum.symm.trans_lt num.toNat_lt, hasset,
      hdepth ▸ depth.toNat_lt, hden.symm.trans_lt den.toNat_lt⟩, hnum, hden⟩
  · rintro ⟨hfits, hnum, hden⟩
    exact ⟨⟨_, hfits.cross⟩, rfl, ⟨_, hfits.double_add⟩, ⟨hfits.double_native, rfl⟩,
      ⟨_, hfits.value⟩, rfl, f.1, hnum, ⟨_, hfits.double_depth⟩, ⟨hfits.double_asset, rfl⟩, f.2,
      hden, rfl⟩

/-! ### The units -/

section
variable {P R A r a : Nat}

theorem denominator_pos (hR : R ≠ 0) (hA : A ≠ 0) : 0 < Issue.denominator R A r a :=
  Nat.add_pos_right _ (Nat.mul_pos (Nat.mul_pos Nat.two_pos (Nat.pos_of_ne_zero hA))
    (Nat.pos_of_ne_zero hR))

/-- The balances after the deposit are below the denominator. -/
theorem FractionFits.totals (h : FractionFits P R A r a) (hR : R ≠ 0) (hA : A ≠ 0) :
    R + r < Amount.bound ∧ A + a < Amount.bound := by
  have hden := h.denominator
  rw [Issue.denominator, Nat.mul_assoc, Nat.two_mul] at hden
  have hr : r ≤ r * A := Nat.le_mul_of_pos_right _ (Nat.pos_of_ne_zero hA)
  have ha : a ≤ a * R := Nat.le_mul_of_pos_right _ (Nat.pos_of_ne_zero hR)
  have hnative : R ≤ A * R := Nat.le_mul_of_pos_left _ (Nat.pos_of_ne_zero hA)
  have hasset : A ≤ A * R := Nat.le_mul_of_pos_right _ (Nat.pos_of_ne_zero hR)
  omega

end

section
variable (hunits : units.toNat ≠ 0) (hnative : native.toNat ≠ 0) (hasset : asset.toNat ≠ 0)
include hunits hnative hasset

/-- **The units of a deposit are its exact quotient**, and there are any exactly when each number on
the way is an amount. -/
theorem forPool_eq_ok : forPool units native asset addNative addAsset = .ok i ↔
    Fits units.toNat native.toNat asset.toNat addNative.toNat addAsset.toNat ∧
      i.issued.toNat =
        Issue.numerator units.toNat native.toNat asset.toNat addNative.toNat addAsset.toNat /
          Issue.denominator native.toNat asset.toNat addNative.toNat addAsset.toNat ∧
      i.total = units + i.issued := by
  have hsides : ¬ (native + addNative).isZero = true ∧ ¬ (asset + addAsset).isZero = true := by
    simp [Amount.toNat_add_eq_zero, hnative, hasset]
  have hgeneral : ¬ (native.isZero || asset.isZero || units.isZero) = true := by
    simp [hunits, hnative, hasset]
  rw [forPool, if_neg hsides.1, if_neg hsides.2, if_neg hgeneral]
  simp only [bind_eq_ok, guard_eq_ok, PoolError.ofAmount_eq_ok, fraction_eq_ok, Amount.isZero_iff]
  constructor
  · rintro ⟨f, ⟨hfits, hnum, hden⟩, -, ratio, hratio, hi⟩
    obtain rfl := Except.ok.inj hi
    have hissued := Fixed.truncate_ratio? hratio
    obtain ⟨-, hplaces, -⟩ := Fixed.ratio?_eq_ok.mp hratio
    rw [hnum, hden] at hissued hplaces
    obtain ⟨hnative_total, hasset_total⟩ := hfits.totals hnative hasset
    exact ⟨⟨hfits, hplaces, hnative_total, hasset_total⟩, hissued, rfl⟩
  · rintro ⟨hfits, hissued, htotal⟩
    have hpos := (denominator_pos (r := addNative.toNat) (a := addAsset.toNat) hnative hasset).ne'
    have hratio : Fixed.ratio? ⟨_, hfits.numerator⟩ ⟨_, hfits.denominator⟩ =
        .ok ⟨⟨_, hfits.places⟩⟩ := Fixed.ratio?_eq_ok.mpr ⟨hpos, hfits.toFits, rfl⟩
    refine ⟨(⟨_, hfits.numerator⟩, ⟨_, hfits.denominator⟩), ⟨hfits.toFractionFits, rfl, rfl⟩,
      hpos, _, hratio, ?_⟩
    have hquotient := Amount.ext ((Fixed.truncate_ratio? hratio).trans hissued.symm)
    rw [hquotient, ← htotal]

end

/-- The issue of a deposit, unless the pool has nothing to compare it with. -/
theorem forPool_inv (h : forPool units native asset addNative addAsset = .ok i) :
    (native.toNat = 0 ∨ asset.toNat = 0 ∨ units.toNat = 0) ∨
      i.issued.toNat =
        units.toNat * (addNative.toNat * asset.toNat + addAsset.toNat * native.toNat +
            2 * addNative.toNat * addAsset.toNat) /
          (addNative.toNat * asset.toNat + addAsset.toNat * native.toNat +
            2 * asset.toNat * native.toNat) := by
  by_cases hz : native.toNat = 0 ∨ asset.toNat = 0 ∨ units.toNat = 0
  · exact .inl hz
  · rw [not_or, not_or] at hz
    obtain ⟨hnative, hasset, hunits⟩ := hz
    exact .inr ((forPool_eq_ok hunits hnative hasset).mp h).2.1

/-! ### Larger deposits -/

/-- What the larger deposit adds to the numerator outweighs what it adds to the denominator. -/
theorem numerator_mul_denominator_le {P R A r a r' a' : Nat} (hr : r ≤ r') (ha : a ≤ a') :
    Issue.numerator P R A r a * Issue.denominator R A r' a' ≤
      Issue.numerator P R A r' a' * Issue.denominator R A r a := by
  obtain ⟨k, rfl⟩ := Nat.exists_eq_add_of_le hr
  obtain ⟨l, rfl⟩ := Nat.exists_eq_add_of_le ha
  calc Issue.numerator P R A r a * Issue.denominator R A (r + k) (a + l)
      ≤ Issue.numerator P R A r a * Issue.denominator R A (r + k) (a + l) +
          P * (2 * A * R * (k * A + l * R) + 2 * (r * (r + k) * A * l + a * (a + l) * R * k) +
            4 * A * R * (r * l + k * a + k * l)) := Nat.le_add_right _ _
    _ = Issue.numerator P R A (r + k) (a + l) * Issue.denominator R A r a := by
        rw [Issue.numerator, Issue.numerator, Issue.denominator, Issue.denominator]
        ring

/-- **Units are issued exactly, and more are never issued for less.** -/
theorem issued_exact_mono (hunits : units.toNat ≠ 0) (hnative : native.toNat ≠ 0)
    (hasset : asset.toNat ≠ 0) (h : forPool units native asset addNative addAsset = .ok i) :
    i.issued.toNat =
        units.toNat * (addNative.toNat * asset.toNat + addAsset.toNat * native.toNat +
            2 * addNative.toNat * addAsset.toNat) /
          (addNative.toNat * asset.toNat + addAsset.toNat * native.toNat +
            2 * asset.toNat * native.toNat) ∧
      Fits units.toNat native.toNat asset.toNat addNative.toNat addAsset.toNat ∧
      ∀ addNative' addAsset' i', addNative ≤ addNative' → addAsset ≤ addAsset' →
        forPool units native asset addNative' addAsset' = .ok i' → i.issued ≤ i'.issued := by
  obtain ⟨hfits, hissued, -⟩ := (forPool_eq_ok hunits hnative hasset).mp h
  refine ⟨hissued, hfits, fun addNative' addAsset' i' hr ha h' => ?_⟩
  obtain ⟨-, hissued', -⟩ := (forPool_eq_ok hunits hnative hasset).mp h'
  rw [Amount.le_def, hissued, hissued']
  exact div_le_div_of_cross (denominator_pos hnative hasset) (numerator_mul_denominator_le hr ha)

/-- With some of the asset a deposit on the native side brings more than twice the units. -/
theorem issued_exact_mono_uneven :
    let uneven : Issue := ⟨1024, 24⟩
    let evened : Issue := ⟨1054, 54⟩
    forPool 1000 2000 500 100 0 = .ok uneven ∧ forPool 1000 2000 500 100 30 = .ok evened ∧
      uneven.issued.toNat = 1000 * (100 * 500) / (100 * 500 + 2 * 500 * 2000) ∧
      Fits 1000 2000 500 100 0 ∧ uneven.issued ≤ evened.issued := by
  intro uneven evened
  have h : forPool 1000 2000 500 100 0 = .ok uneven := by decide +kernel
  have h' : forPool 1000 2000 500 100 30 = .ok evened := by decide +kernel
  obtain ⟨hissued, hfits, hmono⟩ := issued_exact_mono (by decide) (by decide) (by decide) h
  exact ⟨h, h', hissued, hfits, hmono _ _ _ (by decide) (by decide) h'⟩

end PoolExchange.Issue
