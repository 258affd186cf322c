import Mathlib.Tactic
import PoolExchange.Ledger.Payout
import PoolExchange.Proofs.Results

/-!
# Payment — what the outbound fee does to the store

A refund and a payment leave the same store behind (`Payout.settled`), which depends on the coin
alone: the store before, or that store with the fee kept (`Payout.settled_cases`).  Each is reported
by one event, which tells what was paid or that the coin was dropped (`Ledger.events_refund`,
`Ledger.events_outbound`).
-/

namespace PoolExchange

namespace Payout

/-- The store after a coin has paid the outbound fee; a coin that is dropped leaves it. -/
def settled (s : Store) (coin : Coin) (config : Config) : Store :=
  match charge s coin config with
  | .ok (s, _) => s
  | .error _ => s

/-- The fee of a coin that a pool prices. -/
def feeOf (pool : Pool) (coin : Coin) (config : Config) : Amount :=
  min (pool.nativeInAsset (.clamp config.pricing.outboundFee)) coin.amount

theorem pricingPool_inv {s : Store} {asset : Asset} {pool : Pool}
    (h : pricingPool s asset = .ok pool) :
    s.pool? asset = some pool ∧ pool.balanceNative.toNat ≠ 0 ∧ pool.balanceAsset.toNat ≠ 0 := by
  rw [pricingPool] at h
  split at h
  · exact absurd h (by simp)
  · rename_i p hp
    rw [guard_eq_ok, Bool.or_eq_true, Amount.isZero_iff, Amount.isZero_iff, not_or] at h
    obtain ⟨hside, h⟩ := h
    obtain rfl := Except.ok.inj h
    exact ⟨hp, hside.1, hside.2⟩

theorem netOf_inv {coin : Coin} {fee : Amount} {p : Payout} (h : netOf coin fee = .ok p) :
    fee.toNat < coin.amount.toNat ∧ p = ⟨⟨coin.asset, coin.amount - fee⟩, fee⟩ := by
  rw [netOf, guard_eq_ok, Amount.isZero_iff, Amount.toNat_sub] at h
  obtain ⟨hnet, h⟩ := h
  exact ⟨by omega, (Except.ok.inj h).symm⟩

/-- **A payment leaves the store as it was, or keeps its fee.** -/
theorem settled_cases (s : Store) (coin : Coin) (config : Config) :
    settled s coin config = s ∨
      ∃ pool, s.pool? coin.asset = some pool ∧ coin.asset.isNative = false ∧
        pool.balanceNative.toNat ≠ 0 ∧ pool.balanceAsset.toNat ≠ 0 ∧
        (feeOf pool coin config).toNat < coin.amount.toNat ∧
        settled s coin config = keepFee s pool coin.asset (feeOf pool coin config) := by
  rw [settled]
  cases h : charge s coin config with
  | error e => exact .inl rfl
  | ok out =>
      obtain ⟨s', p⟩ := out
      simp only [charge] at h
      split at h
      · simp only [bind_eq_ok, pure_eq_ok, Prod.mk.injEq] at h
        obtain ⟨-, -, rfl, -⟩ := h
        exact .inl rfl
      · rename_i hn
        simp only [bind_eq_ok, pure_eq_ok, Prod.mk.injEq] at h
        obtain ⟨pool, hpool, payout, hnet, rfl, -⟩ := h
        obtain ⟨hfind, hnative, hasset⟩ := pricingPool_inv hpool
        exact .inr ⟨pool, hfind, Bool.eq_false_iff.mpr hn, hnative, hasset,
          (netOf_inv hnet).1, rfl⟩

end Payout

namespace Ledger

theorem store_refund (l : Ledger) (tx : TxId) (coin : Coin) (reason : String)
    (config : Config) :
    (l.refund tx coin reason config).1.store = Payout.settled l.store coin config := by
  rw [refund, Payout.settled]
  cases Payout.charge l.store coin config <;> rfl

theorem store_outbound (l : Ledger) (tx : TxId) (recipient : Address) (coin : Coin)
    (config : Config) :
    (l.outbound tx recipient coin config).1.store = Payout.settled l.store coin config := by
  rw [outbound, Payout.settled]
  cases Payout.charge l.store coin config <;> rfl

end Ledger

/-! ### What a payment reports -/

/-- The event reports that a coin was paid, or was not. -/
def Event.isPayment : Event → Bool
  | .refund .. | .refundDropped .. | .outbound .. | .affiliateFee .. => true
  | _ => false

namespace Payout

/-- The report of a refund. -/
def refundEvent (s : Store) (tx : TxId) (coin : Coin) (reason : String) (config : Config) :
    Event :=
  match charge s coin config with
  | .ok (_, p) => .refund tx p.coin p.fee reason
  | .error e => .refundDropped tx coin (reason ++ ": " ++ e.message)

/-- The report of a coin paid out. -/
def outboundEvent (s : Store) (tx : TxId) (recipient : Address) (coin : Coin) (config : Config) :
    Event :=
  match charge s coin config with
  | .ok (_, p) => .outbound tx recipient p.coin
  | .error e => .refundDropped tx coin e.message

theorem isPayment_refundEvent (s : Store) (tx : TxId) (coin : Coin) (reason : String)
    (config : Config) : (refundEvent s tx coin reason config).isPayment = true := by
  rw [refundEvent]
  split <;> rfl

theorem isPayment_outboundEvent (s : Store) (tx : TxId) (recipient : Address) (coin : Coin)
    (config : Config) : (outboundEvent s tx recipient coin config).isPayment = true := by
  rw [outboundEvent]
  split <;> rfl

end Payout

theorem Ledger.events_refund (l : Ledger) (tx : TxId) (coin : Coin) (reason : String)
    (config : Config) :
    (l.refund tx coin reason config).1.events =
      l.events ++ [Payout.refundEvent l.store tx coin reason config] := by
  rw [refund, Payout.refundEvent]
  cases Payout.charge l.store coin config <;> rfl

theorem Ledger.events_outbound (l : Ledger) (tx : TxId) (recipient : Address) (coin : Coin)
    (config : Config) :
    (l.outbound tx recipient coin config).1.events =
      l.events ++ [Payout.outboundEvent l.store tx recipient coin config] := by
  rw [outbound, Payout.outboundEvent]
  cases Payout.charge l.store coin config <;> rfl

end PoolExchange
