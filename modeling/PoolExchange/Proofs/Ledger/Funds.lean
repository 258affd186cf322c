import PoolExchange.Proofs.Ledger.Conservation
import PoolExchange.Proofs.Ledger.Procedure

/-!
# Ledger — what was deposited is held or has been paid out

The funds of a pool are its balances and what is pending (`Pool.funds`).  A deposit that succeeds
adds what it brings to one or the other and moves what was pending into the balances; a withdrawal
that succeeds takes what it pays from one or the other (`Deposit.funds_apply`,
`Withdrawal.funds_apply`).  A redemption on one side swaps the share of the other side through the
pool, and pays no more than there is even where the arithmetic of the curve stops at the largest
amount (`Redemption.pay_le`).

So **after every run of deposits, withdrawals and changes of status, on each side of each pool what
was deposited is what the pool holds and what was paid out** (`Exchange.funds_conserved`), whatever
the synthetic supplies, and however the units are counted.
-/

namespace PoolExchange

/-! ### Sides -/

/-- What is pending on a side. -/
def PoolSide.pending : PoolSide → Holding
  | .native => .native
  | .asset => .asset

def Pool.balance (p : Pool) : PoolSide → Amount
  | .native => p.balanceNative
  | .asset => p.balanceAsset

/-- What a pool holds on a side, in its balance or pending. -/
def Pool.funds (p : Pool) (side : PoolSide) : Nat :=
  (p.balance side).toNat + (p.held side.pending).toNat

def Deposit.amount (d : Deposit) : PoolSide → Amount
  | .native => d.native
  | .asset => d.asset

def Withdrawal.Outcome.paid (o : Withdrawal.Outcome) : PoolSide → Amount
  | .native => o.native
  | .asset => o.asset

theorem Deposit.brings_pending (d : Deposit) (o : Deposit.Outcome) (side : PoolSide) :
    d.brings o side.pending = d.amount side := by
  cases side <;> rfl

theorem Pool.funds_empty (a : Asset) (side : PoolSide) : (Pool.empty a).funds side = 0 := by
  cases side <;> rfl

/-! ### One operation -/

/-- **A deposit puts in what it brings**, as long as the sum fits. -/
theorem Deposit.funds_apply {d : Deposit} {pool : Pool} {provider : Provider} {supply : Amount}
    {o : Deposit.Outcome} (ho : d.apply pool provider supply = .ok o) (side : PoolSide)
    (hle : (provider.held side.pending).toNat ≤ (pool.held side.pending).toNat)
    (hfit : pool.funds side + (d.amount side).toNat < Amount.bound) :
    o.pool.funds side = pool.funds side + (d.amount side).toNat := by
  -- what was pending moves from one summand to the other
  have hcredit : ∀ {balance held share amount : Amount}, share.toNat ≤ held.toNat →
      balance.toNat + held.toNat + amount.toNat < Amount.bound →
      (balance + (share + amount)).toNat + (held - share).toNat =
        balance.toNat + held.toNat + amount.toNat := by
    intro balance held share amount hshare hsum
    have hin : (share + amount).toNat = share.toNat + amount.toNat :=
      Amount.toNat_add_of_lt (by omega)
    rw [Amount.toNat_add_of_lt (by omega), hin, Amount.toNat_sub]
    omega
  have hhold : ∀ {balance held amount : Amount},
      balance.toNat + held.toNat + amount.toNat < Amount.bound →
      balance.toNat + (held + amount).toNat = balance.toNat + held.toNat + amount.toNat := by
    intro balance held amount hsum
    rw [Amount.toNat_add_of_lt (by omega), Nat.add_assoc]
  rcases apply_cases ho with ⟨-, -, rfl⟩ | ho
  · cases side with
    | native => exact hhold hfit
    | asset => exact hhold hfit
  · obtain ⟨issue, -, -, hpool, -⟩ := credit_inv ho
    rw [hpool]
    cases side with
    | native => exact hcredit hle hfit
    | asset => exact hcredit hle hfit

namespace Withdrawal

variable {w : Withdrawal} {pool : Pool} {provider : Provider} {supply : Amount} {config : Config}
  {o : Outcome}

/-- What is returned was pending. -/
theorem release_side (ho : w.release pool provider = .ok o) (side : PoolSide) :
    o.paid side = provider.held side.pending ∧ o.pool.balance side = pool.balance side ∧
      o.pool.held side.pending = pool.held side.pending - provider.held side.pending := by
  obtain ⟨-, hpool, -⟩ := release_inv ho
  obtain ⟨hnative, hasset⟩ := release_paid ho
  rw [hpool]
  cases side with
  | native => exact ⟨hnative, rfl, rfl⟩
  | asset => exact ⟨hasset, rfl, rfl⟩

/-- What is redeemed comes out of the balance. -/
theorem redeem_side (ho : w.redeem pool provider supply config = .ok o) (side : PoolSide) :
    (o.paid side).toNat ≤ (pool.balance side).toNat ∧
      o.pool.balance side = pool.balance side - o.paid side ∧
      o.pool.held side.pending = pool.held side.pending := by
  obtain ⟨hnative, hasset, hbn, hba, hpn, hpa⟩ := redeem_paid ho
  cases side with
  | native => exact ⟨hnative, hbn, hpn⟩
  | asset => exact ⟨hasset, hba, hpa⟩

/-- **A withdrawal takes out what it pays.** -/
theorem funds_apply (ho : w.apply pool provider supply config = .ok o) (side : PoolSide)
    (hle : (provider.held side.pending).toNat ≤ (pool.held side.pending).toNat) :
    o.pool.funds side + (o.paid side).toNat = pool.funds side := by
  have hbalance : (pool.withSynths supply).balance side = pool.balance side := by cases side <;> rfl
  have hheld : (pool.withSynths supply).held side.pending = pool.held side.pending := by
    cases side <;> rfl
  rw [Pool.funds, Pool.funds, ← hbalance, ← hheld]
  rw [← hheld] at hle
  rcases apply_cases ho with ⟨-, ho⟩ | ⟨-, ho⟩
  · obtain ⟨hpaid, hb, hh⟩ := release_side ho side
    rw [hpaid, hb, hh, Amount.toNat_sub]
    omega
  · obtain ⟨hpaid, hb, hh⟩ := redeem_side ho side
    rw [hb, hh, Amount.toNat_sub]
    omega

end Withdrawal

/-! ### The store -/

namespace Store

/-- **Every pool holds what was paid into it, less what was paid out of it.** -/
structure Funded (s : Store) (paidIn paidOut : Asset → PoolSide → Nat) : Prop where
  keyed : s.Keyed
  tied : ∀ side : PoolSide, s.Tied side.pending
  funds : ∀ a side, paidIn a.layer1 side =
    (Ledger.poolFor s a).funds side + paidOut a.layer1 side

namespace Funded

variable {s : Store} {paidIn paidOut : Asset → PoolSide → Nat}

theorem empty : Funded .empty (fun _ _ => 0) fun _ _ => 0 where
  keyed := .empty
  tied side := .empty side.pending
  funds a side := by
    rw [Ledger.poolFor, show Store.empty.pool? a = none from rfl, Option.getD_none,
      Pool.funds_empty]

/-- An operation on a pool and one of its providers: so much came in, so much went out. -/
theorem setBoth (hf : s.Funded paidIn paidOut) {asset : Asset} (ha : asset.layer1 = asset)
    {owner : Address} {pool' : Pool} {provider' : Provider} {b : PoolSide → Nat}
    (came went : PoolSide → Nat)
    (hp : pool'.asset = asset) (hv : provider'.key = ⟨asset, owner⟩)
    (hm : ∀ side, MovesTogether (Ledger.poolFor s asset) pool'
      (Ledger.providerFor s asset owner) provider' side.pending (b side))
    (hfunds : ∀ side, pool'.funds side + went side =
      (Ledger.poolFor s asset).funds side + came side) :
    ((s.setPool pool').setProvider provider').Funded
      (fun a side => paidIn a side + if asset = a then came side else 0)
      fun a side => paidOut a side + if asset = a then went side else 0 := by
  refine ⟨(hf.keyed.setPool pool').setProvider provider',
    fun side => (hf.tied side).setBoth hf.keyed ha hp hv (hm side), fun a side => ?_⟩
  rw [poolFor_setBoth s hp, hf.funds a side]
  by_cases he : asset = a.layer1
  · rw [if_pos he, if_pos he, if_pos he, ← poolFor_congr s (ha.trans he)]
    have := hfunds side
    omega
  · rw [if_neg he, if_neg he, if_neg he]
    rfl

/-- Storing the pool under which an asset is found, with the same funds. -/
theorem setPool (hf : s.Funded paidIn paidOut) {asset : Asset} {p p' : Pool}
    (hp : s.pool? asset = some p) (ha : p'.asset = p.asset)
    (hh : ∀ side : PoolSide, p'.held side.pending = p.held side.pending)
    (hfunds : ∀ side, p'.funds side = p.funds side) : (s.setPool p').Funded paidIn paidOut := by
  have hkey : p'.asset = asset.layer1 := ha.trans (hf.keyed.asset_of_pool? hp)
  have hfind : s.pools.find? p'.asset = some p := hkey ▸ hp
  refine ⟨hf.keyed.setPool p', fun side => (hf.tied side).setPool hfind (hh side), fun a side => ?_⟩
  rw [hf.funds a side, Ledger.poolFor, Ledger.poolFor, pool?_setPool]
  by_cases he : a.layer1 = p'.asset
  · rw [if_pos he, show s.pool? a = some p by rw [Store.pool?, he]; exact hfind, Option.getD_some,
      Option.getD_some, hfunds]
  · rw [if_neg he]

/-- A supply is no fund. -/
theorem setSupply (hf : s.Funded paidIn paidOut) (asset : Asset) (supply : Amount) :
    (s.setSupply asset supply).Funded paidIn paidOut :=
  ⟨hf.keyed.setSupply asset supply, fun side => (hf.tied side).congr rfl rfl, hf.funds⟩

variable {l l' : Ledger} {asset : Asset} {owner : Address}

theorem deposit (hf : l.store.Funded paidIn paidOut) {d : Deposit} {o : Deposit.Outcome}
    (ho : l.deposit asset owner d = .ok (l', o))
    (hfit : ∀ side, paidIn asset side + (d.amount side).toNat < Amount.bound) :
    l'.store.Funded (fun a side => paidIn a side + if asset = a then (d.amount side).toNat else 0)
      paidOut := by
  obtain ⟨ha, happly, hpool, hkey, hstore⟩ := Ledger.deposit_records hf.keyed ho
  -- nothing exceeds what was paid in
  have hroom : ∀ side, (Ledger.poolFor l.store asset).funds side + (d.amount side).toNat <
      Amount.bound := fun side => by
    have hin := hf.funds asset side
    rw [ha] at hin
    have := hfit side
    omega
  have hle := fun side : PoolSide => (hf.tied side).held_le hf.keyed ha owner
  have hset := hf.setBoth ha (fun side => (d.amount side).toNat) (fun _ => 0) hpool hkey
    (fun side => Deposit.movesTogether happly side.pending (hle side) ?_)
    (fun side => Deposit.funds_apply happly side (hle side) (hroom side))
  · rw [hstore]
    simpa only [ite_self, Nat.add_zero] using hset
  · have := hroom side
    rw [Pool.funds] at this
    rw [Deposit.brings_pending]
    omega

theorem withdraw (hf : l.store.Funded paidIn paidOut) {w : Withdrawal} {config : Config}
    {o : Withdrawal.Outcome} (ho : l.withdraw asset owner w config = .ok (l', o)) :
    l'.store.Funded paidIn
      fun a side => paidOut a side + if asset.layer1 = a then (o.paid side).toNat else 0 := by
  obtain ⟨happly, hpool, hkey, hstore⟩ := Ledger.withdraw_records hf.keyed ho
  have hle := fun side : PoolSide => (hf.tied side).held_le hf.keyed asset.layer1_layer1 owner
  have hset := hf.setBoth asset.layer1_layer1 (fun _ => 0) (fun side => (o.paid side).toNat) hpool hkey
    (fun side => Withdrawal.movesTogether happly side.pending (hle side))
    (fun side => Withdrawal.funds_apply happly side (hle side))
  rw [hstore]
  simpa only [ite_self, Nat.add_zero] using hset

theorem setStatus (hf : l.store.Funded paidIn paidOut) {status : PoolStatus} {p : Pool}
    (ho : l.setStatus asset status = .ok (l', p)) : l'.store.Funded paidIn paidOut := by
  obtain ⟨pool, hpool, hstore | hstore⟩ := Ledger.setStatus_inv ho
  · rw [hstore]; exact hf
  · rw [hstore]
    refine hf.setPool hpool rfl (fun side => ?_) fun side => ?_
    · cases side <;> rfl
    · cases side <;> rfl

end Funded

end Store

/-! ### Runs -/

/-- A call to the ledger, or a change of a synthetic supply. -/
def Action.IsLedger : Action → Prop
  | .deposit .. | .withdraw .. | .setStatus .. | .setSupply .. => True
  | .setPool _ | .accept _ | .endBlock _ => False

/-- What an action of the ledger does, write by write. -/
def Action.procedure : Action → Procedure Ledger Unit
  | .deposit asset owner d => discard (Ledger.depositing asset owner d)
  | .withdraw asset owner w config => discard (Ledger.withdrawing asset owner w config)
  | .setStatus asset status => discard (Ledger.settingStatus asset status)
  | .setSupply asset supply => Ledger.write (·.setSupply asset supply)
  | .setPool pool => Ledger.write (·.setPool pool)
  | .accept _ | .endBlock _ => pure ()

namespace Exchange

/-- What an action pays out of a pool: something only if it is a withdrawal that succeeds. -/
def pays (x : Exchange) (a : Action) (pool : Asset) (side : PoolSide) : Nat :=
  match a with
  | .withdraw asset owner w config =>
    match x.ledger.withdraw asset owner w config with
    | .ok (_, o) => if asset.layer1 = pool then (o.paid side).toNat else 0
    | .error _ => 0
  | _ => 0

/-- What a run pays out of a pool. -/
def outflow (x : Exchange) : List Action → Asset → PoolSide → Nat
  | [], _, _ => 0
  | a :: actions, pool, side => x.pays a pool side + (x.act a).outflow actions pool side

variable {x : Exchange} {paidIn paidOut : Asset → PoolSide → Nat}

/-- **Every action of the ledger keeps the pools funded.** -/
theorem funded_act (hf : x.store.Funded paidIn paidOut) {a : Action} (ha : a.IsLedger)
    (hfit : ∀ pool side, paidIn pool side + x.brings a pool (PoolSide.pending side) <
      Amount.bound) :
    (x.act a).store.Funded (fun pool side => paidIn pool side + x.brings a pool side.pending)
      fun pool side => paidOut pool side + x.pays a pool side := by
  cases a with
  | deposit asset owner d =>
      cases ho : x.ledger.deposit asset owner d with
      | ok out =>
          obtain ⟨l, o⟩ := out
          simp only [brings, ho, Deposit.brings_pending] at hfit
          simp only [act, pays, brings, ho, Deposit.brings_pending]
          refine hf.deposit ho fun side => ?_
          have hasset := hfit asset side
          rw [if_pos rfl] at hasset
          exact hasset
      | error e =>
          simp only [act, pays, brings, ho]
          exact hf
  | withdraw asset owner w config =>
      cases ho : x.ledger.withdraw asset owner w config with
      | ok out =>
          simp only [act, pays, brings, ho]
          exact hf.withdraw ho
      | error e =>
          simp only [act, pays, brings, ho]
          exact hf
  | setStatus asset status =>
      cases ho : x.ledger.setStatus asset status with
      | ok out =>
          simp only [act, pays, brings, ho]
          exact hf.setStatus ho
      | error e =>
          simp only [act, pays, brings, ho]
          exact hf
  | setSupply asset supply => exact hf.setSupply asset supply
  | setPool | accept | endBlock => exact ha.elim

theorem funded_run (hf : x.store.Funded paidIn paidOut) {actions : List Action}
    (hledger : ∀ a ∈ actions, a.IsLedger)
    (hfit : ∀ pool side, paidIn pool side + x.inflow actions pool (PoolSide.pending side) <
      Amount.bound) :
    (x.run actions).store.Funded
      (fun pool side => paidIn pool side + x.inflow actions pool side.pending)
      fun pool side => paidOut pool side + x.outflow actions pool side := by
  induction actions generalizing x paidIn paidOut with
  | nil => exact hf
  | cons a actions ih =>
      simp only [inflow, ← Nat.add_assoc] at hfit
      have hact := funded_act hf (hledger a List.mem_cons_self) fun pool side =>
        Nat.lt_of_le_of_lt (Nat.le_add_right _ _) (hfit pool side)
      simp only [inflow, outflow, ← Nat.add_assoc]
      exact ih hact (fun b hb => hledger b (List.mem_cons_of_mem _ hb)) hfit

/-- What an operation of the ledger has written is the ledger after the action; one that fails has
written nothing. -/
theorem run_procedure (x : Exchange) {a : Action} (ha : a.IsLedger) :
    match a.procedure.run x.ledger with
    | .ok _ l => x.act a = ⟨x.queue, l⟩
    | .error _ l => l = x.ledger ∧ x.act a = x := by
  cases a with
  | deposit asset owner d =>
      simp only [Action.procedure, Procedure.run_discard (Ledger.run_depositing ..), act]
      cases x.ledger.deposit asset owner d with
      | ok out => rfl
      | error e => exact ⟨rfl, rfl⟩
  | withdraw asset owner w config =>
      simp only [Action.procedure, Procedure.run_discard (Ledger.run_withdrawing ..), act]
      cases x.ledger.withdraw asset owner w config with
      | ok out => rfl
      | error e => exact ⟨rfl, rfl⟩
  | setStatus asset status =>
      simp only [Action.procedure, Procedure.run_discard (Ledger.run_settingStatus ..), act]
      cases x.ledger.setStatus asset status with
      | ok out => rfl
      | error e => exact ⟨rfl, rfl⟩
  | setSupply asset supply => rfl
  | setPool | accept | endBlock => exact ha.elim

/-- **Funds are conserved.**  After any run of deposits, withdrawals, changes of status and changes
of supplies from nothing, whose deposits on each side of each pool add up to an amount: on each side
of each pool what was deposited is the balance, what is pending and what was paid out.  An operation
that fails leaves the store and the events as they were. -/
theorem funds_conserved (config : Config) (actions : List Action)
    (hledger : ∀ a ∈ actions, a.IsLedger)
    (hfit : ∀ pool side, (empty config).inflow actions pool (PoolSide.pending side) <
      Amount.bound) :
    let x := (empty config).run actions
    (∀ (asset : Asset) (side : PoolSide),
        let pool := Ledger.poolFor x.store asset
        (empty config).inflow actions asset.layer1 side.pending =
          (pool.balance side).toNat + (pool.held side.pending).toNat +
            (empty config).outflow actions asset.layer1 side) ∧
      ∀ a : Action, a.IsLedger →
        match a.procedure.run x.ledger with
        | .ok _ l => x.act a = ⟨x.queue, l⟩
        | .error _ l => l = x.ledger ∧ x.act a = x := by
  intro x
  have hf := funded_run (x := empty config) Store.Funded.empty hledger fun pool side => by
    rw [Nat.zero_add]
    exact hfit pool side
  refine ⟨fun asset side => ?_, fun a => run_procedure x⟩
  have hfunds := hf.funds asset side
  simp only [Nat.zero_add] at hfunds
  exact hfunds

/-- Two halves that wait for each other, another provider's half that is taken back, a redemption
on one side, and a refused one. -/
def halvesAndExits : List Action :=
  let btc : Asset := ⟨"BTC", "BTC", .layer1⟩
  [.deposit btc ⟨"alice"⟩ ⟨5000000000, 0, ⟨"01"⟩, true, 1⟩,
    .deposit btc ⟨"alice"⟩ ⟨0, 4000000000, ⟨"02"⟩, true, 2⟩,
    .setSupply btc 1000000000,
    .setStatus btc .available,
    .deposit btc ⟨"bob"⟩ ⟨0, 70000, ⟨"03"⟩, true, 3⟩,
    .withdraw btc ⟨"bob"⟩ ⟨10000, .both, 4⟩ {},
    .withdraw btc ⟨"alice"⟩ ⟨3333, .nativeOnly, 4⟩ {},
    .withdraw btc ⟨"carol"⟩ ⟨5000, .both, 5⟩ {}]

theorem funds_conserved_halvesAndExits :
    (∀ a ∈ halvesAndExits, a.IsLedger) ∧
      (∀ pool side, (empty {}).inflow halvesAndExits pool (PoolSide.pending side) <
        Amount.bound) ∧
      let x := (empty {}).run halvesAndExits
      (∀ (asset : Asset) (side : PoolSide),
          let pool := Ledger.poolFor x.store asset
          (empty {}).inflow halvesAndExits asset.layer1 side.pending =
            (pool.balance side).toNat + (pool.held side.pending).toNat +
              (empty {}).outflow halvesAndExits asset.layer1 side) ∧
        ∀ a : Action, a.IsLedger →
          match a.procedure.run x.ledger with
          | .ok _ l => x.act a = ⟨x.queue, l⟩
          | .error _ l => l = x.ledger ∧ x.act a = x := by
  have hledger : ∀ a ∈ halvesAndExits, a.IsLedger := by
    simp [halvesAndExits, Action.IsLedger]
  have hfit : ∀ pool side, (empty {}).inflow halvesAndExits pool (PoolSide.pending side) <
      Amount.bound := by
    intro pool side
    by_cases hp : pool = ⟨"BTC", "BTC", .layer1⟩
    · subst hp
      cases side <;> decide +kernel
    · rw [inflow_eq_zero (by simp [halvesAndExits, hp])]
      exact Amount.bound_pos
  exact ⟨hledger, hfit, funds_conserved {} halvesAndExits hledger hfit⟩

/-- What was paid and what is left: 5000000000 native came in, and 4000070000 of the asset. -/
example : ((empty {}).run halvesAndExits).store.pools.values.map
    (fun p => [p.funds .native, p.funds .asset]) = [[2810126922, 4000000000]] ∧
    (empty {}).outflow halvesAndExits ⟨"BTC", "BTC", .layer1⟩ .native = 2189873078 ∧
    (empty {}).outflow halvesAndExits ⟨"BTC", "BTC", .layer1⟩ .asset = 70000 := by
  decide +kernel

end Exchange

end PoolExchange
