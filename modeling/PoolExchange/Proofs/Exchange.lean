import PoolExchange.Proofs.Ledger.Liquidity
import PoolExchange.Proofs.Queue.Effects

/-!
# Exchange — everything that can happen, in any order

An `Exchange` is the queue with the ledger it works on.  An `Action` is one call from outside: a
deposit, a withdrawal, a change of a pool's status, of a supply or of a pool as a whole, a swap
offered to the queue, or the end of a block, run with the pools' handler.  An action that fails
leaves the exchange as it was (`act`), a run is its actions one after the other (`run`), and the
journal of a run is that of its blocks.
-/

namespace PoolExchange

@[ext]
structure Exchange where
  queue : SwapQueue
  ledger : Ledger

/-- A call from outside. -/
inductive Action
  | deposit (asset : Asset) (owner : Address) (deposit : Deposit)
  | withdraw (asset : Asset) (owner : Address) (withdrawal : Withdrawal) (config : Config)
  | setStatus (asset : Asset) (status : PoolStatus)
  | setSupply (asset : Asset) (supply : Amount)
  /-- Puts a pool in place, whatever was there. -/
  | setPool (pool : Pool)
  | accept (swap : Swap)
  | endBlock (height : Nat)

namespace Exchange

/-- Nothing stored, nothing queued. -/
def empty (config : Config) : Exchange := ⟨⟨config, []⟩, ⟨.empty, []⟩⟩

def store (x : Exchange) : Store := x.ledger.store

def act (x : Exchange) : Action → Exchange
  | .deposit asset owner d =>
    match x.ledger.deposit asset owner d with
    | .ok (l, _) => ⟨x.queue, l⟩
    | .error _ => x
  | .withdraw asset owner w config =>
    match x.ledger.withdraw asset owner w config with
    | .ok (l, _) => ⟨x.queue, l⟩
    | .error _ => x
  | .setStatus asset status =>
    match x.ledger.setStatus asset status with
    | .ok (l, _) => ⟨x.queue, l⟩
    | .error _ => x
  | .setSupply asset supply => ⟨x.queue, x.ledger.withStore (x.store.setSupply asset supply)⟩
  | .setPool pool => ⟨x.queue, x.ledger.withStore (x.store.setPool pool)⟩
  | .accept swap =>
    match x.queue.accept x.store swap with
    | .ok (q, s) => ⟨q, x.ledger.withStore s⟩
    | .error _ => x
  | .endBlock height =>
    let out := SwapQueue.endBlock .pools x.queue height () x.ledger
    ⟨out.1, out.2.ledger⟩

def run (x : Exchange) (actions : List Action) : Exchange := actions.foldl act x

@[simp] theorem run_nil (x : Exchange) : x.run [] = x := rfl

@[simp] theorem run_cons (x : Exchange) (a : Action) (actions : List Action) :
    x.run (a :: actions) = (x.act a).run actions := rfl

theorem run_append (x : Exchange) (before after : List Action) :
    x.run (before ++ after) = (x.run before).run after :=
  List.foldl_append

/-! ### The journal of a run -/

/-- What an action does for the queued swaps. -/
def entries (x : Exchange) : Action → List Entry
  | .endBlock height => SwapQueue.journal .pools x.queue height () x.ledger
  | _ => []

/-- What a run does for the queued swaps. -/
def journal : Exchange → List Action → List Entry
  | _, [] => []
  | x, a :: actions => x.entries a ++ (x.act a).journal actions

/-- No action changes the configuration. -/
theorem config_act (x : Exchange) (a : Action) : (x.act a).queue.config = x.queue.config := by
  cases a with
  | deposit | withdraw | setStatus => simp only [act]; split <;> rfl
  | setSupply | setPool => rfl
  | accept swap =>
      simp only [act]
      split
      · rename_i q s ho
        obtain ⟨w, -, -, -, rfl, -⟩ := SwapQueue.accept_inv ho
        rfl
      · rfl
  | endBlock height =>
      show (SwapQueue.endBlock .pools x.queue height () x.ledger).1.config = _
      rw [SwapQueue.endBlock]
      split <;> rfl

/-! ### What an action stores -/

/-- A deposit that fails stores nothing. -/
theorem store_deposit_cases (x : Exchange) (asset : Asset) (owner : Address) (d : Deposit) :
    (x.act (.deposit asset owner d)).store = x.store ∨
      ∃ o, asset.isNative = false ∧ asset.layer1 = asset ∧
        d.apply (Ledger.poolFor x.store asset)
          (Ledger.providerFor x.store (Ledger.poolFor x.store asset).asset owner)
          (x.store.supply (Ledger.poolFor x.store asset).asset) = .ok o ∧
        (x.act (.deposit asset owner d)).store =
          (x.store.setPool o.pool).setProvider o.provider := by
  simp only [act]
  split
  · rename_i l o ho
    obtain ⟨hn, hl, happly, hstore⟩ := Ledger.deposit_inv ho
    exact .inr ⟨o, hn, hl, happly, hstore⟩
  · exact .inl rfl

/-- Neither does a withdrawal. -/
theorem store_withdraw_cases (x : Exchange) (asset : Asset) (owner : Address) (w : Withdrawal)
    (config : Config) :
    (x.act (.withdraw asset owner w config)).store = x.store ∨
      ∃ pool provider o, x.store.pool? asset = some pool ∧
        x.store.provider? pool.asset owner = some provider ∧
        w.apply pool provider (x.store.supply pool.asset) config = .ok o ∧
        (x.act (.withdraw asset owner w config)).store =
          (x.store.setPool o.pool).setProvider o.provider := by
  simp only [act]
  split
  · rename_i l o ho
    obtain ⟨pool, provider, hp, hv, happly, hstore⟩ := Ledger.withdraw_inv ho
    exact .inr ⟨pool, provider, o, hp, hv, happly, hstore⟩
  · exact .inl rfl

theorem store_setStatus_cases (x : Exchange) (asset : Asset) (status : PoolStatus) :
    (x.act (.setStatus asset status)).store = x.store ∨
      ∃ pool, x.store.pool? asset = some pool ∧
        (x.act (.setStatus asset status)).store =
          x.store.setPool { pool with status := status } := by
  simp only [act]
  split
  · rename_i l o ho
    obtain ⟨pool, hp, hstore | hstore⟩ := Ledger.setStatus_inv ho
    · exact .inl hstore
    · exact .inr ⟨pool, hp, hstore⟩
  · exact .inl rfl

/-- A swap that is refused is not stored. -/
theorem store_accept_cases (x : Exchange) (swap : Swap) :
    (x.act (.accept swap)).store = x.store ∨
      ∃ w, x.store.swap? swap.key = none ∧ x.queue.prepare x.store swap = .ok w ∧
        (x.act (.accept swap)).store = SwapQueue.enter x.store w := by
  simp only [act]
  split
  · rename_i q s ho
    obtain ⟨w, -, hnew, hprepare, -, rfl⟩ := SwapQueue.accept_inv ho
    exact .inr ⟨w, hnew, hprepare, rfl⟩
  · exact .inl rfl

/-! ### Records under their keys -/

/-- **Every action keeps every record under its own key.** -/
theorem keyed_act {x : Exchange} (hx : x.store.Keyed) (a : Action) : (x.act a).store.Keyed := by
  cases a with
  | deposit asset owner d =>
      rcases x.store_deposit_cases asset owner d with h | ⟨o, -, -, -, h⟩ <;> rw [h]
      · exact hx
      · exact (hx.setPool _).setProvider _
  | withdraw asset owner w config =>
      rcases x.store_withdraw_cases asset owner w config with h | ⟨_, _, o, -, -, -, h⟩ <;> rw [h]
      · exact hx
      · exact (hx.setPool _).setProvider _
  | setStatus asset status =>
      rcases x.store_setStatus_cases asset status with h | ⟨pool, -, h⟩ <;> rw [h]
      · exact hx
      · exact hx.setPool _
  | setSupply asset supply => exact hx.setSupply asset supply
  | setPool pool => exact hx.setPool pool
  | accept swap =>
      rcases x.store_accept_cases swap with h | ⟨w, -, -, h⟩ <;> rw [h]
      · exact hx
      · exact SwapQueue.keyed_enter hx w
  | endBlock height =>
      exact SwapQueue.keyed_endBlock Handler.pools_keepsKeys x.queue height () x.ledger hx

theorem keyed_run {x : Exchange} (hx : x.store.Keyed) (actions : List Action) :
    (x.run actions).store.Keyed := by
  induction actions generalizing x with
  | nil => exact hx
  | cons a actions ih => exact ih (keyed_act hx a)

end Exchange

end PoolExchange
