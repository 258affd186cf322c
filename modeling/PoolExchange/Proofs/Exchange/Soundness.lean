import Mathlib.Data.List.Infix
import PoolExchange.Proofs.Exchange
import PoolExchange.Proofs.Queue.Soundness

/-!
# Exchange — which runs keep the pools sound

Deposits, withdrawals, changes of status and new swaps keep a sound store sound, and a block does so
exactly when no entry of its journal drains a pool.  So the pools are sound in every state of a run
exactly when nothing in its journal drains one (`pools_sound_iff`).

A run that leaves the pools unsound contains one of two things: a leg priced at scaled depths that
pays out all that is on its output side, or a payment in the asset of a pool that holds no more
native than the outbound fee (`exists_exhausts_of_unsound`).

A journal does contain such entries: giving back a coin that is worth more than a thin pool takes
the whole native side of that pool as the fee (`pools_unsound_thin`).
-/

namespace PoolExchange

/-- The action goes through the ledger or the queue, and not to the store directly. -/
def Action.IsOperation : Action → Prop
  | .setSupply .. | .setPool _ => False
  | _ => True

theorem Store.Founded.empty : Store.Founded .empty := ⟨.empty, fun _ _ => rfl⟩

theorem Store.Sound.empty : Store.Sound .empty := fun _ hp => absurd hp List.not_mem_nil

/-- Pools under layer-1 assets may be put in place. -/
theorem Store.Founded.setPool {s : Store} (hs : s.Founded) {p : Pool}
    (hp : p.asset.layer1 = p.asset) : (s.setPool p).Founded := by
  refine ⟨hs.keyed.setPool p, fun k hk => ?_⟩
  have hne : k ≠ p.asset := by
    rintro rfl
    exact hk hp
  rw [find?_setPool, if_neg hne]
  exact hs.layer1 k hk

theorem Store.Founded.setProvider {s : Store} (hs : s.Founded) (v : Provider) :
    (s.setProvider v).Founded :=
  ⟨hs.keyed.setProvider v, hs.layer1⟩

/-- A stored pool is sound in a sound store, and an empty one in any. -/
theorem Ledger.sound_poolFor {s : Store} (hs : s.Keyed) (h : s.Sound) (asset : Asset) :
    (poolFor s asset).Sound (s.supply (poolFor s asset).asset) := by
  rw [poolFor]
  cases hp : s.pool? asset with
  | none => exact Pool.sound_of_lpUnits rfl
  | some p =>
      rw [Option.getD_some, hs.asset_of_pool? hp]
      exact hs.sound_iff.mp h asset.layer1 p hp

namespace Exchange

variable {x : Exchange} {a : Action}

theorem founded_act (hx : x.store.Founded) (ha : a.IsOperation) : (x.act a).store.Founded := by
  cases a with
  | deposit asset owner d =>
      rcases x.store_deposit_cases asset owner d with h | ⟨o, -, -, happly, h⟩ <;> rw [h]
      · exact hx
      · refine (hx.setPool ?_).setProvider _
        rw [(Deposit.apply_keys happly).1, Ledger.asset_poolFor hx.keyed asset]
        rfl
  | withdraw asset owner w config =>
      rcases x.store_withdraw_cases asset owner w config with
        h | ⟨pool, _, o, hp, -, happly, h⟩ <;> rw [h]
      · exact hx
      · refine (hx.setPool ?_).setProvider _
        rw [(Withdrawal.apply_keys happly).1, hx.keyed.asset_of_pool? hp]
        rfl
  | setStatus asset status =>
      rcases x.store_setStatus_cases asset status with h | ⟨pool, hp, h⟩ <;> rw [h]
      · exact hx
      · refine hx.setPool ?_
        rw [show pool.asset = asset.layer1 from hx.keyed.asset_of_pool? hp]
        rfl
  | setSupply asset supply => cases ha
  | setPool pool => cases ha
  | accept swap =>
      rcases x.store_accept_cases swap with h | ⟨w, -, -, h⟩ <;> rw [h]
      · exact hx
      · refine ⟨SwapQueue.keyed_enter hx.keyed w, fun k hk => ?_⟩
        rw [(SwapQueue.frame_enter x.store w).1]
        exact hx.layer1 k hk
  | endBlock height => exact SwapQueue.founded_endBlock x.queue height hx

/-- **Only a block can make a sound store unsound.** -/
theorem sound_act_of_operation (hx : x.store.Founded) (hsound : x.store.Sound)
    (ha : a.IsOperation) (hblock : ∀ height, a ≠ .endBlock height) : (x.act a).store.Sound := by
  cases a with
  | deposit asset owner d =>
      rcases x.store_deposit_cases asset owner d with h | ⟨o, -, -, happly, h⟩ <;> rw [h]
      · exact hsound
      · have hpool := Deposit.sound_apply (Ledger.sound_poolFor hx.keyed hsound asset) happly
        rw [← (Deposit.apply_keys happly).1] at hpool
        exact hsound.setPool hx.keyed hpool
  | withdraw asset owner w config =>
      rcases x.store_withdraw_cases asset owner w config with
        h | ⟨pool, _, o, hp, -, happly, h⟩ <;> rw [h]
      · exact hsound
      · have hpool := Withdrawal.sound_apply
          (hsound pool (OrderedMap.mem_values_of_find? hp)) happly
        rw [← (Withdrawal.apply_keys happly).1] at hpool
        exact hsound.setPool hx.keyed hpool
  | setStatus asset status =>
      rcases x.store_setStatus_cases asset status with h | ⟨pool, hp, h⟩ <;> rw [h]
      · exact hsound
      · have hpool : pool.Sound (x.store.supply pool.asset) :=
          hsound pool (OrderedMap.mem_values_of_find? hp)
        exact hsound.setPool hx.keyed (hpool.congr rfl rfl rfl)
  | setSupply asset supply => cases ha
  | setPool pool => cases ha
  | accept swap =>
      rcases x.store_accept_cases swap with h | ⟨w, -, -, h⟩ <;> rw [h]
      · exact hsound
      · obtain ⟨hpools, -, hsupplies, -⟩ := SwapQueue.frame_enter x.store w
        rw [Store.Sound, hpools]
        simp only [Store.supply, hsupplies]
        exact hsound
  | endBlock height => exact absurd rfl (hblock height)

/-- **An action keeps a sound store sound exactly when it drains no pool.** -/
theorem sound_act_iff (hx : x.store.Founded) (hsound : x.store.Sound) (ha : a.IsOperation) :
    (x.act a).store.Sound ↔ ∀ e ∈ x.entries a, ¬ e.Drains x.queue.config := by
  by_cases hblock : ∃ height, a = .endBlock height
  · obtain ⟨height, rfl⟩ := hblock
    exact (SwapQueue.sound_endBlock_iff x.queue height hx).trans (and_iff_right hsound)
  · have hquiet : x.entries a = [] := by
      cases a with
      | endBlock height => exact absurd ⟨height, rfl⟩ hblock
      | _ => rfl
    rw [hquiet]
    exact iff_of_true
      (sound_act_of_operation hx hsound ha fun height e => hblock ⟨height, e⟩)
      fun e he => absurd he List.not_mem_nil

theorem run_sound_iff (hx : x.store.Founded) (hsound : x.store.Sound) {actions : List Action}
    (hops : ∀ a ∈ actions, a.IsOperation) :
    (∀ before, before <+: actions → (x.run before).store.Sound) ↔
      ∀ e ∈ x.journal actions, ¬ e.Drains x.queue.config := by
  induction actions generalizing x with
  | nil =>
      refine iff_of_true (fun before hb => ?_) fun e he => absurd he List.not_mem_nil
      rw [List.prefix_nil.mp hb]
      exact hsound
  | cons a actions ih =>
      have hact := sound_act_iff hx hsound (hops a List.mem_cons_self)
      have hrest : (x.act a).store.Sound →
          ((∀ before, before <+: actions → ((x.act a).run before).store.Sound) ↔
            ∀ e ∈ (x.act a).journal actions, ¬ e.Drains x.queue.config) := fun hs => by
        rw [← x.config_act a]
        exact ih (founded_act hx (hops a List.mem_cons_self)) hs
          fun b hb => hops b (List.mem_cons_of_mem _ hb)
      simp only [journal, List.mem_append, or_imp, forall_and]
      constructor
      · intro h
        have hs : (x.act a).store.Sound := h [a] (List.prefix_cons_inj a |>.mpr List.nil_prefix)
        exact ⟨hact.mp hs, (hrest hs).mp fun before hb =>
          h (a :: before) ((List.prefix_cons_inj a).mpr hb)⟩
      · rintro ⟨hnow, hlater⟩ before hb
        have hs := hact.mpr hnow
        -- the state before the action, or one after it
        rcases List.prefix_cons_iff.mp hb with rfl | ⟨rest, rfl, hrest'⟩
        · exact hsound
        · exact (hrest hs).mpr hlater rest hrest'

/-- **The pools are sound in every state of a run exactly when nothing in its journal drains
one.** -/
theorem pools_sound_iff (config : Config) (actions : List Action)
    (hops : ∀ a ∈ actions, a.IsOperation) :
    (∀ before, before <+: actions → ((empty config).run before).store.Sound) ↔
      ∀ e ∈ (empty config).journal actions, ¬ e.Drains config :=
  run_sound_iff (x := empty config) .empty .empty hops

/-- **What makes the pools unsound**: a run that leaves them so has an entry that exhausts one, by a
leg at scaled depths or by a payment when the pool holds no more native than the outbound fee. -/
theorem exists_exhausts_of_unsound (config : Config) {actions : List Action}
    (hops : ∀ a ∈ actions, a.IsOperation)
    (h : ¬ ((empty config).run actions).store.Sound) :
    ∃ e ∈ (empty config).journal actions, e.Exhausts config := by
  by_contra hnone
  have hdrains : ∀ e ∈ (empty config).journal actions, ¬ e.Drains config := fun e he hd =>
    hnone ⟨e, he, Entry.exhausts_of_drains hd⟩
  have hsound := (run_sound_iff (x := empty config) .empty .empty hops).mpr hdrains
  exact h (hsound actions (List.prefix_refl actions))

/-- A swap that a new pool does not serve yet is given back at the end of the block. -/
def givenBack (depth : Amount) : List Action :=
  let btc : Asset := ⟨"BTC", "BTC", .layer1⟩
  [.deposit btc ⟨"alice"⟩ ⟨depth, depth, ⟨"01"⟩, false, 1⟩,
    .accept ⟨⟨"02"⟩, 0, ⟨"bob"⟩, ⟨btc, 3000000⟩, .native, ⟨"bob"⟩, 0, .market, 0, 0, none, 1⟩,
    .endBlock 1]

theorem pools_sound_iff_deep :
    (∀ a ∈ givenBack 100000000, a.IsOperation) ∧
      ∀ e ∈ (empty {}).journal (givenBack 100000000), ¬ e.Drains {} := by
  have hops : ∀ a ∈ givenBack 100000000, a.IsOperation := by simp [givenBack, Action.IsOperation]
  have hsound : ∀ before ∈ (givenBack 100000000).inits,
      ((empty {}).run before).store.Sound := by decide +kernel
  exact ⟨hops, (pools_sound_iff {} _ hops).mp fun before hb =>
    hsound before ((List.mem_inits _ _).mpr hb)⟩

/-- The fee on a coin that is given back is worth the whole native side of a thin pool, and the
units of its providers are left with an empty side. -/
theorem pools_unsound_thin :
    (∀ a ∈ givenBack 1000000, a.IsOperation) ∧
      ¬ ((empty {}).run (givenBack 1000000)).store.Sound :=
  ⟨by simp [givenBack, Action.IsOperation], by decide +kernel⟩

end Exchange

end PoolExchange
