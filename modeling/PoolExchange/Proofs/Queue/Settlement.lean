import PoolExchange.Proofs.Queue.Account
import PoolExchange.Proofs.Queue.Arrival
import PoolExchange.Proofs.Queue.Filing
import PoolExchange.Proofs.Queue.History
import PoolExchange.Proofs.Queue.Payments

/-!
# Queue — what becomes of a swap that does not stream

When a swap that does not stream runs, its order is filled, or misses the price of a limit swap, or
fails.  Then it is paid out with its affiliate's share released once, or waits, or gets its source
back (`Ending`, `Swap.EndsBy`): the effects of the run tell which, and whatever the handler answers
there is no fourth (`Journal.endsBy_executeSingle`).

A `Desk` is a queue with its handler at work.  While no pool of native itself is stored a swap runs
at most once in a block, so **each swap of a block that does not stream comes to exactly one
ending** (`Desk.one_ending`), for every confined handler and after whatever calls: the entries of
the block for it are those of the ending, the payments that the block reports are those of its
entries, and the queue and the limit index are as the ending says.  With a pool of native a limit
swap can be sold twice (`Desk.two_endings_native`).
-/

namespace PoolExchange

/-! ### Endings -/

/-- What becomes of a swap that does not stream, when it runs. -/
inductive Ending
  /-- A limit swap that misses its price waits. -/
  | retained
  /-- The whole source is handed back. -/
  | refunded
  /-- The order was filled. -/
  | executed
deriving DecidableEq, Repr

namespace Swap

variable (w : Swap)

/-- The order for all that is swapped. -/
def order : Order := BlockRun.orderOf w w.primaryAmount w.tradeTarget

/-- The affiliate's share of the source. -/
def share : Coin := ⟨w.source.asset, w.affiliateAmount⟩

/-- The effects that release the affiliate's share. -/
inductive Releases : List Effect → Prop
  | nothing (isEmpty : w.affiliateAmount = 0) : Releases []
  /-- Native is paid as it is. -/
  | paid (isShare : w.affiliateAmount ≠ 0) (native : w.source.asset.isNative = true) :
      Releases [.share w.share]
  /-- Anything else is sold for native. -/
  | sold {a : Affiliate} (isShare : w.affiliateAmount ≠ 0)
      (foreign : w.source.asset.isNative = false) (affiliate : w.affiliate = some a) (fill : Fill) :
      Releases [.order .share (BlockRun.affiliateOrder w a w.share) (.ok fill)]
  /-- If that fails, it goes back to the sender. -/
  | returned {a : Affiliate} (isShare : w.affiliateAmount ≠ 0)
      (foreign : w.source.asset.isNative = false) (affiliate : w.affiliate = some a)
      (e : OrderError) :
      Releases [.order .share (BlockRun.affiliateOrder w a w.share) (.error e),
        .refund .share w.share "affiliate fee swap failed"]

/-- The effects of a run that comes to the ending. -/
inductive EndsBy : Ending → List Effect → Prop
  | retained (e : OrderError) (waits : (w.isLimit && e.isTransient) = true) :
      EndsBy .retained [.order .part w.order (.error e), .retain]
  | refunded (e : OrderError) (fails : (w.isLimit && e.isTransient) = false) :
      EndsBy .refunded
        [.order .part w.order (.error e), .refund .part w.source e.message, .drop]
  | executed (fill : Fill) {release : List Effect} (releases : w.Releases release) :
      EndsBy .executed
        (.order .part w.order (.ok fill) :: (release ++ [.outbound fill.emit, .drop]))

/-- How the store stands to the swap after the ending. -/
def StandsAfter (s : Store) : Ending → Prop
  | .retained => s.swap? w.key = some w ∧ w.key ∈ s.bucket (.ofSwap w)
  | .refunded | .executed => s.swap? w.key = none ∧ ∀ b, w.key ∉ s.bucket b

variable {w}

/-- The effects tell the ending. -/
theorem EndsBy.unique {ending ending' : Ending} {effects : List Effect}
    (h : w.EndsBy ending effects) (h' : w.EndsBy ending' effects) : ending = ending' := by
  generalize hsame : effects = effects' at h'
  cases h <;> cases h' <;> first | rfl | simp at hsame

theorem EndsBy.drops_iff {ending : Ending} {effects : List Effect}
    (h : w.EndsBy ending effects) : .drop ∈ effects ↔ ending ≠ .retained := by
  cases h <;> simp

theorem EndsBy.isLimit {effects : List Effect} (h : w.EndsBy .retained effects) :
    w.isLimit = true := by
  cases h with
  | retained e waits => exact (Bool.and_eq_true_iff.mp waits).1

/-- At most one order for the swap has been filled. -/
theorem EndsBy.length_parts_le {ending : Ending} {log : List Entry}
    (h : w.EndsBy ending (log.map Entry.effect)) : (Tally.of log).parts.length ≤ 1 := by
  -- what an entry sells is in its effect
  have hparts : (Tally.of log).parts = (log.map Entry.effect).filterMap fun effect =>
      Entry.part? ⟨w, .empty, effect⟩ := by
    rw [List.filterMap_map]
    rfl
  rw [hparts]
  generalize log.map Entry.effect = effects at h
  cases h with
  | retained e waits => exact Nat.zero_le 1
  | refunded e fails => exact Nat.zero_le 1
  | executed fill releases => cases releases <;> exact Nat.le_refl 1

end Swap

variable {σ : Type} {h : Handler σ}

/-! ### One run -/

namespace Journal

/-- From `j` to `j'` the effects are written down. -/
def Writes (j j' : Journal σ) (effects : List Effect) : Prop :=
  ∃ es, j'.log = j.log ++ es ∧ es.map Entry.effect = effects

theorem Writes.refl (j : Journal σ) : Writes j j [] := ⟨[], (List.append_nil _).symm, rfl⟩

theorem Writes.trans {j j' j'' : Journal σ} {effects effects' : List Effect}
    (h : Writes j j' effects) (h' : Writes j' j'' effects') :
    Writes j j'' (effects ++ effects') := by
  obtain ⟨es, hlog, rfl⟩ := h
  obtain ⟨es', hlog', rfl⟩ := h'
  exact ⟨es ++ es', by rw [hlog', hlog, List.append_assoc], List.map_append⟩

theorem writes_note (j : Journal σ) (w : Swap) (effect : Effect) (r : BlockRun σ) :
    Writes j (j.note w effect r) [effect] := ⟨[_], rfl, rfl⟩

variable (h) (config : Config) (w : Swap) (j : Journal σ)

theorem writes_call (role : Role) (o : Order) :
    Writes j (j.call h config w role o).1 [.order role o (j.call h config w role o).2] :=
  writes_note j w _ _

theorem writes_drop : Writes j (j.drop w) [.drop] := writes_note j w .drop _

theorem writes_pay (coin : Coin) : Writes j (j.pay w coin config) [.outbound coin] :=
  writes_note j w _ _

theorem writes_giveBack (e : OrderError) :
    Writes j (j.giveBack w e config) [.refund .part w.source e.message, .drop] :=
  (writes_note j w (.refund .part w.source e.message) _).trans (writes_drop w _)

/-- The share is released once, whatever the handler answers. -/
theorem releases_releaseAffiliate :
    ∃ effects, Writes j (j.releaseAffiliate h config w) effects ∧ w.Releases effects := by
  rw [releaseAffiliate]
  cases ha : w.affiliate with
  | none =>
      have hzero : w.affiliateAmount = 0 := by rw [Swap.affiliateAmount, ha]
      exact ⟨[], .refl j, .nothing hzero⟩
  | some a =>
      dsimp only
      split
      · rename_i hempty
        exact ⟨[], .refl j, .nothing (Amount.eq_zero_iff.mpr (Amount.isZero_iff.mp hempty))⟩
      · rename_i hempty
        have hshare : w.affiliateAmount ≠ 0 := fun hzero =>
          hempty (Amount.isZero_iff.mpr (Amount.eq_zero_iff.mp hzero))
        split
        · rename_i hnative
          exact ⟨_, writes_note j w (.share w.share) _, .paid hshare hnative⟩
        · rename_i hnative
          have hforeign : w.source.asset.isNative = false := Bool.eq_false_iff.mpr hnative
          have hcall := writes_call h config w j .share (BlockRun.affiliateOrder w a w.share)
          rw [show (⟨w.source.asset, w.affiliateAmount⟩ : Coin) = w.share from rfl]
          split <;> rename_i hout <;> rw [hout] at hcall
          · exact ⟨_, hcall, .sold hshare hforeign ha _⟩
          · exact ⟨_, hcall.trans (writes_note _ w (.refund .share w.share _) _),
              .returned hshare hforeign ha _⟩

/-- **A swap that runs comes to an ending.** -/
theorem endsBy_executeSingle :
    ∃ ending effects, Writes j (j.executeSingle h config w).1 effects ∧
      w.EndsBy ending effects := by
  have hcall := writes_call h config w j .part w.order
  rw [executeSingle, show BlockRun.orderOf w w.primaryAmount w.tradeTarget = w.order from rfl]
  split <;> rename_i hout <;> rw [hout] at hcall
  · rename_i j₁ fill
    obtain ⟨release, hwrites, hrelease⟩ := releases_releaseAffiliate h config w j₁
    have hpaid := hwrites.trans ((writes_pay config w _ fill.emit).trans (writes_drop w _))
    exact ⟨.executed, _, hcall.trans hpaid, .executed fill hrelease⟩
  · rename_i j₁ e
    split
    · rename_i hwaits
      exact ⟨.retained, _, hcall.trans (writes_note j₁ w .retain _), .retained e hwaits⟩
    · rename_i hfails
      exact ⟨.refunded, _, hcall.trans (writes_giveBack config w j₁ e),
        .refunded e (Bool.eq_false_iff.mpr hfails)⟩

end Journal

/-! ### One block -/

namespace Entry

/-- The entries for the swap with the given key. -/
def ofKey (key : SwapKey) (log : List Entry) : List Entry :=
  log.filter fun e => e.swap.key = key

variable {key : SwapKey} {log log' : List Entry}

theorem ofKey_append : ofKey key (log ++ log') = ofKey key log ++ ofKey key log' :=
  List.filter_append ..

theorem ofKey_eq_self (h : ∀ e ∈ log, e.swap.key = key) : ofKey key log = log :=
  List.filter_eq_self.mpr fun e he => decide_eq_true (h e he)

theorem ofKey_eq_nil (h : ∀ e ∈ log, e.swap.key ≠ key) : ofKey key log = [] :=
  List.filter_eq_nil_iff.mpr fun e he => by rw [decide_eq_true_eq]; exact h e he

theorem dropped?_eq_some_iff {e : Entry} :
    e.dropped? = some key ↔ e.effect = .drop ∧ e.swap.key = key := by
  rw [dropped?]
  split
  · rename_i hdrop
    simp only [Option.some.injEq, hdrop, true_and]
  · rename_i hother
    simp only [reduceCtorEq, false_iff, not_and]
    exact fun hdrop => absurd hdrop hother

theorem mem_dropped_iff :
    key ∈ log.filterMap dropped? ↔ .drop ∈ (ofKey key log).map Entry.effect := by
  simp only [List.mem_filterMap, dropped?_eq_some_iff, ofKey, List.mem_map, List.mem_filter,
    decide_eq_true_eq]
  exact exists_congr fun e => by tauto

/-- A swap that is retained is paid nothing. -/
theorem payments_of_retained {w : Swap} (h : w.EndsBy .retained (log.map Entry.effect))
    (config : Config) : log.filterMap (payment? config) = [] := by
  refine List.filterMap_eq_nil_iff.mpr fun e he => ?_
  obtain ⟨err, heffects⟩ : ∃ err, log.map Entry.effect =
      [.order .part w.order (.error err), .retain] := by
    generalize log.map Entry.effect = effects at h
    cases h with
    | retained err => exact ⟨err, rfl⟩
  have heffect := heffects ▸ List.mem_map_of_mem (f := Entry.effect) he
  rw [payment?]
  rcases List.mem_pair.mp heffect with heffect | heffect <;> rw [heffect]

end Entry

namespace SwapQueue

variable (q : SwapQueue) (height : Nat)

/-- When no swap runs twice, the entries for one are those of its run. -/
theorem entries_of_nodup (config : Config) (index : PairIndex) {ws : List Swap}
    (hnodup : (ws.map Swap.key).Nodup) {w : Swap} (hw : w ∈ ws) (acc : Journal σ × List Pair)
    (hacc : acc.1.log = []) :
    ∃ j : Journal σ, (j.execute h config height w).1.log =
      j.log ++ Entry.ofKey w.key (ws.foldl (Journal.step h config height index) acc).1.log := by
  obtain ⟨before, after, rfl⟩ := List.append_of_mem hw
  rw [List.map_append, List.map_cons, List.nodup_append, List.nodup_cons] at hnodup
  obtain ⟨-, ⟨hafter, -⟩, hcross⟩ := hnodup
  obtain ⟨es₁, hlog₁, hes₁, -⟩ := trail_foldl_step h height config index before acc
  obtain ⟨j, hj⟩ : ∃ j, j = before.foldl (Journal.step h config height index) acc := ⟨_, rfl⟩
  obtain ⟨es, hlog, hes, -⟩ : Journal.Grows h config w _ j.1 (j.1.execute h config height w).1 :=
    Journal.grows_execute height rfl
  obtain ⟨es₂, hlog₂, hes₂, -⟩ := trail_foldl_step h height config index after
    (Journal.step h config height index j w)
  have hstep : (Journal.step h config height index j w).1.log = j.1.log ++ es :=
    (Journal.log_step ..).trans hlog
  have hbefore : Entry.ofKey w.key es₁ = [] := Entry.ofKey_eq_nil fun e he =>
    hcross _ (List.mem_map_of_mem (hes₁ e he)) _ List.mem_cons_self
  have hown : Entry.ofKey w.key es = es :=
    Entry.ofKey_eq_self fun e he => congrArg Swap.key (hes e he).1
  have hlast : Entry.ofKey w.key es₂ = [] := Entry.ofKey_eq_nil fun e he hkey =>
    hafter (hkey ▸ List.mem_map_of_mem (f := Swap.key) (hes₂ e he))
  refine ⟨j.1, ?_⟩
  rw [List.foldl_append, List.foldl_cons, ← hj, hlog₂, hstep, Entry.ofKey_append, hlast,
    List.append_nil, Entry.ofKey_append, hown, hj, hlog₁, hacc, List.nil_append, hbefore,
    List.nil_append, ← hj, hlog, hj, hlog₁, hacc, List.nil_append]

/-- **Each swap of a block that does not stream comes to an ending**, when the store is filed and no
pool of native is stored. -/
theorem endsBy_endBlock (hb : h.KeepsBook) (state : σ) {l : Ledger} (hf : l.store.Filed)
    (hk : l.store.Keyed) (hn : l.store.pools.find? .native = none)
    (hr : rests q.config height = false) {w : Swap} (hw : w ∈ q.agenda l.store height)
    (hs : w.isStreaming = false) :
    ∃ ending, w.EndsBy ending
        ((Entry.ofKey w.key (q.journal h height state l)).map Entry.effect) ∧
      w.StandsAfter (endBlock h q height state l).2.ledger.store ending := by
  have hi : l.store.Indexed := hf.indexed.of_book hk hn
  have hjournal : q.journal h height state l = (q.runBlock h height state l).1.log := by
    rw [journal, hr, if_neg Bool.false_ne_true]
  obtain ⟨j, hlog⟩ := entries_of_nodup (h := h) height q.config (PairIndex.ofStore l.store)
    (q.nodup_agenda height hi) hw (⟨q.openBlock height state l, []⟩, []) rfl
  obtain ⟨ending, effects, ⟨es, hlog', rfl⟩, hends⟩ :=
    Journal.endsBy_executeSingle h q.config w j
  rw [Journal.execute, if_neg (Bool.eq_false_iff.mp hs), hlog'] at hlog
  have hown : Entry.ofKey w.key (q.journal h height state l) = es :=
    hjournal ▸ (List.append_cancel_left hlog).symm
  refine ⟨ending, hown ▸ hends, ?_⟩
  have hfiled : (endBlock h q height state l).2.ledger.store.Filed :=
    q.filed_endBlock height hb state hf
  -- the swap has left the queue if one of its entries takes it out
  have hqueue : (endBlock h q height state l).2.ledger.store.swap? w.key =
      if ending = .retained then some w else none := by
    have hdropped : w.key ∈ (q.journal h height state l).filterMap Entry.dropped? ↔ _ :=
      Entry.mem_dropped_iff
    rw [hown, hends.drops_iff] at hdropped
    rw [q.swap?_endBlock height hb, q.swap?_of_mem_agenda height hf hw]
    simp only [hdropped, ne_eq, ite_not]
  have hgone : ending ≠ .retained →
      (endBlock h q height state l).2.ledger.store.swap? w.key = none ∧
        ∀ b, w.key ∉ (endBlock h q height state l).2.ledger.store.bucket b := by
    intro hending
    rw [if_neg hending] at hqueue
    refine ⟨hqueue, fun b hk => ?_⟩
    obtain ⟨v, hv, -⟩ := hfiled.entry hk
    rw [hqueue] at hv
    cases hv
  cases ending with
  | retained => exact ⟨hqueue, hfiled.placed _ w hqueue hends.isLimit⟩
  | refunded => exact hgone (by decide)
  | executed => exact hgone (by decide)

end SwapQueue

/-! ### A queue at work -/

/-- A queue with its handler at work, and the ledger. -/
structure Desk (σ : Type) where
  queue : SwapQueue
  handler : σ
  ledger : Ledger

/-- A call to the queue. -/
inductive Request
  | accept (swap : Swap)
  | endBlock (height : Nat)

namespace Desk

/-- The desk after a call; a swap that is refused leaves it as it was. -/
def serve (h : Handler σ) (d : Desk σ) : Request → Desk σ
  | .accept w =>
    match d.queue.accept d.ledger.store w with
    | .ok (q, s) => ⟨q, d.handler, d.ledger.withStore s⟩
    | .error _ => d
  | .endBlock height =>
    let out := SwapQueue.endBlock h d.queue height d.handler d.ledger
    ⟨out.1, out.2.handler, out.2.ledger⟩

def run (h : Handler σ) (d : Desk σ) (requests : List Request) : Desk σ :=
  requests.foldl (serve h) d

/-- **A confined handler keeps the store filed**, and every record under its own key. -/
theorem filed_serve (hc : h.Confined) {d : Desk σ} (hf : d.ledger.store.Filed)
    (hk : d.ledger.store.Keyed) (r : Request) :
    (d.serve h r).ledger.store.Filed ∧ (d.serve h r).ledger.store.Keyed := by
  cases r with
  | accept w =>
      simp only [serve]
      split
      · rename_i q s ho
        refine ⟨SwapQueue.filed_accept hf ho, ?_⟩
        obtain ⟨v, -, -, -, -, rfl⟩ := SwapQueue.accept_inv ho
        exact SwapQueue.keyed_enter hk v
      · exact ⟨hf, hk⟩
  | endBlock height =>
      exact ⟨d.queue.filed_endBlock height hc.keepsBook d.handler hf,
        SwapQueue.keyed_endBlock hc.keepsKeys d.queue height d.handler d.ledger hk⟩

theorem filed_run (hc : h.Confined) {d : Desk σ} (hf : d.ledger.store.Filed)
    (hk : d.ledger.store.Keyed) (requests : List Request) :
    (d.run h requests).ledger.store.Filed ∧ (d.run h requests).ledger.store.Keyed := by
  induction requests generalizing d with
  | nil => exact ⟨hf, hk⟩
  | cons r requests ih =>
      obtain ⟨hf', hk'⟩ := filed_serve hc hf hk r
      exact ih hf' hk'

/-- **Each swap of a block that does not stream comes to exactly one ending.**  Let a queue with a
confined handler have served any calls, from a ledger with nothing queued.  The payments that its
next block reports are those of its entries.  If no pool of native is stored when the block begins,
then for every swap of it that does not stream the share and what is swapped are the whole source,
and one ending, and no other, has the effects of the swap's entries; the queue and the limit index
are then as that ending says, and a swap that is retained is paid nothing. -/
theorem one_ending (hc : h.Confined) {d : Desk σ} (hs : d.ledger.store.Keyed)
    (hqueue : d.ledger.store.queue = .empty) (hlimits : d.ledger.store.limits = .empty)
    (requests : List Request) (height : Nat) :
    let x := d.run h requests
    let l := (SwapQueue.endBlock h x.queue height x.handler x.ledger).2.ledger
    let entries := x.queue.journal h height x.handler x.ledger
    l.events.filter Event.isPayment = x.ledger.events.filter Event.isPayment ++
        entries.filterMap (Entry.payment? x.queue.config) ∧
      (x.ledger.store.pool? .native = none → SwapQueue.rests x.queue.config height = false →
        ∀ w ∈ x.queue.agenda x.ledger.store height, w.isStreaming = false →
          w.affiliateAmount.toNat + w.primaryAmount.toNat = w.source.amount.toNat ∧
          ∃! ending, w.EndsBy ending ((Entry.ofKey w.key entries).map Entry.effect) ∧
            w.StandsAfter l.store ending ∧
            (ending = .retained →
              (Entry.ofKey w.key entries).filterMap (Entry.payment? x.queue.config) = [])) := by
  intro x l entries
  obtain ⟨hfiled, hkeyed⟩ := filed_run hc (Store.Filed.of_empty hs hqueue hlimits) hs requests
  refine ⟨SwapQueue.payments_endBlock hc x.queue height x.handler x.ledger,
    fun hforeign hrests w hw hstream => ⟨w.affiliateAmount_add_primaryAmount, ?_⟩⟩
  obtain ⟨ending, hends, hstands⟩ := x.queue.endsBy_endBlock height hc.keepsBook x.handler hfiled
    hkeyed hforeign hrests hw hstream
  refine ⟨ending, ⟨hends, hstands, fun hretained => ?_⟩, fun ending' h' => h'.1.unique hends⟩
  rw [hretained] at hends
  exact Entry.payments_of_retained hends x.queue.config

/-- A sale of bitcoin, of whose source an affiliate takes a tenth. -/
def btcReferral : Swap :=
  ⟨⟨"02"⟩, 0, ⟨"bob"⟩, ⟨⟨"BTC", "BTC", .layer1⟩, 3000000000⟩, .native, ⟨"bob"⟩, 0, .market, 0, 0,
    some ⟨⟨"carol"⟩, 1000⟩, 1⟩

/-- A desk that trades with the pool of bitcoin, and has nothing queued. -/
def btcDesk : Desk Unit := ⟨⟨{}, []⟩, (), ⟨SwapQueue.btcStore, []⟩⟩

/-- The share is sold for native and paid to the affiliate, and the rest is sold and paid out. -/
theorem one_ending_referral :
    let x := btcDesk.run .pools [.accept btcReferral]
    let l := (SwapQueue.endBlock .pools x.queue 1 x.handler x.ledger).2.ledger
    let entries := x.queue.journal .pools 1 x.handler x.ledger
    Handler.pools.Confined ∧ btcDesk.ledger.store.Keyed ∧
      btcDesk.ledger.store.queue = .empty ∧ btcDesk.ledger.store.limits = .empty ∧
      x.ledger.store.pool? .native = none ∧ SwapQueue.rests x.queue.config 1 = false ∧
      btcReferral ∈ x.queue.agenda x.ledger.store 1 ∧ btcReferral.isStreaming = false ∧
      (btcReferral.affiliateAmount.toNat + btcReferral.primaryAmount.toNat = 3000000000 ∧
        ∃! ending, btcReferral.EndsBy ending
            ((Entry.ofKey btcReferral.key entries).map Entry.effect) ∧
          btcReferral.StandsAfter l.store ending ∧
          (ending = .retained →
            (Entry.ofKey btcReferral.key entries).filterMap
              (Entry.payment? x.queue.config) = [])) ∧
      l.store.swap? btcReferral.key = none ∧
      (entries.filterMap (Entry.payment? x.queue.config)).map Event.kind =
        ["affiliate_fee", "outbound"] := by
  have hs : btcDesk.ledger.store.Keyed := Store.Keyed.empty.setPool _
  have hforeign : (btcDesk.run .pools [.accept btcReferral]).ledger.store.pool? .native = none := by
    decide +kernel
  have hrests : SwapQueue.rests (btcDesk.run .pools [.accept btcReferral]).queue.config 1 =
    false := by decide +kernel
  have hagenda : btcReferral ∈ (btcDesk.run .pools [.accept btcReferral]).queue.agenda
    (btcDesk.run .pools [.accept btcReferral]).ledger.store 1 := by decide +kernel
  have hending := (one_ending Handler.pools_confined hs rfl rfl [.accept btcReferral] 1).2
    hforeign hrests btcReferral hagenda rfl
  refine ⟨Handler.pools_confined, hs, rfl, rfl, hforeign, hrests, hagenda, rfl, hending, ?_, ?_⟩
  · decide +kernel
  · decide +kernel

/-- A limit order for bitcoin that misses its price at first. -/
def btcLateBid : Swap :=
  ⟨⟨"02"⟩, 0, ⟨"bob"⟩, ⟨.native, 1000000000⟩, ⟨"BTC", "BTC", .layer1⟩, ⟨"bob"⟩, 985000000, .limit,
    0, 0, none, 1⟩

/-- A sale of bitcoin that improves its price. -/
def btcDump : Swap :=
  ⟨⟨"03"⟩, 0, ⟨"bob"⟩, ⟨⟨"BTC", "BTC", .layer1⟩, 3000000000⟩, .native, ⟨"bob"⟩, 0, .market, 0, 0,
    none, 1⟩

/-- The order has been retained once, and the sale has gone through.  Beside the pool of bitcoin
there is one of native against itself. -/
def besideNative : Desk Unit :=
  let pool : Pool := ⟨.native, 100000000000, 100000000000, 100000000000, 0, 0, 0, .available, 8⟩
  { btcDesk with ledger := ⟨SwapQueue.btcStore.setPool pool, []⟩ }.run .pools
    [.accept btcLateBid, .endBlock 1, .accept btcDump, .endBlock 2]

/-- Every pair with native stands on the walk twice, so the order is sold twice, and paid twice. -/
theorem two_endings_native :
    let x := besideNative
    let entries := Entry.ofKey btcLateBid.key (x.queue.journal .pools 3 x.handler x.ledger)
    SwapQueue.rests x.queue.config 3 = false ∧
      btcLateBid ∈ x.queue.agenda x.ledger.store 3 ∧ btcLateBid.isStreaming = false ∧
      (Tally.of entries).parts = [1000000000, 1000000000] ∧
      entries.filterMap (Entry.payment? x.queue.config) =
        [.outbound ⟨"02"⟩ ⟨"bob"⟩ ⟨⟨"BTC", "BTC", .layer1⟩, 1036412422⟩,
          .outbound ⟨"02"⟩ ⟨"bob"⟩ ⟨⟨"BTC", "BTC", .layer1⟩, 1015763970⟩] ∧
      ¬ ∃ ending, btcLateBid.EndsBy ending (entries.map Entry.effect) := by
  intro x entries
  have hagenda : besideNative.queue.agenda besideNative.ledger.store 3 =
      [btcLateBid, btcLateBid] := by
    rw [SwapQueue.agenda_of_pairwise _ _ (by decide +kernel)]
    decide +kernel
  have hrests : SwapQueue.rests besideNative.queue.config 3 = false := by decide +kernel
  have hentries : entries = Entry.ofKey btcLateBid.key
      ([btcLateBid, btcLateBid].foldl (Journal.step .pools besideNative.queue.config 3
        (PairIndex.ofStore besideNative.ledger.store))
        (⟨besideNative.queue.openBlock 3 besideNative.handler besideNative.ledger, []⟩,
          [])).1.log := by
    rw [← hagenda, ← SwapQueue.runBlock]
    show Entry.ofKey btcLateBid.key (SwapQueue.journal ..) = _
    rw [SwapQueue.journal, if_neg (Bool.eq_false_iff.mp hrests)]
  have hparts : (Tally.of entries).parts = [1000000000, 1000000000] := by
    rw [hentries]
    decide +kernel
  refine ⟨hrests, ?_, rfl, hparts, ?_, ?_⟩
  · show btcLateBid ∈ besideNative.queue.agenda besideNative.ledger.store 3
    rw [hagenda]
    exact List.mem_cons_self
  · rw [hentries]
    decide +kernel
  · rintro ⟨ending, hends⟩
    have hle := hends.length_parts_le
    rw [hparts] at hle
    exact absurd hle (by decide)

end Desk

end PoolExchange
