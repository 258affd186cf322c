import PoolExchange.Proofs.Exchange.Account
import PoolExchange.Proofs.Queue.Arrival

/-!
# Exchange — the order of arrival makes no difference

Swaps of different transactions do not see each other when they are offered to the queue: each is
accepted or refused as if it came alone (`accepted_eq_filter`), and two that are accepted enter the
store in either order, but for their place in a bucket of the limit index (`SameButArrival.comm`).
So offering them in another order leads to an exchange that agrees with the first but for arrival
(`SameButArrival.offer_of_perm`).  Blocks do not see that difference, and so neither does what the
exchange reports from then on (`arrival_order_irrelevant`).
-/

namespace PoolExchange

namespace SwapQueue

/-! ### Entrants -/

/-- The swap that enters the queue when `w` is offered. -/
def entrant (q : SwapQueue) (s : Store) (w : Swap) : Except QueueError Swap :=
  match w.validate with
  | .error e => .error (.invalid w.key e)
  | .ok _ =>
    if (s.swap? w.key).isSome then .error (.duplicate w.key)
    else
      match q.prepare s w with
      | .error e => .error (.pool e)
      | .ok w => .ok w

/-- The queue after a prepared swap has entered. -/
def withEntrant (q : SwapQueue) (w : Swap) : SwapQueue :=
  { q with fresh := if w.isLimit then q.fresh ++ [w.key] else q.fresh }

theorem accept_eq (q : SwapQueue) (s : Store) (w : Swap) :
    q.accept s w = (q.entrant s w).map fun w' => (q.withEntrant w', enter s w') := by
  rw [accept, entrant]
  cases w.validate with
  | error e => rfl
  | ok _ =>
      dsimp only
      split
      · rfl
      · cases q.prepare s w <;> rfl

/-- What enters depends on the configuration, on the pools, and on whether the key is taken. -/
theorem entrant_congr {q q' : SwapQueue} {s s' : Store} {w : Swap} (hc : q'.config = q.config)
    (hs : s'.source = s.source) (hk : s'.swap? w.key = s.swap? w.key) :
    q'.entrant s' w = q.entrant s w := by
  simp only [entrant, prepare, hc, hs, hk]

/-- What enters is the swap that was offered, with the number of its slices fixed. -/
theorem entrant_inv {q : SwapQueue} {s : Store} {w w' : Swap} (h : q.entrant s w = .ok w') :
    w' = { w with streamQuantity := w'.streamQuantity } := by
  rw [entrant] at h
  split at h
  · cases h
  · rw [guard_eq_ok] at h
    obtain ⟨-, h⟩ := h
    split at h
    · cases h
    · rename_i v hv
      obtain rfl := Except.ok.inj h
      exact (prepare_inv hv).1

end SwapQueue

namespace Exchange

/-- The exchange after a prepared swap has entered. -/
def withEntrant (x : Exchange) (w : Swap) : Exchange :=
  ⟨x.queue.withEntrant w, x.ledger.withStore (SwapQueue.enter x.store w)⟩

theorem act_accept (x : Exchange) (w : Swap) :
    x.act (.accept w) =
      match x.queue.entrant x.store w with
      | .ok w' => x.withEntrant w'
      | .error _ => x := by
  rw [act, SwapQueue.accept_eq]
  cases x.queue.entrant x.store w <;> rfl

/-- Offers swaps, one after the other. -/
def offer (x : Exchange) (ws : List Swap) : Exchange := x.run (ws.map .accept)

/-- The swaps that are accepted when `ws` are offered. -/
def accepted : Exchange → List Swap → List Swap
  | _, [] => []
  | x, w :: ws =>
    (if (x.queue.accept x.store w).isOk then [w] else []) ++ (x.act (.accept w)).accepted ws

/-- Ends blocks at the given heights. -/
def blocks (x : Exchange) (heights : List Nat) : Exchange := x.run (heights.map .endBlock)

/-- What the blocks at the given heights report. -/
def reports : Exchange → List Nat → List BlockReport
  | _, [] => []
  | x, height :: heights =>
    (SwapQueue.endBlock .pools x.queue height () x.ledger).2.report ::
      (x.act (.endBlock height)).reports heights

/-! ### Each comes as if alone -/

section Alone

variable (x : Exchange) (w : Swap)

theorem source_withEntrant : (x.withEntrant w).store.source = x.store.source := by
  obtain ⟨hp, -, hs, -, -⟩ := SwapQueue.frame_enter x.store w
  have hpool : (SwapQueue.enter x.store w).pool? = x.store.pool? :=
    funext fun a => by rw [Store.pool?, Store.pool?, hp]
  have hsupply : (SwapQueue.enter x.store w).supply = x.store.supply :=
    funext fun a => by rw [Store.supply, Store.supply, hs]
  show (SwapQueue.enter x.store w).source = _
  rw [Store.source, Store.source, hpool, hsupply]

variable {x w} in
/-- An offer changes nothing for the offers of other transactions. -/
theorem entrant_act_accept {v : Swap} (hne : v.tx ≠ w.tx) :
    (x.act (.accept w)).queue.entrant (x.act (.accept w)).store v =
      x.queue.entrant x.store v := by
  rw [act_accept]
  cases hw : x.queue.entrant x.store w with
  | error e => rfl
  | ok w' =>
      refine SwapQueue.entrant_congr rfl (x.source_withEntrant w') ?_
      refine (SwapQueue.swap?_enter x.store w' v.key).trans (if_neg fun he => hne ?_)
      rw [SwapQueue.entrant_inv hw] at he
      exact congrArg SwapKey.tx he

/-- **The swaps that are accepted** are those that would be accepted alone. -/
theorem accepted_eq_filter {ws : List Swap} (hdistinct : (ws.map Swap.tx).Nodup) :
    x.accepted ws = ws.filter fun w => (x.queue.entrant x.store w).isOk := by
  induction ws generalizing x with
  | nil => rfl
  | cons w ws ih =>
      obtain ⟨hnew, hdistinct⟩ := List.nodup_cons.mp hdistinct
      have hrest : (ws.filter fun v => ((x.act (.accept w)).queue.entrant
          (x.act (.accept w)).store v).isOk) =
            ws.filter fun v => (x.queue.entrant x.store v).isOk := by
        refine List.filter_congr fun v hv => ?_
        rw [entrant_act_accept]
        intro he
        exact hnew (he ▸ List.mem_map_of_mem hv)
      have hok : (x.queue.accept x.store w).isOk = (x.queue.entrant x.store w).isOk := by
        rw [SwapQueue.accept_eq]
        cases x.queue.entrant x.store w <;> rfl
      rw [accepted, ih _ hdistinct, hrest, hok, List.filter_cons]
      split <;> rfl

end Alone

/-! ### Two orders of arrival -/

/-- Two exchanges agree, but for the order in which swaps arrived. -/
structure SameButArrival (x x' : Exchange) : Prop where
  config : x'.queue.config = x.queue.config
  fresh : x'.queue.fresh.Perm x.queue.fresh
  events : x'.ledger.events = x.ledger.events
  store : x.store.SameButArrival x'.store

namespace SameButArrival

variable {x x' x'' : Exchange}

theorem refl (x : Exchange) : x.SameButArrival x := ⟨rfl, .refl _, rfl, .refl _⟩

theorem trans (h : x.SameButArrival x') (h' : x'.SameButArrival x'') : x.SameButArrival x'' where
  config := h'.config.trans h.config
  fresh := h'.fresh.trans h.fresh
  events := h'.events.trans h.events
  store := h.store.trans h'.store

theorem withEntrant (h : x.SameButArrival x') (w : Swap) :
    (x.withEntrant w).SameButArrival (x'.withEntrant w) := by
  refine ⟨h.config, ?_, h.events, h.store.enter w⟩
  show (if w.isLimit = true then _ else _ : List SwapKey).Perm (if w.isLimit = true then _ else _)
  split
  · exact h.fresh.append_right _
  · exact h.fresh

theorem accept (h : x.SameButArrival x') (w : Swap) :
    (x.act (.accept w)).SameButArrival (x'.act (.accept w)) := by
  have hentrant : x'.queue.entrant x'.store w = x.queue.entrant x.store w :=
    SwapQueue.entrant_congr h.config h.store.source (h.store.swap? w.key)
  rw [act_accept, act_accept, hentrant]
  cases x.queue.entrant x.store w with
  | error e => exact h
  | ok w' => exact h.withEntrant w'

/-- Two swaps of different transactions enter in either order. -/
theorem withEntrant_comm (x : Exchange) {v w : Swap} (hne : v.tx ≠ w.tx) :
    ((x.withEntrant v).withEntrant w).SameButArrival ((x.withEntrant w).withEntrant v) := by
  refine ⟨rfl, ?_, rfl, Store.SameButArrival.enter_comm x.store hne⟩
  show (if v.isLimit = true then _ else _ : List SwapKey).Perm (if w.isLimit = true then _ else _)
  cases hv : v.isLimit <;> cases hw : w.isLimit <;>
    simp only [SwapQueue.withEntrant, Exchange.withEntrant, hv, hw, if_true, Bool.false_eq_true,
      if_false, List.Perm.refl, List.append_assoc]
  exact List.perm_append_comm.append_left _

/-- **Two offers of different transactions commute.** -/
theorem comm (x : Exchange) {v w : Swap} (hne : v.tx ≠ w.tx) :
    ((x.act (.accept v)).act (.accept w)).SameButArrival
      ((x.act (.accept w)).act (.accept v)) := by
  rw [act_accept (x.act (.accept v)) w, act_accept (x.act (.accept w)) v,
    entrant_act_accept hne, entrant_act_accept hne.symm, act_accept x v, act_accept x w]
  cases hv : x.queue.entrant x.store v with
  | error e => cases x.queue.entrant x.store w <;> exact .refl _
  | ok v' =>
      cases hw : x.queue.entrant x.store w with
      | error e => exact .refl _
      | ok w' =>
          refine withEntrant_comm x ?_
          rw [SwapQueue.entrant_inv hv, SwapQueue.entrant_inv hw]
          exact hne

theorem offer (h : x.SameButArrival x') (ws : List Swap) :
    (x.offer ws).SameButArrival (x'.offer ws) := by
  induction ws generalizing x x' with
  | nil => exact h
  | cons w ws ih => exact ih (h.accept w)

/-- **The order of arrival leaves no other trace.** -/
theorem offer_of_perm (x : Exchange) {ws ws' : List Swap} (h : ws.Perm ws')
    (hdistinct : (ws.map Swap.tx).Nodup) : (x.offer ws).SameButArrival (x.offer ws') := by
  induction h generalizing x with
  | nil => exact .refl x
  | cons w _ ih => exact ih _ (List.nodup_cons.mp hdistinct).2
  | swap v w ws =>
      refine (comm x fun he => ?_).offer ws
      refine (List.nodup_cons.mp hdistinct).1 ?_
      rw [he]
      exact List.mem_cons_self
  | trans h _ ih ih' =>
      exact (ih x hdistinct).trans (ih' x ((h.map Swap.tx).nodup_iff.mp hdistinct))

/-- **A block keeps two exchanges the same but for arrival**, and reports the same. -/
theorem endBlock (h : x.SameButArrival x') (hi : x.store.Indexed) (height : Nat) :
    (x.act (.endBlock height)).SameButArrival (x'.act (.endBlock height)) ∧
      (SwapQueue.endBlock .pools x'.queue height () x'.ledger).2.report =
        (SwapQueue.endBlock .pools x.queue height () x.ledger).2.report := by
  have halike := SwapQueue.alike_endBlock hi h.config h.fresh h.events h.store height
  have hqueue : ∀ y : Exchange, (y.act (.endBlock height)).queue = ⟨y.queue.config, []⟩ := by
    intro y
    show (SwapQueue.endBlock .pools y.queue height () y.ledger).1 = _
    rw [SwapQueue.endBlock]
    split <;> rfl
  refine ⟨⟨?_, ?_, halike.events, halike.store⟩, halike.report⟩
  · rw [config_act, config_act, h.config]
  · rw [hqueue, hqueue]

/-- **So do any number of blocks.** -/
theorem blocks (h : x.SameButArrival x') (hi : x.store.Indexed) (heights : List Nat) :
    (x.blocks heights).SameButArrival (x'.blocks heights) ∧
      x'.reports heights = x.reports heights := by
  induction heights generalizing x x' with
  | nil => exact ⟨h, rfl⟩
  | cons height heights ih =>
      obtain ⟨hnext, hreport⟩ := h.endBlock hi height
      have hforeign : (Action.endBlock height).IsForeign := fun _ he => by cases he
      obtain ⟨hend, hreports⟩ := ih hnext (indexed_act hi hforeign)
      refine ⟨hend, ?_⟩
      rw [reports, reports, hreport, hreports]

end SameButArrival

/-! ### The result -/

/-- No swap that is offered, and no block, puts a pool of native in place. -/
theorem indexed_offer {x : Exchange} (hi : x.store.Indexed) (ws : List Swap) :
    (x.offer ws).store.Indexed := by
  refine indexed_run hi fun a ha p he => ?_
  obtain ⟨w, -, rfl⟩ := List.mem_map.mp ha
  cases he

theorem indexed_blocks {x : Exchange} (hi : x.store.Indexed) (heights : List Nat) :
    (x.blocks heights).store.Indexed := by
  refine indexed_run hi fun a ha p he => ?_
  obtain ⟨height, -, rfl⟩ := List.mem_map.mp ha
  cases he

/-- **The order of arrival makes no difference.**  Swaps of different transactions are offered in
two orders to an exchange with nothing in its limit index and no pool of native; its store is
keyed, as every store is that updates lead to (`keyed_run`) or a snapshot holds
(`Store.Keyed.ofSnapshot?`).  The same swaps are accepted, and whatever blocks follow, they report
the same and leave exchanges that agree but for the order inside the buckets of the limit index.
In each block the swaps that run are the first of the one order of the candidates by falling fee,
then transaction, then index. -/
theorem arrival_order_irrelevant {x : Exchange} (hs : x.store.Keyed)
    (hforeign : x.store.pools.find? .native = none) (hlimits : x.store.limits = .empty)
    {ws ws' : List Swap} (hperm : ws.Perm ws') (hdistinct : (ws.map Swap.tx).Nodup)
    (heights : List Nat) :
    (x.accepted ws).Perm (x.accepted ws') ∧
      ((x.offer ws).blocks heights).SameButArrival ((x.offer ws').blocks heights) ∧
      (x.offer ws').reports heights = (x.offer ws).reports heights ∧
      ∀ height,
        let y := (x.offer ws).blocks heights
        (∃! order : List Candidate, order.Perm (y.queue.scored y.store height) ∧
          order.Pairwise Candidate.Precedes) ∧
        ∀ order : List Candidate, order.Perm (y.queue.scored y.store height) →
          order.Pairwise Candidate.Precedes → SwapQueue.rests y.queue.config height = false →
          (SwapQueue.endBlock .pools y.queue height () y.ledger).2 =
            y.queue.blockOf height y.ledger
              ((order.take (y.queue.capacity y.store height)).map Candidate.swap) := by
  have hi : x.store.Indexed := Store.Indexed.of_limits hs hforeign hlimits
  have hoffer := SameButArrival.offer_of_perm x hperm hdistinct
  obtain ⟨hblocks, hreports⟩ := hoffer.blocks (indexed_offer hi ws) heights
  refine ⟨?_, hblocks, hreports, fun height => ?_⟩
  · rw [accepted_eq_filter x hdistinct,
      accepted_eq_filter x ((hperm.map Swap.tx).nodup_iff.mp hdistinct)]
    exact hperm.filter _
  · have hy := indexed_blocks (indexed_offer hi ws) heights
    refine ⟨Candidate.existsUnique_order (SwapQueue.nodup_scored _ height hy), ?_⟩
    intro order horder hpairwise hrests
    rw [SwapQueue.endBlock_eq_blockOf hrests]
    exact congrArg _ (SwapQueue.agenda_eq_take _ height hy horder hpairwise)

/-- A limit order for bitcoin; two of them rest in one bucket. -/
def btcBid (tx : String) : Swap :=
  ⟨⟨tx⟩, 0, ⟨"bob"⟩, ⟨.native, 1000000000⟩, ⟨"BTC", "BTC", .layer1⟩, ⟨"bob"⟩, 500000000, .limit, 0,
    0, none, 1⟩

/-- Two orders that arrive one way or the other rest in different order, and run in the same. -/
theorem arrival_order_irrelevant_bids :
    let x := (empty {}).run btcOpening
    let ws := [btcBid "02", btcBid "03"]
    let ws' := [btcBid "03", btcBid "02"]
    x.store.Keyed ∧ x.store.pools.find? .native = none ∧ x.store.limits = .empty ∧
      ws.Perm ws' ∧ (ws.map Swap.tx).Nodup ∧
      (x.offer ws).store.limits ≠ (x.offer ws').store.limits ∧
      (x.offer ws').reports [1, 2] = (x.offer ws).reports [1, 2] := by
  have hs : ((empty {}).run btcOpening).store.Keyed := keyed_run (x := empty {}) .empty btcOpening
  have hforeign : ((empty {}).run btcOpening).store.pools.find? .native = none := by
    decide +kernel
  have hlimits : ((empty {}).run btcOpening).store.limits = .empty := by decide +kernel
  have hperm : [btcBid "02", btcBid "03"].Perm [btcBid "03", btcBid "02"] := .swap _ _ []
  have hdistinct : ([btcBid "02", btcBid "03"].map Swap.tx).Nodup := by decide
  have hsame := arrival_order_irrelevant hs hforeign hlimits hperm hdistinct [1, 2]
  refine ⟨hs, hforeign, hlimits, hperm, hdistinct, ?_, hsame.2.2.1⟩
  decide +kernel

end Exchange

end PoolExchange
