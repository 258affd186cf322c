import PoolExchange.Proofs.Exchange.Price
import PoolExchange.Proofs.Queue.Arrival
import PoolExchange.Proofs.Queue.Filing

/-!
# Exchange — the queue, the limit index and the streams agree

Every action keeps the store filed (`filed_act`): accepting a swap and ending a block by
`PoolExchange.Proofs.Queue.Filing`, and nothing else touches the queue or the index.

A stream that is stored belongs to a queued streaming swap (`Store.Streamed`).  A swap that runs
stores the progress of its own stream only while it stays queued, and takes it along when it leaves.
This needs that no swap runs twice in a block, which is so while no pool of native itself is put in
place: a swap that has left the queue and runs again starts its stream anew, and no one is left to
end it (`queue_inconsistent_native`).
-/

namespace PoolExchange

/-- Every stored stream is that of a queued streaming swap. -/
def Store.Streamed (s : Store) : Prop :=
  ∀ tx p, s.stream? tx = some p → ∃ k w, s.swap? k = some w ∧ w.isStreaming = true ∧ w.tx = tx

namespace Store.Streamed

variable {s s' : Store} {w : Swap}

theorem empty : Streamed .empty := fun _ _ h => by cases h

theorem congr (h : s.Streamed) (hb : s.SameBook s') : s'.Streamed := by
  intro tx p hp
  rw [stream?, hb.streams] at hp
  simp only [swap?, hb.queue]
  exact h tx p hp

/-- The stream of a swap that is queued. -/
theorem setStream (h : s.Streamed) (hw : s.swap? w.key = some w) (hs : w.isStreaming = true)
    {p : SwapStream} (hp : p.tx = w.tx) : (s.setStream p).Streamed := by
  intro tx p' hp'
  rw [stream?_setStream] at hp'
  split at hp'
  · rename_i htx
    exact ⟨w.key, w, hw, hs, (htx.trans hp).symm⟩
  · exact h tx p' hp'

/-- A swap whose key is new. -/
theorem enter (h : s.Streamed) (hnew : s.swap? w.key = none) : (SwapQueue.enter s w).Streamed := by
  intro tx p hp
  rw [SwapQueue.stream?_enter] at hp
  split at hp
  · rename_i hstream
    exact ⟨w.key, w, by rw [SwapQueue.swap?_enter, if_pos rfl], hstream.1, hstream.2.symm⟩
  · obtain ⟨k, v, hv, hs, htx⟩ := h tx p hp
    refine ⟨k, v, ?_, hs, htx⟩
    rw [SwapQueue.swap?_enter, if_neg fun e => by rw [e, hnew] at hv; cases hv]
    exact hv

/-- A queued swap leaves with its stream. -/
theorem dropSwap (h : s.Streamed) (hw : s.swap? w.key = some w) :
    (BlockRun.dropSwap s w).Streamed := by
  intro tx p hp
  rw [stream?, (BlockRun.frame_dropSwap s w).2.2.2.2] at hp
  have hold : s.stream? tx = some p ∧ (w.isStreaming = true → tx ≠ w.tx) := by
    split at hp
    · rw [OrderedMap.find?_erase] at hp
      split at hp
      · cases hp
      · rename_i htx
        exact ⟨hp, fun _ => htx⟩
    · rename_i hs
      exact ⟨hp, fun h => absurd h hs⟩
  obtain ⟨k, v, hv, hs, htx⟩ := h tx p hold.1
  refine ⟨k, v, ?_, hs, htx⟩
  rw [BlockRun.swap?_dropSwap, if_neg ?_]
  · exact hv
  · rintro rfl
    obtain rfl := Option.some.inj (hw.symm.trans hv)
    exact hold.2 hs htx.symm

end Store.Streamed

/-- **Running a queued swap leaves no stream behind.** -/
theorem BlockRun.Ran.streamed {height : Nat} {w : Swap} {r r' : BlockRun Unit}
    (ran : Ran height w r r') (hk : r.ledger.store.Keyed)
    (hw : r.ledger.store.swap? w.key = some w) (h : r.ledger.store.Streamed) :
    r'.ledger.store.Streamed := by
  have hqueued : ∀ {r₁ : BlockRun Unit}, Calm r r₁ → r₁.ledger.store.swap? w.key = some w :=
    fun calm => by rw [Store.swap?, calm.book.queue]; exact hw
  cases ran with
  | waits calm => exact h.congr calm.book
  | leaves calm => exact (h.congr calm.book).dropSwap (hqueued calm)
  | settles streaming calm turn => exact (h.congr calm.book).dropSwap (hqueued calm)
  | goesOn streaming calm turn isOpen =>
      exact (h.congr calm.book).setStream (hqueued calm) streaming
        (turn.tx.trans (hk.tx_progress w))

theorem SwapQueue.streamed_endBlock (q : SwapQueue) (height : Nat) {l : Ledger}
    (hi : l.store.Indexed) (h : l.store.Streamed) :
    (endBlock .pools q height () l).2.ledger.store.Streamed := by
  cases hr : rests q.config height with
  | true => rw [store_endBlock_of_rests .pools q height () l hr]; exact h
  | false =>
      rw [store_endBlock .pools q height () l hr]
      have hblock := (q.runBlock_induct (P := fun s _ => s.Streamed) height hi
        (fun w j hj hw hP => ?_) h).2
      · exact hblock.congr ⟨rfl, rfl, rfl⟩
      · have hran := BlockRun.ran_execute q.config height w j.run
        rw [← Journal.run_execute] at hran
        exact hran.streamed hj.keyed hw hP

namespace Exchange

variable {x : Exchange}

/-- **Every action keeps the store filed.** -/
theorem filed_act (h : x.store.Filed) (a : Action) : (x.act a).store.Filed := by
  cases a with
  | accept swap =>
      simp only [act]
      split
      · rename_i q s ho
        exact SwapQueue.filed_accept h ho
      · exact h
  | endBlock height => exact x.queue.filed_endBlock height Handler.pools_keepsBook () h
  | deposit | withdraw | setStatus | setSupply | setPool =>
      exact h.congr (x.sameBook_act (fun _ e => by cases e) fun _ e => by cases e)

theorem filed_run (h : x.store.Filed) (actions : List Action) : (x.run actions).store.Filed := by
  induction actions generalizing x with
  | nil => exact h
  | cons a actions ih => exact ih (filed_act h a)

/-- While no pool of native is put in place, no action leaves a stream behind. -/
theorem streamed_act (hi : x.store.Indexed) (h : x.store.Streamed) (a : Action) :
    (x.act a).store.Streamed := by
  cases a with
  | accept swap =>
      rcases x.store_accept_cases swap with hs | ⟨w, hnew, hprepare, hs⟩ <;> rw [hs]
      · exact h
      · exact h.enter (SwapQueue.key_of_prepare hprepare ▸ hnew)
  | endBlock height => exact x.queue.streamed_endBlock height hi h
  | deposit | withdraw | setStatus | setSupply | setPool =>
      exact h.congr (x.sameBook_act (fun _ e => by cases e) fun _ e => by cases e)

theorem streamed_run (hi : x.store.Indexed) (h : x.store.Streamed) {actions : List Action}
    (hforeign : ∀ a ∈ actions, a.IsForeign) : (x.run actions).store.Streamed := by
  induction actions generalizing x with
  | nil => exact h
  | cons a actions ih =>
      exact ih (indexed_act hi (hforeign a List.mem_cons_self)) (streamed_act hi h a)
        fun b hb => hforeign b (List.mem_cons_of_mem _ hb)

/-- **The queue and its records agree after every run**: a queued limit swap stands once in its own
bucket and in no other, a bucket holds queued limit swaps only, none is empty, and an offer that is
refused changes nothing.  While no pool of native is put in place, every stored stream is that of a
queued streaming swap.

An offer is refused, if at all, before anything is written for it: the checks and the sizing of the
stream come first.  So a refusal carries no store, and the last part says that the exchange goes on
from the one it had. -/
theorem queue_consistent (config : Config) (actions : List Action) :
    let x := (empty config).run actions
    (∀ k w, x.store.swap? k = some w → w.isLimit = true →
        ∀ b, (x.store.bucket b).count k = if b = .ofSwap w then 1 else 0) ∧
      (∀ b, ∀ k ∈ x.store.bucket b, ∃ w, x.store.swap? k = some w ∧ w.isLimit = true) ∧
      (∀ b, x.store.limits.find? b ≠ some []) ∧
      ((∀ a ∈ actions, a.IsForeign) → ∀ tx p, x.store.stream? tx = some p →
        p.tx = tx ∧ ∃ k w, x.store.swap? k = some w ∧ w.isStreaming = true ∧ w.tx = tx) ∧
      ∀ w e, x.queue.accept x.store w = .error e → x.act (.accept w) = x := by
  intro x
  have hfiled : x.store.Filed := filed_run (x := empty config) .empty actions
  have hkeyed : x.store.Keyed := keyed_run (x := empty config) .empty actions
  refine ⟨fun k w hw hl b => hfiled.count_bucket hw hl b, fun b k hk => ?entry, hfiled.filled,
    fun hforeign tx p hp => ?stream, fun w e he => ?refused⟩
  case entry =>
    obtain ⟨w, hw, hl, -⟩ := hfiled.entry hk
    exact ⟨w, hw, hl⟩
  case stream => exact ⟨hkeyed.stream tx p hp,
      streamed_run (x := empty config) .empty .empty hforeign tx p hp⟩
  case refused => rw [act, he]

/-- A limit order for bitcoin, in two slices. -/
def btcStreamBid : Swap :=
  ⟨⟨"02"⟩, 0, ⟨"bob"⟩, ⟨.native, 3000000000⟩, ⟨"BTC", "BTC", .layer1⟩, ⟨"bob"⟩, 1000000000, .limit,
    1, 2, none, 1⟩

/-- A stream half sold: it is queued, filed and stored, and is not accepted a second time. -/
theorem queue_consistent_streamBid :
    let actions := btcOpening ++ [.accept btcStreamBid, .endBlock 1]
    let x := (empty slicing).run actions
    (∀ a ∈ actions, a.IsForeign) ∧
      x.store.swap? btcStreamBid.key = some btcStreamBid ∧ btcStreamBid.isLimit = true ∧
      (x.store.bucket (.ofSwap btcStreamBid)).count btcStreamBid.key = 1 ∧
      x.store.limits.find? (.ofSwap btcStreamBid) ≠ some [] ∧
      (x.store.stream? ⟨"02"⟩).isSome = true ∧
      (∃ k w, x.store.swap? k = some w ∧ w.isStreaming = true ∧ w.tx = ⟨"02"⟩) ∧
      x.act (.accept btcStreamBid) = x := by
  have hforeign : ∀ a ∈ btcOpening ++ [.accept btcStreamBid, .endBlock 1], a.IsForeign := by
    simp [btcOpening, Action.IsForeign]
  obtain ⟨hcount, -, hfilled, hstreamed, hrefused⟩ :=
    queue_consistent slicing (btcOpening ++ [.accept btcStreamBid, .endBlock 1])
  have hqueued : ((empty slicing).run
      (btcOpening ++ [.accept btcStreamBid, .endBlock 1])).store.swap? btcStreamBid.key =
        some btcStreamBid := by decide +kernel
  have hstored : (((empty slicing).run
      (btcOpening ++ [.accept btcStreamBid, .endBlock 1])).store.stream? ⟨"02"⟩).isSome = true := by
    decide +kernel
  obtain ⟨p, hp⟩ := Option.isSome_iff_exists.mp hstored
  refine ⟨hforeign, hqueued, rfl, ?_, hfilled _, hstored, (hstreamed hforeign _ p hp).2,
    hrefused _ (.duplicate btcStreamBid.key) (by decide +kernel)⟩
  rw [hcount _ _ hqueued rfl, if_pos rfl]

/-- A pool of native against itself, and what happens beside it: one slice of the order is sold in
the first block, and in the second a sale of bitcoin moves the price in its favour. -/
def nativeBesides : List Action :=
  btcOpening ++ [.setPool ⟨.native, 100000000000, 100000000000, 100000000000, 0, 0, 0, .available,
    8⟩, .accept btcStreamBid, .endBlock 1, .accept (btcSale "03" 0), .endBlock 2]

/-- Every pair with native stands on the walk twice.  The second slice of the stream completes it,
and the swap leaves the queue; then it runs again, from the start. -/
theorem queue_inconsistent_native :
    let x := (empty slicing).run (nativeBesides ++ [.endBlock 3])
    x.store.queue = .empty ∧
      (x.store.stream? ⟨"02"⟩).map (fun p => (p.count, p.input)) = some (1, 1500000000) := by
  intro x
  obtain ⟨y, hy⟩ : ∃ y, y = (empty slicing).run nativeBesides := ⟨_, rfl⟩
  have hagenda : y.queue.agenda y.store 3 = [btcStreamBid, btcStreamBid] := by
    rw [hy, SwapQueue.agenda_of_pairwise _ _ (by decide +kernel)]
    decide +kernel
  have hblock : x.ledger = (y.queue.blockOf 3 y.ledger [btcStreamBid, btcStreamBid]).ledger := by
    rw [← hagenda, show y.store = y.ledger.store from rfl,
      ← SwapQueue.endBlock_eq_blockOf (by rw [hy]; decide +kernel), hy]
    exact congrArg Exchange.ledger (run_append (empty slicing) nativeBesides [.endBlock 3])
  rw [store, hblock, hy]
  decide +kernel

end Exchange

end PoolExchange
