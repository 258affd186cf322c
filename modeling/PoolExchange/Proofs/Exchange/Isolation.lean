import PoolExchange.Proofs.Exchange.Account
import PoolExchange.Proofs.Queue.Outcome

/-!
# Exchange — swaps of one transaction share their progress

Swaps are queued by transaction and index, but the progress of a stream is stored by transaction
alone.  So a streaming swap writes and deletes what every other streaming swap of its transaction
reads (`Swap.SharesStream`), and nothing that any other swap reads.

The main result is `stream_kept_iff`.  Entering the queue, leaving it and running leave what `v`
reads as its progress alone unless the swap shares it; and if the swap does share it, only when it
waits, or when what it writes happens to be what was there.
-/

namespace PoolExchange

/-- `w` stores its progress where `v` looks for its own. -/
def Swap.SharesStream (w v : Swap) : Prop := w.isStreaming = true ∧ w.tx = v.tx

instance (w v : Swap) : Decidable (w.SharesStream v) := instDecidableAnd

namespace Store

variable {s s' : Store} (v w : Swap)

theorem progress_congr (h : s'.stream? v.tx = s.stream? v.tx) :
    s'.progress v = s.progress v := by
  rw [progress, progress, h]

theorem SameBook.progress (h : s.SameBook s') : s'.progress v = s.progress v :=
  progress_congr v (by rw [stream?, stream?, h.streams])

theorem progress_setStream (s : Store) (p : SwapStream) :
    (s.setStream p).progress v = if v.tx = p.tx then p else s.progress v := by
  rw [progress, stream?_setStream]
  split <;> rfl

variable (s) in
theorem progress_enter :
    (SwapQueue.enter s w).progress v =
      if w.SharesStream v then SwapStream.ofSwap w else s.progress v := by
  rw [progress, SwapQueue.stream?_enter]
  by_cases h : w.SharesStream v
  · rw [if_pos ⟨h.1, h.2.symm⟩, if_pos h]
    rfl
  · rw [if_neg fun e => h ⟨e.1, e.2.symm⟩, if_neg h]
    rfl

variable (s) in
theorem progress_dropSwap :
    (BlockRun.dropSwap s w).progress v =
      if w.SharesStream v then SwapStream.ofSwap v else s.progress v := by
  rw [progress, stream?, (BlockRun.frame_dropSwap s w).2.2.2.2]
  by_cases hs : w.isStreaming = true
  · rw [if_pos hs, OrderedMap.find?_erase]
    by_cases htx : w.tx = v.tx
    · rw [if_pos htx.symm, if_pos ⟨hs, htx⟩]
      rfl
    · rw [if_neg fun e => htx e.symm, if_neg fun h => htx h.2]
      rfl
  · rw [if_neg hs, if_neg fun h => hs h.1]
    rfl

end Store

/-! ### One swap -/

/-- An update that replaces what `v` reads exactly when `w` shares it. -/
theorem replaced_eq_iff {P : Prop} [Decidable P] {p p' : SwapStream} :
    (if P then p' else p) = p ↔ (P → p = p') := by
  by_cases h : P
  · rw [if_pos h]
    exact ⟨fun e _ => e.symm, fun e => (e h).symm⟩
  · rw [if_neg h]
    exact iff_of_true rfl fun hp => absurd hp h

/-- **Entering the queue.** -/
theorem SwapQueue.progress_accept_iff {q q' : SwapQueue} {s s' : Store} {w : Swap} (v : Swap)
    (h : q.accept s w = .ok (q', s')) :
    ∃ w', s'.swap? w.key = some w' ∧
      (s'.progress v = s.progress v ↔ (w.SharesStream v → s.progress v = .ofSwap w')) := by
  obtain ⟨w', -, -, hprepare, -, rfl⟩ := accept_inv h
  have hw' := (prepare_inv hprepare).1
  -- fixing the number of slices changes neither the key nor the transaction
  have hkey : w'.key = w.key := by rw [hw']; rfl
  have hshares : w'.SharesStream v ↔ w.SharesStream v := by rw [hw']; exact Iff.rfl
  refine ⟨w', ?_, ?_⟩
  · rw [swap?_enter, if_pos hkey.symm]
  · rw [s.progress_enter v w', replaced_eq_iff, hshares]

/-- **Running.**  What came of the swap is read off the report and the queue. -/
theorem BlockRun.Ran.progress_iff {height : Nat} {w : Swap} {r r' : BlockRun Unit}
    (ran : Ran height w r r') (hs : r.ledger.store.Keyed)
    (hw : r.ledger.store.swap? w.key = some w) (v : Swap) :
    r'.ledger.store.progress v = r.ledger.store.progress v ↔
      (w.SharesStream v → r'.report.retained = r.report.retained + 1 ∨
        r'.ledger.store.swap? w.key = none ∧ r.ledger.store.progress v = .ofSwap v) := by
  -- leaving the queue deletes the stream, and counts nothing as retained
  have hleaves : ∀ r₁ : BlockRun Unit, Calm r r₁ →
      ((dropSwap r₁.ledger.store w).progress v = r.ledger.store.progress v ↔
        (w.SharesStream v → r₁.report.retained = r.report.retained + 1 ∨
          (dropSwap r₁.ledger.store w).swap? w.key = none ∧
            r.ledger.store.progress v = .ofSwap v)) := fun r₁ calm => by
    have hgone : (dropSwap r₁.ledger.store w).swap? w.key = none := by
      rw [swap?_dropSwap, if_pos rfl]
    have hcount : ¬ r₁.report.retained = r.report.retained + 1 := by
      rw [calm.retained]
      omega
    rw [Store.progress_dropSwap, calm.book.progress v, replaced_eq_iff]
    simp only [hgone, hcount, false_or, true_and]
  cases ran with
  | waits calm =>
      refine iff_of_true (calm.book.progress v) fun _ => .inl ?_
      exact congrArg (· + 1) calm.retained
  | leaves calm => exact hleaves _ calm
  | @settles r₁ p streaming calm turn => exact hleaves r₁ calm
  | @goesOn r₁ p streaming calm turn isOpen =>
      have htx : p.tx = w.tx := turn.tx.trans (hs.tx_progress w)
      have hstore : (r₁.ledger.store.setStream p).progress v =
          if w.SharesStream v then p else r.ledger.store.progress v := by
        rw [Store.progress_setStream, calm.book.progress v, htx]
        by_cases h : v.tx = w.tx
        · rw [if_pos h, if_pos ⟨streaming, h.symm⟩]
        · rw [if_neg h, if_neg fun e => h e.2.symm]
      refine (iff_of_eq (congrArg (· = _) hstore)).trans (replaced_eq_iff.trans ?_)
      refine imp_congr_right fun hshares => iff_of_false (fun he => ?_) ?_
      · -- a slot has been used up, of the stream that `v` reads or of a new one
        have hcount := turn.count
        rw [← he] at hcount
        rw [Store.progress, Store.progress, hshares.2] at hcount
        cases hstream : r.ledger.store.stream? v.tx with
        | none =>
            rw [hstream] at hcount
            exact absurd hcount (Nat.succ_ne_self 0).symm
        | some p₀ =>
            rw [hstream] at hcount
            exact absurd hcount (Nat.succ_ne_self _).symm
      · rintro (hcount | ⟨hgone, -⟩)
        · have : r₁.report.retained = r.report.retained + 1 := hcount
          rw [calm.retained] at this
          omega
        · have hqueued : r₁.ledger.store.swap? w.key = r.ledger.store.swap? w.key := by
            rw [Store.swap?, Store.swap?, calm.book.queue]
          have hnone : r₁.ledger.store.swap? w.key = none := hgone
          rw [hqueued, hw] at hnone
          cases hnone

/-! ### In a block of a run -/

namespace SwapQueue

/-- The block that ends at `height`, after its first `n` swaps. -/
def partway {σ : Type} (h : Handler σ) (q : SwapQueue) (height n : Nat) (state : σ) (l : Ledger) :
    BlockRun σ :=
  (((q.agenda l.store height).take n).foldl
    (BlockRun.step h q.config height (PairIndex.ofStore l.store))
    (q.openBlock height state l, [])).1

theorem keyed_partway (q : SwapQueue) (height n : Nat) {l : Ledger} (hs : l.store.Keyed) :
    (q.partway .pools height n () l).ledger.store.Keyed := by
  have hrun := run_foldl_step .pools height q.config (PairIndex.ofStore l.store)
    ((q.agenda l.store height).take n) (⟨q.openBlock height () l, []⟩, [])
  obtain ⟨es, -, -, ht⟩ := trail_foldl_step .pools height q.config (PairIndex.ofStore l.store)
    ((q.agenda l.store height).take n) (⟨q.openBlock height () l, []⟩, [])
  rw [partway, ← (Prod.mk.inj hrun).1]
  exact ht.induct hs fun _ _ _ h hl => hl.keyed Handler.pools_keepsKeys h

end SwapQueue

namespace Exchange

/-- **Who changes what a streaming swap reads as its progress.**  In every state that a run passes
through, within its blocks as well: `w` enters the queue, leaves it, or runs.  What `v` reads stays
as it is unless `w` is a streaming swap of the same transaction; then it stays only when `w` waits,
or when what `v` read is what `w`, or no stream at all, makes it read. -/
theorem stream_kept_iff (config : Config) (before : List Action) (height n : Nat) (v w : Swap) :
    let x := (empty config).run before
    let r := x.queue.partway .pools height n () x.ledger
    let s := r.ledger.store
    (∀ q s', x.queue.accept s w = .ok (q, s') → ∃ w', s'.swap? w.key = some w' ∧
        (s'.progress v = s.progress v ↔ (w.SharesStream v → s.progress v = .ofSwap w'))) ∧
      ((BlockRun.dropSwap s w).progress v = s.progress v ↔
        (w.SharesStream v → s.progress v = .ofSwap v)) ∧
      (s.swap? w.key = some w →
        let r' := (r.execute .pools config height w).1
        (r'.ledger.store.progress v = s.progress v ↔
          (w.SharesStream v → r'.report.retained = r.report.retained + 1 ∨
            r'.ledger.store.swap? w.key = none ∧ s.progress v = .ofSwap v))) := by
  intro x r s
  have hs : s.Keyed := x.queue.keyed_partway height n (keyed_run (x := empty config) .empty before)
  refine ⟨fun q s' h => SwapQueue.progress_accept_iff v h, ?_, fun hw => ?_⟩
  · rw [s.progress_dropSwap v w, replaced_eq_iff]
  · exact (BlockRun.ran_execute config height w r).progress_iff hs hw v

/-- A stream of the transaction `02`, one slice every five blocks. -/
def btcPart (index : Nat) (amount : Amount) : Swap :=
  ⟨⟨"02"⟩, index, ⟨"bob"⟩, ⟨⟨"BTC", "BTC", .layer1⟩, amount⟩, .native, ⟨"bob"⟩, 0, .market, 5, 2,
    none, 1⟩

/-- A second stream of the transaction of a stream enters, and then runs: either replaces what the
first one reads. -/
theorem stream_kept_iff_parts :
    let first := btcPart 0 3000000000
    let second := btcPart 1 2000000000
    let x := (empty slicing).run (btcOpening ++ [.accept first, .endBlock 1])
    let r := x.queue.partway .pools 2 0 () x.ledger
    let y := (empty slicing).run (btcOpening ++ [.accept first, .accept second])
    let r₁ := y.queue.partway .pools 1 0 () y.ledger
    let r₂ := (r₁.execute .pools slicing 1 second).1
    (∃ q s', x.queue.accept r.ledger.store second = .ok (q, s') ∧
        s'.progress first ≠ r.ledger.store.progress first) ∧
      r₁.ledger.store.swap? second.key = some second ∧
      r₂.ledger.store.progress first ≠ r₁.ledger.store.progress first := by
  have hshares : (btcPart 1 2000000000).SharesStream (btcPart 0 3000000000) := by decide
  have henters := (stream_kept_iff slicing
    (btcOpening ++ [.accept (btcPart 0 3000000000), .endBlock 1]) 2 0
    (btcPart 0 3000000000) (btcPart 1 2000000000)).1
  have hruns := (stream_kept_iff slicing
    (btcOpening ++ [.accept (btcPart 0 3000000000), .accept (btcPart 1 2000000000)]) 1 0
    (btcPart 0 3000000000) (btcPart 1 2000000000)).2.2
  refine And.intro ?enters (And.intro ?queued (mt (hruns ?queued).mp fun h => ?runs))
  case enters =>
    refine exists_ok_of_isOk (by decide +kernel) fun q s' ho he => ?_
    obtain ⟨w', -, hiff⟩ := henters q s' ho
    -- the first stream has used up a slot, and no stream that enters has
    have hnew := congrArg SwapStream.count (hiff.mp he hshares)
    revert hnew
    show ¬ _ = 0
    decide +kernel
  case queued => decide +kernel
  case runs =>
    have h := h hshares
    revert h
    decide +kernel

/-- A stream has sold its first slice, and is not due; another of its transaction enters, and it is
due at once, with the other's deposit to sell. -/
theorem stream_replaced_by_other :
    let x := (empty slicing).run
      (btcOpening ++ [.accept (btcPart 0 3000000000), .endBlock 1])
    let y := x.act (.accept (btcPart 1 2000000000))
    x.store.swap? (btcPart 0 3000000000).key = some (btcPart 0 3000000000) ∧
      (btcPart 0 3000000000).isStreaming = true ∧ (btcPart 1 2000000000).isStreaming = true ∧
      (btcPart 0 3000000000).key ≠ (btcPart 1 2000000000).key ∧
      y.store.swap? (btcPart 1 2000000000).key = some (btcPart 1 2000000000) ∧
      (x.store.progress (btcPart 0 3000000000)).deposit = 3000000000 ∧
      (y.store.progress (btcPart 0 3000000000)).deposit = 2000000000 ∧
      x.store.isReady (btcPart 0 3000000000) 2 slicing = false ∧
      y.store.isReady (btcPart 0 3000000000) 2 slicing = true := by
  decide +kernel

end Exchange

end PoolExchange
