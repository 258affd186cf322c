import PoolExchange.Proofs.Queue.Price

/-!
# Queue — every limit swap is filed once

A store is *filed* (`Store.Filed`) when every queued limit swap stands once in the limit index, in
the bucket of the swap as it is queued, every place in the index belongs to a queued limit swap, and
no bucket is empty.  This is about the queue and the index alone, so no change of pools touches it,
and neither does a handler that leaves them alone (`Handler.KeepsBook`).

**Accepting a swap and ending a block keep a store filed** (`SwapQueue.filed_accept`,
`SwapQueue.filed_endBlock`), whatever pools there are: a swap that runs twice in a block is still
itself when it is first dropped, and in no bucket when it is dropped again.
-/

namespace PoolExchange

namespace Store

/-- The queue, the limit index and the streams of the store, and nothing else. -/
def book (s : Store) : Store :=
  { Store.empty with queue := s.queue, limits := s.limits, streams := s.streams }

variable {s s' : Store} {w : Swap}

theorem SameBook.book (h : s.SameBook s') : s'.book = s.book := by
  rw [Store.book, Store.book, h.queue, h.limits, h.streams]

theorem book_enter (s : Store) (w : Swap) :
    (SwapQueue.enter s w).book = SwapQueue.enter s.book w := by
  simp only [SwapQueue.enter]
  split <;> split <;> rfl

theorem book_dropSwap (s : Store) (w : Swap) :
    (BlockRun.dropSwap s w).book = BlockRun.dropSwap s.book w := by
  have hremove : ∀ (s : Store) b k, (s.removeLimit b k).book = s.book.removeLimit b k := by
    intro s b k
    have hlimits : s.book.limits = s.limits := rfl
    simp only [removeLimit, hlimits]
    split <;> rfl
  simp only [BlockRun.dropSwap]
  split <;> split
  · exact congrArg (removeStream · w.tx) (hremove _ _ _)
  · rfl
  · exact hremove _ _ _
  · rfl

/-- The queue and the index are coherent in a store that keeps its pools and positions under their
keys, and none of them for native. -/
theorem Indexed.of_book (h : s.book.Indexed) (hs : s.Keyed) (hn : s.pools.find? .native = none) :
    s.Indexed :=
  h.congr hs hn rfl rfl

/-! ### Buckets that are not empty -/

theorem find?_insertLimit_ne (h : ∀ b, s.limits.find? b ≠ some []) (b b' : LimitKey) (k : SwapKey) :
    (s.insertLimit b k).limits.find? b' ≠ some [] := by
  simp only [insertLimit, OrderedMap.find?_insert]
  split
  · split
    · rename_i hk
      exact fun e => absurd hk (Option.some.inj e ▸ List.not_mem_nil)
    · exact fun e => List.append_ne_nil_of_right_ne_nil _ (List.cons_ne_nil _ _) (Option.some.inj e)
  · exact h b'

theorem find?_removeLimit_ne (h : ∀ b, s.limits.find? b ≠ some []) (b b' : LimitKey)
    (k : SwapKey) : (s.removeLimit b k).limits.find? b' ≠ some [] := by
  simp only [removeLimit]
  split
  · exact h b'
  · rename_i swaps _
    by_cases he : (swaps.filter (· ≠ k)).isEmpty
    · simp only [he, if_true, OrderedMap.find?_erase]
      split
      · simp
      · exact h b'
    · simp only [he, Bool.false_eq_true, if_false, OrderedMap.find?_insert]
      split
      · exact fun e => he (List.isEmpty_iff.mpr (Option.some.inj e))
      · exact h b'

/-! ### Filed stores -/

/-- **The queue and the limit index say the same.** -/
structure Filed (s : Store) : Prop where
  indexed : s.book.Indexed
  placed : ∀ k w, s.swap? k = some w → w.isLimit = true → k ∈ s.bucket (.ofSwap w)
  filled : ∀ b, s.limits.find? b ≠ some []

namespace Filed

/-- A store with nothing queued. -/
theorem of_empty (hs : s.Keyed) (hqueue : s.queue = .empty) (hlimits : s.limits = .empty) :
    s.Filed where
  indexed := .of_limits ⟨nofun, nofun, hs.swap, hs.stream⟩ rfl hlimits
  placed k w hw := by
    rw [swap?, hqueue] at hw
    cases hw
  filled b hb := by
    rw [hlimits] at hb
    cases hb

theorem empty : Filed .empty := of_empty .empty rfl rfl

theorem key (h : s.Filed) {k : SwapKey} (hw : s.swap? k = some w) : w.key = k :=
  h.indexed.keyed.swap k w hw

theorem entry (h : s.Filed) {b : LimitKey} {k : SwapKey} (hk : k ∈ s.bucket b) :
    ∃ w, s.swap? k = some w ∧ w.isLimit = true ∧ LimitKey.ofSwap w = b :=
  h.indexed.entry b k hk

theorem congr (h : s.Filed) (hb : s.SameBook s') : s'.Filed where
  indexed := hb.book ▸ h.indexed
  placed k w hw hl := by
    rw [bucket, hb.limits]
    exact h.placed k w (by rw [swap?, ← hb.queue]; exact hw) hl
  filled := hb.limits ▸ h.filled

theorem setStream (h : s.Filed) (p : SwapStream) : (s.setStream p).Filed where
  indexed := h.indexed.congr (h.indexed.keyed.setStream p) rfl rfl rfl
  placed := h.placed
  filled := h.filled

/-- A queued limit swap stands once in its own bucket and in no other. -/
theorem count_bucket (h : s.Filed) {k : SwapKey} (hw : s.swap? k = some w)
    (hl : w.isLimit = true) (b : LimitKey) :
    (s.bucket b).count k = if b = .ofSwap w then 1 else 0 := by
  split
  · rename_i hb
    exact List.count_eq_one_of_mem (h.indexed.nodup b) (hb ▸ h.placed k w hw hl)
  · rename_i hb
    refine List.count_eq_zero.mpr fun hk => hb ?_
    obtain ⟨v, hv, -, hvb⟩ := h.entry hk
    obtain rfl := Option.some.inj (hw.symm.trans hv)
    exact hvb.symm

/-- A swap whose key is new. -/
theorem enter (h : s.Filed) (hnew : s.swap? w.key = none) : (SwapQueue.enter s w).Filed := by
  have hfresh : w.key ∉ s.bucket (.ofSwap w) := fun hm => by
    obtain ⟨v, hv, -⟩ := h.entry hm
    rw [hnew] at hv
    cases hv
  refine ⟨by rw [book_enter]; exact h.indexed.enter hnew, fun k v hv hl => ?_, fun b => ?_⟩
  · rw [bucket_enter s hfresh]
    rw [SwapQueue.swap?_enter] at hv
    split at hv
    · rename_i hk
      obtain rfl := Option.some.inj hv
      rw [if_pos ⟨hl, rfl⟩, hk]
      exact List.mem_append_right _ (List.mem_singleton_self _)
    · have hmem := h.placed k v hv hl
      split
      · exact List.mem_append_left _ hmem
      · exact hmem
  · simp only [SwapQueue.enter]
    split <;> split
    · exact find?_insertLimit_ne (s := s.setStream _) h.filled _ _ _
    · exact find?_insertLimit_ne h.filled _ _ _
    · exact h.filled b
    · exact h.filled b

/-- A queued swap, or one that has left the queue before. -/
theorem dropSwap (h : s.Filed) (hw : s.swap? w.key = some w ∨ s.swap? w.key = none) :
    (BlockRun.dropSwap s w).Filed := by
  refine ⟨by rw [book_dropSwap]; exact h.indexed.dropSwap hw, fun k v hv hl => ?_, fun b => ?_⟩
  · rw [bucket_dropSwap]
    rw [BlockRun.swap?_dropSwap] at hv
    split at hv
    · cases hv
    · rename_i hk
      have hmem := h.placed k v hv hl
      split
      · exact List.mem_filter.mpr ⟨hmem, decide_eq_true hk⟩
      · exact hmem
  · have hlimits : (BlockRun.dropSwap s w).limits =
        (if w.isLimit then (s.removeSwap w.key).removeLimit (.ofSwap w) w.key
          else s.removeSwap w.key).limits := by
      simp only [BlockRun.dropSwap]
      split <;> rfl
    rw [hlimits]
    split
    · exact find?_removeLimit_ne (s := s.removeSwap w.key) h.filled _ _ _
    · exact h.filled b

end Filed

end Store

/-! ### Blocks -/

variable {σ : Type} {h : Handler σ}

/-- The swap that an entry takes out of the queue. -/
def Entry.dropped? (e : Entry) : Option SwapKey :=
  match e.effect with
  | .drop => some e.swap.key
  | _ => none

/-- An effect changes no entry of the queue, unless it takes it out. -/
theorem Entry.Leads.swap?_eq (hb : h.KeepsBook) {config : Config} {e : Entry} {s : Store}
    (hl : e.Leads h config s) (k : SwapKey) :
    s.swap? k = if e.dropped? = some k then none else e.before.swap? k := by
  have hsame : ∀ {s s' : Store}, s.SameBook s' → s'.swap? k = s.swap? k := fun hs => by
    rw [Store.swap?, Store.swap?, hs.queue]
  cases hl with
  | order swap role o state l => exact hsame (hb config o state l)
  | refund swap s role coin reason => exact hsame (Payout.settled_sameBook s coin config)
  | outbound swap s coin => exact hsame (Payout.settled_sameBook s coin config)
  | share | progress | retain => rfl
  | drop swap s =>
      rw [BlockRun.swap?_dropSwap, show (⟨swap, s, .drop⟩ : Entry).dropped? = some swap.key from
        rfl]
      simp only [Option.some.injEq, eq_comm]

/-- **The queue after a trail** is the queue before it, less the swaps that were taken out. -/
theorem Trail.swap?_eq (hb : h.KeepsBook) {config : Config} {start s : Store} {log : List Entry}
    (t : Trail h config start log s) (k : SwapKey) :
    s.swap? k = if k ∈ log.filterMap Entry.dropped? then none else start.swap? k := by
  induction t with
  | nil => rw [List.filterMap_nil, if_neg List.not_mem_nil]
  | @snoc log e s init last ih =>
      have hmem : k ∈ (log ++ [e]).filterMap Entry.dropped? ↔
          k ∈ log.filterMap Entry.dropped? ∨ e.dropped? = some k := by
        rw [List.filterMap_append, List.mem_append, List.mem_filterMap (l := [e])]
        simp only [List.mem_singleton, exists_eq_left]
      rw [last.swap?_eq hb k, ih]
      by_cases hd : e.dropped? = some k
      · rw [if_pos hd, if_pos (hmem.mpr (.inr hd))]
      · simp only [hmem, hd, or_false, if_false]

/-- **Every effect for a swap that is queued, or has been, keeps a store filed.** -/
theorem Entry.Leads.filed (hb : h.KeepsBook) {config : Config} {e : Entry} {s : Store}
    (hl : e.Leads h config s) (hf : e.before.Filed)
    (hw : e.before.swap? e.swap.key = some e.swap ∨ e.before.swap? e.swap.key = none) :
    s.Filed := by
  cases hl with
  | order swap role o state l => exact hf.congr (hb config o state l)
  | refund swap s role coin reason => exact hf.congr (Payout.settled_sameBook s coin config)
  | outbound swap s coin => exact hf.congr (Payout.settled_sameBook s coin config)
  | share | retain => exact hf
  | progress swap s p => exact hf.setStream p
  | drop swap s => exact hf.dropSwap hw

/-- **Entries for swaps that are queued at the start keep a store filed.** -/
theorem Trail.filed (hb : h.KeepsBook) {config : Config} {start s : Store} {log : List Entry}
    (t : Trail h config start log s) (hf : start.Filed)
    (hqueued : ∀ e ∈ log, start.swap? e.swap.key = some e.swap) : s.Filed := by
  induction t with
  | nil => exact hf
  | @snoc log e s init last ih =>
      refine last.filed hb (ih fun e he => hqueued e (List.mem_append_left _ he)) ?_
      rw [init.swap?_eq hb]
      split
      · exact .inr rfl
      · exact .inl (hqueued e (List.mem_append_right _ List.mem_cons_self))

namespace SwapQueue

variable (q : SwapQueue) (height : Nat)

/-- **The queue after a block** is the queue before it, less the swaps that were taken out. -/
theorem swap?_endBlock (hb : h.KeepsBook) (state : σ) (l : Ledger) (k : SwapKey) :
    (endBlock h q height state l).2.ledger.store.swap? k =
      if k ∈ (q.journal h height state l).filterMap Entry.dropped? then none
      else l.store.swap? k := by
  rw [journal]
  cases hr : rests q.config height with
  | true =>
      rw [store_endBlock_of_rests h q height state l hr, if_pos rfl, List.filterMap_nil,
        if_neg List.not_mem_nil]
  | false =>
      rw [store_endBlock h q height state l hr, if_neg Bool.false_ne_true]
      exact (trail_runBlock h q height state l).swap?_eq hb k

/-- The swaps of a block are queued, whatever pools there are. -/
theorem swap?_of_mem_agenda {s : Store} (hf : s.Filed) {w : Swap} (hw : w ∈ q.agenda s height) :
    s.swap? w.key = some w := by
  obtain ⟨cs, hsub, hperm⟩ := q.agenda_sublist height s
  obtain ⟨c, hc, rfl⟩ := List.mem_map.mp (hperm.subset (hsub.subset hw))
  obtain ⟨k, hk⟩ := q.queued_candidates height c hc
  rw [hf.key hk]
  exact hk

/-- **Accepting a swap keeps a store filed.** -/
theorem filed_accept {q q' : SwapQueue} {s s' : Store} {swap : Swap} (hf : s.Filed)
    (h : q.accept s swap = .ok (q', s')) : s'.Filed := by
  obtain ⟨w, -, hnew, hprepare, -, rfl⟩ := accept_inv h
  exact hf.enter (key_of_prepare hprepare ▸ hnew)

/-- **A block keeps a store filed.** -/
theorem filed_endBlock (hb : h.KeepsBook) (state : σ) {l : Ledger} (hf : l.store.Filed) :
    (endBlock h q height state l).2.ledger.store.Filed := by
  cases hr : rests q.config height with
  | true =>
      rw [store_endBlock_of_rests h q height state l hr]
      exact hf
  | false =>
      obtain ⟨es, hlog, hes, -⟩ := trail_foldl_step h height q.config (PairIndex.ofStore l.store)
        (q.agenda l.store height) (⟨q.openBlock height state l, []⟩, [])
      have hqueued : ∀ e ∈ (q.runBlock h height state l).1.log,
          l.store.swap? e.swap.key = some e.swap := fun e he => by
        rw [runBlock, hlog, List.nil_append] at he
        exact q.swap?_of_mem_agenda height hf (hes e he)
      rw [store_endBlock h q height state l hr]
      exact ((trail_runBlock h q height state l).filed hb hf hqueued).congr ⟨rfl, rfl, rfl⟩

end SwapQueue

end PoolExchange
