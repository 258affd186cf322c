import PoolExchange.Proofs.Queue.Attempts
import PoolExchange.Proofs.Queue.Walk

/-!
# Queue — the slices of a stream keep their interval

Whether a slice is due is asked when the candidates of a block are gathered, and never again.  What
makes the answer good is that nothing else touches the stream until the swap has its turn: no other
queued swap streams under its transaction, and the swap itself has one turn in a block.

So the record of a queued stream counts the attempts that were made at it, the latest at the height
it was last tried (`SwapStream.Tracks`), and **whatever the heights of the blocks are, two attempts
at one stream are a positive number of whole intervals apart, the earlier one first; and no
streaming swap runs in a block that streaming is paused in** (`Desk.keeps_interval`).  With a pool
of native itself a limit swap can have two turns in a block, and sell two slices at one height
(`Desk.two_slices_native`).
-/

namespace PoolExchange

variable {σ : Type} {h : Handler σ}

/-! ### When a slice is due -/

/-- When a streaming swap may run. -/
theorem Store.isReady_iff {s : Store} {w : Swap} {height : Nat} {config : Config}
    (hs : w.isStreaming = true) :
    s.isReady w height config = true ↔
      config.streaming.pause = false ∧ (s.progress w).isDue height = true := by
  rw [isReady, hs]
  cases config.streaming.pause <;> simp

/-- A stream that has begun is due whole intervals after it was last tried. -/
theorem SwapStream.isDue_inv {p : SwapStream} {height : Nat} (hbegun : p.count ≠ 0)
    (hdue : p.isDue height = true) :
    p.lastHeight < height ∧ p.interval ∣ height - p.lastHeight := by
  rw [isDue, if_neg hbegun] at hdue
  split at hdue
  · cases hdue
  · rename_i hlater
    rw [Bool.or_eq_true, decide_eq_true_eq, decide_eq_true_eq, not_or, Nat.not_le] at hlater
    exact ⟨hlater.2, Nat.dvd_of_mod_eq_zero (of_decide_eq_true hdue)⟩

/-! ### Attempts so far -/

/-- An entry of a block, with the block's height and configuration. -/
structure Deed where
  height : Nat
  config : Config
  entry : Entry

namespace Deed

def swap (d : Deed) : Swap := d.entry.swap

def isAttempt (d : Deed) : Bool := d.entry.isAttempt

/-- If `a` and `b` are for one stream, they are for one swap, `a` is the earlier of them, and they
are whole intervals apart. -/
def Spaced (a b : Deed) : Prop :=
  a.swap.tx = b.swap.tx →
    a.swap = b.swap ∧ a.height < b.height ∧ b.swap.streamInterval ∣ b.height - a.height

/-- The deeds for swaps under a transaction. -/
def under (deeds : List Deed) (tx : TxId) : List Deed := deeds.filter (·.swap.tx = tx)

variable {deeds : List Deed} {a : Deed} {tx : TxId}

theorem under_concat_of_eq (htx : a.swap.tx = tx) :
    under (deeds ++ [a]) tx = under deeds tx ++ [a] := by
  rw [under, List.filter_append, List.filter_singleton, decide_eq_true htx]
  rfl

theorem under_concat_of_ne (htx : a.swap.tx ≠ tx) :
    under (deeds ++ [a]) tx = under deeds tx := by
  rw [under, List.filter_append, List.filter_singleton, decide_eq_false htx]
  exact List.append_nil _

end Deed

/-- The record counts attempts, all for `v`, and the latest of them was made when it was last
tried. -/
structure SwapStream.Tracks (p : SwapStream) (v : Swap) (attempts : List Deed) : Prop where
  own : ∀ a ∈ attempts, a.swap = v
  count : p.count = attempts.length
  latest : ∀ a, attempts.getLast? = some a → p.lastHeight = a.height

namespace SwapStream.Tracks

variable {p p' : SwapStream} {v : Swap} {attempts : List Deed}

/-- **A slice that is due** is whole intervals after every attempt so far. -/
theorem of_isDue (ht : p.Tracks v attempts) (hspaced : attempts.Pairwise Deed.Spaced)
    (hinterval : p.interval = v.streamInterval) {height : Nat} (hdue : p.isDue height = true) :
    ∀ a ∈ attempts, a.height < height ∧ v.streamInterval ∣ height - a.height := by
  rcases List.eq_nil_or_concat' attempts with rfl | ⟨before, b, rfl⟩
  · exact fun a ha => absurd ha List.not_mem_nil
  have hbegun : p.count ≠ 0 := by simp [ht.count]
  obtain ⟨hlater, hdvd⟩ := isDue_inv hbegun hdue
  rw [ht.latest b List.getLast?_concat] at hlater hdvd
  rw [hinterval] at hdvd
  intro a ha
  rcases List.mem_append.mp ha with hbefore | hlast
  · -- the latest attempt is whole intervals after this one
    have hab : a.Spaced b :=
      (List.pairwise_append.mp hspaced).2.2 a hbefore b (List.mem_singleton_self b)
    have hb : b.swap = v := ht.own b (List.mem_append_right _ (List.mem_singleton_self b))
    obtain ⟨-, hlt, hwhole⟩ := hab (by rw [ht.own a ha, hb])
    rw [hb] at hwhole
    have hsum : height - a.height = (height - b.height) + (b.height - a.height) := by omega
    exact ⟨hlt.trans hlater, hsum ▸ Nat.dvd_add hdvd hwhole⟩
  · obtain rfl := List.mem_singleton.mp hlast
    exact ⟨hlater, hdvd⟩

/-- An attempt uses up a slot. -/
theorem concat (ht : p.Tracks v attempts) {a : Deed} (ha : a.swap = v)
    (used : p.UsedAt a.height p') : p'.Tracks v (attempts ++ [a]) where
  own b hb := by
    rcases List.mem_append.mp hb with hb | hb
    · exact ht.own b hb
    · rw [List.mem_singleton.mp hb, ha]
  count := by rw [used.count, ht.count, List.length_append, List.length_singleton]
  latest b hb := by
    rw [List.getLast?_concat, Option.some.injEq] at hb
    rw [used.lastHeight, hb]

end SwapStream.Tracks

/-- The swap is queued, and streams. -/
def Store.Streams (s : Store) (v : Swap) : Prop :=
  s.swap? v.key = some v ∧ v.isStreaming = true

/-- The queued streams are under transactions of their own, out of `txs`, the record of each tracks
its attempts, and attempts at one stream are whole intervals apart. -/
structure Paced (txs : List TxId) (attempts : List Deed) (s : Store) : Prop where
  keyed : s.Keyed
  entered : ∀ v, s.Streams v → v.tx ∈ txs
  alone : ∀ v v', s.Streams v → s.Streams v' → v.tx = v'.tx → v = v'
  interval : ∀ v, s.Streams v → (s.progress v).interval = v.streamInterval
  attempted : ∀ a ∈ attempts, a.swap.tx ∈ txs
  tracks : ∀ v, s.Streams v → (s.progress v).Tracks v (Deed.under attempts v.tx)
  spaced : attempts.Pairwise Deed.Spaced

namespace Paced

variable {txs : List TxId} {attempts : List Deed} {s s' : Store} {w : Swap}

/-- Streams that leave the queue change nothing for the others. -/
theorem congr (hp : Paced txs attempts s) (hk : s'.Keyed)
    (hstreams : ∀ v, s'.Streams v → s.Streams v ∧ s'.progress v = s.progress v) :
    Paced txs attempts s' where
  keyed := hk
  entered v hv := hp.entered v (hstreams v hv).1
  alone v v' hv hv' := hp.alone v v' (hstreams v hv).1 (hstreams v' hv').1
  interval v hv := by
    rw [(hstreams v hv).2]
    exact hp.interval v (hstreams v hv).1
  attempted := hp.attempted
  tracks v hv := by
    rw [(hstreams v hv).2]
    exact hp.tracks v (hstreams v hv).1
  spaced := hp.spaced

theorem sameBook (hp : Paced txs attempts s) (hk : s'.Keyed) (hb : s.SameBook s') :
    Paced txs attempts s' := by
  refine hp.congr hk fun v hv => ⟨⟨?_, hv.2⟩, hb.progress v⟩
  rw [← hv.1, Store.swap?, Store.swap?, hb.queue]

/-- No other queued swap shares the stream of a queued one. -/
theorem not_sharesStream (hp : Paced txs attempts s) (hw : s.swap? w.key = some w) {v : Swap}
    (hv : s.Streams v) (hne : v.key ≠ w.key) : ¬ w.SharesStream v := fun hshares =>
  hne (congrArg Swap.key (hp.alone v w hv ⟨hw, hshares.1⟩ hshares.2.symm))

/-- **An attempt at a slice that is due.** -/
theorem attempt (hp : Paced txs attempts s) (hk : s'.Keyed) (hw : s.Streams w) {height : Nat}
    (hdue : (s.progress w).isDue height = true) {a : Deed} (hswap : a.swap = w)
    (hheight : a.height = height)
    (hothers : ∀ v, s'.Streams v → s.Streams v ∧ (v ≠ w → s'.progress v = s.progress v))
    (hown : s'.Streams w → (s.progress w).UsedAt height (s'.progress w)) :
    Paced txs (attempts ++ [a]) s' := by
  obtain rfl := hheight
  refine ⟨hk, fun v hv => hp.entered v (hothers v hv).1,
    fun v v' hv hv' => hp.alone v v' (hothers v hv).1 (hothers v' hv').1, fun v hv => ?_,
    fun b hb => ?_, fun v hv => ?_, ?_⟩
  · by_cases hvw : v = w
    · subst hvw
      rw [(hown hv).interval]
      exact hp.interval v hw
    · rw [(hothers v hv).2 hvw]
      exact hp.interval v (hothers v hv).1
  · rcases List.mem_append.mp hb with hb | hb
    · exact hp.attempted b hb
    · rw [List.mem_singleton.mp hb, hswap]
      exact hp.entered w hw
  · by_cases hvw : v = w
    · subst hvw
      rw [Deed.under_concat_of_eq (congrArg Swap.tx hswap)]
      exact (hp.tracks v hw).concat hswap (hown hv)
    · -- only one queued swap streams under the transaction
      have htx : a.swap.tx ≠ v.tx := fun htx =>
        hvw (hp.alone v w (hothers v hv).1 hw (hswap ▸ htx.symm))
      rw [(hothers v hv).2 hvw, Deed.under_concat_of_ne htx]
      exact hp.tracks v (hothers v hv).1
  · refine List.pairwise_append.mpr ⟨hp.spaced, List.pairwise_singleton _ _, fun b hb c hc => ?_⟩
    rw [List.mem_singleton.mp hc]
    intro htx
    have hunder : b ∈ Deed.under attempts w.tx :=
      List.mem_filter.mpr ⟨hb, decide_eq_true (hswap ▸ htx)⟩
    have htracks := hp.tracks w hw
    obtain ⟨hlt, hdvd⟩ := htracks.of_isDue (hp.spaced.filter _) (hp.interval w hw) hdue b hunder
    rw [hswap]
    exact ⟨htracks.own b hunder, hlt, hdvd⟩

/-! ### Runs and blocks -/

section Blocks

variable (hb : h.KeepsBook) (hkeys : h.KeepsKeys) (config : Config) (height : Nat)
include hb hkeys

/-- **A run of a swap**, whose slice is due if it streams. -/
theorem execute {j : Journal σ} (hp : Paced txs attempts j.run.ledger.store)
    (hw : j.run.ledger.store.swap? w.key = some w)
    (hdue : w.isStreaming = true → (j.run.ledger.store.progress w).isDue height = true) :
    ∃ new, Journal.Attempts j (j.execute h config height w).1 new ∧
      Paced txs (attempts ++ new.map (Deed.mk height config))
        (j.execute h config height w).1.run.ledger.store := by
  obtain ⟨hk, hswaps, hown, hprogress⟩ := Journal.frame_execute hb hkeys config height
    (w := w) hp.keyed
  have hqueued : ∀ v, (j.execute h config height w).1.run.ledger.store.Streams v →
      v = w ∨ v.key ≠ w.key ∧ j.run.ledger.store.Streams v := by
    rintro v ⟨hv, hs⟩
    by_cases hkey : v.key = w.key
    · rw [hkey] at hv
      rcases hown with hsame | hgone
      · exact .inl (Option.some.inj (hv.symm.trans (hsame.trans hw)))
      · rw [hgone] at hv
        cases hv
    · exact .inr ⟨hkey, (hswaps _ hkey).symm.trans hv, hs⟩
  by_cases hs : w.isStreaming = true
  · have hothers : ∀ v, (j.execute h config height w).1.run.ledger.store.Streams v →
        j.run.ledger.store.Streams v ∧
          (v ≠ w → (j.execute h config height w).1.run.ledger.store.progress v =
            j.run.ledger.store.progress v) := by
      intro v hv
      rcases hqueued v hv with rfl | ⟨hne, hstreams⟩
      · exact ⟨⟨hw, hs⟩, fun h => absurd rfl h⟩
      · exact ⟨hstreams, fun _ => hprogress v (hp.not_sharesStream hw hstreams hne)⟩
    have htried := Journal.tried_executeSlice hb config height hs (j := j) hp.keyed
    rw [← show j.execute h config height w = j.executeSlice h config height w from if_pos hs]
      at htried
    cases htried with
    | nothing hattempts hkept =>
        refine ⟨[], hattempts, ?_⟩
        rw [List.map_nil, List.append_nil]
        refine hp.congr hk fun v hv => ⟨(hothers v hv).1, ?_⟩
        by_cases hvw : v = w
        · subst hvw
          exact hkept.resolve_left fun hgone => by rw [hv.1] at hgone; cases hgone
        · exact (hothers v hv).2 hvw
    | once e hattempts hown hused =>
        exact ⟨[e], hattempts, hp.attempt hk ⟨hw, hs⟩ (hdue hs) hown rfl hothers fun hv =>
          hused.resolve_left fun hgone => by rw [hv.1] at hgone; cases hgone⟩
  · obtain ⟨es, hlog, hfor, -⟩ := Journal.trail_execute (h := h) config height (w := w) hp.keyed
    refine ⟨[], ⟨es, hlog, List.filter_eq_nil_iff.mpr fun e he => ?_⟩, ?_⟩
    · rw [Entry.isAttempt, (hfor e he).1, Bool.eq_false_iff.mpr hs]
      exact Bool.false_ne_true
    · rw [List.map_nil, List.append_nil]
      refine hp.congr hk fun v hv => ?_
      rcases hqueued v hv with rfl | ⟨-, hstreams⟩
      · exact absurd hv.2 hs
      · exact ⟨hstreams, hprogress v fun hshares => hs hshares.1⟩

/-- **The swaps of a block**, each with one turn. -/
theorem foldl_step (index : PairIndex) {ws : List Swap} (hnodup : (ws.map Swap.key).Nodup)
    (acc : Journal σ × List Pair) (hp : Paced txs attempts acc.1.run.ledger.store)
    (hqueued : ∀ w ∈ ws, acc.1.run.ledger.store.swap? w.key = some w)
    (hdue : ∀ w ∈ ws, w.isStreaming = true →
      (acc.1.run.ledger.store.progress w).isDue height = true) :
    ∃ new, Journal.Attempts acc.1
        (ws.foldl (Journal.step h config height index) acc).1 new ∧
      Paced txs (attempts ++ new.map (Deed.mk height config))
        (ws.foldl (Journal.step h config height index) acc).1.run.ledger.store := by
  induction ws generalizing acc attempts with
  | nil => exact ⟨[], .refl _, by rw [List.map_nil, List.append_nil]; exact hp⟩
  | cons w ws ih =>
      obtain ⟨hnew, hnodup⟩ := List.nodup_cons.mp hnodup
      have hw := hqueued w List.mem_cons_self
      obtain ⟨new, hattempts, hpaced⟩ := hp.execute hb hkeys config height hw
        (hdue w List.mem_cons_self)
      obtain ⟨-, hswaps, -, hprogress⟩ := Journal.frame_execute hb hkeys config height
        (w := w) hp.keyed
      -- the swaps that follow are as they were when the block began
      have hne : ∀ v ∈ ws, v.key ≠ w.key := fun v hv e => hnew (e ▸ List.mem_map_of_mem hv)
      rw [← Journal.store_step h config height index acc w] at hpaced hswaps hprogress
      obtain ⟨new', hattempts', hpaced'⟩ := ih hnodup _ hpaced
        (fun v hv => (hswaps _ (hne v hv)).trans (hqueued v (List.mem_cons_of_mem _ hv)))
        fun v hv hs => by
          rw [hprogress v (hp.not_sharesStream hw
            ⟨hqueued v (List.mem_cons_of_mem _ hv), hs⟩ (hne v hv))]
          exact hdue v (List.mem_cons_of_mem _ hv) hs
      refine ⟨new ++ new', ?_, ?_⟩
      · refine Journal.Attempts.trans ?_ hattempts'
        obtain ⟨es, hes, hfilter⟩ := hattempts
        exact ⟨es, (Journal.log_step ..).trans hes, hfilter⟩
      · rw [List.map_append, ← List.append_assoc]
        exact hpaced'

end Blocks

/-- A streaming swap that enters must not share its transaction with one that did before. -/
theorem accept {q q' : SwapQueue} (hp : Paced txs attempts s) (ho : q.accept s w = .ok (q', s'))
    (hnew : w.isStreaming = true → w.tx ∉ txs) :
    Paced (txs ++ if w.isStreaming then [w.tx] else []) attempts s' := by
  obtain ⟨w', -, -, hprepare, -, rfl⟩ := SwapQueue.accept_inv ho
  obtain ⟨htx, hs⟩ : w'.tx = w.tx ∧ w'.isStreaming = w.isStreaming := by
    rw [(SwapQueue.prepare_inv hprepare).1]
    exact ⟨rfl, rfl⟩
  have hstreams : ∀ v, (SwapQueue.enter s w').Streams v →
      (v = w' ∧ w.isStreaming = true) ∨ s.Streams v ∧ ¬ w'.SharesStream v := by
    rintro v ⟨hv, hvs⟩
    rw [SwapQueue.swap?_enter] at hv
    split at hv
    · obtain rfl := Option.some.inj hv
      exact .inl ⟨rfl, hs ▸ hvs⟩
    · exact .inr ⟨⟨hv, hvs⟩, fun hshares =>
        hnew (hs ▸ hshares.1) (htx ▸ hshares.2 ▸ hp.entered v ⟨hv, hvs⟩)⟩
  have hown : ∀ v, v = w' → w.isStreaming = true →
      (SwapQueue.enter s w').progress v = .ofSwap v := by
    rintro v rfl hws
    rw [Store.progress_enter, if_pos ⟨hs.trans hws, rfl⟩]
  have hother : ∀ v, ¬ w'.SharesStream v →
      (SwapQueue.enter s w').progress v = s.progress v := fun v hv => by
    rw [Store.progress_enter, if_neg hv]
  refine ⟨SwapQueue.keyed_enter hp.keyed w', fun v hv => ?_, fun v v' hv hv' hsame => ?_,
    fun v hv => ?_, fun a ha => List.mem_append_left _ (hp.attempted a ha), fun v hv => ?_,
    hp.spaced⟩
  · rcases hstreams v hv with ⟨rfl, hws⟩ | ⟨hv, -⟩
    · rw [if_pos hws, htx]
      exact List.mem_append_right _ (List.mem_singleton_self _)
    · exact List.mem_append_left _ (hp.entered v hv)
  · rcases hstreams v hv with ⟨rfl, hws⟩ | ⟨hv, hne⟩ <;>
      rcases hstreams v' hv' with ⟨rfl, hws'⟩ | ⟨hv', hne'⟩
    · rfl
    · exact absurd ⟨hs.trans hws, hsame⟩ hne'
    · exact absurd ⟨hs.trans hws', hsame.symm⟩ hne
    · exact hp.alone v v' hv hv' hsame
  · rcases hstreams v hv with ⟨hvw, hws⟩ | ⟨hv, hne⟩
    · rw [hown v hvw hws]
      rfl
    · rw [hother v hne]
      exact hp.interval v hv
  · rcases hstreams v hv with ⟨rfl, hws⟩ | ⟨hv, hne⟩
    · -- no attempt was made under a transaction that is new
      have hnone : Deed.under attempts v.tx = [] := List.filter_eq_nil_iff.mpr fun a ha hsame =>
        hnew hws (htx ▸ of_decide_eq_true hsame ▸ hp.attempted a ha)
      rw [hown v rfl hws, hnone]
      exact ⟨fun a ha => absurd ha List.not_mem_nil, rfl, fun a ha => by cases ha⟩
    · rw [hother v hne]
      exact hp.tracks v hv

end Paced

namespace SwapQueue

variable (q : SwapQueue) (height : Nat)

/-- **Every swap of a block was ready** when the block began. -/
theorem ready_agenda {s : Store} (hf : s.Filed) (hr : rests q.config height = false) {w : Swap}
    (hw : w ∈ q.agenda s height) : s.isReady w height q.config = true := by
  obtain ⟨cs, hsub, hperm⟩ := q.agenda_sublist height s
  obtain ⟨c, hc, hcw⟩ := List.mem_map.mp (hperm.subset (hsub.subset hw))
  exact ((considers_iff hr hf (q.swap?_of_mem_agenda height hf hw)).mp ⟨hr, c, hc, hcw⟩).1

/-- **A block** that begins with no pool of native. -/
theorem paced_endBlock (hc : h.Confined) {txs : List TxId} {attempts : List Deed} (state : σ)
    {l : Ledger} (hp : Paced txs attempts l.store) (hf : l.store.Filed)
    (hforeign : l.store.pool? .native = none) :
    Paced txs (attempts ++ ((q.journal h height state l).filter Entry.isAttempt).map
        (Deed.mk height q.config)) (endBlock h q height state l).2.ledger.store := by
  cases hr : rests q.config height with
  | true =>
      rw [store_endBlock_of_rests h q height state l hr, journal, if_pos hr, List.filter_nil,
        List.map_nil, List.append_nil]
      exact hp
  | false =>
      have hindexed : l.store.Indexed := hf.indexed.of_book hp.keyed hforeign
      have hdue : ∀ w ∈ q.agenda l.store height, w.isStreaming = true →
          (l.store.progress w).isDue height = true := fun w hw hs =>
        ((Store.isReady_iff hs).mp (q.ready_agenda height hf hr hw)).2
      obtain ⟨new, ⟨es, hlog, rfl⟩, hpaced⟩ := Paced.foldl_step hc.keepsBook hc.keepsKeys q.config
        height (PairIndex.ofStore l.store) (q.nodup_agenda height hindexed)
        (⟨q.openBlock height state l, []⟩, []) hp (q.queued_agenda height hindexed) hdue
      rw [List.nil_append] at hlog
      rw [store_endBlock h q height state l hr, journal, if_neg (Bool.eq_false_iff.mp hr), runBlock,
        hlog]
      exact hpaced.congr (hpaced.keyed.setPairFlags _) fun v hv => ⟨hv, rfl⟩

end SwapQueue

/-! ### A queue at work -/

/-- The transactions of the streaming swaps. -/
def Swap.streamTxs (ws : List Swap) : List TxId := (ws.filter Swap.isStreaming).map Swap.tx

theorem Swap.streamTxs_concat (ws : List Swap) (w : Swap) :
    streamTxs (ws ++ [w]) = streamTxs ws ++ if w.isStreaming then [w.tx] else [] := by
  rw [streamTxs, List.filter_append, List.map_append, List.filter_singleton]
  cases w.isStreaming <;> rfl

namespace Desk

/-- The swaps that a desk has accepted from an empty queue on and what its blocks have done for
them.  Between the calls its configuration, the pools and the supplies may change; every block
begins in a store of which `begins` holds. -/
inductive Records (h : Handler σ) (begins : Store → Prop) :
    Desk σ → List Swap → List Deed → Prop
  | start {d : Desk σ} (keyed : d.ledger.store.Keyed) (queue : d.ledger.store.queue = .empty)
      (limits : d.ledger.store.limits = .empty) : Records h begins d [] []
  | accept {d : Desk σ} {ws : List Swap} {deeds : List Deed} {w : Swap} {q : SwapQueue} {s : Store}
      (records : Records h begins d ws deeds)
      (accepted : d.queue.accept d.ledger.store w = .ok (q, s)) :
      Records h begins ⟨q, d.handler, d.ledger.withStore s⟩ (ws ++ [w]) deeds
  | endBlock {d : Desk σ} {ws : List Swap} {deeds : List Deed} (height : Nat)
      (records : Records h begins d ws deeds) (begun : begins d.ledger.store) :
      Records h begins (d.serve h (.endBlock height)) ws
        (deeds ++ (d.queue.journal h height d.handler d.ledger).map (.mk height d.queue.config))
  | configure {d : Desk σ} {ws : List Swap} {deeds : List Deed} (config : Config)
      (records : Records h begins d ws deeds) :
      Records h begins { d with queue := { d.queue with config := config } } ws deeds
  | outside {d : Desk σ} {ws : List Swap} {deeds : List Deed} {s : Store}
      (records : Records h begins d ws deeds) (adjusts : d.ledger.store.Adjusts s) :
      Records h begins { d with ledger := d.ledger.withStore s } ws deeds

namespace Records

variable {begins : Store → Prop} {d : Desk σ} {ws : List Swap} {deeds : List Deed}

/-- A call that accepts its swap. -/
theorem serve_accept (hr : d.Records h begins ws deeds) {w : Swap}
    (hok : (d.queue.accept d.ledger.store w).isOk = true) :
    (d.serve h (.accept w)).Records h begins (ws ++ [w]) deeds := by
  cases ho : d.queue.accept d.ledger.store w with
  | error e =>
      rw [ho] at hok
      cases hok
  | ok out =>
      rw [serve, ho]
      exact hr.accept ho

theorem filed (hr : d.Records h begins ws deeds) (hc : h.Confined) :
    d.ledger.store.Filed ∧ d.ledger.store.Keyed := by
  induction hr with
  | start keyed queue limits => exact ⟨.of_empty keyed queue limits, keyed⟩
  | @accept d _ _ w q s _ accepted ih =>
      have hserve := filed_serve hc ih.1 ih.2 (.accept w)
      simp only [serve, accepted] at hserve
      exact hserve
  | endBlock height _ _ ih => exact filed_serve hc ih.1 ih.2 (.endBlock height)
  | configure config _ ih => exact ih
  | outside _ adjusts ih => exact ⟨ih.1.congr adjusts.sameBook, adjusts.keyed ih.2⟩

/-- **No streaming swap runs while streaming is paused.** -/
theorem not_paused (hr : d.Records h begins ws deeds) (hc : h.Confined) :
    ∀ a ∈ deeds, a.swap.isStreaming = true → a.config.streaming.pause = false := by
  induction hr with
  | start => exact fun a ha => absurd ha List.not_mem_nil
  | accept _ _ ih => exact ih
  | @endBlock d _ _ height records _ ih =>
      intro a ha hs
      rcases List.mem_append.mp ha with ha | ha
      · exact ih a ha hs
      · obtain ⟨e, he, rfl⟩ := List.mem_map.mp ha
        have hrests : SwapQueue.rests d.queue.config height = false := by
          rw [Bool.eq_false_iff]
          intro hrests
          rw [SwapQueue.journal, if_pos hrests] at he
          cases he
        exact ((Store.isReady_iff hs).mp (d.queue.ready_agenda height
          (records.filed hc).1 hrests (d.queue.swap_mem_agenda height he))).1
  | configure _ _ ih => exact ih
  | outside _ _ ih => exact ih

/-- Streams stay whole intervals past their attempts, while no pool of native is stored. -/
theorem paced (hr : d.Records h begins ws deeds) (hc : h.Confined)
    (hforeign : ∀ s, begins s → s.pool? .native = none) (hdistinct : (Swap.streamTxs ws).Nodup) :
    Paced (Swap.streamTxs ws) (deeds.filter Deed.isAttempt) d.ledger.store := by
  induction hr with
  | @start d keyed queue limits =>
      have hnone : ∀ v, ¬ d.ledger.store.Streams v := fun v hv => by
        have hqueued := hv.1
        rw [Store.swap?, queue] at hqueued
        cases hqueued
      exact ⟨keyed, fun v hv => absurd hv (hnone v), fun v _ hv => absurd hv (hnone v),
        fun v hv => absurd hv (hnone v), fun a ha => absurd ha List.not_mem_nil,
        fun v hv => absurd hv (hnone v), .nil⟩
  | @accept d ws _ w _ _ _ accepted ih =>
      rw [Swap.streamTxs_concat] at hdistinct ⊢
      obtain ⟨hbefore, -, hapart⟩ := List.nodup_append.mp hdistinct
      refine (ih hbefore).accept accepted fun hs htx => ?_
      rw [if_pos hs] at hapart
      exact hapart w.tx htx w.tx (List.mem_singleton_self _) rfl
  | @endBlock d _ deeds height records begun ih =>
      have hblock := d.queue.paced_endBlock height hc d.handler (ih hdistinct)
        (records.filed hc).1 (hforeign _ begun)
      rw [List.filter_append, List.filter_map]
      exact hblock
  | configure _ _ ih => exact ih hdistinct
  | outside _ adjusts ih =>
      exact (ih hdistinct).sameBook (adjusts.keyed (ih hdistinct).keyed) adjusts.sameBook

end Records

/-- **Slices keep their interval.**  Let a queue with a confined handler have served any calls, with
blocks at any heights, and let its streaming swaps have different transactions.  While no pool of
native is stored, of any two attempts at one stream the later is at a greater height, by whole
intervals, and the record of a stream that is still queued has one slot used up for each of its
attempts, the last of them at the height of the latest.  With any pools, no streaming swap has run
in a block that streaming is paused in. -/
theorem keeps_interval (hc : h.Confined) {begins : Store → Prop} {d : Desk σ} {ws : List Swap}
    {deeds : List Deed} (hr : d.Records h begins ws deeds)
    (hdistinct : (Swap.streamTxs ws).Nodup) :
    ((∀ s, begins s → s.pool? .native = none) →
      ((deeds.filter Deed.isAttempt).Pairwise fun a b => a.swap.tx = b.swap.tx →
        a.swap = b.swap ∧ a.height < b.height ∧
          b.swap.streamInterval ∣ b.height - a.height) ∧
      ∀ v, d.ledger.store.Streams v → (d.ledger.store.progress v).Tracks v
        (Deed.under (deeds.filter Deed.isAttempt) v.tx)) ∧
      ∀ a ∈ deeds, a.swap.isStreaming = true → a.config.streaming.pause = false := by
  refine ⟨fun hforeign => ?_, hr.not_paused hc⟩
  have hpaced := hr.paced hc hforeign hdistinct
  exact ⟨hpaced.spaced, hpaced.tracks⟩

/-- A desk that cuts streams, and has nothing queued. -/
def slicingDesk : Desk Unit := { btcDesk with queue := ⟨Exchange.slicing, []⟩ }

/-- A sale of bitcoin in three slices, one every five blocks. -/
def btcSlicedSale : Swap := { Exchange.btcPart 0 3000000000 with streamQuantity := 3 }

/-- The sale has sold its first slice.  Streaming is paused when the second is due, and resumed
before the third would be. -/
def resumedDesk : Desk Unit :=
  let begun := slicingDesk.run .pools [.accept btcSlicedSale, .endBlock 1]
  let paused := { begun with queue := { begun.queue with config.streaming.pause := true } }
  let missed := paused.serve .pools (.endBlock 6)
  { missed with queue := { missed.queue with config.streaming.pause := false } }

/-- The second slice is sold ten blocks after the first, and the third is still to come. -/
theorem keeps_interval_resumed :
    let d := resumedDesk.serve .pools (.endBlock 11)
    ∃ deeds, Handler.pools.Confined ∧
      d.Records .pools (fun s => s.pool? .native = none) [btcSlicedSale] deeds ∧
      (Swap.streamTxs [btcSlicedSale]).Nodup ∧
      (deeds.filter Deed.isAttempt).map Deed.height = [1, 11] ∧
      ((deeds.filter Deed.isAttempt).Pairwise fun a b => a.swap.tx = b.swap.tx →
        a.swap = b.swap ∧ a.height < b.height ∧
          b.swap.streamInterval ∣ b.height - a.height) ∧
      (d.ledger.store.Streams btcSlicedSale ∧
        (d.ledger.store.progress btcSlicedSale).Tracks btcSlicedSale
          (Deed.under (deeds.filter Deed.isAttempt) btcSlicedSale.tx)) ∧
      ∀ a ∈ deeds, a.swap.isStreaming = true → a.config.streaming.pause = false := by
  have hstart : slicingDesk.Records .pools (fun s => s.pool? .native = none) [] [] :=
    .start (Store.Keyed.empty.setPool _) rfl rfl
  have haccept := hstart.serve_accept (w := btcSlicedSale) (by decide +kernel)
  have hbegun := haccept.endBlock 1 (by decide +kernel)
  have hmissed := (hbegun.configure { Exchange.slicing with streaming.pause := true }).endBlock 6
    (by decide +kernel)
  have hrecords := (hmissed.configure Exchange.slicing).endBlock 11 (by decide +kernel)
  have hdistinct : (Swap.streamTxs [btcSlicedSale]).Nodup := by decide
  have hqueued : (resumedDesk.serve .pools (.endBlock 11)).ledger.store.Streams btcSlicedSale :=
    ⟨by decide +kernel, by decide⟩
  obtain ⟨hpaced, hpause⟩ := keeps_interval Handler.pools_confined hrecords hdistinct
  obtain ⟨hspaced, htracks⟩ := hpaced fun _ hforeign => hforeign
  exact ⟨_, Handler.pools_confined, hrecords, hdistinct, by decide +kernel, hspaced,
    ⟨hqueued, htracks _ hqueued⟩, hpause⟩

/-- A limit order for bitcoin in three slices, one every five blocks. -/
def btcSlicedBid : Swap :=
  ⟨⟨"02"⟩, 0, ⟨"bob"⟩, ⟨.native, 3000000000⟩, ⟨"BTC", "BTC", .layer1⟩, ⟨"bob"⟩, 1000000000, .limit,
    5, 3, none, 1⟩

/-- A sale of bitcoin has flagged its purchases, and the order has been accepted.  Beside the pool
of bitcoin there is one of native against itself. -/
def slicingBesideNative : Desk Unit :=
  let pool : Pool := ⟨.native, 100000000000, 100000000000, 100000000000, 0, 0, 0, .available, 8⟩
  { slicingDesk with ledger := ⟨SwapQueue.btcStore.setPool pool, []⟩ }.run .pools
    [.accept btcDump, .endBlock 1, .accept btcSlicedBid]

/-- Every pair with native stands on the walk twice, so two slices are sold at one height. -/
theorem two_slices_native :
    ∃ deeds, (slicingBesideNative.serve .pools (.endBlock 2)).Records .pools (fun _ => True)
        [btcDump, btcSlicedBid] deeds ∧
      (Swap.streamTxs [btcDump, btcSlicedBid]).Nodup ∧
      (deeds.filter Deed.isAttempt).map (fun a => (a.height, a.swap)) =
        [(2, btcSlicedBid), (2, btcSlicedBid)] ∧
      ¬ (deeds.filter Deed.isAttempt).Pairwise fun a b => a.swap.tx = b.swap.tx →
        a.swap = b.swap ∧ a.height < b.height ∧
          b.swap.streamInterval ∣ b.height - a.height := by
  have hstart : (⟨slicingDesk.queue, (), ⟨SwapQueue.btcStore.setPool ⟨.native, 100000000000,
      100000000000, 100000000000, 0, 0, 0, .available, 8⟩, []⟩⟩ : Desk Unit).Records .pools
      (fun _ => True) [] [] := .start ((Store.Keyed.empty.setPool _).setPool _) rfl rfl
  have hflagged := (hstart.serve_accept (w := btcDump) (by decide +kernel)).endBlock 1 trivial
  obtain ⟨before, hbefore, hnone⟩ : ∃ before, slicingBesideNative.Records .pools (fun _ => True)
      [btcDump, btcSlicedBid] before ∧ before.filter Deed.isAttempt = [] := by
    refine ⟨_, hflagged.serve_accept (w := btcSlicedBid) (by decide +kernel), ?_⟩
    rw [← List.length_eq_zero_iff]
    decide +kernel
  have hagenda : slicingBesideNative.queue.agenda slicingBesideNative.ledger.store 2 =
      [btcSlicedBid, btcSlicedBid] := by
    rw [SwapQueue.agenda_of_pairwise _ _ (by decide +kernel)]
    decide +kernel
  have hattempts : ((before ++ (slicingBesideNative.queue.journal .pools 2
      slicingBesideNative.handler slicingBesideNative.ledger).map
        (Deed.mk 2 slicingBesideNative.queue.config)).filter Deed.isAttempt).map
          (fun a => (a.height, a.swap)) = [(2, btcSlicedBid), (2, btcSlicedBid)] := by
    rw [List.filter_append, hnone, List.nil_append, SwapQueue.journal,
      if_neg (by decide +kernel), SwapQueue.runBlock, hagenda]
    decide +kernel
  refine ⟨_, hbefore.endBlock 2 trivial, by decide, hattempts, fun hspaced => ?_⟩
  have hheights : [(2, btcSlicedBid), (2, btcSlicedBid)].Pairwise fun a b : Nat × Swap =>
      a.2.tx = b.2.tx → a.1 < b.1 := by
    rw [← hattempts]
    exact List.pairwise_map.mpr (hspaced.imp fun h htx => (h htx).2.1)
  exact absurd (List.pairwise_pair.mp hheights rfl) (Nat.lt_irrefl 2)

end Desk

end PoolExchange
