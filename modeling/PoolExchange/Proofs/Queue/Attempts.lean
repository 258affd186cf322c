import PoolExchange.Proofs.Exchange.Isolation
import PoolExchange.Proofs.Queue.Settlement

/-!
# Queue — one attempt at a slice

A run of a streaming swap makes at most one attempt at a slice.  It is an `Entry.isAttempt` when its
order is answered, unless it is the miss that leaves a limit swap waiting for its first slice, which
leaves no trace in the stream.

**After an attempt the swap has left the queue, or its stream has used up a slot at this height**
(`Journal.tried_executeSlice`); without one it has left the queue, or its stream is as it was.
What other swaps read is as it was in either case (`Journal.frame_execute`).  All of this holds for
every handler that leaves queue, index and streams alone.
-/

namespace PoolExchange

variable {σ : Type} {h : Handler σ}

/-- The entry runs an order for a slice, and does not leave the swap waiting for its first one. -/
def Entry.isAttempt (e : Entry) : Bool :=
  e.swap.isStreaming &&
    match e.effect with
    | .order .part _ (.ok _) => true
    | .order .part _ (.error err) =>
      !((e.before.progress e.swap).count = 0 && e.swap.isLimit && err.isTransient)
    | _ => false

namespace Entry

variable {w : Swap} {s : Store} {o : Order}

theorem isAttempt_filled (hs : w.isStreaming = true) (fill : Fill) :
    (⟨w, s, .order .part o (.ok fill)⟩ : Entry).isAttempt = true := by
  simp [isAttempt, hs]

theorem isAttempt_failed (hs : w.isStreaming = true) (err : OrderError) :
    (⟨w, s, .order .part o (.error err)⟩ : Entry).isAttempt =
      !((s.progress w).count = 0 && w.isLimit && err.isTransient) := by
  simp [isAttempt, hs]

end Entry

/-! ### What other swaps read -/

/-- The entry is for the swap, and only a streaming swap stores progress, under its own
transaction. -/
def Entry.IsOwn (e : Entry) (w : Swap) : Prop :=
  e.swap = w ∧ ∀ p, e.effect = .progress p → w.isStreaming = true ∧ p.tx = w.tx

/-- **An effect for one swap** changes the progress that no other reads, unless it shares it. -/
theorem Entry.Leads.progress_eq (hb : h.KeepsBook) {config : Config} {e : Entry} {s : Store}
    (hl : e.Leads h config s) {w v : Swap} (he : e.IsOwn w) (hv : ¬ w.SharesStream v) :
    s.progress v = e.before.progress v := by
  obtain ⟨rfl, hprogress⟩ := he
  cases hl with
  | order swap role o state l => exact (hb config o state l).progress v
  | refund swap s role coin reason => exact (Payout.settled_sameBook s coin config).progress v
  | outbound swap s coin => exact (Payout.settled_sameBook s coin config).progress v
  | share | retain => rfl
  | progress swap s p =>
      obtain ⟨hs, htx⟩ := hprogress p rfl
      rw [Store.progress_setStream, if_neg fun e => hv ⟨hs, (e.trans htx).symm⟩]
  | drop swap s => rw [Store.progress_dropSwap, if_neg hv]

namespace Swap.EndsBy

variable {w : Swap} {ending : Ending} {effects : List Effect}

/-- A swap that does not stream stores no progress. -/
theorem not_progress (hends : w.EndsBy ending effects) (p : SwapStream) :
    .progress p ∉ effects := by
  cases hends with
  | retained e waits => simp
  | refunded e fails => simp
  | executed fill releases => cases releases <;> simp

end Swap.EndsBy

namespace Journal

/-- What running a swap writes down, each entry in the store that the one before left behind. -/
theorem trail_execute (config : Config) (height : Nat) {w : Swap} {j : Journal σ}
    (hk : j.run.ledger.store.Keyed) :
    ∃ es, (j.execute h config height w).1.log = j.log ++ es ∧ (∀ e ∈ es, e.IsOwn w) ∧
      Trail h config j.run.ledger.store es (j.execute h config height w).1.run.ledger.store := by
  obtain ⟨es, hlog, hfor, ht⟩ : Grows h config w w.tx j (j.execute h config height w).1 :=
    grows_execute height (hk.tx_progress w)
  refine ⟨es, hlog, fun e he => ⟨(hfor e he).1, fun p hp => ⟨?_, (hfor e he).2 p hp⟩⟩, ht⟩
  by_contra hs
  obtain ⟨ending, effects, ⟨es', hlog', rfl⟩, hends⟩ := endsBy_executeSingle h config w j
  rw [execute, if_neg hs, hlog'] at hlog
  obtain rfl := List.append_cancel_left hlog
  exact hends.not_progress p (hp ▸ List.mem_map_of_mem he)

/-- **A swap that runs leaves the others alone**, and is itself still queued or not. -/
theorem frame_execute (hb : h.KeepsBook) (hkeys : h.KeepsKeys) (config : Config) (height : Nat)
    {w : Swap} {j : Journal σ} (hk : j.run.ledger.store.Keyed) :
    let s := j.run.ledger.store
    let s' := (j.execute h config height w).1.run.ledger.store
    s'.Keyed ∧ (∀ k, k ≠ w.key → s'.swap? k = s.swap? k) ∧
      (s'.swap? w.key = s.swap? w.key ∨ s'.swap? w.key = none) ∧
      ∀ v, ¬ w.SharesStream v → s'.progress v = s.progress v := by
  intro s s'
  obtain ⟨es, -, hown, ht⟩ := trail_execute (h := h) config height (w := w) hk
  refine ⟨ht.induct hk fun e _ s hs hl => hl.keyed hkeys hs, fun k hne => ?_, ?_, fun v hv => ?_⟩
  · rw [ht.swap?_eq hb k, if_neg]
    intro hmem
    obtain ⟨e, he, hdrop⟩ := List.mem_filterMap.mp hmem
    refine hne ?_
    rw [← (Entry.dropped?_eq_some_iff.mp hdrop).2, (hown e he).1]
  · rw [ht.swap?_eq hb w.key]
    split
    · exact .inr rfl
    · exact .inl rfl
  · exact ht.induct (P := fun t => t.progress v = s.progress v) rfl fun e he t ih hl =>
      (hl.progress_eq hb (hown e he) hv).trans ih

/-! ### What a run attempts -/

/-- The attempts from `j` to `j'`. -/
def Attempts (j j' : Journal σ) (attempts : List Entry) : Prop :=
  ∃ es, j'.log = j.log ++ es ∧ es.filter Entry.isAttempt = attempts

theorem Attempts.refl (j : Journal σ) : Attempts j j [] := ⟨[], (List.append_nil _).symm, rfl⟩

theorem Attempts.trans {j j' j'' : Journal σ} {as as' : List Entry} (i : Attempts j j' as)
    (i' : Attempts j' j'' as') : Attempts j j'' (as ++ as') := by
  obtain ⟨es, hlog, rfl⟩ := i
  obtain ⟨es', hlog', rfl⟩ := i'
  exact ⟨es ++ es', by rw [hlog', hlog, List.append_assoc], List.filter_append ..⟩

/-- Only an order for a part is an attempt. -/
theorem Writes.attempts {j j' : Journal σ} {effects : List Effect} (hw : Writes j j' effects)
    (hother : ∀ o answer, .order .part o answer ∉ effects) : Attempts j j' [] := by
  obtain ⟨es, hlog, rfl⟩ := hw
  refine ⟨es, hlog, List.filter_eq_nil_iff.mpr fun e he => Bool.not_eq_true _ ▸ ?_⟩
  have heffect := List.mem_map_of_mem (f := Entry.effect) he
  rw [Entry.isAttempt]
  split
  · rename_i o fill hpart
    exact absurd (hpart ▸ heffect) (hother o _)
  · rename_i o err hpart
    exact absurd (hpart ▸ heffect) (hother o _)
  · exact Bool.and_false _

section Run

variable (h) (config : Config) (w : Swap) (j : Journal σ)

theorem attempts_releaseAffiliate : Attempts j (j.releaseAffiliate h config w) [] := by
  obtain ⟨effects, hwrites, hreleases⟩ := releases_releaseAffiliate h config w j
  refine hwrites.attempts fun o answer => ?_
  cases hreleases <;> simp

theorem attempts_giveBack (e : OrderError) : Attempts j (j.giveBack w e config) [] :=
  (writes_giveBack config w j e).attempts (by simp)

/-- Settling attempts nothing, and the swap is gone. -/
theorem attempts_settleStream (p : SwapStream) :
    Attempts j (j.settleStream config w p) [] ∧
      (j.settleStream config w p).run.ledger.store.swap? w.key = none := by
  have hpay : ∀ (j' : Journal σ) coin, Attempts j' (j'.pay w coin config) [] := fun j' coin =>
    (writes_pay config w j' coin).attempts (by simp)
  have hrefund : ∀ (j' : Journal σ) coin reason,
      Attempts j' (j'.refund w .part coin reason config) [] := fun j' coin reason =>
    (writes_note j' w (.refund .part coin reason) _).attempts (by simp)
  constructor
  · rw [settleStream]
    refine Attempts.trans (?_ : Attempts j _ []) ((writes_drop w _).attempts (by simp))
    by_cases ho : p.output.isZero <;> by_cases hr : p.remainder.isZero
    · simp only [if_pos ho, if_pos hr]
      exact .refl j
    · simp only [if_pos ho, if_neg hr]
      exact hrefund j _ _
    · simp only [if_neg ho, if_pos hr]
      exact hpay j _
    · simp only [if_neg ho, if_neg hr]
      exact (hpay j _).trans (hrefund _ _ _)
  · rw [settleStream]
    exact swap?_drop w _

/-- Progress of a stream that is open is stored; any other swap is gone. -/
theorem attempts_storeProgress {p : SwapStream} (htx : p.tx = w.tx) :
    Attempts j (j.storeProgress config w p) [] ∧
      ((j.storeProgress config w p).run.ledger.store.swap? w.key = none ∨
        p.isDone = false ∧ (j.storeProgress config w p).run.ledger.store.progress w = p) := by
  rw [storeProgress]
  split
  · obtain ⟨hattempts, hgone⟩ := attempts_settleStream config w j p
    exact ⟨hattempts, .inl hgone⟩
  · rename_i hopen
    refine ⟨(writes_note j w (.progress p) _).attempts (by simp), .inr ⟨by simpa using hopen, ?_⟩⟩
    show (j.run.ledger.store.setStream p).progress w = p
    rw [Store.progress_setStream, if_pos htx.symm]

end Run

end Journal

/-- From `p` to `p'` a slot has been used up at the height. -/
structure SwapStream.UsedAt (p : SwapStream) (height : Nat) (p' : SwapStream) : Prop where
  interval : p'.interval = p.interval
  count : p'.count = p.count + 1
  lastHeight : p'.lastHeight = height

/-- A stream that goes on after a slice was open before it. -/
theorem SwapStream.usedAt_recorded {p : SwapStream} {height : Nat} {input output : Amount}
    (hopen : (BlockRun.recorded p height input output).isDone = false) :
    p.UsedAt height (BlockRun.recorded p height input output) := by
  by_cases hdone : p.isDone = true
  · have hsame : BlockRun.recorded p height input output = p := by
      rw [BlockRun.recorded, recordSwap, if_pos hdone]
    rw [hsame, hdone] at hopen
    cases hopen
  · rw [recorded_eq (Bool.eq_false_iff.mpr hdone)]
    exact ⟨rfl, rfl, rfl⟩

namespace Journal

/-- What a run of a streaming swap at the height can come to. -/
inductive Tried (w : Swap) (height : Nat) (j j' : Journal σ) : Prop
  /-- No slice was attempted. -/
  | nothing (attempts : Attempts j j' [])
      (kept : j'.run.ledger.store.swap? w.key = none ∨
        j'.run.ledger.store.progress w = j.run.ledger.store.progress w)
  /-- One was. -/
  | once (e : Entry) (attempts : Attempts j j' [e]) (own : e.swap = w)
      (used : j'.run.ledger.store.swap? w.key = none ∨
        (j.run.ledger.store.progress w).UsedAt height (j'.run.ledger.store.progress w))

section Slice

variable {w : Swap} {j j₁ : Journal σ} {o : Order}

/-- **An order that is filled** uses up a slot, and may complete the stream. -/
theorem tried_filled (hs : w.isStreaming = true) (hk : j.run.ledger.store.Keyed) {fill : Fill}
    (hcall : j₁.log = j.log ++ [⟨w, j.run.ledger.store, .order .part o (.ok fill)⟩])
    (config : Config) (height : Nat) (size output : Amount) {j₂ : Journal σ}
    (hrelease : Attempts j₁ j₂ []) :
    Tried w height j (j₂.storeProgress config w
      (BlockRun.recorded (j.run.ledger.store.progress w) height size output)) := by
  have hone : Attempts j j₁ [⟨w, j.run.ledger.store, .order .part o (.ok fill)⟩] :=
    ⟨_, hcall, by rw [List.filter_singleton, Entry.isAttempt_filled hs]; rfl⟩
  obtain ⟨hstore, hafter⟩ := attempts_storeProgress config w j₂
    (p := BlockRun.recorded (j.run.ledger.store.progress w) height size output)
    ((tx_recorded _ _ _ _).trans (hk.tx_progress w))
  refine .once _ ((hone.trans hrelease).trans hstore) rfl (hafter.imp_right ?_)
  rintro ⟨hopen, hprogress⟩
  rw [hprogress]
  exact SwapStream.usedAt_recorded hopen

/-- **An order that fails**: the swap waits for its first slice, gets its source back, or uses up a
slot. -/
theorem tried_failed (hs : w.isStreaming = true) (hk : j.run.ledger.store.Keyed) {e : OrderError}
    (hcall : j₁.log = j.log ++ [⟨w, j.run.ledger.store, .order .part o (.error e)⟩])
    (hkept : j₁.run.ledger.store.progress w = j.run.ledger.store.progress w) (config : Config)
    (height : Nat) :
    Tried w height j
      (if (j.run.ledger.store.progress w).count = 0 && w.isLimit && e.isTransient then
        (j₁.retain w, false)
      else if (j.run.ledger.store.progress w).input.isZero &&
          (j.run.ledger.store.progress w).output.isZero then (j₁.giveBack w e config, false)
      else (storeProgress config w
        ((j.run.ledger.store.progress w).recordFailure height e.message)
        { j₁ with run.report.sliceFailures := j₁.run.report.sliceFailures + 1 }, false)).1 := by
  split
  · rename_i hwaits
    have hnone : Attempts j j₁ [] :=
      ⟨_, hcall, by rw [List.filter_singleton, Entry.isAttempt_failed hs, hwaits]; rfl⟩
    exact .nothing (hnone.trans ((writes_note j₁ w .retain _).attempts (by simp))) (.inr hkept)
  · rename_i hfails
    have hone : Attempts j j₁ [⟨w, j.run.ledger.store, .order .part o (.error e)⟩] := ⟨_, hcall, by
      rw [List.filter_singleton, Entry.isAttempt_failed hs, Bool.eq_false_iff.mpr hfails]
      rfl⟩
    split
    · exact .once _ (hone.trans (attempts_giveBack config w j₁ e)) rfl (.inl (swap?_drop w _))
    · obtain ⟨hstore, hafter⟩ := attempts_storeProgress config w
        { j₁ with run.report.sliceFailures := j₁.run.report.sliceFailures + 1 }
        (p := (j.run.ledger.store.progress w).recordFailure height e.message) (hk.tx_progress w)
      refine .once _ (hone.trans hstore) rfl (hafter.imp_right fun hstored => ?_)
      rw [hstored.2]
      exact ⟨rfl, rfl, rfl⟩

/-- **A run of a streaming swap makes at most one attempt.**  With it the swap leaves the queue or
uses up a slot of its stream; without it the swap leaves the queue or nothing comes of it. -/
theorem tried_executeSlice (hb : h.KeepsBook) (config : Config) (height : Nat)
    (hs : w.isStreaming = true) (hk : j.run.ledger.store.Keyed) :
    Tried w height j (j.executeSlice h config height w).1 := by
  have hkept : ∀ o, (j.call h config w .part o).1.run.ledger.store.progress w =
      j.run.ledger.store.progress w := fun o =>
    Store.SameBook.progress w (hb config o j.run.handler j.run.ledger)
  have hcall : ∀ o, (j.call h config w .part o).1.log =
      j.log ++ [⟨w, j.run.ledger.store, .order .part o (j.call h config w .part o).2⟩] :=
    fun _ => rfl
  rw [executeSlice]
  cases (j.run.ledger.store.progress w).nextSlice with
  | error e =>
      obtain ⟨hattempts, hgone⟩ := attempts_settleStream config w j
        (j.run.ledger.store.progress w)
      exact .nothing hattempts (.inl hgone)
  | ok slice =>
      obtain ⟨size, target⟩ := slice
      specialize hcall (BlockRun.orderOf w size target)
      specialize hkept (BlockRun.orderOf w size target)
      dsimp only
      generalize j.call h config w .part (BlockRun.orderOf w size target) = out at hcall hkept ⊢
      obtain ⟨j₁, e | fill⟩ := out
      · exact tried_failed hs hk hcall hkept config height
      · refine tried_filled hs hk hcall config height size fill.emit.amount ?_
        split
        · exact attempts_releaseAffiliate h config w j₁
        · exact .refl j₁

end Slice

end Journal

end PoolExchange
