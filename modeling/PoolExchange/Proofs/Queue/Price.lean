import PoolExchange.Proofs.Queue.Account
import PoolExchange.Proofs.Queue.Outcome

/-!
# Queue — no swap is sold below its target

A swap that does not stream runs as one order for its whole trade target, and an order that is
filled emits at least its target.  A stream cuts deposit and target alike, by division without
rest, and a slot that fails sells nothing.  So the slots before the last leave something of the
deposit unsold, whatever mix of successes and failures they are: only the last slot can complete
the deposit, and it sells all that is left of it for all that is left of the target
(`SwapStream.Turn.honours`).

The invariant of a block is `Ledger.Guarded`: every queued swap has been accepted, every stored
stream of an accepted swap cuts that swap's deposit and target and has not sold its deposit, and
every stream that was reported to end with its deposit sold has met its target.
-/

namespace PoolExchange

/-! ### One stream -/

namespace SwapStream

/-- `p` is progress of `w` that has not sold the deposit. -/
structure Serves (p : SwapStream) (w : Swap) : Prop where
  tx : p.tx = w.tx
  tradeTarget : p.tradeTarget = w.tradeTarget
  inStep : p.InStep
  unsold : p.deposit.toNat ≠ 0 → p.input.toNat < p.deposit.toNat

/-- If `p` has sold its deposit, it has met its target. -/
def Honours (p : SwapStream) : Prop :=
  p.input = p.deposit → p.deposit.toNat ≠ 0 → p.tradeTarget ≤ p.output

variable {p p' : SwapStream} {w : Swap} {height : Nat}

theorem serves_ofSwap (hq : w.streamQuantity < Amount.bound) : (SwapStream.ofSwap w).Serves w where
  tx := rfl
  tradeTarget := rfl
  inStep := ⟨hq, Nat.zero_le _⟩
  unsold h := Nat.pos_of_ne_zero h

theorem Serves.honours (hs : p.Serves w) : p.Honours := by
  intro hsold hdeposit
  have hunsold := hs.unsold hdeposit
  rw [hsold] at hunsold
  exact absurd hunsold (Nat.lt_irrefl _)

/-- The next slice of a stream that is not done asks for what is left of the target, or for an
equal part. -/
theorem nextSize_snd_of_last (h : p.isDone = false) (hlast : p.quantity ≤ p.count + 1) :
    p.nextSize.2.toNat = p.tradeTarget.toNat - p.output.toNat := by
  have hcount := (isDone_eq_false.mp h).1
  have hzero : ¬ p.quantity = 0 := by omega
  simp only [nextSize, h, hzero, hlast, decide_false, Bool.or_self, Bool.false_eq_true, if_false,
    if_true, Amount.toNat_sub]

/-- **Slots before the last leave something unsold.** -/
theorem input_add_nextSize_lt (hs : p.InStep) (h : p.isDone = false)
    (hmore : p.count + 1 < p.quantity) (hdeposit : p.deposit.toNat ≠ 0) :
    p.input.toNat + p.nextSize.1.toNat < p.deposit.toNat := by
  have hsold : p.input.toNat + p.deposit.toNat / p.quantity ≤
      (p.count + 1) * (p.deposit.toNat / p.quantity) := by
    have hinput := hs.input_le
    rw [Nat.add_mul, Nat.one_mul]
    omega
  have hall : p.quantity * (p.deposit.toNat / p.quantity) ≤ p.deposit.toNat :=
    Nat.mul_div_le _ _
  rw [nextSize_fst hs.quantity_lt h, if_neg (by omega)]
  by_cases hslice : p.deposit.toNat / p.quantity = 0
  · -- the slices are empty
    rw [hslice] at hsold ⊢
    omega
  · have hfewer : (p.count + 1) * (p.deposit.toNat / p.quantity) <
        p.quantity * (p.deposit.toNat / p.quantity) :=
      Nat.mul_lt_mul_of_pos_right hmore (Nat.pos_of_ne_zero hslice)
    omega

/-- **A stream that has sold its deposit has met its target**, and one that goes on still serves
its swap. -/
theorem Turn.honours (t : p.Turn height p') (hs : p.Serves w) :
    p'.Honours ∧ p'.tradeTarget = w.tradeTarget ∧ (p'.isDone = false → p'.Serves w) := by
  cases t with
  | failed reason =>
      refine ⟨?_, hs.tradeTarget, fun _ => ⟨hs.tx, hs.tradeTarget,
        inStep_recordFailure hs.inStep height reason, hs.unsold⟩⟩
      -- nothing is sold, so there is as much left as before
      intro hsold hdeposit
      have hunsold := hs.unsold hdeposit
      rw [show p.input = p.deposit from hsold] at hunsold
      exact absurd hunsold (Nat.lt_irrefl _)
  | sold output isOpen enough =>
      obtain ⟨hinput, hstep⟩ := inStep_recorded hs.inStep isOpen height output
      rw [recorded_eq isOpen] at hinput hstep ⊢
      refine ⟨?_, hs.tradeTarget, fun hopen => ⟨hs.tx, hs.tradeTarget, hstep hopen,
        fun _ => (isDone_eq_false.mp hopen).2⟩⟩
      intro hsold hdeposit
      have hsum : p.input.toNat + p.nextSize.1.toNat = p.deposit.toNat :=
        hinput.symm.trans (congrArg Amount.toNat hsold)
      have hlast : p.quantity ≤ p.count + 1 := by
        by_contra hmore
        have hless := input_add_nextSize_lt hs.inStep isOpen (by omega) hdeposit
        omega
      rw [Amount.le_def, nextSize_snd_of_last isOpen hlast] at enough
      have hbound := p.tradeTarget.toNat_lt
      show p.tradeTarget.toNat ≤ (p.output + output).toNat
      rw [Amount.toNat_add]
      omega

end SwapStream

/-! ### One order -/

/-- If the entry fills an order for a swap that does not stream, it emits the target of the swap. -/
def Entry.KeepsTarget (e : Entry) : Prop :=
  ∀ o fill, e.effect = .order .part o (.ok fill) → e.swap.isStreaming = false →
    e.swap.tradeTarget ≤ fill.emit.amount

namespace Journal

variable {w : Swap} {j j' : Journal Unit} (config : Config)

/-- Entries that sell no part keep every target. -/
theorem Tallies.keepsTarget {t : Tally} (h : Tallies w j j' t) (ht : t.parts = []) :
    ∃ es, j'.log = j.log ++ es ∧ ∀ e ∈ es, e.KeepsTarget := by
  obtain ⟨es, hlog, -, rfl⟩ := h
  refine ⟨es, hlog, fun e he o fill heffect => ?_⟩
  have hpart := List.filterMap_eq_nil_iff.mp ht e he
  rw [Entry.part?, heffect] at hpart
  cases hpart

/-- A swap that does not stream is sold by one order for its target. -/
theorem keepsTarget_executeSingle (w : Swap) (j : Journal Unit) :
    ∃ es, (j.executeSingle .pools config w).1.log = j.log ++ es ∧ ∀ e ∈ es, e.KeepsTarget := by
  rw [executeSingle]
  have hcall : ∀ j₁ answer, j.call .pools config w .part
      (BlockRun.orderOf w w.primaryAmount w.tradeTarget) = (j₁, answer) →
      ∃ e, j₁.log = j.log ++ [e] ∧ e.KeepsTarget := by
    intro j₁ answer he
    obtain ⟨rfl, rfl⟩ := Prod.mk.inj he
    refine ⟨_, rfl, fun o fill heffect _ => ?_⟩
    obtain ⟨-, -, hanswer⟩ := Effect.order.inj heffect
    rcases Handler.pools_cases config (BlockRun.orderOf w w.primaryAmount w.tradeTarget)
      j.run.ledger with ⟨l', fill', hrun, hout⟩ | ⟨err, -, hout⟩
    · rw [BlockRun.call, hout] at hanswer
      rw [← Except.ok.inj hanswer]
      exact Order.tradeTarget_le_of_run hrun
    · rw [BlockRun.call, hout] at hanswer
      cases hanswer
  -- what follows the order sells nothing
  have hafter : ∀ j₁ j₂ e t, j₁.log = j.log ++ [e] → e.KeepsTarget → Tallies w j₁ j₂ t →
      t.parts = [] → ∃ es, j₂.log = j.log ++ es ∧ ∀ e ∈ es, e.KeepsTarget := by
    intro j₁ j₂ e t hlog he htallies ht
    obtain ⟨es, hes, hkeep⟩ := htallies.keepsTarget ht
    refine ⟨e :: es, by rw [hes, hlog, List.append_assoc, List.singleton_append], ?_⟩
    exact List.forall_mem_cons.mpr ⟨he, hkeep⟩
  rcases hout : j.call .pools config w .part
    (BlockRun.orderOf w w.primaryAmount w.tradeTarget) with ⟨j₁, answer⟩
  obtain ⟨e, hlog, he⟩ := hcall j₁ answer hout
  cases answer with
  | ok fill =>
      exact hafter j₁ _ e _ hlog he (((quiet_releaseAffiliate config w j₁).tallies.trans
        (quiet_pay config w _ _).tallies).trans (tallies_note w _ .drop _)) rfl
  | error err =>
      dsimp only
      split
      · exact hafter j₁ _ e _ hlog he (tallies_note w j₁ .retain _) rfl
      · exact hafter j₁ _ e _ hlog he (tallies_giveBack config w j₁ err).1 rfl

/-- **Running a swap keeps its target**, and its entries are for it. -/
theorem keepsTarget_execute (w : Swap) (j : Journal Unit) (height : Nat) :
    ∃ es, (j.execute .pools config height w).1.log = j.log ++ es ∧
      ∀ e ∈ es, e.swap = w ∧ e.KeepsTarget := by
  obtain ⟨es, hlog, hfor, -⟩ : Grows .pools config w _ j (j.execute .pools config height w).1 :=
    grows_execute height rfl
  refine ⟨es, hlog, fun e he => ⟨(hfor e he).1, ?_⟩⟩
  cases hs : w.isStreaming with
  | true =>
      intro o fill _ hstream
      rw [(hfor e he).1, hs] at hstream
      cases hstream
  | false =>
      obtain ⟨es', hlog', hkeep⟩ := keepsTarget_executeSingle config w j
      rw [execute, hs, if_neg Bool.false_ne_true, hlog'] at hlog
      exact hkeep e (List.append_cancel_left hlog ▸ he)

end Journal

/-! ### One block -/

/-- If the event reports a stream that has sold its deposit, it has met the target of the streaming
swap among `A` that carries its transaction. -/
def Event.Honours (A : List Swap) : Event → Prop
  | .streamingSwap tx _ _ _ _ _ deposit input output _ =>
    input = deposit → deposit.toNat ≠ 0 →
      ∃ w ∈ A, w.tx = tx ∧ w.isStreaming = true ∧ w.tradeTarget ≤ output
  | _ => True

/-- The swaps that have been accepted are of different transactions, and in a storable number of
slices. -/
structure Admitted (A : List Swap) : Prop where
  distinct : (A.map Swap.tx).Nodup
  slices : ∀ w ∈ A, w.isStreaming = true → w.streamQuantity < Amount.bound

/-- **The invariant**, of a ledger and the swaps that have been accepted. -/
structure Ledger.Guarded (A : List Swap) (l : Ledger) : Prop where
  queued : ∀ k w, l.store.swap? k = some w → w ∈ A
  stream : ∀ w ∈ A, w.isStreaming = true → ∀ p, l.store.stream? w.tx = some p → p.Serves w
  ends : ∀ e ∈ l.events, e.Honours A

namespace Ledger.Guarded

variable {A : List Swap} {l l' : Ledger}

/-- Only the ends of streams have anything to honour. -/
theorem honours_of_filter {es es' : List Event} (h : ∀ e ∈ es, e.Honours A)
    (he : es'.filter Event.endsStream = es.filter Event.endsStream) : ∀ e ∈ es', e.Honours A := by
  intro e hmem
  cases e with
  | streamingSwap tx source target interval quantity count deposit input output failed =>
      have hends := List.mem_filter.mpr ⟨hmem, (rfl : Event.endsStream _ = true)⟩
      rw [he] at hends
      exact h _ (List.mem_filter.mp hends).1
  | _ => trivial

theorem sameBook (h : Guarded A l) (hb : l.store.SameBook l'.store)
    (he : l'.events.filter Event.endsStream = l.events.filter Event.endsStream) :
    Guarded A l' where
  queued k w hw := h.queued k w (by rw [Store.swap?, ← hb.queue]; exact hw)
  stream w hA hs p hp := h.stream w hA hs p (by rw [Store.stream?, ← hb.streams]; exact hp)
  ends := honours_of_filter h.ends he

theorem setPairFlags (h : Guarded A l) (flags : List Bool) :
    Guarded A (l.withStore (l.store.setPairFlags flags)) where
  queued := h.queued
  stream := h.stream
  ends := h.ends

/-- A swap that leaves takes its own stream with it. -/
theorem dropSwap (h : Guarded A l) (w : Swap) :
    Guarded A (l.withStore (BlockRun.dropSwap l.store w)) where
  queued k v hv := by
    have hv : (BlockRun.dropSwap l.store w).swap? k = some v := hv
    rw [BlockRun.swap?_dropSwap] at hv
    split at hv
    · cases hv
    · exact h.queued k v hv
  stream v hA hs p hp := by
    refine h.stream v hA hs p ?_
    have hp : (BlockRun.dropSwap l.store w).stream? v.tx = some p := hp
    rw [Store.stream?, (BlockRun.frame_dropSwap l.store w).2.2.2.2] at hp
    split at hp
    · rw [OrderedMap.find?_erase] at hp
      split at hp
      · cases hp
      · exact hp
    · exact hp
  ends := h.ends

/-- What a streaming swap reads as its progress serves it. -/
theorem progress (h : Guarded A l) (hA : Admitted A) {w : Swap} (hw : w ∈ A)
    (hs : w.isStreaming = true) : (l.store.progress w).Serves w := by
  rw [Store.progress]
  cases hp : l.store.stream? w.tx with
  | none => exact SwapStream.serves_ofSwap (hA.slices w hw hs)
  | some p => exact h.stream w hw hs p hp

/-- The end of a stream that honours its target is reported. -/
theorem emit (h : Guarded A l) {w : Swap} (hw : w ∈ A) (hs : w.isStreaming = true)
    {p : SwapStream} (hp : p.Honours) (htarget : p.tradeTarget = w.tradeTarget) :
    Guarded A (l.emit (BlockRun.streamEvent w p)) where
  queued := h.queued
  stream := h.stream
  ends e he := by
    rcases List.mem_append.mp he with he | he
    · exact h.ends e he
    · rw [List.mem_singleton.mp he]
      intro hsold hdeposit
      exact ⟨w, hw, rfl, hs, htarget ▸ hp hsold hdeposit⟩

/-- A stream that serves its swap is stored. -/
theorem setStream (h : Guarded A l) (hA : Admitted A) {w : Swap} (hw : w ∈ A) {p : SwapStream}
    (hp : p.Serves w) : Guarded A (l.withStore (l.store.setStream p)) where
  queued := h.queued
  stream v hv hs p' hp' := by
    have hp' : (l.store.setStream p).stream? v.tx = some p' := hp'
    rw [Store.stream?_setStream] at hp'
    split at hp'
    · rename_i htx
      -- the transaction tells the swaps apart
      obtain rfl := Option.some.inj hp'
      obtain rfl := List.inj_on_of_nodup_map hA.distinct hv hw (htx.trans hp.tx)
      exact hp
    · exact h.stream v hv hs p' hp'
  ends := h.ends

end Ledger.Guarded

variable {A : List Swap}

/-- **Running an accepted swap keeps the invariant.** -/
theorem BlockRun.Ran.guarded {height : Nat} {w : Swap} {r r' : BlockRun Unit}
    (ran : Ran height w r r') (hA : Admitted A) (hw : w ∈ A) (h : r.ledger.Guarded A) :
    r'.ledger.Guarded A := by
  cases ran with
  | waits calm => exact h.sameBook calm.book calm.ends
  | leaves calm => exact (h.sameBook calm.book calm.ends).dropSwap w
  | @settles r₁ p streaming calm turn =>
      have hserves := h.progress hA hw streaming
      have hhonours : p.Honours ∧ p.tradeTarget = w.tradeTarget := by
        rcases turn with rfl | turn
        · exact ⟨hserves.honours, hserves.tradeTarget⟩
        · exact ⟨(turn.honours hserves).1, (turn.honours hserves).2.1⟩
      exact ((h.sameBook calm.book calm.ends).emit hw streaming hhonours.1 hhonours.2).dropSwap w
  | @goesOn r₁ p streaming calm turn isOpen =>
      have hserves := (turn.honours (h.progress hA hw streaming)).2.2 isOpen
      exact (h.sameBook calm.book calm.ends).setStream hA hw hserves

namespace SwapQueue

variable {s : Store} (q : SwapQueue) (height : Nat)

/-- Every candidate is queued under some key. -/
theorem queued_candidates :
    ∀ c ∈ q.candidates s height, ∃ k, s.swap? k = some c.swap := by
  have hadd : ∀ (fresh : List SwapKey) (cs : List Candidate),
      (∀ c ∈ cs, ∃ k, s.swap? k = some c.swap) →
      ∀ c ∈ addFresh s height q.config fresh cs, ∃ k, s.swap? k = some c.swap := by
    intro fresh
    induction fresh with
    | nil => exact fun _ h => h
    | cons k fresh ih =>
        intro cs h
        rw [addFresh_cons]
        refine ih _ fun c hc => ?_
        rw [addFresh_singleton] at hc
        split at hc
        · exact h c hc
        · rcases List.mem_append.mp hc with hc | hc
          · exact h c hc
          · obtain ⟨w, hw, rfl⟩ := Option.map_eq_some_iff.mp (Option.mem_toList.mp hc)
            exact ⟨k, (Option.filter_eq_some_iff.mp hw).1⟩
  refine hadd q.fresh _ fun c hc => ?_
  rcases List.mem_append.mp hc with hc | hc
  · obtain ⟨w, hw, rfl⟩ := List.mem_map.mp hc
    exact OrderedMap.mem_values_iff.mp (List.mem_of_mem_filter hw)
  · obtain ⟨pair, -, hc⟩ := List.mem_flatMap.mp hc
    obtain ⟨b, -, hc⟩ := List.mem_flatMap.mp hc
    obtain ⟨w, hw, rfl⟩ := List.mem_map.mp hc
    obtain ⟨k, -, hk⟩ := List.mem_filterMap.mp hw
    exact ⟨k, (Option.filter_eq_some_iff.mp hk).1⟩

/-- So is every swap of a block. -/
theorem mem_of_mem_agenda {l : Ledger} (h : l.Guarded A) :
    ∀ w ∈ q.agenda l.store height, w ∈ A := by
  intro w hw
  obtain ⟨cs, hsub, hperm⟩ := q.agenda_sublist height l.store
  obtain ⟨c, hc, rfl⟩ := List.mem_map.mp (hperm.subset (hsub.subset hw))
  obtain ⟨k, hk⟩ := q.queued_candidates height c hc
  exact h.queued k c.swap hk

theorem guarded_foldl_step (config : Config) (index : PairIndex) (acc : BlockRun Unit × List Pair)
    (hA : Admitted A) {ws : List Swap} (hws : ∀ w ∈ ws, w ∈ A) (h : acc.1.ledger.Guarded A) :
    (ws.foldl (BlockRun.step .pools config height index) acc).1.ledger.Guarded A := by
  induction ws generalizing acc with
  | nil => exact h
  | cons w ws ih =>
      have hrun := (BlockRun.ran_execute config height w acc.1).guarded hA
        (hws w List.mem_cons_self) h
      refine ih _ (fun v hv => hws v (List.mem_cons_of_mem w hv)) ?_
      rw [BlockRun.step]
      split
      · exact hrun
      · exact hrun

/-- **A block keeps the invariant.** -/
theorem guarded_endBlock (hA : Admitted A) {l : Ledger} (h : l.Guarded A) :
    (endBlock .pools q height () l).2.ledger.Guarded A := by
  cases hr : rests q.config height with
  | true => rw [endBlock, if_pos hr]; exact h
  | false =>
      rw [endBlock, if_neg (Bool.eq_false_iff.mp hr)]
      have hrun := guarded_foldl_step height q.config (PairIndex.ofStore l.store)
        (q.openBlock height () l, []) hA (q.mem_of_mem_agenda height h) h
      exact hrun.setPairFlags _

/-- **A block keeps the target of every swap that it sells at once**, and sells none but the
accepted. -/
theorem keepsTarget_journal {l : Ledger} (h : l.Guarded A) :
    ∀ e ∈ q.journal .pools height () l, e.swap ∈ A ∧ e.KeepsTarget := by
  rw [journal]
  split
  · exact fun e he => absurd he List.not_mem_nil
  · have hfold : ∀ (ws : List Swap) (acc : Journal Unit × List Pair), (∀ w ∈ ws, w ∈ A) →
        (∀ e ∈ acc.1.log, e.swap ∈ A ∧ e.KeepsTarget) →
        ∀ e ∈ (ws.foldl (Journal.step .pools q.config height (PairIndex.ofStore l.store))
          acc).1.log, e.swap ∈ A ∧ e.KeepsTarget := by
      intro ws
      induction ws with
      | nil => exact fun _ _ h => h
      | cons w ws ih =>
          intro acc hws hacc
          refine ih _ (fun v hv => hws v (List.mem_cons_of_mem w hv)) ?_
          obtain ⟨es, hlog, hes⟩ := Journal.keepsTarget_execute q.config w acc.1 height
          have hstep : (Journal.step .pools q.config height (PairIndex.ofStore l.store)
              acc w).1.log = acc.1.log ++ es := by
            rw [Journal.step]
            split <;> exact hlog
          intro e he
          rw [hstep] at he
          rcases List.mem_append.mp he with he | he
          · exact hacc e he
          · exact ⟨(hes e he).1 ▸ hws w List.mem_cons_self, (hes e he).2⟩
    exact hfold _ _ (q.mem_of_mem_agenda height h) fun e he => absurd he List.not_mem_nil

end SwapQueue

end PoolExchange
