import PoolExchange.Proofs.Exchange.Consistency
import PoolExchange.Proofs.Queue.Flags
import PoolExchange.Proofs.Queue.History

/-!
# Exchange — when a limit swap is looked at again

A limit swap is looked at by the first block after its acceptance, and by later ones when a walk
comes to it.  What stands between are blocks that rest: they run nothing, but they forget which
swaps are new.  So **an accepted limit swap is considered by the first block that does not rest
exactly when no block has rested in between, or its pair is flagged and the walk finds it**
(`considers_after_accept_iff`).

A block that cuts its candidates down to a batch forgets the ones it cuts, too.  **Such a limit swap
is considered again by the next block exactly when a sale of the block flagged its pair**
(`considers_again_iff`), however well the pools would fill it.
-/

namespace PoolExchange

namespace Exchange

/-! ### Calls -/

/-- An action, or a change of the configuration. -/
inductive Call
  | act (action : Action)
  | override (overrides : List (String × Int))

def serve (x : Exchange) : Call → Exchange
  | .act a => x.act a
  | .override overrides => ⟨x.queue.override overrides, x.ledger⟩

/-- The exchange after the calls. -/
def after (x : Exchange) (calls : List Call) : Exchange := calls.foldl serve x

/-- What an exchange can come to, from any configuration. -/
inductive Reachable : Exchange → Prop
  | start (config : Config) : Reachable (empty config)
  | call {x : Exchange} (c : Call) (reachable : Reachable x) : Reachable (x.serve c)

theorem Reachable.after {x : Exchange} (h : x.Reachable) (calls : List Call) :
    (x.after calls).Reachable := by
  induction calls generalizing x with
  | nil => exact h
  | cons c calls ih => exact ih (h.call c)

theorem Reachable.run {x : Exchange} (h : x.Reachable) (actions : List Action) :
    (x.run actions).Reachable := by
  induction actions generalizing x with
  | nil => exact h
  | cons a actions ih => exact ih (h.call (.act a))

theorem Reachable.keyed {x : Exchange} (h : x.Reachable) : x.store.Keyed := by
  induction h with
  | start config => exact .empty
  | call c _ ih =>
      cases c with
      | act a => exact keyed_act ih a
      | override overrides => exact ih

theorem Reachable.filed {x : Exchange} (h : x.Reachable) : x.store.Filed := by
  induction h with
  | start config => exact .empty
  | call c _ ih =>
      cases c with
      | act a => exact filed_act ih a
      | override overrides => exact ih

/-- The exchange is at a block that considers the swap. -/
abbrev Considers (x : Exchange) (height : Nat) (w : Swap) : Prop :=
  x.queue.Considers x.store height w

/-- Every block that the calls end rests. -/
def Idle : Exchange → List Call → Prop
  | _, [] => True
  | x, c :: calls =>
    (∀ height, c = .act (.endBlock height) → SwapQueue.rests x.queue.config height = true) ∧
      (x.serve c).Idle calls

/-! ### While nothing runs -/

variable {x : Exchange} {w : Swap}

/-- Only offers and blocks change which swaps are fresh. -/
theorem queue_act (x : Exchange) {a : Action} (haccept : ∀ w, a ≠ .accept w)
    (hblock : ∀ height, a ≠ .endBlock height) : (x.act a).queue = x.queue := by
  cases a with
  | deposit | withdraw | setStatus =>
      simp only [act]
      split <;> rfl
  | setSupply | setPool => rfl
  | accept w => exact absurd rfl (haccept w)
  | endBlock height => exact absurd rfl (hblock height)

/-- A block that rests forgets which swaps are fresh. -/
theorem act_endBlock_of_rests {height : Nat}
    (hr : SwapQueue.rests x.queue.config height = true) :
    x.act (.endBlock height) = ⟨{ x.queue with fresh := [] }, x.ledger⟩ := by
  simp only [act, SwapQueue.endBlock, if_pos hr]

/-- An offer that is accepted brings in its own key; one that is refused, none. -/
theorem waits_accept (hw : x.store.swap? w.key = some w) (v : Swap) :
    (x.act (.accept v)).store.swap? w.key = some w ∧
      (w.key ∈ (x.act (.accept v)).queue.fresh ↔ w.key ∈ x.queue.fresh) := by
  simp only [act]
  split
  · rename_i q s ho
    obtain ⟨u, -, hnew, hprepare, rfl, rfl⟩ := SwapQueue.accept_inv ho
    have hne : w.key ≠ u.key := fun e => by
      rw [← SwapQueue.key_of_prepare hprepare, ← e, hw] at hnew
      cases hnew
    refine ⟨?_, ?_⟩
    · show (SwapQueue.enter x.store u).swap? w.key = some w
      rw [SwapQueue.swap?_enter, if_neg hne]
      exact hw
    · dsimp only
      split
      · rw [List.mem_append, List.mem_singleton, or_iff_left hne]
      · exact Iff.rfl
  · exact ⟨hw, Iff.rfl⟩

/-- **While nothing runs a queued swap stays queued**, and it stays fresh until a block rests. -/
theorem waits_serve (hw : x.store.swap? w.key = some w) {c : Call}
    (hc : ∀ height, c = .act (.endBlock height) →
      SwapQueue.rests x.queue.config height = true) :
    (x.serve c).store.swap? w.key = some w ∧
      (w.key ∈ (x.serve c).queue.fresh ↔
        w.key ∈ x.queue.fresh ∧ ∀ height, c ≠ .act (.endBlock height)) := by
  have hother : ∀ {a : Action}, (∀ v, a ≠ .accept v) → (∀ height, a ≠ .endBlock height) →
      (x.act a).store.swap? w.key = some w ∧
        (w.key ∈ (x.act a).queue.fresh ↔
          w.key ∈ x.queue.fresh ∧ ∀ height, Call.act a ≠ .act (.endBlock height)) := by
    intro a haccept hblock
    rw [queue_act x haccept hblock, Store.swap?, (x.sameBook_act haccept hblock).queue]
    exact ⟨hw, (and_iff_left fun height e => hblock height (Call.act.inj e)).symm⟩
  cases c with
  | override overrides => exact ⟨hw, (and_iff_left (by simp)).symm⟩
  | act a =>
      cases a with
      | deposit | withdraw | setStatus | setSupply | setPool =>
          exact hother (by simp) (by simp)
      | accept v =>
          obtain ⟨hwait, hfresh⟩ := waits_accept hw v
          exact ⟨hwait, hfresh.trans (and_iff_left (by simp)).symm⟩
      | endBlock height =>
          rw [serve, act_endBlock_of_rests (hc height rfl)]
          exact ⟨hw, iff_of_false List.not_mem_nil fun h => h.2 height rfl⟩

/-- So it is after any calls of which none runs a block. -/
theorem waits_after {calls : List Call} (hw : x.store.swap? w.key = some w) (hidle : x.Idle calls) :
    (x.after calls).store.swap? w.key = some w ∧
      (w.key ∈ (x.after calls).queue.fresh ↔
        w.key ∈ x.queue.fresh ∧ ∀ height, .act (.endBlock height) ∉ calls) := by
  induction calls generalizing x with
  | nil => exact ⟨hw, (and_iff_left fun _ => List.not_mem_nil).symm⟩
  | cons c calls ih =>
      obtain ⟨hwait, hfresh⟩ := waits_serve hw hidle.1
      obtain ⟨hwait', hfresh'⟩ := ih hwait hidle.2
      refine ⟨hwait', hfresh'.trans ?_⟩
      rw [hfresh, and_assoc]
      refine and_congr_right fun _ => ⟨fun h height hmem => ?_, fun h => ⟨fun height e => ?_, ?_⟩⟩
      · rcases List.mem_cons.mp hmem with e | hmem
        · exact h.1 height e.symm
        · exact h.2 height hmem
      · exact h height (e ▸ List.mem_cons_self)
      · exact fun height hmem => h height (List.mem_cons_of_mem c hmem)

/-- A limit swap that does not stream enters as it is, and is fresh. -/
theorem waits_of_accept (haccept : (x.queue.accept x.store w).isOk = true) (hlimit : w.isLimit = true)
    (hstream : w.isStreaming = false) :
    (x.act (.accept w)).store.swap? w.key = some w ∧
      w.key ∈ (x.act (.accept w)).queue.fresh := by
  obtain ⟨q, s, ho, -⟩ :=
    exists_ok_of_isOk (P := fun _ _ => True) haccept fun _ _ _ => trivial
  have hprepare : x.queue.prepare x.store w = .ok w := by
    rw [SwapQueue.prepare, hstream, if_neg Bool.false_ne_true]
  obtain ⟨v, -, -, hv, hq, hs⟩ := SwapQueue.accept_inv ho
  obtain rfl : w = v := Except.ok.inj (hprepare.symm.trans hv)
  simp only [act, ho, hq, hs, hlimit, if_true]
  refine ⟨?_, List.mem_append_right _ List.mem_cons_self⟩
  show (SwapQueue.enter x.store w).swap? w.key = some w
  rw [SwapQueue.swap?_enter, if_pos rfl]

/-- **The first block after an acceptance.**  Between the acceptance of a limit swap that does not
stream and a block that does not rest, anything may happen but blocks that run. -/
theorem considers_after_accept_iff (hx : x.Reachable)
    (haccept : (x.queue.accept x.store w).isOk = true) (hlimit : w.isLimit = true)
    (hstream : w.isStreaming = false) {calls : List Call}
    (hidle : (x.act (.accept w)).Idle calls) {y : Exchange}
    (hy : y = (x.act (.accept w)).after calls) {height : Nat}
    (hr : SwapQueue.rests y.queue.config height = false) :
    y.Considers height w ↔
      (∀ rested, .act (.endBlock rested) ∉ calls) ∨
        w.pair ∈ y.store.flagged ∧
          y.store.source.clears w.pair (LimitKey.ofSwap w).ratio = true ∧
          y.store.source.fills w = true := by
  obtain ⟨hqueued, hfresh⟩ := waits_of_accept haccept hlimit hstream
  obtain ⟨hwait, hstill⟩ := waits_after hqueued hidle
  have hreach : y.Reachable := hy ▸ (hx.call (.act (.accept w))).after calls
  rw [← hy] at hwait hstill
  have hready : y.store.isReady w height y.queue.config = true := by
    rw [Store.isReady, hstream]
    rfl
  rw [Considers, SwapQueue.considers_iff hr hreach.filed hwait, hstill, hlimit]
  simp only [hready, hfresh, true_and, Bool.true_eq_false, false_or]

/-- Every fourth block rests. -/
def resting : Config := { queue := { poolCycle := 4 } }

/-- A deposit comes between. -/
theorem considers_after_accept_iff_deposit :
    let x := (empty resting).run btcOpening
    let calls : List Call := [.act (.deposit ⟨"BTC", "BTC", .layer1⟩ ⟨"carol"⟩
      ⟨1000000000, 1000000000, ⟨"05"⟩, false, 2⟩), .override [("PoolCycle", 2)]]
    let y := (x.act (.accept SwapQueue.btcLimit)).after calls
    (x.queue.accept x.store SwapQueue.btcLimit).isOk = true ∧
      (x.act (.accept SwapQueue.btcLimit)).Idle calls ∧ y.store.flagged = [] ∧
      y.Considers 3 SwapQueue.btcLimit := by
  intro x calls y
  have hx : x.Reachable := (Reachable.start resting).run btcOpening
  have haccept : (x.queue.accept x.store SwapQueue.btcLimit).isOk = true := by decide +kernel
  have hidle : (x.act (.accept SwapQueue.btcLimit)).Idle calls := ⟨nofun, nofun, trivial⟩
  have hr : SwapQueue.rests y.queue.config 3 = false := by decide +kernel
  refine ⟨haccept, hidle, by decide +kernel, ?_⟩
  exact (considers_after_accept_iff hx haccept rfl rfl hidle rfl hr).mpr (.inl (by simp [calls]))

/-- A block rests, and the first block to run after it does not consider the swap, nor fill it. -/
theorem unconsidered_after_rest :
    let x := (empty resting).run btcOpening
    let y := (x.act (.accept SwapQueue.btcLimit)).act (.endBlock 4)
    x.Reachable ∧ (x.queue.accept x.store SwapQueue.btcLimit).isOk = true ∧
      SwapQueue.rests y.queue.config 4 = true ∧ SwapQueue.rests y.queue.config 5 = false ∧
      y.store.swap? SwapQueue.btcLimit.key = some SwapQueue.btcLimit ∧
      y.store.source.fills SwapQueue.btcLimit = true ∧
      ¬ y.Considers 5 SwapQueue.btcLimit ∧
      (y.act (.endBlock 5)).store.swap? SwapQueue.btcLimit.key = some SwapQueue.btcLimit :=
  ⟨(Reachable.start resting).run _, by decide +kernel⟩

/-! ### A block and the next -/

/-- After a block nothing is fresh. -/
theorem fresh_endBlock (x : Exchange) (height : Nat) :
    (x.act (.endBlock height)).queue.fresh = [] := by
  simp only [act, SwapQueue.endBlock]
  split <;> rfl

/-- A queued swap that a block does not run stays queued. -/
theorem swap?_of_not_mem_agenda (hf : x.store.Filed) (hw : x.store.swap? w.key = some w)
    {height : Nat} (hcut : w ∉ x.queue.agenda x.store height) :
    (x.act (.endBlock height)).store.swap? w.key = some w := by
  show (SwapQueue.endBlock .pools x.queue height () x.ledger).2.ledger.store.swap? w.key = some w
  rw [SwapQueue.swap?_endBlock x.queue height Handler.pools_keepsBook () x.ledger, if_neg]
  · exact hw
  · intro hdropped
    obtain ⟨e, he, hdrop⟩ := List.mem_filterMap.mp hdropped
    have hkey : e.swap.key = w.key := by
      rw [Entry.dropped?] at hdrop
      split at hdrop
      · exact Option.some.inj hdrop
      · cases hdrop
    -- what runs under the key of `w` is `w`
    have hruns := x.queue.swap_mem_agenda height he
    have hqueued := x.queue.swap?_of_mem_agenda height hf hruns
    rw [hkey, hw] at hqueued
    exact hcut (Option.some.inj hqueued ▸ hruns)

/-- **The block after a block that cut a limit swap.**  The pools would fill it, and so would every
better bucket of its pair clear. -/
theorem considers_again_iff (hx : x.Reachable) (hlimit : w.isLimit = true)
    (hstream : w.isStreaming = false) (hpair : w.pair ∈ (PairIndex.ofStore x.store).pairs)
    {height : Nat} (hfetched : x.Considers height w) (hcut : w ∉ x.queue.agenda x.store height)
    {y : Exchange} (hy : y = x.act (.endBlock height)) {next : Nat}
    (hr : SwapQueue.rests y.queue.config next = false)
    (hclears : y.store.source.clears w.pair (LimitKey.ofSwap w).ratio = true)
    (hfills : y.store.source.fills w = true) :
    y.Considers next w ↔
      ∃ e ∈ x.entries (.endBlock height),
        e.sells = true ∧ PairIndex.improves e.swap.pair w.pair = true := by
  have hqueued := swap?_of_not_mem_agenda hx.filed (hfetched.queued hx.filed) hcut
  have hflagged := x.queue.mem_flagged_endBlock height hx.keyed hfetched.1 (p := w.pair)
  have hfresh := x.fresh_endBlock height
  have hfiled : (x.act (.endBlock height)).store.Filed := filed_act hx.filed _
  rw [← hy] at hqueued hfresh hfiled
  have hready : y.store.isReady w next y.queue.config = true := by
    rw [Store.isReady, hstream]
    rfl
  have hwalk : w.pair ∈ y.store.flagged ↔ ∃ e ∈ x.entries (.endBlock height),
      e.sells = true ∧ PairIndex.improves e.swap.pair w.pair = true := by
    rw [hy]
    exact hflagged.trans (and_iff_right hpair)
  rw [Considers, SwapQueue.considers_iff hr hfiled hqueued, hfresh, hlimit, hready, hclears,
    hfills, ← hwalk]
  simp

/-- A block that runs the given swaps. -/
theorem act_endBlock_of_agenda {height : Nat} {ws : List Swap}
    (hr : SwapQueue.rests x.queue.config height = false)
    (hagenda : x.queue.agenda x.store height = ws) :
    x.act (.endBlock height) =
      ⟨{ x.queue with fresh := [] }, (x.queue.blockOf height x.ledger ws).ledger⟩ := by
  have hblock := SwapQueue.endBlock_eq_blockOf (l := x.ledger) hr
  rw [show x.queue.agenda x.ledger.store height = ws from hagenda] at hblock
  refine Exchange.ext ?_ (congrArg BlockRun.ledger hblock)
  simp only [act, SwapQueue.endBlock, hr]
  rfl

/-- One swap runs in a block. -/
def narrow : Config := { queue := { minSwaps := 1, maxSwaps := 1 } }

/-- A market swap larger than `SwapQueue.btcLimit`. -/
def btcMarket (source target : Asset) : Swap :=
  ⟨⟨"03"⟩, 0, ⟨"bob"⟩, ⟨source, 3000000000⟩, target, ⟨"bob"⟩, 0, .market, 0, 0, none, 1⟩

/-- A block with room for one of the two. -/
def crowded (source target : Asset) : Exchange :=
  (empty narrow).run
    (btcOpening ++ [.accept SwapQueue.btcLimit, .accept (btcMarket source target)])

/-- A sale of bitcoin runs first, and flags the purchase of bitcoin. -/
theorem considers_again_iff_sale :
    let btc : Asset := ⟨"BTC", "BTC", .layer1⟩
    let x := crowded btc .native
    let y := x.act (.endBlock 1)
    x.Considers 1 SwapQueue.btcLimit ∧ SwapQueue.btcLimit ∉ x.queue.agenda x.store 1 ∧
      y.Considers 2 SwapQueue.btcLimit ∧
      ∃ e ∈ x.entries (.endBlock 1), e.sells = true ∧
        PairIndex.improves e.swap.pair SwapQueue.btcLimit.pair = true := by
  intro btc x y
  have hx : x.Reachable := (Reachable.start narrow).run _
  have hagenda : x.queue.agenda x.store 1 = [btcMarket btc .native] := by
    rw [SwapQueue.agenda_of_pairwise _ _ (by decide +kernel)]
    decide +kernel
  have hfetched : x.Considers 1 SwapQueue.btcLimit := by decide +kernel
  have hcut : SwapQueue.btcLimit ∉ x.queue.agenda x.store 1 := by
    rw [hagenda]
    decide
  have hblock : y = _ := act_endBlock_of_agenda hfetched.1 hagenda
  obtain ⟨hclears, hfills, hagain⟩ :
      y.store.source.clears SwapQueue.btcLimit.pair (LimitKey.ofSwap SwapQueue.btcLimit).ratio =
          true ∧
        y.store.source.fills SwapQueue.btcLimit = true ∧ y.Considers 2 SwapQueue.btcLimit := by
    rw [hblock]
    decide +kernel
  exact ⟨hfetched, hcut, hagain, (considers_again_iff hx rfl rfl (by decide +kernel) hfetched hcut
    rfl hagain.1 hclears hfills).mp hagain⟩

/-- A purchase of bitcoin runs first.  It flags no purchase, and the limit swap that the pools would
still fill is not considered. -/
theorem unconsidered_after_purchase :
    let x := crowded .native ⟨"BTC", "BTC", .layer1⟩
    let y := x.act (.endBlock 1)
    x.Reachable ∧ SwapQueue.btcLimit.isLimit = true ∧ SwapQueue.btcLimit.isStreaming = false ∧
      SwapQueue.btcLimit.pair ∈ (PairIndex.ofStore x.store).pairs ∧
      x.Considers 1 SwapQueue.btcLimit ∧ SwapQueue.btcLimit ∉ x.queue.agenda x.store 1 ∧
      SwapQueue.rests y.queue.config 2 = false ∧
      y.store.source.clears SwapQueue.btcLimit.pair (LimitKey.ofSwap SwapQueue.btcLimit).ratio =
        true ∧
      y.store.source.fills SwapQueue.btcLimit = true ∧ ¬ y.Considers 2 SwapQueue.btcLimit := by
  intro x y
  have hagenda : x.queue.agenda x.store 1 = [btcMarket .native ⟨"BTC", "BTC", .layer1⟩] := by
    rw [SwapQueue.agenda_of_pairwise _ _ (by decide +kernel)]
    decide +kernel
  have hfetched : x.Considers 1 SwapQueue.btcLimit := by decide +kernel
  refine ⟨(Reachable.start narrow).run _, rfl, rfl, by decide +kernel, hfetched,
    by rw [hagenda]; decide, ?_⟩
  have hblock : y = _ := act_endBlock_of_agenda hfetched.1 hagenda
  rw [hblock]
  decide +kernel

end Exchange

end PoolExchange
