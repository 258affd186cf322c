import PoolExchange.Proofs.Payment
import PoolExchange.Queue.Block

/-!
# Queue — the journal of a block

A `Journal` runs a block as `BlockRun` does and writes down what it did, for which swap, and the
store it did it in.  Writing changes nothing (`run_execute`, `run_step`): a journal is the run it
describes with a list beside it.

The entries of a block form a *trail* from the store before it to the store after it
(`endBlock_induct`): each entry stands in the store that the entry before left behind, and what it
leaves behind is determined by its effect (`Entry.Leads`).  So what every effect preserves, every
block preserves.
-/

namespace PoolExchange

/-! ### Entries -/

/-- What an order or a refund is for: a part of the swap, or the affiliate's share. -/
inductive Role
  | part | share
deriving DecidableEq, Repr

/-- What a block does for a swap. -/
inductive Effect
  /-- Runs an order, which is answered. -/
  | order (role : Role) (order : Order) (answer : Except OrderError Fill)
  /-- Hands a coin back to the sender. -/
  | refund (role : Role) (coin : Coin) (reason : String)
  /-- Pays a coin out. -/
  | outbound (coin : Coin)
  /-- Pays the affiliate's share as it is. -/
  | share (coin : Coin)
  /-- Stores the progress of a stream. -/
  | progress (stream : SwapStream)
  /-- Takes the swap out of the queue. -/
  | drop
  /-- Leaves the swap in the queue. -/
  | retain

/-- An effect, the swap it is for and the store it is made in. -/
structure Entry where
  swap : Swap
  before : Store
  effect : Effect

/-- The entry is for the swap, and the progress that it stores is that of the transaction. -/
def Entry.IsFor (e : Entry) (swap : Swap) (tx : TxId) : Prop :=
  e.swap = swap ∧ ∀ p, e.effect = .progress p → p.tx = tx

variable {σ : Type}

/-- The store that an entry leaves behind. -/
inductive Entry.Leads (h : Handler σ) (config : Config) : Entry → Store → Prop
  | order (swap : Swap) (role : Role) (o : Order) (state : σ) (l : Ledger) :
      Leads h config ⟨swap, l.store, .order role o (h.run config o state l).2⟩
        (h.run config o state l).1.2.store
  | refund (swap : Swap) (s : Store) (role : Role) (coin : Coin) (reason : String) :
      Leads h config ⟨swap, s, .refund role coin reason⟩ (Payout.settled s coin config)
  | outbound (swap : Swap) (s : Store) (coin : Coin) :
      Leads h config ⟨swap, s, .outbound coin⟩ (Payout.settled s coin config)
  | share (swap : Swap) (s : Store) (coin : Coin) : Leads h config ⟨swap, s, .share coin⟩ s
  | progress (swap : Swap) (s : Store) (p : SwapStream) :
      Leads h config ⟨swap, s, .progress p⟩ (s.setStream p)
  | drop (swap : Swap) (s : Store) :
      Leads h config ⟨swap, s, .drop⟩ (BlockRun.dropSwap s swap)
  | retain (swap : Swap) (s : Store) : Leads h config ⟨swap, s, .retain⟩ s

/-- The entries lead from one store to another, one after the other. -/
inductive Trail (h : Handler σ) (config : Config) (start : Store) : List Entry → Store → Prop
  | nil : Trail h config start [] start
  | snoc {log : List Entry} {e : Entry} {s : Store} (init : Trail h config start log e.before)
      (last : e.Leads h config s) : Trail h config start (log ++ [e]) s

/-- **Induction along a trail.**  What every effect on it preserves holds at the end. -/
theorem Trail.induct {h : Handler σ} {config : Config} {start s : Store} {log : List Entry}
    (t : Trail h config start log s) {P : Store → Prop} (h₀ : P start)
    (step : ∀ e ∈ log, ∀ s, P e.before → e.Leads h config s → P s) : P s := by
  induction t with
  | nil => exact h₀
  | snoc _ last ih =>
      refine step _ (List.mem_append_right _ List.mem_cons_self) _ (ih fun e he => ?_) last
      exact step e (List.mem_append_left _ he)

theorem Trail.one {h : Handler σ} {config : Config} {e : Entry} {s : Store}
    (hl : e.Leads h config s) : Trail h config e.before [e] s := by
  have t : Trail h config e.before ([] ++ [e]) s := .snoc .nil hl
  exact t

theorem Trail.append {h : Handler σ} {config : Config} {a b c : Store} {log log' : List Entry}
    (t : Trail h config a log b) (t' : Trail h config b log' c) :
    Trail h config a (log ++ log') c := by
  induction t' with
  | nil => rw [List.append_nil]; exact t
  | snoc _ last ih => rw [← List.append_assoc]; exact .snoc ih last

/-! ### Running with a journal -/

theorem BlockRun.store_refund (r : BlockRun σ) (swap : Swap) (coin : Coin) (reason : String)
    (config : Config) :
    (r.refund swap coin reason config).ledger.store = Payout.settled r.ledger.store coin config :=
  Ledger.store_refund ..

theorem BlockRun.store_pay (r : BlockRun σ) (swap : Swap) (coin : Coin) (config : Config) :
    (r.pay swap coin config).ledger.store = Payout.settled r.ledger.store coin config :=
  Ledger.store_outbound ..

/-- A block on its way, with what it did so far. -/
structure Journal (σ : Type) where
  run : BlockRun σ
  log : List Entry := []

namespace Journal

/-- Writes down an effect and goes on from the run that it led to. -/
def note (j : Journal σ) (swap : Swap) (effect : Effect) (run : BlockRun σ) : Journal σ :=
  ⟨run, j.log ++ [⟨swap, j.run.ledger.store, effect⟩]⟩

def call (h : Handler σ) (config : Config) (swap : Swap) (role : Role) (order : Order)
    (j : Journal σ) : Journal σ × Except OrderError Fill :=
  let out := j.run.call h config order
  (j.note swap (.order role order out.2) out.1, out.2)

def refund (j : Journal σ) (swap : Swap) (role : Role) (coin : Coin) (reason : String)
    (config : Config) : Journal σ :=
  j.note swap (.refund role coin reason) (j.run.refund swap coin reason config)

def pay (j : Journal σ) (swap : Swap) (coin : Coin) (config : Config) : Journal σ :=
  j.note swap (.outbound coin) (j.run.pay swap coin config)

def drop (j : Journal σ) (swap : Swap) : Journal σ :=
  j.note swap .drop (j.run.drop swap)

def retain (j : Journal σ) (swap : Swap) : Journal σ :=
  j.note swap .retain j.run.retain

def giveBack (j : Journal σ) (swap : Swap) (reason : OrderError) (config : Config) :
    Journal σ :=
  let j := j.refund swap .part swap.source reason.message config
  let j := { j with run.report.refunded := j.run.report.refunded + 1 }
  j.drop swap

def releaseAffiliate (h : Handler σ) (config : Config) (swap : Swap) (j : Journal σ) :
    Journal σ :=
  match swap.affiliate with
  | none => j
  | some affiliate =>
    let share : Coin := ⟨swap.source.asset, swap.affiliateAmount⟩
    if share.isEmpty then j
    else if share.asset.isNative then
      j.note swap (.share share) (j.run.emit (.affiliateFee swap.tx affiliate.address share))
    else
      match j.call h config swap .share (BlockRun.affiliateOrder swap affiliate share) with
      | (j, .ok fill) =>
        { j with run := j.run.emit (.affiliateFee swap.tx affiliate.address fill.emit) }
      | (j, .error _) => j.refund swap .share share "affiliate fee swap failed" config

def executeSingle (h : Handler σ) (config : Config) (swap : Swap) (j : Journal σ) :
    Journal σ × Bool :=
  match j.call h config swap .part
      (BlockRun.orderOf swap swap.primaryAmount swap.tradeTarget) with
  | (j, .ok fill) =>
    (((j.releaseAffiliate h config swap).pay swap fill.emit config).drop swap, true)
  | (j, .error e) =>
    if swap.isLimit && e.isTransient then (j.retain swap, false)
    else (j.giveBack swap e config, false)

def settleStream (config : Config) (swap : Swap) (p : SwapStream) (j : Journal σ) :
    Journal σ :=
  let j := if p.output.isZero then j else j.pay swap ⟨swap.target, p.output⟩ config
  let j :=
    if p.remainder.isZero then j
    else
      j.refund swap .part ⟨swap.source.asset, p.remainder⟩ "streaming partial-refund" config
  { j with run := j.run.emit (BlockRun.streamEvent swap p) }.drop swap

def storeProgress (config : Config) (swap : Swap) (p : SwapStream) (j : Journal σ) :
    Journal σ :=
  if p.isDone then j.settleStream config swap p
  else
    j.note swap (.progress p)
      { j.run with ledger := j.run.ledger.withStore (j.run.ledger.store.setStream p) }

def executeSlice (h : Handler σ) (config : Config) (height : Nat) (swap : Swap)
    (j : Journal σ) : Journal σ × Bool :=
  let p := j.run.ledger.store.progress swap
  match p.nextSlice with
  | .error _ => (j.settleStream config swap p, false)
  | .ok (size, target) =>
    match j.call h config swap .part (BlockRun.orderOf swap size target) with
    | (j, .ok fill) =>
      let j := if p.input.isZero then j.releaseAffiliate h config swap else j
      (j.storeProgress config swap (BlockRun.recorded p height size fill.emit.amount), true)
    | (j, .error e) =>
      if p.count = 0 && swap.isLimit && e.isTransient then (j.retain swap, false)
      else if p.input.isZero && p.output.isZero then (j.giveBack swap e config, false)
      else
        let j := { j with run.report.sliceFailures := j.run.report.sliceFailures + 1 }
        (j.storeProgress config swap (p.recordFailure height e.message), false)

def execute (h : Handler σ) (config : Config) (height : Nat) (swap : Swap) (j : Journal σ) :
    Journal σ × Bool :=
  if swap.isStreaming then j.executeSlice h config height swap
  else j.executeSingle h config swap

def step (h : Handler σ) (config : Config) (height : Nat) (index : PairIndex)
    (acc : Journal σ × List Pair) (swap : Swap) : Journal σ × List Pair :=
  let out := acc.1.execute h config height swap
  if out.2 then
    ({ out.1 with run.report.executed := out.1.run.report.executed + 1 },
      index.flagMatching acc.2 swap.pair)
  else (out.1, acc.2)

/-! ### Writing changes nothing -/

section Erasure

variable (h : Handler σ) (config : Config) (swap : Swap) (j : Journal σ)

theorem run_releaseAffiliate :
    (j.releaseAffiliate h config swap).run = j.run.releaseAffiliate h config swap := by
  unfold releaseAffiliate BlockRun.releaseAffiliate
  cases swap.affiliate with
  | none => rfl
  | some affiliate =>
      simp only [call]
      generalize j.run.call h config
        (BlockRun.affiliateOrder swap affiliate ⟨swap.source.asset, swap.affiliateAmount⟩) = out
      obtain ⟨r, answer⟩ := out
      split
      · rfl
      · split
        · rfl
        · cases answer <;> rfl

theorem run_settleStream (p : SwapStream) :
    (j.settleStream config swap p).run = j.run.settleStream config swap p := by
  unfold settleStream BlockRun.settleStream
  split <;> split <;> rfl

theorem run_storeProgress (p : SwapStream) :
    (j.storeProgress config swap p).run = j.run.storeProgress config swap p := by
  unfold storeProgress BlockRun.storeProgress
  split
  · exact run_settleStream config swap j p
  · rfl

theorem run_executeSingle :
    ((j.executeSingle h config swap).1.run, (j.executeSingle h config swap).2) =
      j.run.executeSingle h config swap := by
  unfold executeSingle BlockRun.executeSingle
  simp only [call]
  generalize j.run.call h config
    (BlockRun.orderOf swap swap.primaryAmount swap.tradeTarget) = out
  obtain ⟨r, answer⟩ := out
  cases answer with
  | ok fill =>
      simp only [drop, pay, note, run_releaseAffiliate]
  | error e =>
      dsimp only
      split <;> rfl

theorem run_executeSlice (height : Nat) :
    ((j.executeSlice h config height swap).1.run, (j.executeSlice h config height swap).2) =
      j.run.executeSlice h config height swap := by
  unfold executeSlice BlockRun.executeSlice
  simp only [call]
  cases (j.run.ledger.store.progress swap).nextSlice with
  | error e => simp only [run_settleStream]
  | ok slice =>
      dsimp only
      generalize j.run.call h config (BlockRun.orderOf swap slice.1 slice.2) = out
      obtain ⟨r, answer⟩ := out
      cases answer with
      | ok fill =>
          simp only [run_storeProgress]
          split
          · rw [run_releaseAffiliate]; rfl
          · rfl
      | error e =>
          dsimp only
          split
          · rfl
          · split
            · rfl
            · simp only [run_storeProgress]; rfl

/-- **A journal describes the run it is beside.** -/
theorem run_execute (height : Nat) :
    ((j.execute h config height swap).1.run, (j.execute h config height swap).2) =
      j.run.execute h config height swap := by
  unfold execute BlockRun.execute
  split
  · exact run_executeSlice h config swap j height
  · exact run_executeSingle h config swap j

theorem run_step (height : Nat) (index : PairIndex) (acc : Journal σ × List Pair) :
    ((step h config height index acc swap).1.run, (step h config height index acc swap).2) =
      BlockRun.step h config height index (acc.1.run, acc.2) swap := by
  unfold step BlockRun.step
  rw [← run_execute]
  dsimp only
  split <;> rfl

end Erasure

/-! ### A step is a run -/

section Steps

variable (h : Handler σ) (config : Config) (height : Nat) (index : PairIndex)
  (acc : Journal σ × List Pair) (swap : Swap)

/-- A step counts what it executes and flags pairs, beside the store and the log. -/
theorem store_step : (step h config height index acc swap).1.run.ledger.store =
    (acc.1.execute h config height swap).1.run.ledger.store := by
  simp only [step]
  split <;> rfl

theorem log_step : (step h config height index acc swap).1.log =
    (acc.1.execute h config height swap).1.log := by
  simp only [step]
  split <;> rfl

end Steps

/-! ### The entries form a trail -/

section Growth

variable (h : Handler σ) (config : Config) (swap : Swap) (tx : TxId)

/-- `j'` has run on from `j` for `swap`: its new entries are a trail from `j`'s store to its own. -/
def Grows (j j' : Journal σ) : Prop :=
  ∃ es, j'.log = j.log ++ es ∧ (∀ e ∈ es, e.IsFor swap tx) ∧
    Trail h config j.run.ledger.store es j'.run.ledger.store

variable {h config swap tx}

theorem Grows.refl (j : Journal σ) : Grows h config swap tx j j :=
  ⟨[], (List.append_nil _).symm, fun _ he => absurd he (List.not_mem_nil), .nil⟩

theorem Grows.trans {j j' j'' : Journal σ} (g : Grows h config swap tx j j')
    (g' : Grows h config swap tx j' j'') : Grows h config swap tx j j'' := by
  obtain ⟨es, hlog, hswap, ht⟩ := g
  obtain ⟨es', hlog', hswap', ht'⟩ := g'
  refine ⟨es ++ es', by rw [hlog', hlog, List.append_assoc], fun e he => ?_, ht.append ht'⟩
  rcases List.mem_append.mp he with he | he
  · exact hswap e he
  · exact hswap' e he

theorem Grows.note (j : Journal σ) {effect : Effect} {r : BlockRun σ}
    (hp : ∀ p, effect = .progress p → p.tx = tx)
    (hl : Entry.Leads h config ⟨swap, j.run.ledger.store, effect⟩ r.ledger.store) :
    Grows h config swap tx j (j.note swap effect r) := by
  refine ⟨[⟨swap, j.run.ledger.store, effect⟩], rfl, fun e he => ?_, .one hl⟩
  rw [List.mem_singleton.mp he]
  exact ⟨rfl, hp⟩

variable (h config swap tx) in
theorem grows_call (role : Role) (o : Order) (j : Journal σ) :
    Grows h config swap tx j (j.call h config swap role o).1 :=
  .note j nofun (.order swap role o j.run.handler j.run.ledger)

theorem grows_refund (j : Journal σ) (role : Role) (coin : Coin) (reason : String) :
    Grows h config swap tx j (j.refund swap role coin reason config) := by
  refine .note j nofun ?_
  rw [BlockRun.store_refund]
  exact .refund swap _ role coin reason

theorem grows_pay (j : Journal σ) (coin : Coin) :
    Grows h config swap tx j (j.pay swap coin config) := by
  refine .note j nofun ?_
  rw [BlockRun.store_pay]
  exact .outbound swap _ coin

theorem grows_drop (j : Journal σ) : Grows h config swap tx j (j.drop swap) :=
  .note j nofun (.drop swap j.run.ledger.store)

theorem grows_retain (j : Journal σ) : Grows h config swap tx j (j.retain swap) :=
  .note j nofun (.retain swap j.run.ledger.store)

theorem grows_giveBack (j : Journal σ) (reason : OrderError) :
    Grows h config swap tx j (j.giveBack swap reason config) :=
  (grows_refund j .part swap.source reason.message).trans (grows_drop _)

theorem grows_releaseAffiliate (j : Journal σ) :
    Grows h config swap tx j (j.releaseAffiliate h config swap) := by
  unfold releaseAffiliate
  cases swap.affiliate with
  | none => exact .refl j
  | some affiliate =>
      dsimp only
      split
      · exact .refl j
      · split
        · exact .note j nofun (.share swap j.run.ledger.store _)
        · have hcall := grows_call h config swap tx .share
            (BlockRun.affiliateOrder swap affiliate ⟨swap.source.asset, swap.affiliateAmount⟩) j
          split <;> rename_i heq <;> rw [heq] at hcall
          · exact hcall
          · exact hcall.trans (grows_refund _ .share _ _)

theorem grows_settleStream (p : SwapStream) (j : Journal σ) :
    Grows h config swap tx j (j.settleStream config swap p) := by
  unfold settleStream
  refine Grows.trans ?_ (grows_drop _)
  split
  · split
    · exact .refl j
    · exact grows_pay j _
  · split
    · exact grows_refund j .part _ _
    · exact (grows_pay j _).trans (grows_refund _ .part _ _)

theorem grows_storeProgress {p : SwapStream} (hp : p.tx = tx) (j : Journal σ) :
    Grows h config swap tx j (j.storeProgress config swap p) := by
  unfold storeProgress
  split
  · exact grows_settleStream p j
  · refine .note j (fun p' he => ?_) (.progress swap j.run.ledger.store p)
    rw [← Effect.progress.inj he, hp]

theorem grows_executeSingle (j : Journal σ) :
    Grows h config swap tx j (j.executeSingle h config swap).1 := by
  unfold executeSingle
  have hcall := grows_call h config swap tx .part
    (BlockRun.orderOf swap swap.primaryAmount swap.tradeTarget) j
  split <;> rename_i heq <;> rw [heq] at hcall
  · exact ((hcall.trans (grows_releaseAffiliate _)).trans (grows_pay _ _)).trans (grows_drop _)
  · split
    · exact hcall.trans (grows_retain _)
    · exact hcall.trans (grows_giveBack _ _)

theorem tx_recorded (p : SwapStream) (height : Nat) (input output : Amount) :
    (BlockRun.recorded p height input output).tx = p.tx := by
  rw [BlockRun.recorded, SwapStream.recordSwap]
  split
  · rename_i q hq
    rw [guard_eq_ok] at hq
    rw [← Except.ok.inj hq.2]
  · rfl

theorem grows_executeSlice (height : Nat) {j : Journal σ}
    (htx : (j.run.ledger.store.progress swap).tx = tx) :
    Grows h config swap tx j (j.executeSlice h config height swap).1 := by
  simp only [executeSlice]
  split
  · exact grows_settleStream _ j
  · rename_i size target _
    have hcall := grows_call h config swap tx .part (BlockRun.orderOf swap size target) j
    split <;> rename_i heq <;> rw [heq] at hcall
    · refine Grows.trans ?_ (grows_storeProgress ((tx_recorded _ _ _ _).trans htx) _)
      split
      · exact hcall.trans (grows_releaseAffiliate _)
      · exact hcall
    · split
      · exact hcall.trans (grows_retain _)
      · split
        · exact hcall.trans (grows_giveBack _ _)
        · refine hcall.trans (grows_storeProgress ?_ _)
          exact htx

/-- **Running a swap writes down what it does.**  The progress it stores is that of the
transaction under which its stream is found. -/
theorem grows_execute (height : Nat) {j : Journal σ}
    (htx : (j.run.ledger.store.progress swap).tx = tx) :
    Grows h config swap tx j (j.execute h config height swap).1 := by
  rw [execute]
  split
  · exact grows_executeSlice height htx
  · exact grows_executeSingle j

theorem grows_step (height : Nat) (index : PairIndex) {acc : Journal σ × List Pair}
    (htx : (acc.1.run.ledger.store.progress swap).tx = tx) :
    Grows h config swap tx acc.1 (step h config height index acc swap).1 := by
  simp only [step]
  split
  · exact grows_execute height htx
  · exact grows_execute height htx

end Growth

end Journal

namespace SwapQueue

/-- The block before its first swap. -/
def openBlock (q : SwapQueue) (height : Nat) (state : σ) (l : Ledger) : BlockRun σ :=
  ⟨state, l, { height := height, fetched := (q.candidates l.store height).length }⟩

/-- The swaps of a block, in the order in which they run. -/
def agenda (q : SwapQueue) (s : Store) (height : Nat) : List Swap :=
  schedule q.config s (q.candidates s height)

/-- A block that does not rest, with its journal and the pairs it flags. -/
def runBlock (h : Handler σ) (q : SwapQueue) (height : Nat) (state : σ) (l : Ledger) :
    Journal σ × List Pair :=
  (q.agenda l.store height).foldl
    (Journal.step h q.config height (PairIndex.ofStore l.store))
    (⟨q.openBlock height state l, []⟩, [])

/-- What a block does. -/
def journal (h : Handler σ) (q : SwapQueue) (height : Nat) (state : σ) (l : Ledger) :
    List Entry :=
  if rests q.config height then [] else (q.runBlock h height state l).1.log

variable (h : Handler σ) (q : SwapQueue) (height : Nat) (state : σ) (l : Ledger)

theorem run_foldl_step (config : Config) (index : PairIndex) (swaps : List Swap)
    (acc : Journal σ × List Pair) :
    ((swaps.foldl (Journal.step h config height index) acc).1.run,
        (swaps.foldl (Journal.step h config height index) acc).2) =
      swaps.foldl (BlockRun.step h config height index) (acc.1.run, acc.2) := by
  induction swaps generalizing acc with
  | nil => rfl
  | cons swap swaps ih => rw [List.foldl_cons, List.foldl_cons, ih, Journal.run_step]

/-- The ledger after a block that does not rest. -/
theorem ledger_endBlock (hr : rests q.config height = false) :
    (endBlock h q height state l).2.ledger =
      (q.runBlock h height state l).1.run.ledger.withStore
        ((q.runBlock h height state l).1.run.ledger.store.setPairFlags
          ((PairIndex.ofStore l.store).encode (q.runBlock h height state l).2)) := by
  have hrun := run_foldl_step h height q.config (PairIndex.ofStore l.store)
    (q.agenda l.store height) (⟨q.openBlock height state l, []⟩, [])
  unfold endBlock
  rw [if_neg (by simp [hr])]
  simp only [openBlock, agenda] at hrun
  simp only [← hrun, runBlock, openBlock, agenda]

/-- Its store. -/
theorem store_endBlock (hr : rests q.config height = false) :
    (endBlock h q height state l).2.ledger.store =
      (q.runBlock h height state l).1.run.ledger.store.setPairFlags
        ((PairIndex.ofStore l.store).encode (q.runBlock h height state l).2) :=
  congrArg Ledger.store (ledger_endBlock h q height state l hr)

theorem store_endBlock_of_rests (hr : rests q.config height = true) :
    (endBlock h q height state l).2.ledger.store = l.store := by
  unfold endBlock
  rw [if_pos hr]

theorem trail_foldl_step (config : Config) (index : PairIndex) (swaps : List Swap)
    (acc : Journal σ × List Pair) :
    ∃ es, (swaps.foldl (Journal.step h config height index) acc).1.log = acc.1.log ++ es ∧
      (∀ e ∈ es, e.swap ∈ swaps) ∧
      Trail h config acc.1.run.ledger.store es
        (swaps.foldl (Journal.step h config height index) acc).1.run.ledger.store := by
  induction swaps generalizing acc with
  | nil => exact ⟨[], (List.append_nil _).symm, fun _ he => absurd he (List.not_mem_nil), .nil⟩
  | cons swap swaps ih =>
      obtain ⟨es, hlog, hswap, ht⟩ : Journal.Grows h config swap _ acc.1
        (Journal.step h config height index acc swap).1 := Journal.grows_step height index rfl
      obtain ⟨es', hlog', hswap', ht'⟩ := ih (Journal.step h config height index acc swap)
      refine ⟨es ++ es', ?_, fun e he => ?_, ht.append ht'⟩
      · rw [List.foldl_cons, hlog', hlog, List.append_assoc]
      · rcases List.mem_append.mp he with he | he
        · exact (hswap e he).1 ▸ List.mem_cons_self
        · exact List.mem_cons_of_mem _ (hswap' e he)

/-- The entries of a block lead from the store before it to the one whose flags it sets. -/
theorem trail_runBlock :
    Trail h q.config l.store (q.runBlock h height state l).1.log
      (q.runBlock h height state l).1.run.ledger.store := by
  obtain ⟨es, hlog, -, ht⟩ := trail_foldl_step h height q.config (PairIndex.ofStore l.store)
    (q.agenda l.store height) (⟨q.openBlock height state l, []⟩, [])
  rw [runBlock, hlog, List.nil_append]
  exact ht

/-- The journal of a block is about the swaps that run. -/
theorem swap_mem_agenda {h : Handler σ} {state : σ} {l : Ledger} {e : Entry}
    (he : e ∈ q.journal h height state l) : e.swap ∈ q.agenda l.store height := by
  rw [journal] at he
  split at he
  · cases he
  · obtain ⟨es, hlog, hfor, -⟩ := trail_foldl_step h height q.config
      (PairIndex.ofStore l.store) (q.agenda l.store height) (⟨q.openBlock height state l, []⟩, [])
    rw [runBlock, hlog] at he
    exact hfor e he

/-- **What every effect preserves, every block preserves.** -/
theorem endBlock_induct {P : Store → Prop} (h₀ : P l.store)
    (flags : ∀ s f, P s → P (s.setPairFlags f))
    (step : ∀ (e : Entry) s, P e.before → e.Leads h q.config s → P s) :
    P (endBlock h q height state l).2.ledger.store := by
  cases hr : rests q.config height with
  | true => rw [store_endBlock_of_rests h q height state l hr]; exact h₀
  | false =>
      rw [store_endBlock h q height state l hr]
      exact flags _ _ ((trail_runBlock h q height state l).induct h₀ fun e _ => step e)

end SwapQueue

end PoolExchange
