import PoolExchange.Ledger.Payout
import PoolExchange.Queue.Order
import PoolExchange.Queue.PairIndex
import PoolExchange.Queue.Schedule
import PoolExchange.Slicing

/-!
# Queue — accepting swaps and ending blocks

`SwapQueue` holds the configuration and the limit swaps accepted since the last block.

`accept` puts a swap into the queue.  The number of slices of a streaming swap is fixed then: what
it asks for, or the most there can be when it asks for none, up to what the pools allow.  A limit
swap enters the limit index.  A swap that is refused changes nothing.

`endBlock` runs one block.  At a height of the pool cycle it rests, and only forgets which limit
swaps are new.  Otherwise it gathers the candidates (markets, limit walks of the flagged pairs,
limit swaps accepted since the last block), scores and sorts them, and runs as many as the backlog
calls for, one after another:

* a swap that fills is paid out and leaves the queue;
* a limit swap that misses its price stays;
* any other failure refunds the source, and the swap leaves the queue.

A streaming swap runs one slice.  When its first slice fails it is treated as above; a later
failure only uses up the slot.  A stream that is done pays what it collected, refunds what it did
not sell and leaves the queue.

The affiliate's share is released once, with the first slice that fills.  Native is paid as it is,
anything else is sold for native first; if that fails the share goes back to the sender.

At the end the pairs that the trades may have improved are flagged for the next block.
-/

namespace PoolExchange

/-- Why a swap is not accepted. -/
inductive QueueError
  | duplicate (key : SwapKey)
  | invalid (key : SwapKey) (reason : InputError)
  | store (cause : StoreError)
  | pool (cause : PoolError)
  | input (cause : InputError)
deriving DecidableEq, Repr

def QueueError.message : QueueError → String
  | .duplicate key => "swap " ++ key.text ++ " is already queued"
  | .invalid key reason => "invalid swap " ++ key.text ++ ": " ++ reason.message
  | .store cause => cause.message
  | .pool cause => cause.message
  | .input cause => cause.message

/-- A short fixed name of the cause; a cause from below follows the name of its layer. -/
def QueueError.code : QueueError → String
  | .duplicate _ => "DuplicateSwap"
  | .invalid _ reason => "InvalidSwap/" ++ reason.code
  | .store cause => "State/" ++ cause.code
  | .pool cause => "Amm/" ++ cause.code
  | .input cause => "Validation/" ++ cause.code

/-- What a block did. -/
@[ext]
structure BlockReport where
  height : Nat
  /-- The block rested. -/
  skipped : Bool := false
  fetched : Nat := 0
  executed : Nat := 0
  retained : Nat := 0
  refunded : Nat := 0
  sliceFailures : Nat := 0
  /-- The pairs flagged for the next block. -/
  flaggedPairs : Nat := 0
deriving DecidableEq, Repr

@[ext]
structure SwapQueue where
  config : Config
  /-- The limit swaps accepted since the last block. -/
  fresh : List SwapKey := []
deriving DecidableEq, Repr

namespace SwapQueue

def override (q : SwapQueue) (overrides : List (String × Int)) : SwapQueue :=
  { q with config := q.config.withOverrides overrides }

/-! ### Accepting -/

/-- The number of slices of a stream, given what it asks for and the most there can be. -/
def grantSlices (requested most : Nat) : Nat :=
  if requested = 0 then most else min requested most

/-- The swap with the number of its slices fixed. -/
def prepare (q : SwapQueue) (s : Store) (swap : Swap) : Except PoolError Swap :=
  if swap.isStreaming then do
    let most ← Slicing.maxQuantity s.source swap.source.asset swap.target swap.primaryAmount
      swap.streamInterval q.config
    return { swap with streamQuantity := grantSlices swap.streamQuantity most }
  else .ok swap

/-- The store with a prepared swap in it. -/
def enter (s : Store) (swap : Swap) : Store :=
  let s := if swap.isStreaming then s.setStream (.ofSwap swap) else s
  let s := if swap.isLimit then s.insertLimit (.ofSwap swap) swap.key else s
  s.setSwap swap

/-- Puts a swap into the queue. -/
def accept (q : SwapQueue) (s : Store) (swap : Swap) : Except QueueError (SwapQueue × Store) :=
  match swap.validate with
  | .error e => .error (.invalid swap.key e)
  | .ok _ =>
    if (s.swap? swap.key).isSome then .error (.duplicate swap.key)
    else
      match q.prepare s swap with
      | .error e => .error (.pool e)
      | .ok swap =>
        let fresh := if swap.isLimit then q.fresh ++ [swap.key] else q.fresh
        .ok ({ q with fresh := fresh }, enter s swap)

end SwapQueue

/-! ### Running -/

/-- A block on its way: the handler's state, the ledger and the report so far. -/
@[ext]
structure BlockRun (σ : Type) where
  handler : σ
  ledger : Ledger
  report : BlockReport

namespace BlockRun

variable {σ : Type}

/-- Takes a swap, its index entry and its stream out of the store. -/
def dropSwap (s : Store) (swap : Swap) : Store :=
  let s := s.removeSwap swap.key
  let s := if swap.isLimit then s.removeLimit (.ofSwap swap) swap.key else s
  if swap.isStreaming then s.removeStream swap.tx else s

def drop (r : BlockRun σ) (swap : Swap) : BlockRun σ :=
  { r with ledger := r.ledger.withStore (dropSwap r.ledger.store swap) }

/-- Runs an order. -/
def call (h : Handler σ) (config : Config) (order : Order) (r : BlockRun σ) :
    BlockRun σ × Except OrderError Fill :=
  let out := h.run config order r.handler r.ledger
  ({ r with handler := out.1.1, ledger := out.1.2 }, out.2)

def refund (r : BlockRun σ) (swap : Swap) (coin : Coin) (reason : String) (config : Config) :
    BlockRun σ :=
  { r with ledger := (r.ledger.refund swap.tx coin reason config).1 }

def pay (r : BlockRun σ) (swap : Swap) (coin : Coin) (config : Config) : BlockRun σ :=
  { r with ledger := (r.ledger.outbound swap.tx swap.destination coin config).1 }

def emit (r : BlockRun σ) (event : Event) : BlockRun σ :=
  { r with ledger := r.ledger.emit event }

/-- Refunds the whole source and drops the swap. -/
def giveBack (r : BlockRun σ) (swap : Swap) (reason : OrderError) (config : Config) :
    BlockRun σ :=
  let r := r.refund swap swap.source reason.message config
  let r := { r with report.refunded := r.report.refunded + 1 }
  r.drop swap

/-- Leaves the swap where it is. -/
def retain (r : BlockRun σ) : BlockRun σ :=
  { r with report.retained := r.report.retained + 1 }

/-- The order that sells an affiliate's share for native. -/
def affiliateOrder (swap : Swap) (affiliate : Affiliate) (share : Coin) : Order where
  tx := swap.tx
  source := share
  target := .native
  tradeTarget := 0
  destination := affiliate.address

/-- Releases the affiliate's share. -/
def releaseAffiliate (h : Handler σ) (config : Config) (swap : Swap) (r : BlockRun σ) :
    BlockRun σ :=
  match swap.affiliate with
  | none => r
  | some affiliate =>
    let share : Coin := ⟨swap.source.asset, swap.affiliateAmount⟩
    if share.isEmpty then r
    else if share.asset.isNative then r.emit (.affiliateFee swap.tx affiliate.address share)
    else
      match r.call h config (affiliateOrder swap affiliate share) with
      | (r, .ok fill) => r.emit (.affiliateFee swap.tx affiliate.address fill.emit)
      | (r, .error _) => r.refund swap share "affiliate fee swap failed" config

/-- The order for a part of a swap. -/
def orderOf (swap : Swap) (amount tradeTarget : Amount) : Order where
  tx := swap.tx
  source := ⟨swap.source.asset, amount⟩
  target := swap.target
  tradeTarget := tradeTarget
  destination := swap.destination

/-- Runs a swap that does not stream; tells whether it filled. -/
def executeSingle (h : Handler σ) (config : Config) (swap : Swap) (r : BlockRun σ) :
    BlockRun σ × Bool :=
  match r.call h config (orderOf swap swap.primaryAmount swap.tradeTarget) with
  | (r, .ok fill) =>
    (((r.releaseAffiliate h config swap).pay swap fill.emit config).drop swap, true)
  | (r, .error e) =>
    if swap.isLimit && e.isTransient then (r.retain, false)
    else (r.giveBack swap e config, false)

def streamEvent (swap : Swap) (p : SwapStream) : Event :=
  .streamingSwap swap.tx swap.source.asset swap.target p.interval p.quantity p.count p.deposit
    p.input p.output p.failedSwaps

/-- Pays what a stream collected, refunds what it did not sell, and drops the swap. -/
def settleStream (config : Config) (swap : Swap) (p : SwapStream) (r : BlockRun σ) :
    BlockRun σ :=
  let r := if p.output.isZero then r else r.pay swap ⟨swap.target, p.output⟩ config
  let r :=
    if p.remainder.isZero then r
    else r.refund swap ⟨swap.source.asset, p.remainder⟩ "streaming partial-refund" config
  (r.emit (streamEvent swap p)).drop swap

/-- Settles a stream that is done, and stores the progress of any other. -/
def storeProgress (config : Config) (swap : Swap) (p : SwapStream) (r : BlockRun σ) :
    BlockRun σ :=
  if p.isDone then r.settleStream config swap p
  else { r with ledger := r.ledger.withStore (r.ledger.store.setStream p) }

/-- The progress after a slice that filled; a stream that is done stays as it is. -/
def recorded (p : SwapStream) (height : Nat) (input output : Amount) : SwapStream :=
  match p.recordSwap height input output with
  | .ok p => p
  | .error _ => p

/-- Runs a slice of a streaming swap; tells whether it filled. -/
def executeSlice (h : Handler σ) (config : Config) (height : Nat) (swap : Swap)
    (r : BlockRun σ) : BlockRun σ × Bool :=
  let p := r.ledger.store.progress swap
  match p.nextSlice with
  | .error _ => (r.settleStream config swap p, false)
  | .ok (size, target) =>
    match r.call h config (orderOf swap size target) with
    | (r, .ok fill) =>
      let r := if p.input.isZero then r.releaseAffiliate h config swap else r
      (r.storeProgress config swap (recorded p height size fill.emit.amount), true)
    | (r, .error e) =>
      if p.count = 0 && swap.isLimit && e.isTransient then (r.retain, false)
      else if p.input.isZero && p.output.isZero then (r.giveBack swap e config, false)
      else
        let r := { r with report.sliceFailures := r.report.sliceFailures + 1 }
        (r.storeProgress config swap (p.recordFailure height e.message), false)

/-- Runs a swap; tells whether it filled. -/
def execute (h : Handler σ) (config : Config) (height : Nat) (swap : Swap) (r : BlockRun σ) :
    BlockRun σ × Bool :=
  if swap.isStreaming then r.executeSlice h config height swap
  else r.executeSingle h config swap

/-- Runs a swap and flags the pairs it may have improved. -/
def step (h : Handler σ) (config : Config) (height : Nat) (index : PairIndex)
    (acc : BlockRun σ × List Pair) (swap : Swap) : BlockRun σ × List Pair :=
  let out := acc.1.execute h config height swap
  if out.2 then
    ({ out.1 with report.executed := out.1.report.executed + 1 },
      index.flagMatching acc.2 swap.pair)
  else (out.1, acc.2)

end BlockRun

namespace SwapQueue

variable {σ : Type}

/-- The block rests at this height. -/
def rests (config : Config) (height : Nat) : Bool :=
  0 < config.queue.poolCycle && height % config.queue.poolCycle == 0

/-- Adds the fresh limit swaps that are queued, ready and not yet among the candidates. -/
def addFresh (s : Store) (height : Nat) (config : Config) (fresh : List SwapKey)
    (cs : List Candidate) : List Candidate :=
  fresh.foldl (fun cs key =>
    if cs.any fun c => c.swap.key = key then cs
    else
      match s.swap? key with
      | some swap => if s.isReady swap height config then cs ++ [.ofSwap swap] else cs
      | none => cs) cs

/-- The candidates of a block. -/
def candidates (q : SwapQueue) (s : Store) (height : Nat) : List Candidate :=
  let flagged := ((PairIndex.ofStore s).decode? s.pairFlags).getD []
  addFresh s height q.config q.fresh (s.fetch flagged height q.config)

/-- The swaps that run, in their order. -/
def schedule (config : Config) (s : Store) (cs : List Candidate) : List Swap :=
  let scored := cs.map fun c => c.scored s.source config
  ((Candidate.sorted scored).take
    (todoCount cs.length config.queue.minSwaps config.queue.maxSwaps)).map Candidate.swap

/-- Runs the block that ends at `height`. -/
def endBlock (h : Handler σ) (q : SwapQueue) (height : Nat) (state : σ) (l : Ledger) :
    SwapQueue × BlockRun σ :=
  let next := { q with fresh := [] }
  if rests q.config height then
    (next, ⟨state, l, { height := height, skipped := true }⟩)
  else
    let index := PairIndex.ofStore l.store
    let cs := q.candidates l.store height
    let start : BlockRun σ := ⟨state, l, { height := height, fetched := cs.length }⟩
    let (r, flags) :=
      (schedule q.config l.store cs).foldl (BlockRun.step h q.config height index) (start, [])
    (next, { r with
      ledger := r.ledger.withStore (r.ledger.store.setPairFlags (index.encode flags))
      report.flaggedPairs := flags.length })

end SwapQueue

end PoolExchange
