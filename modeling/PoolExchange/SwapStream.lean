import PoolExchange.Identity

/-!
# SwapStream — the progress of a streaming swap

A stream sells `deposit` in `quantity` slices, one every `interval` blocks.  Every attempt uses up
a slot: a success adds to `input` and `output`, a failure is listed with its reason.  All slices
are equal, except that the last slot takes what is left of the deposit.  The stream is done when
the slots are used up or the deposit is spent; a stream that is done takes no more successes.
-/

namespace PoolExchange

@[ext]
structure SwapStream where
  tx : TxId
  interval : Nat
  quantity : Nat
  /-- The slots used so far. -/
  count : Nat
  lastHeight : Nat
  tradeTarget : Amount
  deposit : Amount
  input : Amount
  output : Amount
  /-- The slots that failed, and why. -/
  failedSwaps : List Nat
  failedSwapReasons : List String
deriving DecidableEq, Repr

namespace SwapStream

/-- A stream before its first attempt. -/
def new (tx : TxId) (interval quantity : Nat) (tradeTarget deposit : Amount) : SwapStream where
  tx := tx
  interval := interval
  quantity := quantity
  count := 0
  lastHeight := 0
  tradeTarget := tradeTarget
  deposit := deposit
  input := 0
  output := 0
  failedSwaps := []
  failedSwapReasons := []

def isDone (s : SwapStream) : Bool := s.quantity ≤ s.count || s.deposit ≤ s.input

/-- The first attempt is due at once, a later one a whole number of intervals after the last. -/
def isDue (s : SwapStream) (height : Nat) : Bool :=
  if s.count = 0 then true
  else if s.interval = 0 || height ≤ s.lastHeight then false
  else (height - s.lastHeight) % s.interval == 0

/-- What the next slot sells, and the least it should bring. -/
def nextSize (s : SwapStream) : Amount × Amount :=
  if s.isDone || s.quantity = 0 then (0, 0)
  else if s.quantity ≤ s.count + 1 then (s.deposit - s.input, s.tradeTarget - s.output)
  else (s.deposit / .clamp s.quantity, s.tradeTarget / .clamp s.quantity)

def completedReason : String :=
  "streaming swap is completed, cannot continue to swap again"

/-- Records a slot that sold `input` for `output`. -/
def recordSwap (s : SwapStream) (height : Nat) (input output : Amount) :
    Except InputError SwapStream :=
  if s.isDone then .error (.custom completedReason)
  else .ok { s with
    input := s.input + input, output := s.output + output,
    count := s.count + 1, lastHeight := height }

/-- Records a slot that failed. -/
def recordFailure (s : SwapStream) (height : Nat) (reason : String) : SwapStream :=
  { s with
    failedSwaps := s.failedSwaps ++ [s.count],
    failedSwapReasons := s.failedSwapReasons ++ [reason],
    count := s.count + 1, lastHeight := height }

/-- The part of the deposit that no slot has sold. -/
def remainder (s : SwapStream) : Amount := s.deposit - s.input

end SwapStream

end PoolExchange
