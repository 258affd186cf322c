import PoolExchange.Proofs.Backing
import PoolExchange.Proofs.Queue.Account
import PoolExchange.Proofs.Slicing

/-!
# Queue — slices along a stream

Every attempt at a slice is one of two: the slice is sold, or it fails (`SwapStream.Attempt`).
Neither changes the deposit or the number of slices, and a stream with no more slices than it has to
sell offers something in each of them, until it is done (`SwapStream.nextSize_after_ne_zero`).

The queue cuts no deposit finer than that.  It may leave a stream without slices, which is done from
the start: **the stream of an accepted swap has a slice unless its interval is longer than streams
may be, and every slice of it is positive** (`SwapQueue.slices_positive`).
-/

namespace PoolExchange

/-! ### Attempts -/

namespace SwapStream

/-- An attempt at the next slice. -/
inductive Attempt
  /-- The slice is sold for `output`. -/
  | sold (height : Nat) (output : Amount)
  | failed (height : Nat) (reason : String)

/-- The progress after an attempt. -/
def attempt (p : SwapStream) : Attempt → SwapStream
  | .sold height output => BlockRun.recorded p height p.nextSize.1 output
  | .failed height reason => p.recordFailure height reason

/-- The progress after attempts, in their order. -/
def after (p : SwapStream) (attempts : List Attempt) : SwapStream := attempts.foldl attempt p

variable {p : SwapStream}

/-- An attempt leaves what is to be sold, and in how many slices. -/
theorem attempt_terms (p : SwapStream) (a : Attempt) :
    (p.attempt a).quantity = p.quantity ∧ (p.attempt a).deposit = p.deposit := by
  cases a with
  | sold height output =>
      by_cases hdone : p.isDone = true
      · simp [attempt, BlockRun.recorded, recordSwap, hdone]
      · rw [attempt, recorded_eq (Bool.eq_false_iff.mpr hdone)]
        exact ⟨rfl, rfl⟩
  | failed height reason => exact ⟨rfl, rfl⟩

theorem after_terms (p : SwapStream) (attempts : List Attempt) :
    (p.after attempts).quantity = p.quantity ∧ (p.after attempts).deposit = p.deposit := by
  induction attempts generalizing p with
  | nil => exact ⟨rfl, rfl⟩
  | cons a attempts ih =>
      obtain ⟨hquantity, hdeposit⟩ := ih (p.attempt a)
      exact ⟨hquantity.trans (attempt_terms p a).1, hdeposit.trans (attempt_terms p a).2⟩

/-- A stream that is not done has something to sell in its next slice. -/
theorem nextSize_ne_zero (hq : p.quantity ≤ p.deposit.toNat) (h : p.isDone = false) :
    p.nextSize.1.toNat ≠ 0 := by
  obtain ⟨hcount, hinput⟩ := isDone_eq_false.mp h
  rw [nextSize_fst (lt_of_le_of_lt hq p.deposit.toNat_lt) h]
  split
  · omega
  · exact (Nat.div_pos hq (by omega)).ne'

/-- **Every slice is positive until the stream is done**, whatever was sold and whatever failed. -/
theorem nextSize_after_ne_zero (hq : p.quantity ≤ p.deposit.toNat) {attempts : List Attempt}
    (h : (p.after attempts).isDone = false) : (p.after attempts).nextSize.1.toNat ≠ 0 := by
  obtain ⟨hquantity, hdeposit⟩ := after_terms p attempts
  exact nextSize_ne_zero (by rwa [hquantity, hdeposit]) h

end SwapStream

/-! ### Streams of accepted swaps -/

namespace SwapQueue

variable {q q' : SwapQueue} {s s' : Store} {swap : Swap}

/-- The slices of a prepared swap: those that were asked for, as far as the sizer grants them. -/
theorem prepare_slices {w : Swap} (h : q.prepare s swap = .ok w) (hs : swap.isStreaming = true) :
    ∃ most, Slicing.maxQuantity s.source swap.source.asset swap.target swap.primaryAmount
        swap.streamInterval q.config = .ok most ∧
      w = { swap with streamQuantity := grantSlices swap.streamQuantity most } := by
  rw [prepare, if_pos hs] at h
  simp only [bind_eq_ok, pure_eq_ok] at h
  obtain ⟨most, hmost, rfl⟩ := h
  exact ⟨most, hmost, rfl⟩

theorem grantSlices_le (requested most : Nat) : grantSlices requested most ≤ most := by
  rw [grantSlices]
  split <;> omega

theorem grantSlices_eq_zero {requested most : Nat} :
    grantSlices requested most = 0 ↔ most = 0 := by
  rw [grantSlices]
  split <;> omega

/-- **The stream of an accepted swap has a slice, unless its interval is longer than streams may be
and its deposit would fill a slice.  Every slice of it is positive, until it is done.** -/
theorem slices_positive (h : q.accept s swap = .ok (q', s')) (hs : swap.isStreaming = true)
    (hamount : swap.primaryAmount.toNat ≠ 0) :
    ∃ w, s'.swap? swap.key = some w ∧ s'.stream? swap.tx = some (.ofSwap w) ∧
      (w.streamQuantity = 0 ↔
        Slicing.maxLength swap.source.asset swap.target q.config < swap.streamInterval ∧
          ∃ size, Slicing.leastSize s.source swap.source.asset swap.target q.config = .ok size ∧
            size.toNat ≠ 0 ∧ size ≤ swap.primaryAmount) ∧
      ∀ attempts, ((SwapStream.ofSwap w).after attempts).isDone = false →
        ((SwapStream.ofSwap w).after attempts).nextSize.1.toNat ≠ 0 := by
  obtain ⟨w, -, -, hprepare, -, rfl⟩ := accept_inv h
  obtain ⟨most, hmost, rfl⟩ := prepare_slices hprepare hs
  have hinterval : swap.streamInterval ≠ 0 := (of_decide_eq_true hs).ne'
  -- a unit or more for each slice, since there is a unit to sell
  have hfine : grantSlices swap.streamQuantity most ≤ swap.primaryAmount.toNat :=
    calc grantSlices swap.streamQuantity most
        ≤ most := grantSlices_le _ _
      _ ≤ max swap.primaryAmount.toNat 1 := Slicing.maxQuantity_le hmost
      _ = swap.primaryAmount.toNat := by omega
  exact ⟨_, (swap?_enter _ _ _).trans (if_pos rfl),
    (stream?_enter _ _ _).trans (if_pos ⟨hs, rfl⟩),
    grantSlices_eq_zero.trans (Slicing.maxQuantity_eq_zero hinterval hmost),
    fun _ => SwapStream.nextSize_after_ne_zero hfine⟩

/-- A sale of a tenth of the even pool in two slices. -/
def evenSale (interval : Nat) : Swap where
  tx := ⟨"01"⟩
  index := 0
  sender := ⟨"alice"⟩
  source := ⟨SlipClass.layer1.sample, 100⟩
  target := .native
  destination := ⟨"bob"⟩
  tradeTarget := 0
  type := .market
  streamInterval := interval
  streamQuantity := 2
  affiliate := none
  initialHeight := 1

/-- A floor of ten basis points binds slices from one part in a thousand. -/
def flooredQueue : SwapQueue where
  config := { slipFloors := { layer1 := 10 } }

theorem slices_positive_evenSale :
    (evenSale 1).isStreaming = true ∧ (evenSale 1).primaryAmount.toNat ≠ 0 ∧
      ∃ q' s' w, flooredQueue.accept (Store.empty.setPool Leg.evenPool) (evenSale 1) =
          .ok (q', s') ∧
        s'.stream? (evenSale 1).tx = some (.ofSwap w) ∧ w.streamQuantity ≠ 0 ∧
        ∀ attempts, ((SwapStream.ofSwap w).after attempts).isDone = false →
          ((SwapStream.ofSwap w).after attempts).nextSize.1.toNat ≠ 0 := by
  have hok : (flooredQueue.accept (Store.empty.setPool Leg.evenPool) (evenSale 1)).isOk = true := by
    decide +kernel
  obtain ⟨q', s', h, w, -, hstream, hquantity, hslices⟩ := exists_ok_of_isOk hok fun _ _ h =>
    slices_positive h (by decide) (by decide)
  exact ⟨by decide, by decide, q', s', w, h, hstream,
    fun hzero => absurd (hquantity.mp hzero).1 (by decide), hslices⟩

/-- An interval of more than a day, where a stream may take a day. -/
theorem no_slices_evenSale :
    flooredQueue.config.validate = .ok () ∧ (evenSale 20000).isStreaming = true ∧
      (evenSale 20000).primaryAmount.toNat ≠ 0 ∧
      ∃ q' s' w, flooredQueue.accept (Store.empty.setPool Leg.evenPool) (evenSale 20000) =
          .ok (q', s') ∧
        s'.swap? (evenSale 20000).key = some w ∧ w.streamQuantity = 0 := by
  refine ⟨by decide, by decide, by decide, ?_⟩
  have hzero : ((flooredQueue.accept (Store.empty.setPool Leg.evenPool) (evenSale 20000)).map
      fun out => (out.2.swap? (evenSale 20000).key).map Swap.streamQuantity) = .ok (some 0) := by
    decide +kernel
  cases h : flooredQueue.accept (Store.empty.setPool Leg.evenPool) (evenSale 20000) with
  | error e =>
      rw [h] at hzero
      cases hzero
  | ok out =>
      rw [h] at hzero
      obtain ⟨w, hw, hquantity⟩ := Option.map_eq_some_iff.mp (Except.ok.inj hzero)
      exact ⟨out.1, out.2, w, rfl, hw, hquantity⟩

end SwapQueue

end PoolExchange
