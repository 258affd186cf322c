import PoolExchange.Proofs.Queue.Slices

/-!
# Queue — a stream from its first slice to its last

A stream is run by attempts at its slices until it is done, whatever is sold and whatever fails.
Two things can end it: its slots are used up or its deposit is spent.  Before the last slot it has
sold equal slices only, and fewer of them than fill the deposit, so **the slots are what ends it**:
a run takes exactly as many attempts as the stream has slices (`SwapStream.Fresh.completes_iff`).

At every point the record shows what happened (`SwapStream.Shows`): what is sold and what remains
make up the deposit, and the failed attempts are listed by number, in order, with their reasons.
When the last slice is sold the whole deposit is, and a stream that is done stays as it is.
-/

namespace PoolExchange.SwapStream

/-- The attempts run the stream to its end, and no further. -/
structure Completes (p : SwapStream) (attempts : List Attempt) : Prop where
  isOpen : ∀ k < attempts.length, (p.after (attempts.take k)).isDone = false
  isDone : (p.after attempts).isDone = true

/-- What the record of a stream shows of the attempts so far. -/
structure Shows (deposit : Amount) (attempts : List Attempt) (p : SwapStream) : Prop where
  count : p.count = attempts.length
  input_le : p.input ≤ deposit
  input_add_remainder : p.input + p.remainder = deposit
  failedSwaps_increasing : p.failedSwaps.Pairwise (· < ·)
  mem_failedSwaps : ∀ i, i ∈ p.failedSwaps ↔
    ∃ height reason, attempts[i]? = some (.failed height reason)
  length_reasons : p.failedSwapReasons.length = p.failedSwaps.length
  mem_reasons : ∀ i reason, (i, reason) ∈ p.failedSwaps.zip p.failedSwapReasons ↔
    ∃ height, attempts[i]? = some (.failed height reason)

/-- A stream that takes no more slices. -/
structure Closed (p : SwapStream) : Prop where
  nextSlice : p.nextSlice = .error .streamCompleted
  recordSwap : ∀ height input output,
    p.recordSwap height input output = .error (.custom completedReason)
  recorded : ∀ height input output, BlockRun.recorded p height input output = p

variable {p : SwapStream}

theorem after_concat (p : SwapStream) (attempts : List Attempt) (a : Attempt) :
    p.after (attempts ++ [a]) = (p.after attempts).attempt a := by
  rw [after, List.foldl_append]
  rfl

/-! ### The end of a run -/

theorem closed_of_isDone (h : p.isDone = true) (hquantity : p.quantity ≠ 0) : p.Closed where
  nextSlice := by
    rw [SwapStream.nextSlice, if_pos]
    simp [h, Nat.pos_of_ne_zero hquantity]
  recordSwap height input output := by rw [SwapStream.recordSwap, if_pos h]
  recorded height input output := by rw [BlockRun.recorded, SwapStream.recordSwap, if_pos h]

theorem attempt_count (h : p.isDone = false) (a : Attempt) :
    (p.attempt a).count = p.count + 1 := by
  cases a with
  | sold height output => rw [attempt, recorded_eq h]
  | failed height reason => rfl

/-- The sale of a slice of an open stream is not refused. -/
theorem recordSwap_eq_attempt (h : p.isDone = false) (height : Nat) (output : Amount) :
    p.recordSwap height p.nextSize.1 output = .ok (p.attempt (.sold height output)) := by
  rw [attempt, BlockRun.recorded]
  cases hrecord : p.recordSwap height p.nextSize.1 output with
  | ok p' => rfl
  | error e => simp [recordSwap, h] at hrecord

/-- A stream in step that has slots left is not done: fewer equal slices than there are slots do not
spend the deposit. -/
theorem InStep.isOpen (hs : p.InStep) (hdeposit : p.deposit.toNat ≠ 0)
    (hcount : p.count < p.quantity) : p.isDone = false := by
  refine isDone_eq_false.mpr ⟨hcount, lt_of_le_of_lt hs.input_le ?_⟩
  rcases Nat.eq_zero_or_pos (p.deposit.toNat / p.quantity) with hzero | hpos
  · rw [hzero, Nat.mul_zero]
    exact Nat.pos_of_ne_zero hdeposit
  · calc p.count * (p.deposit.toNat / p.quantity)
        < p.quantity * (p.deposit.toNat / p.quantity) := Nat.mul_lt_mul_of_pos_right hcount hpos
      _ ≤ p.deposit.toNat := Nat.mul_div_le _ _

theorem inStep_attempt (hs : p.InStep) (h : p.isDone = false)
    (hcount : p.count + 1 < p.quantity) (a : Attempt) : (p.attempt a).InStep := by
  cases a with
  | sold height output => exact inStep_recorded_of_lt hs h hcount height output
  | failed height reason => exact inStep_recordFailure hs height reason

/-- The slice of the last slot is everything that remains. -/
theorem attempt_sold_last (hs : p.InStep) (h : p.isDone = false)
    (hlast : p.quantity ≤ p.count + 1) (height : Nat) (output : Amount) :
    (p.attempt (.sold height output)).input = p.deposit := by
  have hinput := (isDone_eq_false.mp h).2
  refine Amount.ext ?_
  rw [attempt, toNat_recorded_input hs h, nextSize_fst hs.quantity_lt h, if_pos hlast]
  omega

/-! ### What the record shows -/

section Step

variable {deposit : Amount} {attempts : List Attempt}

theorem input_add_remainder_of_le (h : p.input ≤ p.deposit) :
    p.input + p.remainder = p.deposit := by
  refine Amount.ext ?_
  rw [remainder, Amount.toNat_add_of_lt, Amount.toNat_sub, Nat.add_sub_cancel' h]
  rw [Amount.toNat_sub, Nat.add_sub_cancel' h]
  exact p.deposit.toNat_lt

theorem getElem?_concat_eq_some {i : Nat} {a b : Attempt} :
    (attempts ++ [a])[i]? = some b ↔ attempts[i]? = some b ∨ i = attempts.length ∧ a = b := by
  rcases Nat.lt_trichotomy i attempts.length with hlt | rfl | hgt
  · rw [List.getElem?_append_left hlt]
    exact ⟨.inl, fun h => h.resolve_right fun h => absurd h.1 hlt.ne⟩
  · simp
  · rw [List.getElem?_eq_none (by simpa using hgt), List.getElem?_eq_none hgt.le]
    simp [hgt.ne']

/-- **What an attempt adds to the record.** -/
theorem Shows.attempt (hshows : Shows p.deposit attempts p) (hs : p.InStep)
    (h : p.isDone = false) (a : Attempt) :
    Shows p.deposit (attempts ++ [a]) (p.attempt a) := by
  have hterms := (attempt_terms p a).2
  have hcount : (p.attempt a).count = (attempts ++ [a]).length := by
    rw [attempt_count h, hshows.count, List.length_append, List.length_singleton]
  cases a with
  | sold height output =>
      have hle : (p.attempt (.sold height output)).input ≤ p.deposit := by
        rw [Amount.le_def, SwapStream.attempt, toNat_recorded_input hs h]
        exact input_add_nextSize_le hs h
      have hsame : (p.attempt (.sold height output)).failedSwaps = p.failedSwaps ∧
          (p.attempt (.sold height output)).failedSwapReasons = p.failedSwapReasons := by
        rw [SwapStream.attempt, recorded_eq h]
        exact ⟨rfl, rfl⟩
      refine ⟨hcount, hle, ?_, ?_, ?_, ?_, ?_⟩
      · rw [← hterms] at hle ⊢
        exact input_add_remainder_of_le hle
      · rw [hsame.1]
        exact hshows.failedSwaps_increasing
      · intro i
        simp only [hsame.1, hshows.mem_failedSwaps, getElem?_concat_eq_some, reduceCtorEq,
          and_false, or_false]
      · rw [hsame.1, hsame.2]
        exact hshows.length_reasons
      · intro i reason
        simp only [hsame.1, hsame.2, hshows.mem_reasons, getElem?_concat_eq_some, reduceCtorEq,
          and_false, or_false]
  | failed height reason =>
      refine ⟨hcount, hshows.input_le, hshows.input_add_remainder, ?_, ?_, ?_, ?_⟩
      · -- the numbers listed so far are those of attempts
        refine List.pairwise_append.mpr ⟨hshows.failedSwaps_increasing, by simp, ?_⟩
        intro i hi j hj
        obtain ⟨_, _, hfailed⟩ := (hshows.mem_failedSwaps i).mp hi
        rw [List.mem_singleton.mp hj, hshows.count]
        exact (List.getElem?_eq_some_iff.mp hfailed).1
      · intro i
        rw [SwapStream.attempt, recordFailure, List.mem_append, hshows.mem_failedSwaps,
          List.mem_singleton, hshows.count]
        simp only [getElem?_concat_eq_some, exists_or, exists_and_left, Attempt.failed.injEq]
        simp
      · simp [SwapStream.attempt, recordFailure, hshows.length_reasons]
      · intro i why
        rw [SwapStream.attempt, recordFailure, List.zip_append hshows.length_reasons.symm,
          List.mem_append, hshows.mem_reasons, hshows.count]
        simp only [getElem?_concat_eq_some, exists_or, Attempt.failed.injEq]
        simp [eq_comm]

end Step

/-! ### Runs of a fresh stream -/

/-- A stream before its first attempt, with something to sell. -/
structure Fresh (p : SwapStream) : Prop where
  shows : Shows p.deposit [] p
  inStep : p.InStep
  deposit_ne : p.deposit.toNat ≠ 0

theorem fresh_new {quantity : Nat} {deposit : Amount} (hquantity : quantity < wordBound 64)
    (hdeposit : deposit.toNat ≠ 0) (tx : TxId) (interval : Nat) (target : Amount) :
    (new tx interval quantity target deposit).Fresh where
  shows :=
    { count := rfl
      input_le := Nat.zero_le _
      input_add_remainder := input_add_remainder_of_le (Nat.zero_le _)
      failedSwaps_increasing := .nil
      mem_failedSwaps := fun i => by simp [new]
      length_reasons := rfl
      mem_reasons := fun i reason => by simp [new] }
  inStep := ⟨hquantity.trans_le (by decide), Nat.zero_le _⟩
  deposit_ne := hdeposit

section Runs

variable {attempts : List Attempt}

/-- **As long as there are slots**, the record shows what happened, and the stream is in step until
the last of them is used. -/
theorem Fresh.shows_after (hp : p.Fresh) (hlength : attempts.length ≤ p.quantity) :
    Shows p.deposit attempts (p.after attempts) ∧
      (attempts.length < p.quantity → (p.after attempts).InStep) := by
  induction attempts using List.reverseRecOn with
  | nil => exact ⟨hp.shows, fun _ => hp.inStep⟩
  | append_singleton attempts a ih =>
      rw [List.length_append, List.length_singleton] at hlength ⊢
      obtain ⟨hshows, hstep⟩ := ih (by omega)
      obtain ⟨hq, hd⟩ := after_terms p attempts
      have hs := hstep (by omega)
      have hopen := hs.isOpen (hd ▸ hp.deposit_ne) (by rw [hq, hshows.count]; exact hlength)
      rw [after_concat]
      refine ⟨?_, fun hlt => inStep_attempt hs hopen (by rw [hq, hshows.count]; exact hlt) a⟩
      rw [← hd] at hshows ⊢
      exact hshows.attempt hs hopen a

theorem Fresh.isDone_after (hp : p.Fresh) (hlength : attempts.length ≤ p.quantity) :
    (p.after attempts).isDone = true ↔ attempts.length = p.quantity := by
  obtain ⟨hshows, hstep⟩ := hp.shows_after hlength
  obtain ⟨hq, hd⟩ := after_terms p attempts
  refine ⟨fun hdone => ?_, fun hfull => ?_⟩
  · by_contra hne
    have hlt : attempts.length < p.quantity := by omega
    have hopen := (hstep hlt).isOpen (hd ▸ hp.deposit_ne) (by rw [hq, hshows.count]; exact hlt)
    rw [hdone] at hopen
    cases hopen
  · rw [isDone, hq, hshows.count, Bool.or_eq_true, decide_eq_true_eq]
    exact .inl hfull.ge

/-- **A run takes as many attempts as the stream has slices.** -/
theorem Fresh.completes_iff (hp : p.Fresh) :
    p.Completes attempts ↔ attempts.length = p.quantity := by
  have hpart : ∀ k ≤ p.quantity, k ≤ attempts.length →
      ((p.after (attempts.take k)).isDone = true ↔ k = p.quantity) := by
    intro k hk hlength
    have hlen : (attempts.take k).length = k := List.length_take_of_le hlength
    rw [hp.isDone_after (by rwa [hlen]), hlen]
  constructor
  · intro hrun
    rcases Nat.lt_or_ge p.quantity attempts.length with hgt | hle
    · -- the run would have ended when the slots were used up
      have hdone := (hpart p.quantity le_rfl hgt.le).mpr rfl
      rw [hrun.isOpen p.quantity hgt] at hdone
      cases hdone
    · exact (hp.isDone_after hle).mp hrun.isDone
  · intro hlength
    refine ⟨fun k hk => ?_, (hp.isDone_after hlength.le).mpr hlength⟩
    rw [← Bool.not_eq_true, hpart k (by omega) hk.le]
    omega

theorem after_take_succ (p : SwapStream) {k : Nat} {a : Attempt} (h : attempts[k]? = some a) :
    p.after (attempts.take (k + 1)) = (p.after (attempts.take k)).attempt a := by
  rw [List.take_add_one, h, Option.toList_some, after_concat]

/-- A last slice that is sold spends the deposit. -/
theorem Fresh.input_of_sold_last (hp : p.Fresh) (hrun : p.Completes attempts) {height : Nat}
    {output : Amount} (hlast : attempts.getLast? = some (.sold height output)) :
    (p.after attempts).input = p.deposit := by
  have hlength := hp.completes_iff.mp hrun
  obtain ⟨before, rfl⟩ := List.getLast?_eq_some_iff.mp hlast
  rw [List.length_append, List.length_singleton] at hlength
  have hbefore : before.length ≤ p.quantity := by omega
  obtain ⟨hshows, hstep⟩ := hp.shows_after hbefore
  obtain ⟨hq, hd⟩ := after_terms p before
  have hopen := hrun.isOpen before.length (by simp)
  rw [List.take_left' rfl] at hopen
  -- the last attempt finds one slot left
  have hcount : (p.after before).quantity ≤ (p.after before).count + 1 := by
    rw [hq, hshows.count]
    exact hlength.ge
  rw [after_concat, attempt_sold_last (hstep (by omega)) hopen hcount, hd]

/-- **A stream from its first slice to its last.**  Whatever is sold and whatever fails, at any
heights, the run has as many attempts as there are slices, no sale in it is refused, its record
shows what happened at every point, a last slice that is sold spends the deposit, and then no slice
is taken any more. -/
theorem whole_run {tx : TxId} {interval quantity : Nat} {target deposit : Amount}
    (hquantity : quantity ≠ 0) (hword : quantity < wordBound 64) (hdeposit : deposit.toNat ≠ 0)
    (attempts : List Attempt) :
    let start := new tx interval quantity target deposit
    (start.Completes attempts ↔ attempts.length = quantity) ∧
      (start.Completes attempts →
        (∀ k ≤ quantity, Shows deposit (attempts.take k) (start.after (attempts.take k))) ∧
        (∀ k height output, attempts[k]? = some (.sold height output) →
          (start.after (attempts.take k)).recordSwap height
              (start.after (attempts.take k)).nextSize.1 output =
            .ok (start.after (attempts.take (k + 1)))) ∧
        (∀ height output, attempts.getLast? = some (.sold height output) →
          (start.after attempts).input = deposit) ∧
        (start.after attempts).Closed) := by
  intro start
  have hfresh : start.Fresh := fresh_new hword hdeposit tx interval target
  refine ⟨hfresh.completes_iff, fun hrun => ⟨fun k hk => ?_, fun k height output hsold => ?_,
    fun height output hlast => hfresh.input_of_sold_last hrun hlast,
    closed_of_isDone hrun.isDone ?_⟩⟩
  · have hlength : (attempts.take k).length ≤ quantity := by
      rw [List.length_take]
      omega
    exact (hfresh.shows_after hlength).1
  · rw [after_take_succ start hsold]
    exact recordSwap_eq_attempt (hrun.isOpen k (List.getElem?_eq_some_iff.mp hsold).1) height output
  · rw [(after_terms start attempts).1]
    exact hquantity

/-- Ten units in three slices, of which the second fails: the last one sells the seven left. -/
theorem whole_run_thirds :
    let start := new ⟨"01"⟩ 1 3 0 10
    let attempts := [Attempt.sold 1 3, .failed 2 "no price", .sold 3 7]
    3 ≠ 0 ∧ 3 < wordBound 64 ∧ (10 : Amount).toNat ≠ 0 ∧ start.Completes attempts ∧
      Shows 10 attempts (start.after attempts) ∧ (start.after attempts).failedSwaps = [1] ∧
      (start.after attempts).input = 10 ∧ (start.after attempts).Closed := by
  intro start attempts
  obtain ⟨hiff, hrun⟩ := @whole_run ⟨"01"⟩ 1 3 0 10 (by decide) (by decide) (by decide) attempts
  obtain ⟨hshows, -, hlast, hclosed⟩ := hrun (hiff.mpr rfl)
  have hfailed : (start.after attempts).failedSwaps = [1] := by decide +kernel
  exact ⟨by decide, by decide, by decide, hiff.mpr rfl, hshows 3 le_rfl, hfailed, hlast 3 7 rfl,
    hclosed⟩

end Runs

end PoolExchange.SwapStream
