import PoolExchange.Proofs.Queue.Index
import PoolExchange.Proofs.Queue.Outcome

/-!
# Queue — what a block remembers of earlier calls

Beside its configuration a queue keeps the limit swaps accepted since the last block, and the next
block looks at those even when the walk over the store passes them by.  So two queues with one
configuration can end the same block differently: one that accepted a limit swap itself, and one
that has been started since and finds the swap in the store.

The main result is `block_independent_iff`.  What the calls before were makes no difference to a
block exactly when the block rests, or when a queue that has just been started finds every queued
swap that may run (`FindsReady`).  It makes no difference to the block after, which has nothing
fresh left.
-/

namespace PoolExchange

namespace SwapQueue

/-! ### Calls -/

/-- A call that a queue serves, on the store or the ledger that comes with it. -/
inductive Call
  | accept (store : Store) (swap : Swap)
  | endBlock (height : Nat) (ledger : Ledger)
  | override (overrides : List (String × Int))

/-- The queue after a call; a swap that is refused leaves it as it was. -/
def serve (q : SwapQueue) : Call → SwapQueue
  | .accept s w =>
    match q.accept s w with
    | .ok (q, _) => q
    | .error _ => q
  | .endBlock height l => (endBlock .pools q height () l).1
  | .override overrides => q.override overrides

/-- The queue that was started with `config` and has served `calls`. -/
def after (config : Config) (calls : List Call) : SwapQueue := calls.foldl serve ⟨config, []⟩

/-- A queue that has just been started finds every queued swap that may run. -/
def FindsReady (config : Config) (s : Store) (height : Nat) : Prop :=
  ∀ k w, s.swap? k = some w → s.isReady w height config = true →
    ∃ c ∈ candidates ⟨config, []⟩ s height, c.swap.key = k

/-! ### Fresh swaps -/

/-- The candidates are those of a queue that has just been started, and the fresh swaps. -/
theorem candidates_eq_addFresh (q : SwapQueue) (s : Store) (height : Nat) :
    q.candidates s height =
      addFresh s height q.config q.fresh (candidates ⟨q.config, []⟩ s height) := rfl

/-- Fresh swaps that are found without being fresh add nothing. -/
theorem addFresh_eq_self {s : Store} {height : Nat} {config : Config} {cs : List Candidate}
    (fresh : List SwapKey)
    (h : ∀ k w, s.swap? k = some w → s.isReady w height config = true →
      ∃ c ∈ cs, c.swap.key = k) : addFresh s height config fresh cs = cs := by
  induction fresh with
  | nil => rfl
  | cons k fresh ih =>
      rw [addFresh_cons, addFresh_singleton]
      split
      · exact ih
      · rename_i hnew
        cases hk : readyAt? s height config k with
        | none => rw [Option.toList_none, List.append_nil]; exact ih
        | some d =>
            -- what may run under this key has been found
            obtain ⟨w, hw, -⟩ := Option.map_eq_some_iff.mp hk
            obtain ⟨hw, hready⟩ := Option.filter_eq_some_iff.mp hw
            obtain ⟨c, hc, hkey⟩ := h k w hw hready
            exact absurd (List.mem_map.mpr ⟨c, hc, hkey⟩) hnew

/-- A limit swap under a given key; nothing but the key matters. -/
def sample (k : SwapKey) : Swap :=
  ⟨k.tx, k.index, ⟨"sender"⟩, ⟨.native, 1⟩, ⟨"BTC", "BTC", .layer1⟩, ⟨"receiver"⟩, 1, .limit, 0, 0,
    none, 0⟩

/-- A history that leaves a single swap fresh. -/
theorem after_accept_sample (config : Config) (k : SwapKey) :
    after config [.accept .empty (sample k)] = ⟨config, [k]⟩ := rfl

/-! ### The report and the queue -/

variable {q q' : SwapQueue} {height : Nat} {l : Ledger}

theorem fetched_foldl_step (config : Config) (index : PairIndex) (ws : List Swap)
    (acc : BlockRun Unit × List Pair) :
    (ws.foldl (BlockRun.step .pools config height index) acc).1.report.fetched =
      acc.1.report.fetched := by
  induction ws generalizing acc with
  | nil => rfl
  | cons w ws ih =>
      have hran := (BlockRun.ran_execute config height w acc.1).fetched
      rw [List.foldl_cons, ih, BlockRun.step]
      split
      · exact hran
      · exact hran

/-- A block that does not rest reports how many candidates it had. -/
theorem fetched_endBlock (hr : rests q.config height = false) :
    (endBlock .pools q height () l).2.report.fetched = (q.candidates l.store height).length := by
  simp only [endBlock, if_neg (Bool.eq_false_iff.mp hr)]
  exact fetched_foldl_step q.config _ _ _

/-- A block is determined by the configuration and the candidates. -/
theorem endBlock_congr (hc : q'.config = q.config)
    (hcs : q'.candidates l.store height = q.candidates l.store height) :
    (endBlock .pools q' height () l).2 = (endBlock .pools q height () l).2 := by
  simp only [endBlock, hc, hcs]

/-- A block that rests runs nothing, whatever is fresh. -/
theorem endBlock_of_rests (hr : rests q.config height = true) :
    (endBlock .pools q height () l).2 = ⟨(), l, { height := height, skipped := true }⟩ := by
  rw [endBlock, if_pos hr]

/-! ### Independence of the calls before -/

/-- **When a block depends only on the store, the configuration and the height.**  Queues that have
come to one configuration by whatever calls end the block with the same ledger and the same report
exactly when it rests, or when a queue that has just been started finds every queued swap that may
run. -/
theorem block_independent_iff (config : Config) (height : Nat) (l : Ledger) :
    (∀ c c' calls calls', (after c calls).config = config → (after c' calls').config = config →
        (endBlock .pools (after c calls) height () l).2 =
          (endBlock .pools (after c' calls') height () l).2) ↔
      rests config height = true ∨ FindsReady config l.store height := by
  constructor
  · intro h
    by_contra hnot
    obtain ⟨hrests, hfinds⟩ := not_or.mp hnot
    simp only [FindsReady, not_forall] at hfinds
    obtain ⟨k, w, hw, hready, hnew⟩ := hfinds
    -- a queue that accepted a swap under this key against one that has just been started
    have hsame := h config config [.accept .empty (sample k)] [] rfl rfl
    have hcount := congrArg (fun r => r.report.fetched) hsame
    simp only [after_accept_sample] at hcount
    have hadded : readyAt? l.store height config k = some (.ofSwap w) := by
      rw [readyAt?, hw, Option.filter_some, if_pos hready, Option.map_some]
    rw [fetched_endBlock (Bool.eq_false_iff.mpr hrests),
      fetched_endBlock (Bool.eq_false_iff.mpr hrests), candidates_eq_addFresh, addFresh_singleton,
      if_neg (mt List.mem_map.mp hnew), hadded, List.length_append] at hcount
    exact absurd hcount (Nat.succ_ne_self _)
  · rintro (hrests | hfinds) c c' calls calls' hc hc'
    · rw [endBlock_of_rests (hc.symm ▸ hrests), endBlock_of_rests (hc'.symm ▸ hrests)]
    · have hcandidates : ∀ q : SwapQueue, q.config = config →
          q.candidates l.store height = candidates ⟨config, []⟩ l.store height := by
        rintro ⟨_, fresh⟩ rfl
        rw [candidates_eq_addFresh]
        exact addFresh_eq_self fresh hfinds
      refine endBlock_congr (hc.trans hc'.symm) ?_
      rw [hcandidates _ hc, hcandidates _ hc']

/-- A limit swap that the pool of `btcStore` can fill at once. -/
def btcLimit : Swap :=
  ⟨⟨"02"⟩, 0, ⟨"bob"⟩, ⟨.native, 1000000000⟩, ⟨"BTC", "BTC", .layer1⟩, ⟨"bob"⟩, 500000000, .limit,
    0, 0, none, 1⟩

def btcStore : Store :=
  Store.empty.setPool ⟨⟨"BTC", "BTC", .layer1⟩, 100000000000, 100000000000, 100000000000, 0, 0, 0,
    .available, 8⟩

/-- A limit swap has been accepted.  The queue that accepted it fills it; one that has seen a block
since, on a copy of the same store, does not look at it. -/
theorem block_depends_on_history :
    let l : Ledger := ⟨enter btcStore btcLimit, []⟩
    let q := after {} [.accept btcStore btcLimit]
    let q' := after {} [.accept btcStore btcLimit, .endBlock 1 l]
    accept ⟨{}, []⟩ btcStore btcLimit = .ok (q, l.store) ∧
      q.config = {} ∧ q'.config = {} ∧
      (endBlock .pools q 1 () l).2.report.executed = 1 ∧
      (endBlock .pools q' 1 () l).2.report.executed = 0 ∧
      (endBlock .pools q 1 () l).2.ledger.events.length = 2 ∧
      (endBlock .pools q' 1 () l).2.ledger.events = [] ∧
      (endBlock .pools q 1 () l).2.ledger.store.swap? btcLimit.key = none ∧
      (endBlock .pools q' 1 () l).2.ledger.store.swap? btcLimit.key = some btcLimit := by
  decide +kernel

end SwapQueue

end PoolExchange
