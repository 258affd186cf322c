import PoolExchange.Proofs.Queue.Index

/-!
# Queue — the order of execution is unique

A candidate goes before another when it would pay a higher fee, or the same fee under a lesser
transaction, or both of these with a lesser index (`Candidate.Precedes`).  Candidates with
different keys are never level, so they have one order in which each goes before all that follow
(`Candidate.existsUnique_order`); sorting finds it, from whatever order the candidates were
gathered in.  A block runs the first candidates of that order (`SwapQueue.agenda_eq_take`).
-/

namespace PoolExchange

namespace Candidate

/-- `a` goes before `b`: by falling fee, then by transaction, then by index. -/
def Precedes (a b : Candidate) : Prop :=
  b.fee < a.fee ∨ a.fee = b.fee ∧
    (compare a.swap.tx b.swap.tx = .lt ∨ a.swap.tx = b.swap.tx ∧ a.swap.index < b.swap.index)

theorem compare_key_eq_lt_iff (v w : Swap) :
    compare v.key w.key = .lt ↔
      compare v.tx w.tx = .lt ∨ v.tx = w.tx ∧ v.index < w.index := by
  show compareLex (compareOn SwapKey.tx) (compareOn SwapKey.index) v.key w.key = .lt ↔ _
  simp only [compareLex, compareOn, Swap.key, Ordering.then_eq_lt,
    Std.LawfulEqOrd.compare_eq_iff_eq, Nat.compare_eq_lt]

theorem precedes_iff {a b : Candidate} :
    a.Precedes b ↔ b.fee < a.fee ∨ a.fee = b.fee ∧ compare a.swap.key b.swap.key = .lt := by
  rw [Precedes, compare_key_eq_lt_iff]

theorem Precedes.asymm {a b : Candidate} (h : a.Precedes b) : ¬ b.Precedes a := by
  rw [precedes_iff] at h ⊢
  rintro (hfee | ⟨heq, hkey⟩)
  · rcases h with h | ⟨h, -⟩
    · exact Nat.lt_asymm h hfee
    · exact Nat.lt_irrefl _ (h ▸ hfee : a.fee < a.fee)
  · rcases h with h | ⟨-, h⟩
    · exact Nat.lt_irrefl _ (heq ▸ h : b.fee < b.fee)
    · exact Std.OrientedCmp.not_lt_of_lt h hkey

theorem runsBefore_iff_isLE {a b : Candidate} :
    a.runsBefore b = true ↔
      b.fee < a.fee ∨ a.fee = b.fee ∧ (compare a.swap.key b.swap.key).isLE = true := by
  rw [runsBefore]
  split
  · rename_i hfee
    simp [hfee, Amount.lt_def]
  · rename_i hfee
    simp [hfee]

/-- Sorting compares by going before, and takes candidates of one fee and key to be level. -/
theorem runsBefore_iff {a b : Candidate} :
    a.runsBefore b = true ↔ a.Precedes b ∨ a.fee = b.fee ∧ a.swap.key = b.swap.key := by
  rw [runsBefore_iff_isLE, precedes_iff, Ordering.isLE_iff_eq_lt_or_eq_eq,
    Std.LawfulEqOrd.compare_eq_iff_eq, and_or_left, or_assoc]

theorem runsBefore_trans (a b c : Candidate) (hab : a.runsBefore b = true)
    (hbc : b.runsBefore c = true) : a.runsBefore c = true := by
  rw [runsBefore_iff_isLE] at *
  rcases hab with hab | ⟨hab, hkey⟩ <;> rcases hbc with hbc | ⟨hbc, hkey'⟩
  · exact .inl (Nat.lt_trans hbc hab)
  · exact .inl (hbc ▸ hab)
  · exact .inl (hab ▸ hbc)
  · exact .inr ⟨hab.trans hbc, Std.TransCmp.isLE_trans hkey hkey'⟩

theorem runsBefore_total (a b : Candidate) : (a.runsBefore b || b.runsBefore a) = true := by
  rw [Bool.or_eq_true, runsBefore_iff_isLE, runsBefore_iff_isLE]
  rcases Nat.lt_trichotomy a.fee.toNat b.fee.toNat with hfee | hfee | hfee
  · exact .inr (.inl hfee)
  · have hfee : a.fee = b.fee := Amount.ext hfee
    cases hkey : compare a.swap.key b.swap.key with
    | lt | eq => exact .inl (.inr ⟨hfee, rfl⟩)
    | gt => exact .inr (.inr ⟨hfee.symm, by rw [Std.OrientedCmp.gt_iff_lt.mp hkey]; rfl⟩)
  · exact .inl (.inl hfee)

/-- **Sorting puts candidates with different keys into their order.** -/
theorem pairwise_sorted {cs : List Candidate} (hnodup : (cs.map fun c => c.swap.key).Nodup) :
    (sorted cs).Pairwise Precedes := by
  have hkeys : (sorted cs).Pairwise fun a b => a.swap.key ≠ b.swap.key := by
    refine List.pairwise_map.mp ?_
    exact ((List.mergeSort_perm cs runsBefore).map _).nodup_iff.mpr hnodup
  refine (List.pairwise_mergeSort runsBefore_trans runsBefore_total cs).imp₂ ?_ hkeys
  intro a b h hne
  rcases runsBefore_iff.mp h with h | ⟨-, he⟩
  · exact h
  · exact absurd he hne

/-- There is one such order. -/
theorem eq_of_precedes {cs cs' : List Candidate} (h : cs.Perm cs') (hcs : cs.Pairwise Precedes)
    (hcs' : cs'.Pairwise Precedes) : cs = cs' :=
  h.eq_of_pairwise (fun _ _ _ _ hab hba => absurd hba hab.asymm) hcs hcs'

theorem existsUnique_order {cs : List Candidate}
    (hnodup : (cs.map fun c => c.swap.key).Nodup) :
    ∃! order : List Candidate, order.Perm cs ∧ order.Pairwise Precedes := by
  refine ⟨sorted cs, ⟨List.mergeSort_perm cs runsBefore, pairwise_sorted hnodup⟩, ?_⟩
  rintro order ⟨hperm, hpairwise⟩
  exact eq_of_precedes (hperm.trans (List.mergeSort_perm cs runsBefore).symm) hpairwise
    (pairwise_sorted hnodup)

/-- **The order in which the candidates were gathered makes no difference.** -/
theorem sorted_eq_of_perm {cs cs' : List Candidate} (h : cs.Perm cs')
    (hnodup : (cs.map fun c => c.swap.key).Nodup) : sorted cs = sorted cs' := by
  have hnodup' := (h.map fun c => c.swap.key).nodup_iff.mp hnodup
  refine eq_of_precedes ?_ (pairwise_sorted hnodup) (pairwise_sorted hnodup')
  exact ((List.mergeSort_perm cs _).trans h).trans (List.mergeSort_perm cs' _).symm

end Candidate

namespace SwapQueue

/-- The candidates of a block with their scores. -/
def scored (q : SwapQueue) (s : Store) (height : Nat) : List Candidate :=
  (q.candidates s height).map fun c => c.scored s.source q.config

/-- The number of swaps that a block runs. -/
def capacity (q : SwapQueue) (s : Store) (height : Nat) : Nat :=
  todoCount (q.candidates s height).length q.config.queue.minSwaps q.config.queue.maxSwaps

variable {s : Store} (q : SwapQueue) (height : Nat)

/-- A score changes no key. -/
theorem map_key_scored (s : Store) :
    ((q.scored s height).map fun c => c.swap.key) =
      (q.candidates s height).map fun c => c.swap.key := by
  rw [scored, List.map_map]
  rfl

theorem nodup_scored (hi : s.Indexed) : ((q.scored s height).map fun c => c.swap.key).Nodup := by
  rw [map_key_scored]
  exact (q.distinct_candidates height hi).nodup

/-- **A block runs the first candidates of their order.** -/
theorem agenda_eq_take (hi : s.Indexed) {order : List Candidate}
    (hperm : order.Perm (q.scored s height)) (horder : order.Pairwise Candidate.Precedes) :
    q.agenda s height = (order.take (q.capacity s height)).map Candidate.swap := by
  have hsorted : Candidate.sorted (q.scored s height) = order := by
    refine Candidate.eq_of_precedes ((List.mergeSort_perm _ _).trans hperm.symm) ?_ horder
    exact Candidate.pairwise_sorted (q.nodup_scored height hi)
  rw [← hsorted]
  rfl

/-- Candidates that are gathered in their order need no sorting, whatever pools there are. -/
theorem agenda_of_pairwise
    (h : (q.scored s height).Pairwise fun a b => Candidate.runsBefore a b = true) :
    q.agenda s height = ((q.scored s height).take (q.capacity s height)).map Candidate.swap := by
  have hsorted : Candidate.sorted (q.scored s height) = q.scored s height :=
    List.mergeSort_of_pairwise h
  exact congrArg (fun cs => (cs.take (q.capacity s height)).map Candidate.swap) hsorted

end SwapQueue

end PoolExchange
