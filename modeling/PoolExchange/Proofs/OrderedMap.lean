import Mathlib.Tactic
import PoolExchange.OrderedMap

/-!
# OrderedMap — membership, keys, sums and images

What the walks over a map see, in terms of its look-ups: the values are the values found under
some key, the keys are pairwise different, and a sum over the entries changes under `insert` by the
new entry less the one it replaces (`sum_insert`).  The list of its entries makes up the map again
(`ofList_entries`).  Insertions under different keys commute, and the image of a map under a
function of its values (`mapValues`) goes along with its updates.  Erasing several keys makes the map
smaller by as many as are found in it (`size_eraseAll`).
-/

namespace PoolExchange.OrderedMap

variable {κ α : Type} [Ord κ] [Std.TransOrd κ] [Std.LawfulEqOrd κ]

/-! ### Membership -/

theorem mem_values_iff {m : OrderedMap κ α} {v : α} :
    v ∈ m.values ↔ ∃ k, m.find? k = some v := by
  simp only [values, List.mem_map, find?_eq_some_iff, Prod.exists, exists_eq_right]

theorem mem_values_of_find? {m : OrderedMap κ α} {k : κ} {v : α} (h : m.find? k = some v) :
    v ∈ m.values :=
  mem_values_iff.mpr ⟨k, h⟩

theorem forall_values {P : α → Prop} {m : OrderedMap κ α}
    (h : ∀ k v, m.find? k = some v → P v) : ∀ v ∈ m.values, P v := by
  intro v hv
  obtain ⟨k, hk⟩ := mem_values_iff.mp hv
  exact h k v hk

omit [Std.TransOrd κ] in
theorem nodup_keys (m : OrderedMap κ α) : m.keys.Nodup := by
  refine List.pairwise_map.mpr (m.ascending.imp fun {a b} h e => ?_)
  rw [e] at h
  simp at h

/-- What holds of every entry holds after one more that it holds of. -/
theorem forall_insert [DecidableEq κ] {P : κ → α → Prop} {m : OrderedMap κ α}
    (h : ∀ k v, m.find? k = some v → P k v) {k : κ} {v : α} (hv : P k v) :
    ∀ k' v', (m.insert k v).find? k' = some v' → P k' v' := by
  intro k' v' hfind
  rw [find?_insert] at hfind
  split at hfind
  · rename_i hk
    rw [hk, ← Option.some.inj hfind]
    exact hv
  · exact h k' v' hfind

omit [Std.TransOrd κ] in
theorem forall_erase [DecidableEq κ] {P : κ → α → Prop} {m : OrderedMap κ α}
    (h : ∀ k v, m.find? k = some v → P k v) (k : κ) :
    ∀ k' v', (m.erase k).find? k' = some v' → P k' v' := by
  intro k' v' hfind
  rw [find?_erase] at hfind
  split at hfind
  · cases hfind
  · exact h k' v' hfind

/-! ### Lists of entries -/

omit [Std.LawfulEqOrd κ] in
/-- A key after all others goes to the end. -/
theorem insertEntry_of_gt {l : List (κ × α)} {k : κ} {v : α}
    (h : ∀ e ∈ l, compare e.1 k = .lt) : insertEntry k v l = l ++ [(k, v)] := by
  induction l with
  | nil => rfl
  | cons e rest ih =>
      have hgt : compare k e.1 = .gt := Std.OrientedCmp.gt_iff_lt.mpr (h e List.mem_cons_self)
      rw [insertEntry, hgt]
      exact congrArg (e :: ·) (ih fun e he => h e (List.mem_cons_of_mem _ he))

omit [Std.LawfulEqOrd κ] in
/-- **A map is made of its entries.** -/
theorem ofList_entries (m : OrderedMap κ α) : ofList m.entries = m := by
  have happend : ∀ (l : List (κ × α)) (m' : OrderedMap κ α), Ascending (m'.entries ++ l) →
      (l.foldl (fun m e => m.insert e.1 e.2) m').entries = m'.entries ++ l := by
    intro l
    induction l with
    | nil => exact fun m' _ => (List.append_nil _).symm
    | cons e l ih =>
        intro m' hm'
        have hlast : (m'.insert e.1 e.2).entries = m'.entries ++ [e] :=
          insertEntry_of_gt fun e' he' =>
            (List.pairwise_append.mp hm').2.2 e' he' e List.mem_cons_self
        have hl : m'.entries ++ [e] ++ l = m'.entries ++ e :: l := by
          rw [List.append_assoc, List.singleton_append]
        rw [List.foldl_cons, ih _ (by rw [hlast, hl]; exact hm'), hlast, hl]
  exact OrderedMap.ext ((happend m.entries empty m.ascending).trans (List.nil_append _))

/-- Values that tell their keys make up the entries. -/
theorem map_values_eq_entries {m : OrderedMap κ α} {key : α → κ}
    (h : ∀ k v, m.find? k = some v → key v = k) :
    (m.values.map fun v => (key v, v)) = m.entries := by
  rw [values, List.map_map]
  refine (List.map_congr_left fun e he => ?_).trans (List.map_id _)
  exact Prod.ext (h e.1 e.2 (find?_eq_some_iff.mpr he)) rfl

/-! ### Sums -/

/-- Putting an entry adds its weight, less the weight of the entry that it replaces. -/
theorem sum_insertEntry {l : List (κ × α)} (h : Ascending l) (f : κ × α → Nat) (k : κ) (v : α) :
    ((insertEntry k v l).map f).sum + ((lookup k l).map fun o => f (k, o)).getD 0 =
      (l.map f).sum + f (k, v) := by
  induction l with
  | nil => simp [insertEntry, lookup]
  | cons e rest ih =>
    obtain ⟨k', v'⟩ := e
    obtain ⟨hlt, hrest⟩ := List.pairwise_cons.mp h
    unfold insertEntry
    cases hk : compare k k' with
    | lt =>
      -- `k` comes before every key, so it replaces nothing
      have hnone : lookup k rest = none :=
        lookup_eq_none_of_lt fun x hx => Std.TransCmp.lt_trans hk (hlt x hx)
      simp only [lookup, hk, reduceCtorEq, if_false, hnone, List.map_cons, List.sum_cons,
        Option.map_none, Option.getD_none]
      omega
    | eq =>
      obtain rfl := Std.LawfulEqOrd.eq_of_compare hk
      simp only [lookup, hk, if_true, List.map_cons, List.sum_cons, Option.map_some,
        Option.getD_some]
      omega
    | gt =>
      simp only [lookup, hk, reduceCtorEq, if_false, List.map_cons, List.sum_cons]
      have := ih hrest
      omega

/-- **Sums under `insert`**: the new entry comes in, the entry under the same key goes out. -/
theorem sum_insert (m : OrderedMap κ α) (f : κ × α → Nat) (k : κ) (v : α) :
    (((m.insert k v).entries.map f).sum + ((m.find? k).map fun o => f (k, o)).getD 0) =
      (m.entries.map f).sum + f (k, v) :=
  sum_insertEntry m.ascending f k v

/-- No entry weighs more than the map. -/
theorem le_sum_of_find? {m : OrderedMap κ α} {k : κ} {v : α} (f : κ × α → Nat)
    (h : m.find? k = some v) : f (k, v) ≤ (m.entries.map f).sum :=
  List.le_sum_of_mem (List.mem_map_of_mem (find?_eq_some_iff.mp h))

/-! ### Updates that commute -/

theorem insert_comm [DecidableEq κ] (m : OrderedMap κ α) {k k' : κ} (h : k ≠ k') (v v' : α) :
    (m.insert k v).insert k' v' = (m.insert k' v').insert k v := by
  refine ext_find? fun i => ?_
  simp only [find?_insert]
  by_cases hk : i = k
  · rw [if_pos hk, if_pos hk, if_neg (hk ▸ h)]
  · rw [if_neg hk, if_neg hk]

/-! ### Images -/

variable {β : Type} (f : α → β)

/-- The image of every value, under the same key. -/
def mapValues (m : OrderedMap κ α) : OrderedMap κ β where
  entries := m.entries.map fun e => (e.1, f e.2)
  ascending := List.pairwise_map.mpr (m.ascending.imp id)

omit [Std.TransOrd κ] [Std.LawfulEqOrd κ] in
theorem find?_mapValues (m : OrderedMap κ α) (k : κ) :
    (m.mapValues f).find? k = (m.find? k).map f := by
  show lookup k (m.entries.map _) = (lookup k m.entries).map f
  induction m.entries with
  | nil => rfl
  | cons e rest ih =>
      simp only [List.map_cons, lookup]
      split
      · rfl
      · exact ih

theorem mapValues_insert [DecidableEq κ] (m : OrderedMap κ α) (k : κ) (v : α) :
    (m.insert k v).mapValues f = (m.mapValues f).insert k (f v) := by
  refine ext_find? fun i => ?_
  simp only [find?_mapValues, find?_insert]
  split <;> rfl

theorem mapValues_erase [DecidableEq κ] (m : OrderedMap κ α) (k : κ) :
    (m.erase k).mapValues f = (m.mapValues f).erase k := by
  refine ext_find? fun i => ?_
  simp only [find?_mapValues, find?_erase]
  split <;> rfl

/-! ### Erasing several keys -/

variable [DecidableEq κ]

/-- The map without the entries under the given keys. -/
def eraseAll (m : OrderedMap κ α) (ks : List κ) : OrderedMap κ α := ks.foldl erase m

/-- The keys of a map that are among the given ones. -/
def found (m : OrderedMap κ α) (ks : List κ) : List κ := m.keys.filter (· ∈ ks)

omit [Std.TransOrd κ] [Std.LawfulEqOrd κ] [DecidableEq κ] in
theorem eraseAll_cons (m : OrderedMap κ α) (k : κ) (ks : List κ) :
    m.eraseAll (k :: ks) = (m.erase k).eraseAll ks := rfl

omit [Std.TransOrd κ] in
theorem entries_eraseAll (m : OrderedMap κ α) (ks : List κ) :
    (m.eraseAll ks).entries = m.entries.filter fun e => e.1 ∉ ks := by
  induction ks generalizing m with
  | nil => simp [eraseAll]
  | cons k ks ih =>
    rw [eraseAll_cons, ih, erase, List.filter_filter]
    refine List.filter_congr fun e _ => ?_
    rw [← Bool.decide_and, decide_eq_decide, List.mem_cons, not_or, and_comm, ne_eq,
      Std.LawfulEqOrd.compare_eq_iff_eq, eq_comm]

omit [Std.TransOrd κ] in
theorem find?_eraseAll (m : OrderedMap κ α) (ks : List κ) (k : κ) :
    (m.eraseAll ks).find? k = if k ∈ ks then none else m.find? k := by
  induction ks generalizing m with
  | nil => simp [eraseAll]
  | cons k' ks ih =>
    rw [eraseAll_cons, ih, find?_erase]
    by_cases hk : k = k' <;> simp [hk]

omit [Std.TransOrd κ] in
/-- What is erased is what is found. -/
theorem size_eraseAll (m : OrderedMap κ α) (ks : List κ) :
    m.size = (m.eraseAll ks).size + (m.found ks).length := by
  have hfound : (m.found ks).length = (m.entries.filter fun e => e.1 ∈ ks).length := by
    rw [found, keys, List.filter_map, List.length_map]
    rfl
  rw [hfound, size, size, entries_eraseAll, Nat.add_comm]
  simpa using List.length_eq_length_filter_add fun e : κ × α => decide (e.1 ∈ ks)

omit [Std.TransOrd κ] [Std.LawfulEqOrd κ] in
theorem mem_found_iff {m : OrderedMap κ α} {ks : List κ} {k : κ} :
    k ∈ m.found ks ↔ k ∈ m.keys ∧ k ∈ ks := by
  rw [found, List.mem_filter, decide_eq_true_eq]

omit [DecidableEq κ] in
theorem mem_keys_of_find? {m : OrderedMap κ α} {k : κ} {v : α} (h : m.find? k = some v) :
    k ∈ m.keys :=
  List.mem_map.mpr ⟨(k, v), find?_eq_some_iff.mp h, rfl⟩

omit [Std.TransOrd κ] in
theorem length_found_le (m : OrderedMap κ α) (ks : List κ) : (m.found ks).length ≤ ks.length :=
  (List.subperm_of_subset (m.nodup_keys.filter _) fun _ h => (mem_found_iff.mp h).2).length_le

omit [Std.TransOrd κ] in
/-- Of different keys that are all there, all are found. -/
theorem length_found_of_nodup {m : OrderedMap κ α} {ks : List κ} (hnodup : ks.Nodup)
    (hmem : ∀ k ∈ ks, k ∈ m.keys) : (m.found ks).length = ks.length :=
  Nat.le_antisymm (m.length_found_le ks)
    (List.subperm_of_subset hnodup fun k hk => mem_found_iff.mpr ⟨hmem k hk, hk⟩).length_le

end PoolExchange.OrderedMap
