import PoolExchange.Proofs.Exchange.Account

/-!
# Queue — the flags of a pair index

The flags of a block are stored without the pairs they stand for, and are read back by the index of
the pools there are then.  An index reads its own flags as they were set (`decode?_encode_self`).
Another index reads them place by place (`decode?_encode`), if it has as many pairs, and the pairs
in the same place need not be the same.

The main result is `readsRight_ofStore_iff`: when the pools listed by a store may change so that no
flags are misread.  With as many pools listed as before, they must be the same pools.
-/

namespace PoolExchange

namespace PairIndex

variable {i j : PairIndex} {flagged : List Pair} {p : Pair}

/-! ### Flagging -/

theorem mem_addNew {ps : List Pair} {r : Pair} : p ∈ addNew ps r ↔ p ∈ ps ∨ p = r := by
  rw [addNew]
  split
  · rename_i hr
    exact ⟨.inl, fun h => h.elim id fun e => e ▸ hr⟩
  · rw [List.mem_append, List.mem_singleton]

/-- A trade adds the pairs of the index that it may have improved. -/
theorem mem_flagMatching {trade : Pair} :
    p ∈ i.flagMatching flagged trade ↔ p ∈ flagged ∨ p ∈ i.pairs ∧ improves trade p = true := by
  have hfold : ∀ (ps flagged : List Pair), p ∈ ps.foldl addNew flagged ↔ p ∈ flagged ∨ p ∈ ps := by
    intro ps
    induction ps with
    | nil => simp
    | cons r ps ih =>
        intro flagged
        rw [List.foldl_cons, ih, mem_addNew, List.mem_cons, or_assoc]
  rw [flagMatching, hfold, List.mem_filter]

/-! ### Reading back -/

theorem length_encode (i : PairIndex) (flagged : List Pair) : (i.encode flagged).length = i.size :=
  List.length_map _

/-- The flags of an index are read place by place. -/
theorem decode?_encode (i j : PairIndex) (flagged : List Pair) :
    j.decode? (i.encode flagged) =
      if i.size = j.size then
        some (((j.pairs.zip i.pairs).filter fun e => e.2 ∈ flagged).map Prod.fst)
      else none := by
  rw [decode?, length_encode, encode, List.zip_map_right, List.filter_map, List.map_map]
  rfl

/-- An index reads its own flags as they were set. -/
theorem decode?_encode_self (i : PairIndex) (flagged : List Pair) :
    i.decode? (i.encode flagged) = some (i.pairs.filter (· ∈ flagged)) := by
  rw [decode?_encode, if_pos rfl]
  induction i.pairs with
  | nil => rfl
  | cons r ps ih =>
      have ih := Option.some.inj ih
      rw [List.zip_cons_cons, List.filter_cons, List.filter_cons]
      split
      · rw [List.map_cons, ih]
      · rw [ih]

/-- `j` reads no pair from flags of `i` that was not flagged. -/
def ReadsRight (i j : PairIndex) : Prop :=
  ∀ flagged ps, j.decode? (i.encode flagged) = some ps → ∀ p ∈ ps, p ∈ flagged

/-- Flags are safe from an index of another size, and with the index that set them. -/
theorem readsRight_iff : i.ReadsRight j ↔ i.size ≠ j.size ∨ i = j := by
  constructor
  · intro h
    by_contra hnot
    obtain ⟨hsize, hne⟩ := not_or.mp hnot
    have hsize := not_not.mp hsize
    refine hne (PairIndex.ext (List.ext_getElem hsize fun k hi hj => ?_))
    -- the flag in place `k` alone
    have hread := h [i.pairs[k]] _ (by rw [decode?_encode, if_pos hsize])
    have hk : k < (j.pairs.zip i.pairs).length := by
      rw [List.length_zip]
      exact Nat.lt_min.mpr ⟨hj, hi⟩
    have hplace := List.getElem_mem hk
    rw [List.getElem_zip] at hplace
    have hmem := hread j.pairs[k] (List.mem_map.mpr ⟨_, List.mem_filter.mpr ⟨hplace, by simp⟩, rfl⟩)
    exact (List.mem_singleton.mp hmem).symm
  · rintro (hsize | rfl) flagged ps hps
    · rw [decode?_encode, if_neg hsize] at hps
      cases hps
    · rw [decode?_encode_self] at hps
      intro p hp
      rw [← Option.some.inj hps] at hp
      simpa using (List.mem_filter.mp hp).2

/-! ### The size of an index -/

theorem mem_ofAssets {assets : List Asset} :
    p ∈ (ofAssets assets).pairs ↔
      p.source ∈ assets ∧ p.target ∈ assets ∧ p.source ≠ p.target := by
  simp only [ofAssets, List.mem_flatMap, List.mem_map, List.mem_filter, decide_eq_true_eq]
  constructor
  · rintro ⟨a, ha, b, ⟨hb, hne⟩, rfl⟩
    exact ⟨ha, hb, hne⟩
  · rintro ⟨ha, hb, hne⟩
    exact ⟨p.source, ha, p.target, ⟨hb, hne⟩, rfl⟩

/-- The assets other than `a`. -/
theorem length_others (a : Asset) (l : List Asset) :
    (l.filter fun b => a ≠ b).length + l.count a = l.length := by
  induction l with
  | nil => rfl
  | cons b l ih =>
      rw [List.filter_cons, List.length_cons]
      by_cases h : a = b
      · rw [if_neg (by simp [h]), h, List.count_cons_self, ← Nat.add_assoc, ← h, ih]
      · rw [if_pos (by simp [h]), List.length_cons, List.count_cons_of_ne (Ne.symm h),
          Nat.add_right_comm, ih]

/-- A sum of equal rows, of which those of `a` are one short. -/
theorem sum_rows (a : Asset) {row : Asset → Nat} {width : Nat} {m : List Asset}
    (h : ∀ b ∈ m, row b + [a].count b = width) :
    (m.map row).sum + m.count a = m.length * width := by
  induction m with
  | nil => simp
  | cons b m ih =>
      have hb := h b List.mem_cons_self
      have ih := ih fun c hc => h c (List.mem_cons_of_mem b hc)
      rw [List.count_singleton, Bool.beq_comm] at hb
      rw [List.map_cons, List.sum_cons, List.count_cons, List.length_cons, Nat.succ_mul]
      omega

/-- One asset beside pairwise different ones, of which it may be one itself. -/
theorem size_ofAssets_cons (a : Asset) {l : List Asset} (hl : l.Nodup) :
    (ofAssets (a :: l)).size + 2 * l.count a = l.length * (l.length + 1) := by
  have hsize : (ofAssets (a :: l)).size =
      (l.filter fun b => a ≠ b).length +
        (l.map fun b => ((a :: l).filter fun c => b ≠ c).length).sum := by
    simp only [size, ofAssets, List.length_flatMap, List.length_map, List.map_cons, List.sum_cons,
      List.filter_cons, ne_eq, not_true_eq_false, decide_false, Bool.false_eq_true, if_false]
  have hfirst := length_others a l
  -- each listed asset is paired with all of them but itself
  have hrow : ∀ b ∈ l, ((a :: l).filter fun c => b ≠ c).length + [a].count b = l.length := by
    intro b hb
    have hothers := length_others b (a :: l)
    rw [List.length_cons, ← List.singleton_append, List.count_append,
      List.count_eq_one_of_mem hl hb, List.singleton_append] at hothers
    omega
  have hrows := sum_rows a hrow
  rw [hsize, Nat.mul_succ]
  omega

end PairIndex

/-! ### The pools that are listed -/

namespace Store

/-- The assets of the pools that can be traded now. -/
def listed (s : Store) : List Asset :=
  (s.pools.values.filter fun p => p.isAvailable && !p.asset.isSynthetic).map Pool.asset

namespace Keyed

variable {s t : Store}

/-- They are listed in the order of assets. -/
theorem pairwise_listed (hs : s.Keyed) : s.listed.Pairwise fun a b => compare a b = .lt := by
  have hkeys : s.pools.values.map Pool.asset = s.pools.keys := by
    rw [OrderedMap.values, OrderedMap.keys, List.map_map]
    exact List.map_congr_left fun e he =>
      hs.pool e.1 e.2 (OrderedMap.find?_eq_some_iff.mpr he)
  refine List.Pairwise.sublist (List.filter_sublist.map Pool.asset) ?_
  rw [hkeys]
  exact List.pairwise_map.mpr s.pools.ascending

theorem nodup_listed (hs : s.Keyed) : s.listed.Nodup :=
  hs.pairwise_listed.imp fun h e => by simp [e] at h

/-- What is listed is determined by which assets are. -/
theorem listed_eq (hs : s.Keyed) (ht : t.Keyed) (h : ∀ a, a ∈ s.listed ↔ a ∈ t.listed) :
    s.listed = t.listed :=
  ((List.perm_ext_iff_of_nodup hs.nodup_listed ht.nodup_listed).mpr h).eq_of_pairwise
    (fun a b _ _ hab hba => by
      have hba : compare b a = .lt := hba
      exact absurd hab (Std.OrientedCmp.not_lt_of_lt hba)) hs.pairwise_listed ht.pairwise_listed

end Keyed

end Store

namespace PairIndex

variable {s t : Store}

theorem ofStore_eq (s : Store) : ofStore s = ofAssets (.native :: s.listed) := rfl

/-- A foreign asset is listed when its purchase for native is in the index. -/
theorem mem_listed_iff {a : Asset} (ha : a ≠ .native) :
    a ∈ s.listed ↔ ⟨.native, a⟩ ∈ (ofStore s).pairs := by
  simp [ofStore_eq, mem_ofAssets, ha, ha.symm]

/-- Equally many pools, native among both or among neither. -/
theorem size_ofStore_eq (hs : s.Keyed) (ht : t.Keyed)
    (hlength : s.listed.length = t.listed.length)
    (hnative : .native ∈ s.listed ↔ .native ∈ t.listed) :
    (ofStore s).size = (ofStore t).size := by
  have hcount : s.listed.count .native = t.listed.count .native := by
    rw [hs.nodup_listed.count, ht.nodup_listed.count]
    simp only [hnative]
  have hsize := size_ofAssets_cons .native hs.nodup_listed
  have hsize' := size_ofAssets_cons .native ht.nodup_listed
  rw [ofStore_eq, ofStore_eq]
  rw [hlength, hcount] at hsize
  omega

/-- Otherwise the sizes differ, unless both indices are empty. -/
theorem ofStore_of_size_eq (hs : s.Keyed) (ht : t.Keyed)
    (hsize : (ofStore s).size = (ofStore t).size) :
    ofStore s = ofStore t ∨
      s.listed.length = t.listed.length ∧ (.native ∈ s.listed ↔ .native ∈ t.listed) := by
  have hs' := size_ofAssets_cons .native hs.nodup_listed
  have ht' := size_ofAssets_cons .native ht.nodup_listed
  rw [← ofStore_eq] at hs' ht'
  have hcs := List.nodup_iff_count_le_one.mp hs.nodup_listed .native
  have hct := List.nodup_iff_count_le_one.mp ht.nodup_listed .native
  -- one more pool adds twice as many pairs as there are assets
  have hgap : ∀ n m : Nat, n < m → n * (n + 1) + 2 * (n + 1) ≤ m * (m + 1) := by
    intro n m h
    rw [← Nat.add_mul, Nat.mul_comm]
    exact Nat.mul_le_mul h (Nat.succ_le_succ h)
  have hempty : (ofStore s).size = 0 → ofStore s = ofStore t := by
    intro h
    have hs₀ : (ofStore s).pairs = [] := List.length_eq_zero_iff.mp h
    have ht₀ : (ofStore t).pairs = [] := List.length_eq_zero_iff.mp (hsize.symm.trans h)
    exact PairIndex.ext (hs₀.trans ht₀.symm)
  rcases Nat.lt_trichotomy s.listed.length t.listed.length with h | h | h
  · have := hgap _ _ h
    have hnone : s.listed.length = 0 := by omega
    rw [hnone] at hs'
    exact .inl (hempty (by omega))
  · refine .inr ⟨h, ?_⟩
    rw [h] at hs'
    rw [← List.count_pos_iff, ← List.count_pos_iff]
    omega
  · have := hgap _ _ h
    have hnone : t.listed.length = 0 := by omega
    rw [hnone] at ht'
    exact .inl (hempty (by omega))

/-- **When the pools may change under the flags.**  No flags of the index of `s` are misread by that
of `t` exactly when the same pools are listed, or not equally many, or native itself only once. -/
theorem readsRight_ofStore_iff (hs : s.Keyed) (ht : t.Keyed) :
    (ofStore s).ReadsRight (ofStore t) ↔
      (∀ a, a ∈ s.listed ↔ a ∈ t.listed) ∨ s.listed.length ≠ t.listed.length ∨
        ¬(.native ∈ s.listed ↔ .native ∈ t.listed) := by
  rw [readsRight_iff]
  constructor
  · intro h
    by_contra hnot
    rw [not_or, not_or, not_not, not_not] at hnot
    obtain ⟨hlisted, hlength, hnative⟩ := hnot
    rcases h with hsize | hindex
    · exact hsize (size_ofStore_eq hs ht hlength hnative)
    · refine hlisted fun a => ?_
      by_cases ha : a = .native
      · exact ha ▸ hnative
      · rw [mem_listed_iff ha, mem_listed_iff ha, hindex]
  · rintro (hlisted | hother)
    · exact .inr (by rw [ofStore_eq, ofStore_eq, hs.listed_eq ht hlisted])
    · by_cases hsize : (ofStore s).size = (ofStore t).size
      · rcases ofStore_of_size_eq hs ht hsize with hindex | ⟨hlength, hnative⟩
        · exact .inr hindex
        · exact absurd hother (not_or.mpr ⟨not_not.mpr hlength, not_not.mpr hnative⟩)
      · exact .inl hsize

/-- A second pool, as yet not available. -/
def ethStaged : List Action :=
  [.deposit ⟨"ETH", "ETH", .layer1⟩ ⟨"alice"⟩ ⟨100000000000, 100000000000, ⟨"01"⟩, false, 1⟩]

/-- One pool more has flags of another length. -/
theorem readsRight_ofStore_iff_eth :
    let x := (Exchange.empty {}).run (Exchange.btcOpening ++ ethStaged)
    let y := x.act (.setStatus ⟨"ETH", "ETH", .layer1⟩ .available)
    x.store.Keyed ∧ y.store.Keyed ∧ x.store.listed.length + 1 = y.store.listed.length ∧
      (ofStore x.store).ReadsRight (ofStore y.store) := by
  intro x y
  have hempty : (Exchange.empty {}).store.Keyed := .empty
  have hx : x.store.Keyed := Exchange.keyed_run hempty _
  have hy : y.store.Keyed := Exchange.keyed_act hx _
  have hlength : x.store.listed.length + 1 = y.store.listed.length := by decide +kernel
  exact ⟨hx, hy, hlength, (readsRight_ofStore_iff hx hy).mpr (.inr (.inl (by omega)))⟩

/-- A sale to one pool flags that its asset may be cheap.  One pool is suspended and another made
available: the flag is read as one for the other asset. -/
theorem flags_misread_suspended :
    let btc : Asset := ⟨"BTC", "BTC", .layer1⟩
    let eth : Asset := ⟨"ETH", "ETH", .layer1⟩
    let sale : Swap := ⟨⟨"02"⟩, 0, ⟨"bob"⟩, ⟨btc, 1000000000⟩, .native, ⟨"bob"⟩, 0, .market, 0, 0,
      none, 1⟩
    let x := (Exchange.empty {}).run
      (Exchange.btcOpening ++ ethStaged ++ [.accept sale, .endBlock 1])
    let y := x.run [.setStatus btc .suspended, .setStatus eth .available]
    x.store.pairFlags = (ofStore x.store).encode [⟨.native, btc⟩] ∧
      (ofStore y.store).decode? y.store.pairFlags = some [⟨.native, eth⟩] ∧
      ¬ (ofStore x.store).ReadsRight (ofStore y.store) := by
  intro btc eth sale x y
  have hset : x.store.pairFlags = (ofStore x.store).encode [⟨.native, btc⟩] := by decide +kernel
  have hread : (ofStore y.store).decode? ((ofStore x.store).encode [⟨.native, btc⟩]) =
      some [⟨.native, eth⟩] := by decide +kernel
  refine ⟨hset, by decide +kernel, fun h => ?_⟩
  have hflagged := h _ _ hread ⟨.native, eth⟩ List.mem_cons_self
  revert hflagged
  decide

end PairIndex

end PoolExchange
