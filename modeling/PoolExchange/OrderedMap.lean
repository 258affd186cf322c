/-!
# OrderedMap — finite maps in the order of their keys

An `OrderedMap` is the list of its entries, in strictly ascending order of keys.  Two maps with
the same lookups are therefore equal (`ext_find?`), and walking the entries is walking the keys in
order.  Inserting under a key that is present replaces its value.
-/

namespace PoolExchange

variable {κ α : Type}

/-- The keys ascend. -/
def Ascending [Ord κ] (entries : List (κ × α)) : Prop :=
  entries.Pairwise fun a b => compare a.1 b.1 = .lt

/-- A finite map from `κ` to `α`. -/
@[ext]
structure OrderedMap (κ α : Type) [Ord κ] where
  entries : List (κ × α)
  ascending : Ascending entries

instance [Ord κ] [Repr κ] [Repr α] : Repr (OrderedMap κ α) := ⟨fun m n => reprPrec m.entries n⟩

instance [Ord κ] [DecidableEq κ] [DecidableEq α] : DecidableEq (OrderedMap κ α) := fun a b =>
  decidable_of_iff (a.entries = b.entries) OrderedMap.ext_iff.symm

namespace OrderedMap

/-! ### Entries -/

/-- Puts an entry into its place. -/
def insertEntry [Ord κ] (k : κ) (v : α) : List (κ × α) → List (κ × α)
  | [] => [(k, v)]
  | e :: rest =>
    match compare k e.1 with
    | .lt => (k, v) :: e :: rest
    | .eq => (k, v) :: rest
    | .gt => e :: insertEntry k v rest

def lookup [Ord κ] (k : κ) : List (κ × α) → Option α
  | [] => none
  | e :: rest => if compare k e.1 = .eq then some e.2 else lookup k rest

theorem mem_insertEntry [Ord κ] {k : κ} {v : α} {e : κ × α} {l : List (κ × α)}
    (h : e ∈ insertEntry k v l) : e = (k, v) ∨ e ∈ l := by
  induction l with
  | nil => simp_all [insertEntry]
  | cons x rest ih =>
    unfold insertEntry at h
    split at h <;> simp only [List.mem_cons] at h ⊢ <;> grind

theorem ascending_insertEntry [Ord κ] [Std.TransOrd κ] (k : κ) (v : α) {l : List (κ × α)}
    (h : Ascending l) : Ascending (insertEntry k v l) := by
  unfold Ascending at *
  induction l with
  | nil => simp [insertEntry]
  | cons x rest ih =>
    rw [List.pairwise_cons] at h
    unfold insertEntry
    split
    · rename_i hk
      refine List.pairwise_cons.2 ⟨fun e he => ?_, List.pairwise_cons.2 h⟩
      rcases List.mem_cons.1 he with rfl | he
      · exact hk
      · exact Std.TransCmp.lt_trans hk (h.1 e he)
    · rename_i hk
      exact List.pairwise_cons.2
        ⟨fun e he => Std.TransCmp.lt_of_eq_of_lt hk (h.1 e he), h.2⟩
    · rename_i hk
      refine List.pairwise_cons.2 ⟨fun e he => ?_, ih h.2⟩
      rcases mem_insertEntry he with rfl | he
      · exact Std.OrientedCmp.gt_iff_lt.1 hk
      · exact h.1 e he

theorem lookup_insertEntry [Ord κ] [Std.TransOrd κ] [Std.LawfulEqOrd κ] (k k' : κ) (v : α)
    (l : List (κ × α)) :
    lookup k' (insertEntry k v l) = if compare k' k = .eq then some v else lookup k' l := by
  induction l with
  | nil => simp [insertEntry, lookup]
  | cons x rest ih =>
    unfold insertEntry
    split
    · simp [lookup]
    · rename_i hk
      obtain rfl := Std.LawfulEqOrd.eq_of_compare hk
      simp only [lookup]
      split <;> rfl
    · rename_i hk
      simp only [lookup, ih]
      split <;> rename_i h1 <;> split <;> rename_i h2 <;> try rfl
      rw [← Std.LawfulEqOrd.eq_of_compare h1, Std.LawfulEqOrd.eq_of_compare h2] at hk
      simp at hk

theorem lookup_eq_none_of_lt [Ord κ] [Std.LawfulEqOrd κ] {k : κ} {l : List (κ × α)}
    (h : ∀ e ∈ l, compare k e.1 = .lt) : lookup k l = none := by
  induction l with
  | nil => rfl
  | cons x rest ih =>
    have hx := h x (List.mem_cons_self ..)
    simp only [lookup, hx, reduceCtorEq, if_false]
    exact ih fun e he => h e (List.mem_cons_of_mem _ he)

theorem lookup_eq_some_iff [Ord κ] [Std.TransOrd κ] [Std.LawfulEqOrd κ] {k : κ} {v : α}
    {l : List (κ × α)} (h : Ascending l) : lookup k l = some v ↔ (k, v) ∈ l := by
  unfold Ascending at h
  induction l with
  | nil => simp [lookup]
  | cons x rest ih =>
    rw [List.pairwise_cons] at h
    obtain ⟨x1, x2⟩ := x
    simp only [lookup, List.mem_cons, Prod.mk.injEq]
    split
    · rename_i hk
      obtain rfl := Std.LawfulEqOrd.eq_of_compare hk
      constructor
      · intro e; exact .inl ⟨rfl, (Option.some.inj e).symm⟩
      · rintro (⟨-, rfl⟩ | hm)
        · rfl
        · have := h.1 _ hm
          simp at this
    · rename_i hk
      rw [ih h.2]
      constructor
      · exact .inr
      · rintro (⟨rfl, -⟩ | hm)
        · simp at hk
        · exact hm

theorem eq_of_lookup [Ord κ] [Std.TransOrd κ] [Std.LawfulEqOrd κ] {l l' : List (κ × α)}
    (h : Ascending l) (h' : Ascending l') (he : ∀ k, lookup k l = lookup k l') : l = l' := by
  induction l generalizing l' with
  | nil =>
    cases l' with
    | nil => rfl
    | cons x rest => have := he x.1; simp [lookup] at this
  | cons x rest ih =>
    cases l' with
    | nil => have := he x.1; simp [lookup] at this
    | cons y rest' =>
      have hx := List.pairwise_cons.1 h
      have hy := List.pairwise_cons.1 h'
      have hxy : x.1 = y.1 := by
        apply Std.LawfulEqOrd.eq_of_compare
        have h1 : (x.1, x.2) ∈ y :: rest' := by
          rw [← lookup_eq_some_iff h', ← he x.1, lookup_eq_some_iff h]; simp
        have h2 : (y.1, y.2) ∈ x :: rest := by
          rw [← lookup_eq_some_iff h, he y.1, lookup_eq_some_iff h']; simp
        rcases List.mem_cons.1 h1 with h1 | h1
        · rw [← h1]; simp
        · rcases List.mem_cons.1 h2 with h2 | h2
          · rw [← h2]; simp
          · have a := hy.1 _ h1
            have b := hx.1 _ h2
            exact absurd b (Std.OrientedCmp.not_lt_of_lt a)
      have hv : x.2 = y.2 := by
        have := he x.1
        simp only [lookup, hxy, Std.compare_self, if_true, Option.some.injEq] at this
        exact this
      have hr : rest = rest' := by
        refine ih hx.2 hy.2 fun k => ?_
        have hk := he k
        simp only [lookup, hxy, hv] at hk
        by_cases hc : compare k y.1 = .eq
        · obtain rfl := Std.LawfulEqOrd.eq_of_compare hc
          rw [lookup_eq_none_of_lt fun e m => hxy ▸ hx.1 e m, lookup_eq_none_of_lt hy.1]
        · simpa [hc] using hk
      rw [hr, show x = y from Prod.ext hxy hv]

/-! ### Maps -/

variable [Ord κ]

def empty : OrderedMap κ α := ⟨[], List.Pairwise.nil⟩

instance : Inhabited (OrderedMap κ α) := ⟨empty⟩

def find? (m : OrderedMap κ α) (k : κ) : Option α := lookup k m.entries

def size (m : OrderedMap κ α) : Nat := m.entries.length

def keys (m : OrderedMap κ α) : List κ := m.entries.map Prod.fst

def values (m : OrderedMap κ α) : List α := m.entries.map Prod.snd

def insert [Std.TransOrd κ] (m : OrderedMap κ α) (k : κ) (v : α) : OrderedMap κ α :=
  ⟨insertEntry k v m.entries, ascending_insertEntry k v m.ascending⟩

def erase (m : OrderedMap κ α) (k : κ) : OrderedMap κ α :=
  ⟨m.entries.filter fun e => compare k e.1 ≠ .eq, m.ascending.filter _⟩

/-- The map with the given entries; of two with one key the later counts. -/
def ofList [Std.TransOrd κ] (l : List (κ × α)) : OrderedMap κ α :=
  l.foldl (fun m e => m.insert e.1 e.2) empty

theorem find?_empty (k : κ) : (empty : OrderedMap κ α).find? k = none := rfl

theorem find?_insert [Std.TransOrd κ] [Std.LawfulEqOrd κ] [DecidableEq κ] (m : OrderedMap κ α)
    (k k' : κ) (v : α) : (m.insert k v).find? k' = if k' = k then some v else m.find? k' := by
  simp only [find?, insert, lookup_insertEntry, Std.LawfulEqOrd.compare_eq_iff_eq]

theorem find?_erase [Std.LawfulEqOrd κ] [DecidableEq κ] (m : OrderedMap κ α) (k k' : κ) :
    (m.erase k).find? k' = if k' = k then none else m.find? k' := by
  simp only [find?, erase]
  induction m.entries with
  | nil => simp [lookup]
  | cons x rest ih =>
    simp only [List.filter_cons, ne_eq, Std.LawfulEqOrd.compare_eq_iff_eq, lookup,
      decide_not, Bool.not_eq_true', decide_eq_false_iff_not] at ih ⊢
    grind [lookup, Std.LawfulEqOrd.compare_eq_iff_eq]

theorem find?_eq_some_iff [Std.TransOrd κ] [Std.LawfulEqOrd κ] {m : OrderedMap κ α} {k : κ}
    {v : α} : m.find? k = some v ↔ (k, v) ∈ m.entries :=
  lookup_eq_some_iff m.ascending

theorem ext_find? [Std.TransOrd κ] [Std.LawfulEqOrd κ] {m m' : OrderedMap κ α}
    (h : ∀ k, m.find? k = m'.find? k) : m = m' :=
  OrderedMap.ext (eq_of_lookup m.ascending m'.ascending h)

end OrderedMap

end PoolExchange
