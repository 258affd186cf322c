import PoolExchange.Json.Records
import PoolExchange.Proofs.Json.Reading
import PoolExchange.Proofs.Names

/-!
# Json — records read back

What is written plainly, without reals, reads as what it was (`ReadsAs`); a pool alone reads as
another, without its synthetic units.  A record is written with its fields in order, so reading it
comes down to reading each of them (`readRecord`): assets and transactions that were read before
read back from their texts, and numbers within their words.

A record is *storable* when its names were read and its numbers fit their words
(`Pool.Storable` and its like); amounts and addresses always are.
-/

namespace PoolExchange

open Json

/-- The first is written plainly, and what is written reads as the second. -/
structure ReadsAs {α : Type} [Codec α] (a b : α) : Prop where
  plain : (toJson a).Plain
  reads : ofJson? (toJson a) = some b

namespace Json

theorem plain_nat {bits n : Nat} (hbits : bits ≤ 64) (h : n < wordBound bits) : (nat n).Plain := by
  have hmono : wordBound bits ≤ wordBound 64 := Nat.pow_le_pow_right (by decide) hbits
  exact .number (by omega) (by exact_mod_cast h.trans_le hmono)

theorem word?_nat {bits n : Nat} (h : n < wordBound bits) : word? bits (nat n) = some n := by
  rw [nat, word?, unsignedWord?, if_pos ⟨Int.natCast_nonneg n, by exact_mod_cast h⟩]
  rfl

theorem plain_words {ns : List Nat} (h : ∀ n ∈ ns, n < wordBound 64) :
    (array (ns.map nat)).Plain := by
  refine .array fun j hj => ?_
  obtain ⟨n, hn, rfl⟩ := List.mem_map.mp hj
  exact plain_nat le_rfl (h n hn)

theorem words?_words {ns : List Nat} (h : ∀ n ∈ ns, n < wordBound 64) :
    words? (array (ns.map nat)) = some ns := by
  rw [words?]
  induction ns with
  | nil => rfl
  | cons n ns ih =>
    have hrest := ih fun m hm => h m (List.mem_cons_of_mem _ hm)
    simp only [List.map_cons, List.mapM_cons, word?_nat (h n List.mem_cons_self), hrest,
      Option.bind_eq_bind, Option.bind_some]
    rfl

theorem readWith_text {ε α : Type} {read : String → Except ε α} {s : String} {a : α}
    (h : read s = .ok a) : readWith read (.text s) = some a := by
  rw [readWith, string?, Option.bind_some, h]

/-- The fields of a record, written in their order, are found. -/
theorem record?_object {names : List String} {members : List (String × Json)}
    (h : members.map Prod.fst = names) (hnames : names.Nodup) :
    record? names (.object members) = some ⟨members⟩ := by
  have hknown : members.filter (fun m => names.contains m.1) = members := by
    refine List.filter_eq_self.mpr fun m hm => ?_
    rw [List.contains_iff_mem, ← h]
    exact List.mem_map_of_mem hm
  rw [record?, hknown, h, if_pos hnames]

/-- So reading a record comes down to reading its fields. -/
theorem readRecord {α : Type} {names : List String} {members : List (String × Json)}
    {f : Record → Option α} {a : α} (h : members.map Prod.fst = names) (hnames : names.Nodup)
    (hf : f ⟨members⟩ = some a) : (record? names (.object members) >>= f) = some a := by
  rw [record?_object h hnames]
  exact hf

/-! A field that is asked for is the first one, or it is looked for among the others. -/

namespace Record

variable {name other : String} (j : Json) (fields : List (String × Json))

theorem find?_head : find? ⟨(name, j) :: fields⟩ name = some j := by
  rw [find?, List.lookup_cons_self]

theorem find?_tail (h : name ≠ other) : find? ⟨(other, j) :: fields⟩ name = find? ⟨fields⟩ name := by
  rw [find?, List.lookup_cons, beq_eq_false_iff_ne.mpr h]
  rfl

variable {α : Type} [Codec α]

@[simp] theorem get_head : get (α := α) ⟨(name, j) :: fields⟩ name = ofJson? j := by
  rw [get, find?_head, Option.bind_some]

@[simp] theorem get_tail (h : name ≠ other) :
    get (α := α) ⟨(other, j) :: fields⟩ name = get ⟨fields⟩ name := by
  rw [get, find?_tail j fields h, get]

@[simp] theorem getOption_head : getOption (α := α) ⟨(name, j) :: fields⟩ name = ofJson? j := by
  rw [getOption, find?_head]

@[simp] theorem getOption_tail (h : name ≠ other) :
    getOption (α := α) ⟨(other, j) :: fields⟩ name = getOption ⟨fields⟩ name := by
  rw [getOption, find?_tail j fields h, getOption]

variable (bits : Nat)

@[simp] theorem getWord_head : getWord ⟨(name, j) :: fields⟩ bits name = word? bits j := by
  rw [getWord, find?_head, Option.bind_some]

@[simp] theorem getWord_tail (h : name ≠ other) :
    getWord ⟨(other, j) :: fields⟩ bits name = getWord ⟨fields⟩ bits name := by
  rw [getWord, find?_tail j fields h, getWord]

end Record

end Json

/-! ### Collections -/

section Collections

variable {α β : Type} [Codec α] [Codec β]

theorem readsAs_list {f : α → α} {as : List α} (h : ∀ a ∈ as, ReadsAs a (f a)) :
    ReadsAs as (as.map f) := by
  refine ⟨.array fun j hj => ?_, ?_⟩
  · obtain ⟨a, ha, rfl⟩ := List.mem_map.mp hj
    exact (h a ha).plain
  · show (as.map toJson).mapM ofJson? = some (as.map f)
    induction as with
    | nil => rfl
    | cons a as ih =>
      have hrest := ih fun b hb => h b (List.mem_cons_of_mem _ hb)
      simp only [List.map_cons, List.mapM_cons, (h a List.mem_cons_self).reads, hrest,
        Option.bind_eq_bind, Option.bind_some]
      rfl

theorem readsAs_list_self {as : List α} (h : ∀ a ∈ as, ReadsAs a a) : ReadsAs as as := by
  have hlist := readsAs_list (f := id) h
  rwa [List.map_id] at hlist

/-- What may be absent must not be written as null. -/
theorem readsAs_option {o : Option α} (hnull : ∀ a : α, toJson a ≠ .null)
    (h : ∀ a ∈ o, ReadsAs a a) : ReadsAs o o := by
  cases o with
  | none => exact ⟨.null, rfl⟩
  | some a =>
    refine ⟨(h a rfl).plain, ?_⟩
    have hread := (h a rfl).reads
    show (ofJson? (toJson a) : Option (Option α)) = some (some a)
    cases hj : toJson a with
    | null => exact absurd hj (hnull a)
    | _ =>
      rw [hj] at hread
      exact congrArg (Option.map some) hread

theorem readsAs_pair {a a' : α} {b b' : β} (ha : ReadsAs a a') (hb : ReadsAs b b') :
    ReadsAs (a, b) (a', b') := by
  refine ⟨.array (by simp [ha.plain, hb.plain]), ?_⟩
  show (do return (← ofJson? (toJson a), ← ofJson? (toJson b))) = some (a', b')
  rw [ha.reads, hb.reads]
  rfl

end Collections

theorem readsAs_string (s : String) : ReadsAs s s := ⟨.text s, rfl⟩

theorem readsAs_bool (b : Bool) : ReadsAs b b := ⟨.bool b, rfl⟩

/-! ### Names -/

theorem Amount.readsAs (a : Amount) : ReadsAs a a := ⟨.text _, readWith_text a.read?_text⟩

theorem Asset.Legible.readsAs {a : Asset} (h : a.Legible) : ReadsAs a a :=
  ⟨.text _, readWith_text h.read?_text⟩

theorem TxId.Legible.readsAs {t : TxId} (h : t.Legible) : ReadsAs t t :=
  ⟨.text _, readWith_text h.read?_text⟩

theorem Address.readsAs (a : Address) : ReadsAs a a := ⟨.text _, rfl⟩

theorem Coin.readsAs {c : Coin} (h : c.asset.Legible) : ReadsAs c c := by
  have hasset := h.readsAs
  have hamount := c.amount.readsAs
  refine ⟨.object (by simp [hasset.plain, hamount.plain]), ?_⟩
  delta instCodecCoin
  refine readRecord rfl (by decide) ?_
  simp [hasset.reads, hamount.reads]

theorem PoolStatus.readsAs (s : PoolStatus) : ReadsAs s s := ⟨.text _, by cases s <;> rfl⟩

theorem SwapType.readsAs (t : SwapType) : ReadsAs t t := ⟨.text _, by cases t <;> rfl⟩

/-! ### Pools and positions -/

/-- What a pool needs to be stored: an asset that was read, and decimals of a byte. -/
structure Pool.Storable (p : Pool) : Prop where
  asset : p.asset.Legible
  decimals : p.decimals < wordBound 8

/-- The pool as it is stored. -/
def Pool.withoutSynths (p : Pool) : Pool := { p with synthUnits := 0 }

/-- **A pool reads back without its synthetic units.** -/
theorem Pool.Storable.readsAs {p : Pool} (h : p.Storable) : ReadsAs p p.withoutSynths := by
  have hasset := h.asset.readsAs
  have hstatus := p.status.readsAs
  refine ⟨.object ?_, ?_⟩
  · simp [hasset.plain, hstatus.plain, (Amount.readsAs _).plain, plain_nat (by decide) h.decimals]
  · delta instCodecPool
    refine readRecord rfl (by decide) ?_
    simp [hasset.reads, hstatus.reads, (Amount.readsAs _).reads,
      word?_nat h.decimals, Pool.withoutSynths]

structure Provider.Storable (v : Provider) : Prop where
  asset : v.asset.Legible
  pendingTx : ∀ t ∈ v.pendingTx, t.Legible
  lastAddHeight : v.lastAddHeight < wordBound 64
  lastWithdrawHeight : v.lastWithdrawHeight < wordBound 64

theorem Provider.Storable.readsAs {v : Provider} (h : v.Storable) : ReadsAs v v := by
  have hasset := h.asset.readsAs
  have htx : ReadsAs v.pendingTx v.pendingTx :=
    readsAs_option (fun t => by simp [toJson]) fun t ht => (h.pendingTx t ht).readsAs
  refine ⟨.object ?_, ?_⟩
  · simp [hasset.plain, htx.plain, (Amount.readsAs _).plain, (Address.readsAs _).plain,
      plain_nat (by decide) h.lastAddHeight, plain_nat (by decide) h.lastWithdrawHeight]
  · delta instCodecProvider
    refine readRecord rfl (by decide) ?_
    simp [hasset.reads, htx.reads, (Amount.readsAs _).reads,
      (Address.readsAs _).reads, word?_nat h.lastAddHeight, word?_nat h.lastWithdrawHeight]

/-! ### Swaps -/

structure SwapKey.Storable (k : SwapKey) : Prop where
  tx : k.tx.Legible
  index : k.index < wordBound 32

theorem SwapKey.Storable.readsAs {k : SwapKey} (h : k.Storable) : ReadsAs k k := by
  have htx := h.tx.readsAs
  refine ⟨.object ?_, ?_⟩
  · simp [htx.plain, plain_nat (by decide) h.index]
  · delta instCodecSwapKey
    refine readRecord rfl (by decide) ?_
    simp [htx.reads, word?_nat h.index]

theorem Affiliate.readsAs {a : Affiliate} (h : a.basisPoints < wordBound 64) : ReadsAs a a := by
  refine ⟨.object ?_, ?_⟩
  · simp [(Address.readsAs _).plain, plain_nat (by decide) h]
  · delta instCodecAffiliate
    refine readRecord rfl (by decide) ?_
    simp [(Address.readsAs _).reads, word?_nat h]

structure Swap.Storable (s : Swap) : Prop where
  key : s.key.Storable
  source : s.source.asset.Legible
  target : s.target.Legible
  streamInterval : s.streamInterval < wordBound 64
  streamQuantity : s.streamQuantity < wordBound 64
  affiliate : ∀ a ∈ s.affiliate, a.basisPoints < wordBound 64
  initialHeight : s.initialHeight < wordBound 64

theorem Swap.Storable.readsAs {s : Swap} (h : s.Storable) : ReadsAs s s := by
  have htx : ReadsAs s.tx s.tx := h.key.tx.readsAs
  have hindex : s.index < wordBound 32 := h.key.index
  have hsource := Coin.readsAs h.source
  have htarget := h.target.readsAs
  have htype := s.type.readsAs
  have haffiliate : ReadsAs s.affiliate s.affiliate :=
    readsAs_option (fun a => by simp [toJson]) fun a ha => Affiliate.readsAs (h.affiliate a ha)
  refine ⟨.object ?_, ?_⟩
  · simp [htx.plain, hsource.plain, htarget.plain, htype.plain, haffiliate.plain,
      (Amount.readsAs _).plain, (Address.readsAs _).plain, plain_nat (by decide) hindex,
      plain_nat (by decide) h.streamInterval, plain_nat (by decide) h.streamQuantity,
      plain_nat (by decide) h.initialHeight]
  · delta instCodecSwap
    refine readRecord rfl (by decide) ?_
    simp [htx.reads, hsource.reads, htarget.reads, htype.reads, haffiliate.reads,
      (Amount.readsAs _).reads, (Address.readsAs _).reads, word?_nat hindex,
      word?_nat h.streamInterval, word?_nat h.streamQuantity, word?_nat h.initialHeight]

structure SwapStream.Storable (s : SwapStream) : Prop where
  tx : s.tx.Legible
  interval : s.interval < wordBound 64
  quantity : s.quantity < wordBound 64
  count : s.count < wordBound 64
  lastHeight : s.lastHeight < wordBound 64
  failedSwaps : ∀ n ∈ s.failedSwaps, n < wordBound 64

theorem SwapStream.Storable.readsAs {s : SwapStream} (h : s.Storable) : ReadsAs s s := by
  have htx := h.tx.readsAs
  have hreasons : ReadsAs s.failedSwapReasons s.failedSwapReasons :=
    readsAs_list_self fun reason _ => readsAs_string reason
  refine ⟨.object ?_, ?_⟩
  · simp [htx.plain, hreasons.plain, (Amount.readsAs _).plain, plain_nat (by decide) h.interval,
      plain_nat (by decide) h.quantity, plain_nat (by decide) h.count,
      plain_nat (by decide) h.lastHeight, plain_words h.failedSwaps]
  · delta instCodecSwapStream
    refine readRecord rfl (by decide) ?_
    simp [htx.reads, hreasons.reads, (Amount.readsAs _).reads,
      word?_nat h.interval, word?_nat h.quantity, word?_nat h.count, word?_nat h.lastHeight,
      Record.find?_head, Record.find?_tail, words?_words h.failedSwaps]

end PoolExchange
