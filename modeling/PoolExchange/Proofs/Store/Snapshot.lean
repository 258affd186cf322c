import PoolExchange.Proofs.Json.Records
import PoolExchange.Proofs.Procedure
import PoolExchange.Proofs.Store

/-!
# Store — restoring a snapshot

A store that the setters made, of records whose names were read, keeps each record under its own
key (`Built.storable`).  So its records make it up again without their keys
(`toStore?_ofStore`), and its snapshot is written plainly: **restoring a snapshot gives the store
back, without the synthetic units of its pools** (`restore_snapshot`).

Restoring spells out its writes (`restoring`).  All that it can refuse, it reads before the first
of them, so what it refuses leaves the store as it was (`run_restoring`).
-/

namespace PoolExchange

/-! ### Stores that can be stored -/

/-- The text of the key reads back. -/
def LimitKey.Legible (k : LimitKey) : Prop := LimitKey.read? k.text = .ok k

namespace Store

/-- Every record is stored under its own key and can be stored. -/
structure Storable (s : Store) : Prop where
  keyed : s.Keyed
  pool : ∀ k p, s.pools.find? k = some p → p.Storable
  provider : ∀ k v, s.providers.find? k = some v → v.Storable
  supply : ∀ k n, s.supplies.find? k = some n → k.Legible
  swap : ∀ k w, s.queue.find? k = some w → w.Storable
  bucket : ∀ b ks, s.limits.find? b = some ks → b.Legible ∧ ∀ k ∈ ks, k.Storable
  stream : ∀ k p, s.streams.find? k = some p → p.Storable

/-- The stores that the setters make, of records that can be stored. -/
inductive Built : Store → Prop
  | empty : Built .empty
  | setPool {s : Store} (hs : s.Built) {p : Pool} (hp : p.Storable) : Built (s.setPool p)
  | setProvider {s : Store} (hs : s.Built) {v : Provider} (hv : v.Storable) :
      Built (s.setProvider v)
  | setSupply {s : Store} (hs : s.Built) {a : Asset} (ha : a.Legible) (n : Amount) :
      Built (s.setSupply a n)
  | setSwap {s : Store} (hs : s.Built) {w : Swap} (hw : w.Storable) : Built (s.setSwap w)
  | removeSwap {s : Store} (hs : s.Built) (k : SwapKey) : Built (s.removeSwap k)
  | insertLimit {s : Store} (hs : s.Built) {b : LimitKey} (hb : b.Legible) {k : SwapKey}
      (hk : k.Storable) : Built (s.insertLimit b k)
  | removeLimit {s : Store} (hs : s.Built) (b : LimitKey) (k : SwapKey) : Built (s.removeLimit b k)
  | setPairFlags {s : Store} (hs : s.Built) (flags : List Bool) : Built (s.setPairFlags flags)
  | setStream {s : Store} (hs : s.Built) {p : SwapStream} (hp : p.Storable) :
      Built (s.setStream p)
  | removeStream {s : Store} (hs : s.Built) (tx : TxId) : Built (s.removeStream tx)

namespace Storable

theorem empty : Storable .empty where
  keyed := .empty
  pool k p h := by cases h
  provider k v h := by cases h
  supply k n h := by cases h
  swap k w h := by cases h
  bucket b ks h := by cases h
  stream k p h := by cases h

variable {s : Store}

theorem insertLimit (h : s.Storable) {b : LimitKey} (hb : b.Legible) {k : SwapKey}
    (hk : k.Storable) : (s.insertLimit b k).Storable where
  keyed := h.keyed.insertLimit b k
  pool := h.pool
  provider := h.provider
  supply := h.supply
  swap := h.swap
  bucket := OrderedMap.forall_insert h.bucket ⟨hb, by
    have hold : ∀ k' ∈ s.bucket b, k'.Storable := by
      rw [Store.bucket]
      cases hfind : s.limits.find? b with
      | none => simp
      | some ks => exact (h.bucket b ks hfind).2
    intro k' hk'
    split at hk'
    · exact hold k' hk'
    · rcases List.mem_append.mp hk' with hk' | hk'
      · exact hold k' hk'
      · rw [List.mem_singleton.mp hk']
        exact hk⟩
  stream := h.stream

theorem removeLimit (h : s.Storable) (b : LimitKey) (k : SwapKey) :
    (s.removeLimit b k).Storable := by
  have hkeyed := h.keyed.removeLimit b k
  unfold Store.removeLimit at hkeyed ⊢
  split at hkeyed
  · exact h
  · rename_i ks hfind
    obtain ⟨hb, hks⟩ := h.bucket b ks hfind
    refine ⟨hkeyed, h.pool, h.provider, h.supply, h.swap, fun b' ks' hb' => ?_, h.stream⟩
    dsimp only at hb'
    split at hb'
    · exact OrderedMap.forall_erase h.bucket b b' ks' hb'
    · exact OrderedMap.forall_insert h.bucket
        ⟨hb, fun k' hk' => hks k' (List.mem_filter.mp hk').1⟩ b' ks' hb'

end Storable

/-- **What the setters make can be stored.** -/
theorem Built.storable {s : Store} (h : s.Built) : s.Storable := by
  induction h with
  | empty => exact .empty
  | setPool _ hp ih =>
      exact ⟨ih.keyed.setPool _, OrderedMap.forall_insert ih.pool hp, ih.provider, ih.supply, ih.swap,
        ih.bucket, ih.stream⟩
  | setProvider _ hv ih =>
      exact ⟨ih.keyed.setProvider _, ih.pool, OrderedMap.forall_insert ih.provider hv, ih.supply,
        ih.swap, ih.bucket, ih.stream⟩
  | setSupply _ ha n ih =>
      exact ⟨ih.keyed.setSupply _ n, ih.pool, ih.provider,
        OrderedMap.forall_insert ih.supply ha.layer1, ih.swap, ih.bucket, ih.stream⟩
  | setSwap _ hw ih =>
      exact ⟨ih.keyed.setSwap _, ih.pool, ih.provider, ih.supply,
        OrderedMap.forall_insert ih.swap hw, ih.bucket, ih.stream⟩
  | removeSwap _ k ih =>
      exact ⟨ih.keyed.removeSwap k, ih.pool, ih.provider, ih.supply,
        OrderedMap.forall_erase ih.swap k, ih.bucket, ih.stream⟩
  | insertLimit _ hb hk ih => exact ih.insertLimit hb hk
  | removeLimit _ b k ih => exact ih.removeLimit b k
  | setPairFlags _ flags ih =>
      exact ⟨ih.keyed.setPairFlags flags, ih.pool, ih.provider, ih.supply, ih.swap, ih.bucket,
        ih.stream⟩
  | setStream _ hp ih =>
      exact ⟨ih.keyed.setStream _, ih.pool, ih.provider, ih.supply, ih.swap, ih.bucket,
        OrderedMap.forall_insert ih.stream hp⟩
  | removeStream _ tx ih =>
      exact ⟨ih.keyed.removeStream tx, ih.pool, ih.provider, ih.supply, ih.swap, ih.bucket,
        OrderedMap.forall_erase ih.stream tx⟩

end Store

/-! ### The snapshot of a store -/

namespace Snapshot

/-- What a snapshot holds can be written. -/
structure Storable (s : Snapshot) : Prop where
  pools : ∀ p ∈ s.pools, p.Storable
  providers : ∀ v ∈ s.providers, v.Storable
  supplies : ∀ e ∈ s.supplies, e.1.Legible
  queue : ∀ w ∈ s.queue, w.Storable
  limits : ∀ b ∈ s.limits, ∀ k ∈ b.2, k.Storable
  streams : ∀ p ∈ s.streams, p.Storable

/-- The snapshot as it reads back. -/
def withoutSynths (s : Snapshot) : Snapshot := { s with pools := s.pools.map Pool.withoutSynths }

theorem Storable.readsAs {s : Snapshot} (h : s.Storable) : ReadsAs s s.withoutSynths := by
  have hpools : ReadsAs s.pools (s.pools.map Pool.withoutSynths) :=
    readsAs_list fun p hp => (h.pools p hp).readsAs
  have hproviders := readsAs_list_self fun v hv => (h.providers v hv).readsAs
  have hsupplies : ReadsAs s.supplies s.supplies :=
    readsAs_list_self fun e he => readsAs_pair (h.supplies e he).readsAs e.2.readsAs
  have hqueue := readsAs_list_self fun w hw => (h.queue w hw).readsAs
  have hlimits : ReadsAs s.limits s.limits := readsAs_list_self fun b hb =>
    readsAs_pair (readsAs_string b.1) (readsAs_list_self fun k hk => (h.limits b hb k hk).readsAs)
  have hflags := readsAs_list_self fun flag (_ : flag ∈ s.pairFlags) => readsAs_bool flag
  have hstreams := readsAs_list_self fun p hp => (h.streams p hp).readsAs
  refine ⟨.object ?_, ?_⟩
  · simp [hpools.plain, hproviders.plain, hsupplies.plain, hqueue.plain, hlimits.plain,
      hflags.plain, hstreams.plain]
  · delta instCodec
    refine Json.readRecord rfl (by decide) ?_
    simp [hpools.reads, hproviders.reads, hsupplies.reads, hqueue.reads, hlimits.reads,
      hflags.reads, hstreams.reads, withoutSynths]

theorem storable_ofStore {s : Store} (h : s.Storable) : (ofStore s).Storable where
  pools := OrderedMap.forall_values h.pool
  providers := OrderedMap.forall_values h.provider
  supplies e he := h.supply e.1 e.2 (OrderedMap.find?_eq_some_iff.mpr he)
  queue := OrderedMap.forall_values h.swap
  limits b hb := by
    obtain ⟨e, he, rfl⟩ := List.mem_map.mp hb
    exact (h.bucket e.1 e.2 (OrderedMap.find?_eq_some_iff.mpr he)).2
  streams := OrderedMap.forall_values h.stream

end Snapshot

namespace Store

/-- The store as it is restored: nothing else is lost. -/
def withoutSynths (s : Store) : Store := { s with pools := s.pools.mapValues Pool.withoutSynths }

/-- The buckets are read back from the texts of their keys. -/
theorem mapM_readBucket {entries : List (LimitKey × List SwapKey)}
    (h : ∀ e ∈ entries, e.1.Legible) :
    (entries.map fun e => (e.1.text, e.2)).mapM Snapshot.readBucket = .ok entries := by
  induction entries with
  | nil => rfl
  | cons e entries ih =>
      have hbucket : Snapshot.readBucket (e.1.text, e.2) = .ok e := by
        rw [Snapshot.readBucket, h e List.mem_cons_self]
        rfl
      rw [List.map_cons, List.mapM_cons, hbucket, ih fun e he => h e (List.mem_cons_of_mem _ he)]
      rfl

/-- **The parts of a store make it up again.** -/
theorem toStore?_ofStore {s : Store} (h : s.Storable) :
    (Snapshot.ofStore s).withoutSynths.toStore? = .ok s.withoutSynths := by
  have hlimits : (Snapshot.ofStore s).withoutSynths.limits.mapM Snapshot.readBucket =
      .ok s.limits.entries := mapM_readBucket fun e he =>
    (h.bucket e.1 e.2 (OrderedMap.find?_eq_some_iff.mpr he)).1
  have hpools : ((s.pools.values.map Pool.withoutSynths).map fun p => (p.asset, p)) =
      (s.pools.mapValues Pool.withoutSynths).entries := by
    have hvalues : (s.pools.mapValues Pool.withoutSynths).values =
        s.pools.values.map Pool.withoutSynths := by
      simp only [OrderedMap.values, OrderedMap.mapValues, List.map_map, Function.comp_def]
    rw [← hvalues]
    refine OrderedMap.map_values_eq_entries fun k p hp => ?_
    rw [OrderedMap.find?_mapValues, Option.map_eq_some_iff] at hp
    obtain ⟨p, hp, rfl⟩ := hp
    exact h.keyed.pool k p hp
  rw [Snapshot.toStore?, hlimits]
  simp only [Snapshot.withoutSynths, Snapshot.ofStore, hpools,
    OrderedMap.map_values_eq_entries h.keyed.provider,
    OrderedMap.map_values_eq_entries h.keyed.swap,
    OrderedMap.map_values_eq_entries h.keyed.stream, OrderedMap.ofList_entries]
  refine bind_eq_ok.mpr ⟨s.limits.entries, rfl, ?_⟩
  rw [OrderedMap.ofList_entries]
  rfl

/-! ### Restoring -/

/-- The snapshot in a value that a text may denote. -/
def foundIn (j : Option Json) : Except StoreError Snapshot :=
  match j.bind Codec.ofJson? with
  | some snapshot => .ok snapshot
  | none => .error (.malformed .snapshot)

theorem ofSnapshot?_eq (text : String) :
    ofSnapshot? text = foundIn (Json.read? text) >>= Snapshot.toStore? := by
  rw [ofSnapshot?, foundIn]
  cases (Json.read? text).bind (Codec.ofJson? (α := Snapshot)) <;> rfl

/-- Restores what the bytes hold, write by write; `parse` reads JSON. -/
def restoring (parse : ByteArray → Option Json) (bytes : ByteArray) : Procedure Store Unit := do
  let snapshot ← Procedure.lift (foundIn (parse bytes))
  let limits ← Procedure.lift (snapshot.limits.mapM Snapshot.readBucket)
  set Store.empty
  modify fun s => { s with limits := .ofList limits }
  snapshot.pools.forM fun p => modify (·.setPool p)
  snapshot.providers.forM fun v => modify (·.setProvider v)
  modify fun s => { s with supplies := .ofList snapshot.supplies }
  snapshot.queue.forM fun w => modify (·.setSwap w)
  modify (·.setPairFlags snapshot.pairFlags)
  snapshot.streams.forM fun p => modify (·.setStream p)

/-- Insertions under the values' own keys make the map of the values. -/
theorem ofList_map {κ α : Type} [Ord κ] [Std.TransOrd κ] (key : α → κ) (vs : List α) :
    OrderedMap.ofList (vs.map fun v => (key v, v)) =
      vs.foldl (fun m v => m.insert (key v) v) .empty := by
  rw [OrderedMap.ofList, List.foldl_map]

/-! Each loop fills the collection of its records and leaves the others alone. -/

section Loops

variable (s : Store)

theorem foldl_setPool (ps : List Pool) :
    ps.foldl setPool s = { s with pools := ps.foldl (fun m p => m.insert p.asset p) s.pools } :=
  List.foldl_hom (fun m => { s with pools := m }) fun _ _ => rfl

theorem foldl_setProvider (vs : List Provider) :
    vs.foldl setProvider s =
      { s with providers := vs.foldl (fun m v => m.insert v.key v) s.providers } :=
  List.foldl_hom (fun m => { s with providers := m }) fun _ _ => rfl

theorem foldl_setSwap (ws : List Swap) :
    ws.foldl setSwap s = { s with queue := ws.foldl (fun m w => m.insert w.key w) s.queue } :=
  List.foldl_hom (fun m => { s with queue := m }) fun _ _ => rfl

theorem foldl_setStream (ps : List SwapStream) :
    ps.foldl setStream s = { s with streams := ps.foldl (fun m p => m.insert p.tx p) s.streams } :=
  List.foldl_hom (fun m => { s with streams := m }) fun _ _ => rfl

end Loops

/-- **Restoring replaces the store by what the bytes hold, or leaves it alone.** -/
theorem run_restoring (parse : ByteArray → Option Json) (bytes : ByteArray) (target : Store) :
    (restoring parse bytes).run target = Procedure.settle target
      (do return (← (foundIn (parse bytes) >>= Snapshot.toStore?), ())) := by
  rw [bind_assoc]
  refine Procedure.lift_bind fun snapshot => ?_
  rw [Snapshot.toStore?, bind_assoc]
  refine Procedure.lift_bind fun limits => ?_
  -- All that can fail is behind: the rest writes to an empty store.
  refine (Procedure.bind_of_run rfl).trans ?_
  refine (Procedure.bind_of_run rfl).trans ?_
  refine (Procedure.bind_of_run (Procedure.run_forM_modify _ snapshot.pools _)).trans ?_
  refine (Procedure.bind_of_run (Procedure.run_forM_modify _ snapshot.providers _)).trans ?_
  refine (Procedure.bind_of_run rfl).trans ?_
  refine (Procedure.bind_of_run (Procedure.run_forM_modify _ snapshot.queue _)).trans ?_
  refine (Procedure.bind_of_run rfl).trans ?_
  refine (Procedure.run_forM_modify _ snapshot.streams _).trans ?_
  simp only [foldl_setPool, foldl_setProvider, foldl_setSwap, foldl_setStream, setPairFlags,
    ofList_map]
  rfl

/-- With a reader that reads the text of the bytes, that is what the snapshot holds. -/
theorem run_restoring_toUTF8 {parse : ByteArray → Option Json} {text : String}
    (h : parse text.toUTF8 = Json.read? text) (target : Store) :
    (restoring parse text.toUTF8).run target =
      Procedure.settle target ((ofSnapshot? text).map fun s => (s, ())) := by
  rw [run_restoring, h, ← ofSnapshot?_eq]
  cases ofSnapshot? text <;> rfl

theorem ofSnapshot?_snapshot {s : Store} (h : s.Storable) :
    ofSnapshot? s.snapshot = .ok s.withoutSynths := by
  have hreads := (Snapshot.storable_ofStore h).readsAs
  rw [ofSnapshot?_eq, snapshot, toJson, hreads.plain.read?_compact, foundIn, Option.bind_some,
    hreads.reads]
  exact toStore?_ofStore h

/-- **A snapshot gives the store back**, whatever store it is restored over, and without the
synthetic units of the pools; bytes that are refused leave the store alone.  `parse` stands for any
reader of JSON that reads back what is written plainly. -/
theorem restore_snapshot (parse : ByteArray → Option Json)
    (hparse : ∀ j : Json, j.Plain → parse j.compact.toUTF8 = some j) :
    (∀ s : Store, s.Built → ofSnapshot? s.snapshot = .ok s.withoutSynths ∧
      ∀ target, (restoring parse s.snapshot.toUTF8).run target = .ok () s.withoutSynths) ∧
    ∀ bytes target e target',
      (restoring parse bytes).run target = .error e target' → target' = target := by
  refine ⟨fun s hs => ?_, fun bytes target e target' h => ?_⟩
  · have hs := hs.storable
    have hplain : s.toJson.Plain := (Snapshot.storable_ofStore hs).readsAs.plain
    have hparse : parse s.snapshot.toUTF8 = Json.read? s.snapshot := by
      rw [snapshot, hparse _ hplain, hplain.read?_compact]
    refine ⟨ofSnapshot?_snapshot hs, fun target => ?_⟩
    rw [run_restoring_toUTF8 hparse, ofSnapshot?_snapshot hs]
    rfl
  · rw [run_restoring] at h
    exact Procedure.eq_of_settle_error h

def btc : Asset := ⟨"BTC", "BTC", .layer1⟩

/-- A limit swap with a referrer. -/
def btcBid : Swap :=
  ⟨.ofBytes (List.replicate 32 2), 1, ⟨"bob"⟩, ⟨.native, 1000000000⟩, btc, ⟨"bob"⟩, 500000000, .limit,
    0, 0, some ⟨⟨"carol"⟩, 30⟩, 1⟩

/-- A store with a record of each kind. -/
def btcRecords : Store :=
  Store.empty.setPool ⟨btc, 1000000000, 500000000, 1000000000, 250, 0, 0, .available, 8⟩
    |>.setProvider { Provider.new btc ⟨"alice"⟩ with
        pendingTx := some (.ofBytes (List.replicate 32 1)) }
    |>.setSupply btc 70
    |>.setSwap btcBid
    |>.insertLimit (.ofSwap btcBid) btcBid.key
    |>.setPairFlags [true, false]
    |>.setStream { SwapStream.new btcBid.tx 5 2 0 900 with
        failedSwaps := [1], failedSwapReasons := ["late"] }

theorem btcRecords_built : btcRecords.Built := by
  have hbtc : btc.Legible := ⟨"btc.btc", by decide +kernel⟩
  have hnative : Asset.native.Legible := ⟨"THOR.RUNE", by decide +kernel⟩
  have htx (b : UInt8) : (TxId.ofBytes (List.replicate 32 b)).Legible := TxId.legible_ofBytes rfl
  have hkey : btcBid.key.Storable := ⟨htx 2, by decide⟩
  refine .setStream (.setPairFlags (.insertLimit (.setSwap (.setSupply (.setProvider
    (.setPool .empty ?_) ?_) hbtc 70) ?_) ?_ hkey) [true, false]) ?_
  · exact ⟨hbtc, by decide⟩
  · exact ⟨hbtc, fun t ht => Option.mem_some.mp ht ▸ htx 1, by decide, by decide⟩
  · exact ⟨hkey, hnative, hbtc, by decide, by decide, by decide, by decide⟩
  · show LimitKey.read? _ = _
    decide +kernel
  · exact ⟨htx 2, by decide, by decide, by decide, by decide, by decide⟩

/-- The records are restored over an empty store; what is not a snapshot leaves them alone. -/
theorem restore_snapshot_btcRecords :
    (∀ j : Json, j.Plain → Json.ofBytes? j.compact.toUTF8 = some j) ∧ btcRecords.Built ∧
      btcRecords.withoutSynths ≠ btcRecords ∧
      ofSnapshot? btcRecords.snapshot = .ok btcRecords.withoutSynths ∧
      (restoring Json.ofBytes? btcRecords.snapshot.toUTF8).run .empty =
        .ok () btcRecords.withoutSynths ∧
      ∃ e target', (restoring Json.ofBytes? "[]".toUTF8).run btcRecords = .error e target' ∧
        target' = btcRecords := by
  have hparse (j : Json) (hj : j.Plain) : Json.ofBytes? j.compact.toUTF8 = some j := by
    rw [Json.ofBytes?_toUTF8, hj.read?_compact]
  have hbuilt := btcRecords_built
  have hrefused : ofSnapshot? "[]" = .error (.malformed .snapshot) := rfl
  have hrun : (restoring Json.ofBytes? "[]".toUTF8).run btcRecords =
      .error (.malformed .snapshot) btcRecords := by
    rw [run_restoring_toUTF8 (Json.ofBytes?_toUTF8 _), hrefused]
    rfl
  obtain ⟨hrestored, hkept⟩ := restore_snapshot Json.ofBytes? hparse
  obtain ⟨hread, hrestored⟩ := hrestored _ hbuilt
  exact ⟨hparse, hbuilt, by decide +kernel, hread, hrestored _, _, _, hrun, hkept _ _ _ _ hrun⟩

end Store

end PoolExchange
