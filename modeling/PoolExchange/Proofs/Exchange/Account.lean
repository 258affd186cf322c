import PoolExchange.Proofs.Queue.Account

/-!
# Exchange — every source unit of a streaming swap is accounted for

A swap that no other queued swap shares its transaction with *stands by* a journal (`StandsBy`)
when it is queued and its stream agrees with the tally the journal gives it, or when it has left
the queue and that tally is complete.  A swap that runs changes its own stream only, so every
action keeps a swap standing by the journal of the run so far.

The main result is `stream_accounted_for`: once a streaming swap has left the queue, what was sold,
released and handed back is its whole source exactly when there was something to sell.
-/

namespace PoolExchange

/-! ### Standing by a journal -/

/-- The swap is the only queued one of its transaction, and its stream and its tally agree. -/
structure StandsBy (w : Swap) (s : Store) (log : List Entry) : Prop where
  alone : ∀ k v, s.swap? k = some v → v.tx = w.tx → k = w.key
  stands : StreamStands w s (.ofKey w.key log)

theorem StreamStands.frame {w : Swap} {s s' : Store} {t : Tally} (h : StreamStands w s t)
    (hq : s'.swap? w.key = s.swap? w.key) (ht : s'.stream? w.tx = s.stream? w.tx) :
    StreamStands w s' t := by
  rcases h with ⟨p, hlive⟩ | ⟨hgone, hsettles⟩
  · exact .inl ⟨p, { hlive with
      queued := hq.trans hlive.queued
      stream := ht.trans hlive.stream }⟩
  · exact .inr ⟨hq.trans hgone, hsettles⟩

namespace StandsBy

variable {w : Swap} {s s' : Store} {log : List Entry}

theorem sameBook (h : StandsBy w s log) (hb : s.SameBook s') : StandsBy w s' log := by
  have hswap : ∀ k, s'.swap? k = s.swap? k := fun k => by rw [Store.swap?, Store.swap?, hb.queue]
  refine ⟨fun k v hv => h.alone k v (hswap k ▸ hv), h.stands.frame (hswap w.key) ?_⟩
  rw [Store.stream?, Store.stream?, hb.streams]

/-- The swap of another transaction enters. -/
theorem enter (h : StandsBy w s log) {v : Swap} (hv : v.tx ≠ w.tx) :
    StandsBy w (SwapQueue.enter s v) log := by
  refine ⟨fun k u hu htx => ?_, h.stands.frame ?_ ?_⟩
  · rw [SwapQueue.swap?_enter] at hu
    split at hu
    · rw [← Option.some.inj hu] at htx
      exact absurd htx hv
    · exact h.alone k u hu htx
  · rw [SwapQueue.swap?_enter, if_neg fun e => hv (congrArg SwapKey.tx e).symm]
  · rw [SwapQueue.stream?_enter, if_neg fun e => hv e.2.symm]

/-- **Running any queued swap keeps a streaming swap standing by.** -/
theorem execute {config : Config} {j : Journal Unit} (h : StandsBy w j.run.ledger.store
      (log ++ j.log)) (hw : w.isStreaming = true) (hsource : w.source.amount.toNat ≠ 0)
    (height : Nat) {v : Swap} (hi : j.run.ledger.store.Indexed)
    (hv : j.run.ledger.store.swap? v.key = some v) :
    StandsBy w (j.execute .pools config height v).1.run.ledger.store
      (log ++ (j.execute .pools config height v).1.log) := by
  have hrun := Journal.runsFor_execute config height hi hv
  refine ⟨fun k u hu htx => ?_, ?_⟩
  · by_cases hk : k = v.key
    · rw [hk] at hu ⊢
      rcases hrun.own with hown | hown <;> rw [hown] at hu
      · rw [← Option.some.inj hu] at htx
        exact h.alone v.key v hv htx
      · cases hu
    · rw [hrun.swap k hk] at hu
      exact h.alone k u hu htx
  · by_cases hkey : v.key = w.key
    · -- the swap itself runs
      rcases h.stands with ⟨p, hlive⟩ | ⟨hgone, -⟩
      · obtain rfl : v = w := by
          rw [hkey, hlive.queued] at hv
          exact (Option.some.inj hv).symm
        obtain ⟨t', ⟨es, hlog, hfor, rfl⟩, hstands⟩ :=
          Journal.stands_executeSlice config hi hlive hsource height
        have hes : Tally.ofKey v.key es = .of es :=
          Tally.ofKey_eq_of fun e he => by rw [hfor e he]
        rw [Journal.execute, if_pos hw, hlog, ← List.append_assoc, Tally.ofKey_append, hes]
        exact hstands
      · rw [hkey, hgone] at hv
        cases hv
    · -- another swap runs, and it is of another transaction
      have htx : v.tx ≠ w.tx := fun e => hkey (h.alone v.key v hv e)
      obtain ⟨es, hlog, hfor, -⟩ : Journal.Grows .pools config v v.tx j
          (j.execute .pools config height v).1 :=
        Journal.grows_execute height (hi.keyed.tx_progress v)
      have hes : Tally.ofKey w.key es = .empty :=
        Tally.ofKey_eq_empty fun e he => by rw [(hfor e he).1]; exact hkey
      rw [hlog, ← List.append_assoc, Tally.ofKey_append, hes, Tally.append_empty]
      exact h.stands.frame (hrun.swap w.key fun e => hkey e.symm)
        (hrun.stream w.tx fun e => htx e.symm)

/-- **A block keeps a streaming swap standing by.** -/
theorem endBlock {q : SwapQueue} {l : Ledger} (h : StandsBy w l.store log)
    (hw : w.isStreaming = true) (hsource : w.source.amount.toNat ≠ 0) (hi : l.store.Indexed)
    (height : Nat) :
    StandsBy w (SwapQueue.endBlock .pools q height () l).2.ledger.store
      (log ++ SwapQueue.journal .pools q height () l) := by
  rw [SwapQueue.journal]
  cases hr : SwapQueue.rests q.config height with
  | true =>
      rw [SwapQueue.store_endBlock_of_rests .pools q height () l hr, if_pos rfl, List.append_nil]
      exact h
  | false =>
      rw [SwapQueue.store_endBlock .pools q height () l hr]
      have hblock := (q.runBlock_induct (P := fun s es => StandsBy w s (log ++ es)) height hi
        (fun v j hi hv hP => hP.execute hw hsource height hi hv) (by rwa [List.append_nil])).2
      exact hblock.sameBook ⟨rfl, rfl, rfl⟩

end StandsBy

/-! ### Along a run -/

namespace Exchange

variable {w : Swap} {x : Exchange} {log : List Entry}

/-- **Every action keeps a streaming swap standing by.** -/
theorem standsBy_act (h : StandsBy w x.store log) (hw : w.isStreaming = true)
    (hsource : w.source.amount.toNat ≠ 0) (hi : x.store.Indexed) {a : Action}
    (ha : ∀ v, a = .accept v → v.tx ≠ w.tx) :
    StandsBy w (x.act a).store (log ++ x.entries a) := by
  cases a with
  | deposit asset owner d =>
      simp only [entries, List.append_nil]
      rcases x.store_deposit_cases asset owner d with hs | ⟨o, -, -, -, hs⟩ <;> rw [hs]
      · exact h
      · exact h.sameBook ⟨rfl, rfl, rfl⟩
  | withdraw asset owner r config =>
      simp only [entries, List.append_nil]
      rcases x.store_withdraw_cases asset owner r config with hs | ⟨_, _, o, -, -, -, hs⟩ <;>
        rw [hs]
      · exact h
      · exact h.sameBook ⟨rfl, rfl, rfl⟩
  | setStatus asset status =>
      simp only [entries, List.append_nil]
      rcases x.store_setStatus_cases asset status with hs | ⟨pool, -, hs⟩ <;> rw [hs]
      · exact h
      · exact h.sameBook (.setPool _ _)
  | setSupply asset supply =>
      simp only [entries, List.append_nil]
      exact h.sameBook (.setSupply _ asset supply)
  | setPool pool =>
      simp only [entries, List.append_nil]
      exact h.sameBook (.setPool _ pool)
  | accept swap =>
      simp only [entries, List.append_nil]
      rcases x.store_accept_cases swap with hs | ⟨v, -, hprepare, hs⟩ <;> rw [hs]
      · exact h
      · refine h.enter ?_
        rw [(SwapQueue.prepare_inv hprepare).1]
        exact ha swap rfl
  | endBlock height => exact h.endBlock hw hsource hi height

theorem standsBy_run (h : StandsBy w x.store log) (hw : w.isStreaming = true)
    (hsource : w.source.amount.toNat ≠ 0) (hi : x.store.Indexed) {actions : List Action}
    (hforeign : ∀ a ∈ actions, a.IsForeign)
    (hothers : ∀ v, .accept v ∈ actions → v.tx ≠ w.tx) :
    StandsBy w (x.run actions).store (log ++ x.journal actions) := by
  induction actions generalizing x log with
  | nil =>
      rw [journal, List.append_nil]
      exact h
  | cons a actions ih =>
      have hact := standsBy_act h hw hsource hi (a := a)
        fun v hv => hothers v (hv ▸ List.mem_cons_self)
      rw [run_cons, journal, ← List.append_assoc]
      exact ih hact (indexed_act hi (hforeign a List.mem_cons_self))
        (fun b hb => hforeign b (List.mem_cons_of_mem _ hb))
        fun v hv => hothers v (List.mem_cons_of_mem _ hv)

/-- **An accepted streaming swap stands by**, with nothing sold, released or handed back. -/
theorem standsBy_enter {q : SwapQueue} {s : Store} {swap : Swap}
    (hprepare : q.prepare s swap = .ok w) (hw : swap.isStreaming = true)
    (halone : ∀ k v, s.swap? k = some v → v.tx ≠ swap.tx) :
    StandsBy w (SwapQueue.enter s w) [] := by
  obtain ⟨hsame, hquantity⟩ := SwapQueue.prepare_inv hprepare
  have htx : w.tx = swap.tx := by rw [hsame]
  have hstreaming : w.isStreaming = true := by rw [hsame]; exact hw
  refine ⟨fun k v hv hvtx => ?_, .inl ⟨.ofSwap w, ?_⟩⟩
  · rw [SwapQueue.swap?_enter] at hv
    split at hv
    · assumption
    · exact absurd (hvtx.trans htx) (halone k v hv)
  · refine ⟨?_, ?_, rfl, ⟨?_, Nat.zero_le _⟩, rfl, fun _ => ⟨rfl, rfl⟩, fun hne => absurd rfl hne,
      rfl⟩
    · rw [SwapQueue.swap?_enter, if_pos rfl]
    · rw [SwapQueue.stream?_enter, if_pos ⟨hstreaming, rfl⟩]
    · exact lt_of_lt_of_le (hquantity hw) (Nat.pow_le_pow_right Nat.two_pos (by decide))

/-- **Every source unit of a streaming swap is accounted for**, exactly when the affiliate does not
take the whole of it.  Once the swap has left the queue, the slices that were sold, the affiliate's
share and the coins that were handed back add up to the source; and the share has been released
once if a slice was sold, and else not at all.

No pool of native itself may be put in place on the way.  With one every pair with native stands
twice on the walk, so a limit stream may be run twice in one block; when the first run completes it,
the second starts it over and sells more than the source. -/
theorem stream_accounted_for {config : Config} {before after : List Action} {swap : Swap}
    (hbefore : ∀ a ∈ before, a.IsForeign) (hafter : ∀ a ∈ after, a.IsForeign)
    (halone : ∀ v ∈ ((empty config).run before).store.queue.values, v.tx ≠ swap.tx)
    (hothers : ∀ v, .accept v ∈ after → v.tx ≠ swap.tx) (hstreaming : swap.isStreaming = true)
    (haccept : (((empty config).run before).queue.accept ((empty config).run before).store
      swap).isOk = true)
    (hgone : ((((empty config).run before).act (.accept swap)).run after).store.swap? swap.key =
      none) :
    let t := Tally.ofKey swap.key ((((empty config).run before).act (.accept swap)).journal after)
    (t.total = swap.source.amount.toNat ↔ swap.primaryAmount.toNat ≠ 0) ∧
      t.shares = if t.parts = [] then [] else swap.affiliateShare := by
  have hi : ((empty config).run before).store.Indexed :=
    indexed_run (x := empty config) .empty hbefore
  generalize (empty config).run before = x at *
  cases ho : x.queue.accept x.store swap with
  | error e =>
      rw [ho] at haccept
      cases haccept
  | ok out =>
      obtain ⟨q, s⟩ := out
      obtain ⟨w, hvalid, -, hprepare, -, rfl⟩ := SwapQueue.accept_inv ho
      have hw := (SwapQueue.prepare_inv hprepare).1
      have hact : x.act (.accept swap) = ⟨q, x.ledger.withStore (SwapQueue.enter x.store w)⟩ := by
        simp only [act, ho]
      have hsource : w.source.amount.toNat ≠ 0 := by
        rw [hw]
        exact swap.source_pos_of_validate hvalid
      -- fixing the number of slices changes neither the key nor what is accounted for
      have hkey : w.key = swap.key := by rw [hw]; rfl
      have hsettles : ∀ t : Tally, t.Settles w → t.Settles swap := by
        rw [hw]
        exact fun t h => h
      have hstands : StandsBy w (x.act (.accept swap)).store [] := by
        rw [hact]
        exact standsBy_enter hprepare hstreaming fun k v hv =>
          halone v (OrderedMap.mem_values_of_find? hv)
      have hrun := standsBy_run hstands (by rw [hw]; exact hstreaming) hsource
        (indexed_act hi fun p hp => by cases hp) hafter fun v hv => by
          rw [hw]
          exact hothers v hv
      rcases hrun.stands with ⟨p, hlive⟩ | ⟨-, ht⟩
      · rw [← hkey, hlive.queued] at hgone
        cases hgone
      · rw [hkey, List.nil_append] at ht
        exact hsettles _ ht

/-- A pool that streams can sell to. -/
def btcOpening : List Action :=
  let btc : Asset := ⟨"BTC", "BTC", .layer1⟩
  [.deposit btc ⟨"alice"⟩ ⟨100000000000, 100000000000, ⟨"01"⟩, false, 1⟩,
    .setStatus btc .available]

/-- A stream in two slices, of whose source the affiliate takes the given share. -/
def btcStream (basisPoints : Nat) : Swap :=
  ⟨⟨"02"⟩, 0, ⟨"bob"⟩, ⟨⟨"BTC", "BTC", .layer1⟩, 3000000000⟩, .native, ⟨"bob"⟩, 0, .market, 1, 2,
    some ⟨⟨"carol"⟩, basisPoints⟩, 1⟩

/-- The least slice is five basis points of a pool, so that streams are cut. -/
def slicing : Config := { slipFloors := { layer1 := 5 } }

theorem stream_accounted_for_tenth :
    let x := (empty slicing).run btcOpening
    let blocks : List Action := [.endBlock 1, .endBlock 2]
    let y := x.act (.accept (btcStream 1000))
    (∀ a ∈ btcOpening, a.IsForeign) ∧ (∀ a ∈ blocks, a.IsForeign) ∧
      (∀ v ∈ x.store.queue.values, v.tx ≠ (btcStream 1000).tx) ∧
      (∀ v, .accept v ∈ blocks → v.tx ≠ (btcStream 1000).tx) ∧
      (btcStream 1000).isStreaming = true ∧
      (x.queue.accept x.store (btcStream 1000)).isOk = true ∧
      (y.run blocks).store.swap? (btcStream 1000).key = none ∧
      (Tally.ofKey (btcStream 1000).key (y.journal blocks)).total = 3000000000 ∧
      (Tally.ofKey (btcStream 1000).key (y.journal blocks)).shares =
        [⟨⟨"BTC", "BTC", .layer1⟩, 300000000⟩] := by
  intro x blocks y
  have hbefore : ∀ a ∈ btcOpening, a.IsForeign := by simp [btcOpening, Action.IsForeign]
  have hafter : ∀ a ∈ blocks, a.IsForeign := by simp [blocks, Action.IsForeign]
  have halone : ∀ v ∈ x.store.queue.values, v.tx ≠ (btcStream 1000).tx := by decide +kernel
  have hothers : ∀ v, .accept v ∈ blocks → v.tx ≠ (btcStream 1000).tx := by simp [blocks]
  have haccept : (x.queue.accept x.store (btcStream 1000)).isOk = true := by decide +kernel
  have hgone : (y.run blocks).store.swap? (btcStream 1000).key = none := by decide +kernel
  have hsold : (Tally.ofKey (btcStream 1000).key (y.journal blocks)).parts ≠ [] := by
    decide +kernel
  obtain ⟨htotal, hshares⟩ :=
    stream_accounted_for hbefore hafter halone hothers (by decide) haccept hgone
  refine ⟨hbefore, hafter, halone, hothers, by decide, haccept, hgone,
    htotal.mpr (by decide +kernel), ?_⟩
  rw [hshares, if_neg hsold]
  decide +kernel

/-- An affiliate that takes everything leaves nothing to sell: the stream is complete on entry, and
nothing is sold, released or handed back. -/
theorem stream_unaccounted_for_whole :
    let x := (empty {}).run btcOpening
    let y := x.act (.accept (btcStream 10000))
    (x.queue.accept x.store (btcStream 10000)).isOk = true ∧
      (btcStream 10000).isStreaming = true ∧
      (y.run [.endBlock 1]).store.swap? (btcStream 10000).key = none ∧
      (Tally.ofKey (btcStream 10000).key (y.journal [.endBlock 1])).total ≠
        (btcStream 10000).source.amount.toNat := by
  decide +kernel

end Exchange

end PoolExchange
