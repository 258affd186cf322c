import PoolExchange.Proofs.Queue.Step

/-!
# Queue — where the source of a streaming swap goes

Three things can become of the source of a streaming swap: a slice of it is sold, the affiliate's
share of it is released, and what is left is handed back.  A `Tally` lists the amounts of each, as
a journal shows them.

While the swap is queued its stream and its tally agree (`StreamStands`): the tally's parts are the
stream's input, the share is released as soon as something has been sold, and nothing has been
handed back.  Each of the ways in which a stream can end completes the tally to the whole source,
with one exception: when the affiliate takes the whole source there is nothing to sell, the stream
is complete on entry, and the swap leaves the queue with its tally empty.
-/

namespace PoolExchange

/-! ### Tallies -/

/-- What became of the source of a swap. -/
@[ext]
structure Tally where
  /-- The sizes of the slices that were sold. -/
  parts : List Amount
  /-- The affiliate's shares that were released. -/
  shares : List Coin
  /-- The coins that were handed back, other than for a share. -/
  returns : List Coin

/-- The size of the slice, if the entry sells one. -/
def Entry.part? (e : Entry) : Option Amount :=
  match e.effect with
  | .order .part o (.ok _) => some o.source.amount
  | _ => none

/-- The affiliate's share, if the entry releases it: as it is, or by an order for it, which hands
the share back when it fails. -/
def Entry.share? (e : Entry) : Option Coin :=
  match e.effect with
  | .share coin => some coin
  | .order .share o _ => some o.source
  | _ => none

/-- The coin, if the entry hands one back. -/
def Entry.return? (e : Entry) : Option Coin :=
  match e.effect with
  | .refund .part coin _ => some coin
  | _ => none

namespace Tally

def empty : Tally := ⟨[], [], []⟩

def append (t t' : Tally) : Tally :=
  ⟨t.parts ++ t'.parts, t.shares ++ t'.shares, t.returns ++ t'.returns⟩

instance : Append Tally := ⟨append⟩

/-- The tally of some entries. -/
def of (log : List Entry) : Tally :=
  ⟨log.filterMap Entry.part?, log.filterMap Entry.share?, log.filterMap Entry.return?⟩

/-- The tally of the swap with the given key. -/
def ofKey (key : SwapKey) (log : List Entry) : Tally :=
  of (log.filter fun e => e.swap.key = key)

/-- Everything sold, released and handed back, together. -/
def total (t : Tally) : Nat :=
  (t.parts.map Amount.toNat).sum + (t.shares.map fun c => c.amount.toNat).sum +
    (t.returns.map fun c => c.amount.toNat).sum

@[simp] theorem append_parts (t t' : Tally) : (t ++ t').parts = t.parts ++ t'.parts := rfl

@[simp] theorem append_shares (t t' : Tally) : (t ++ t').shares = t.shares ++ t'.shares := rfl

@[simp] theorem append_returns (t t' : Tally) : (t ++ t').returns = t.returns ++ t'.returns := rfl

@[simp] theorem append_empty (t : Tally) : t ++ empty = t :=
  Tally.ext (List.append_nil _) (List.append_nil _) (List.append_nil _)

@[simp] theorem empty_append (t : Tally) : empty ++ t = t := rfl

theorem append_assoc (t t' t'' : Tally) : t ++ t' ++ t'' = t ++ (t' ++ t'') :=
  Tally.ext (List.append_assoc _ _ _) (List.append_assoc _ _ _) (List.append_assoc _ _ _)

theorem of_append (log log' : List Entry) : of (log ++ log') = of log ++ of log' :=
  Tally.ext List.filterMap_append List.filterMap_append List.filterMap_append

theorem ofKey_append (key : SwapKey) (log log' : List Entry) :
    ofKey key (log ++ log') = ofKey key log ++ ofKey key log' := by
  rw [ofKey, List.filter_append, of_append]
  rfl

theorem ofKey_eq_of {key : SwapKey} {log : List Entry} (h : ∀ e ∈ log, e.swap.key = key) :
    ofKey key log = of log := by
  rw [ofKey, List.filter_eq_self.mpr fun e he => decide_eq_true (h e he)]

theorem ofKey_eq_empty {key : SwapKey} {log : List Entry} (h : ∀ e ∈ log, e.swap.key ≠ key) :
    ofKey key log = empty := by
  rw [ofKey, List.filter_eq_nil_iff.mpr fun e he => by simpa using h e he]
  rfl

end Tally

/-! ### The arithmetic of a stream -/

namespace SwapStream

/-- The slots used so far have sold no more than as many equal slices. -/
structure InStep (p : SwapStream) : Prop where
  quantity_lt : p.quantity < Amount.bound
  input_le : p.input.toNat ≤ p.count * (p.deposit.toNat / p.quantity)

variable {p : SwapStream}

theorem isDone_eq_false :
    p.isDone = false ↔ p.count < p.quantity ∧ p.input.toNat < p.deposit.toNat := by
  rw [isDone, Bool.or_eq_false_iff, decide_eq_false_iff_not, decide_eq_false_iff_not,
    Nat.not_le, Amount.le_def, Nat.not_le]

/-- The next slice of a stream that is not done: what is left, or an equal part. -/
theorem nextSize_fst (hq : p.quantity < Amount.bound) (h : p.isDone = false) :
    p.nextSize.1.toNat =
      if p.quantity ≤ p.count + 1 then p.deposit.toNat - p.input.toNat
      else p.deposit.toNat / p.quantity := by
  have hcount := (isDone_eq_false.mp h).1
  have hzero : ¬ p.quantity = 0 := by omega
  simp only [nextSize, h, hzero, decide_false, Bool.or_self, Bool.false_eq_true, if_false]
  split
  · rw [Amount.toNat_sub]
  · rw [Amount.toNat_div, Amount.toNat_clamp_of_lt hq]

/-- **No slice oversells the deposit.** -/
theorem input_add_nextSize_le (hs : p.InStep) (h : p.isDone = false) :
    p.input.toNat + p.nextSize.1.toNat ≤ p.deposit.toNat := by
  obtain ⟨hcount, hinput⟩ := isDone_eq_false.mp h
  rw [nextSize_fst hs.quantity_lt h]
  split
  · omega
  · rename_i hlast
    calc p.input.toNat + p.deposit.toNat / p.quantity
        ≤ p.count * (p.deposit.toNat / p.quantity) + p.deposit.toNat / p.quantity :=
          Nat.add_le_add_right hs.input_le _
      _ = (p.count + 1) * (p.deposit.toNat / p.quantity) := by ring
      _ ≤ p.quantity * (p.deposit.toNat / p.quantity) := Nat.mul_le_mul_right _ (by omega)
      _ ≤ p.deposit.toNat := Nat.mul_div_le _ _

/-- The progress after a slice that sold. -/
theorem recorded_eq (h : p.isDone = false) (height : Nat) (input output : Amount) :
    BlockRun.recorded p height input output =
      { p with
        input := p.input + input, output := p.output + output,
        count := p.count + 1, lastHeight := height } := by
  simp only [BlockRun.recorded, recordSwap, h, Bool.false_eq_true, if_false]

theorem toNat_recorded_input (hs : p.InStep) (h : p.isDone = false) (height : Nat)
    (output : Amount) : (BlockRun.recorded p height p.nextSize.1 output).input.toNat =
      p.input.toNat + p.nextSize.1.toNat := by
  rw [recorded_eq h]
  exact Amount.toNat_add_of_lt (lt_of_le_of_lt (input_add_nextSize_le hs h) p.deposit.toNat_lt)

/-- A slice before the last sells an equal part. -/
theorem inStep_recorded_of_lt (hs : p.InStep) (h : p.isDone = false)
    (hcount : p.count + 1 < p.quantity) (height : Nat) (output : Amount) :
    (BlockRun.recorded p height p.nextSize.1 output).InStep := by
  have hinput := toNat_recorded_input hs h height output
  rw [recorded_eq h] at hinput ⊢
  refine ⟨hs.quantity_lt, ?_⟩
  dsimp only at hinput ⊢
  rw [hinput, nextSize_fst hs.quantity_lt h, if_neg (by omega), Nat.add_mul, Nat.one_mul]
  exact Nat.add_le_add_right hs.input_le _

/-- Until a slice completes the stream, it sells an equal part. -/
theorem inStep_recorded (hs : p.InStep) (h : p.isDone = false) (height : Nat) (output : Amount) :
    (BlockRun.recorded p height p.nextSize.1 output).input.toNat =
        p.input.toNat + p.nextSize.1.toNat ∧
      ((BlockRun.recorded p height p.nextSize.1 output).isDone = false →
        (BlockRun.recorded p height p.nextSize.1 output).InStep) := by
  refine ⟨toNat_recorded_input hs h height output, fun hopen => ?_⟩
  rw [recorded_eq h] at hopen
  exact inStep_recorded_of_lt hs h (isDone_eq_false.mp hopen).1 height output

theorem inStep_recordFailure (hs : p.InStep) (height : Nat) (reason : String) :
    (p.recordFailure height reason).InStep :=
  ⟨hs.quantity_lt, hs.input_le.trans (Nat.mul_le_mul_right _ (Nat.le_succ _))⟩

/-- Only a stream without a deposit is complete on entry. -/
theorem nextSlice_eq_ok (h : p.isDone = false ∨ p.quantity = 0 ∧ p.input.toNat < p.deposit.toNat) :
    p.nextSlice = .ok p.nextSize := by
  rw [nextSlice, if_neg]
  rw [Bool.or_eq_true, Bool.and_eq_true, decide_eq_true_eq, decide_eq_true_eq, Amount.le_def]
  rcases h with h | ⟨hq, hinput⟩
  · obtain ⟨-, hinput⟩ := isDone_eq_false.mp h
    rintro (⟨-, hd⟩ | hd)
    · rw [h] at hd; cases hd
    · omega
  · omega

end SwapStream

/-! ### What a journal adds to a tally -/

/-- The affiliate's share, if there is one. -/
def Swap.affiliateShare (w : Swap) : List Coin :=
  if w.affiliateAmount.isZero then [] else [⟨w.source.asset, w.affiliateAmount⟩]

/-- What a stream has not sold, if anything. -/
def SwapStream.rest (p : SwapStream) (w : Swap) : List Coin :=
  if p.remainder.isZero then [] else [⟨w.source.asset, p.remainder⟩]

namespace Journal

/-- The entries from `j` to `j'` are for `w`, and add `t` to its tally. -/
def Tallies (w : Swap) (j j' : Journal Unit) (t : Tally) : Prop :=
  ∃ es, j'.log = j.log ++ es ∧ (∀ e ∈ es, e.swap = w) ∧ Tally.of es = t

/-- And they leave queue, index and streams alone. -/
structure Quiet (w : Swap) (j j' : Journal Unit) (t : Tally) : Prop where
  tallies : Tallies w j j' t
  book : j.run.ledger.store.SameBook j'.run.ledger.store

variable {w : Swap} {j j' j'' : Journal Unit} {t t' : Tally}

theorem Tallies.refl (w : Swap) (j : Journal Unit) : Tallies w j j .empty :=
  ⟨[], (List.append_nil _).symm, fun _ he => absurd he List.not_mem_nil, rfl⟩

theorem Tallies.trans (h : Tallies w j j' t) (h' : Tallies w j' j'' t') :
    Tallies w j j'' (t ++ t') := by
  obtain ⟨es, hlog, hfor, rfl⟩ := h
  obtain ⟨es', hlog', hfor', rfl⟩ := h'
  refine ⟨es ++ es', by rw [hlog', hlog, List.append_assoc], fun e he => ?_,
    Tally.of_append es es'⟩
  rcases List.mem_append.mp he with he | he
  · exact hfor e he
  · exact hfor' e he

theorem tallies_note (w : Swap) (j : Journal Unit) (effect : Effect) (r : BlockRun Unit) :
    Tallies w j (j.note w effect r) (.of [⟨w, j.run.ledger.store, effect⟩]) :=
  ⟨_, rfl, fun _ he => by rw [List.mem_singleton.mp he], rfl⟩

theorem Quiet.refl (w : Swap) (j : Journal Unit) : Quiet w j j .empty := ⟨.refl w j, .refl _⟩

theorem Quiet.trans (h : Quiet w j j' t) (h' : Quiet w j' j'' t') : Quiet w j j'' (t ++ t') :=
  ⟨h.tallies.trans h'.tallies, h.book.trans h'.book⟩

variable (config : Config) (w : Swap) (j : Journal Unit)

theorem quiet_call (role : Role) (o : Order) :
    Quiet w j (j.call .pools config w role o).1
      (.of [⟨w, j.run.ledger.store, .order role o (j.call .pools config w role o).2⟩]) := by
  refine ⟨tallies_note w j _ _, ?_⟩
  show j.run.ledger.store.SameBook (j.run.call .pools config o).1.ledger.store
  rw [BlockRun.call]
  rcases Handler.pools_cases config o j.run.ledger with ⟨l', fill, hrun, hout⟩ | ⟨e, -, hout⟩
  · rw [hout]; exact Order.run_sameBook hrun
  · rw [hout]; exact .refl _

theorem quiet_refund (role : Role) (coin : Coin) (reason : String) :
    Quiet w j (j.refund w role coin reason config)
      (.of [⟨w, j.run.ledger.store, .refund role coin reason⟩]) := by
  refine ⟨tallies_note w j _ _, ?_⟩
  show Store.SameBook _ (j.run.refund w coin reason config).ledger.store
  rw [BlockRun.store_refund]
  exact Payout.settled_sameBook _ coin config

theorem quiet_pay (coin : Coin) : Quiet w j (j.pay w coin config) .empty := by
  refine ⟨tallies_note w j (.outbound coin) _, ?_⟩
  show Store.SameBook _ (j.run.pay w coin config).ledger.store
  rw [BlockRun.store_pay]
  exact Payout.settled_sameBook _ coin config

/-- **The share is released once**, whatever becomes of it. -/
theorem quiet_releaseAffiliate :
    Quiet w j (j.releaseAffiliate .pools config w) ⟨[], w.affiliateShare, []⟩ := by
  rw [releaseAffiliate]
  cases ha : w.affiliate with
  | none =>
      have hzero : w.affiliateAmount = 0 := by rw [Swap.affiliateAmount, ha]
      rw [Swap.affiliateShare, hzero]
      exact .refl w j
  | some affiliate =>
      have hshare : w.affiliateShare =
          if (⟨w.source.asset, w.affiliateAmount⟩ : Coin).isEmpty then []
          else [⟨w.source.asset, w.affiliateAmount⟩] := rfl
      rw [hshare]
      dsimp only
      split
      · exact .refl w j
      · split
        · exact ⟨tallies_note w j (.share ⟨w.source.asset, w.affiliateAmount⟩) _, .refl _⟩
        · -- the order releases the share, and hands it back itself when it fails
          have hcall := quiet_call config w j .share
            (BlockRun.affiliateOrder w affiliate ⟨w.source.asset, w.affiliateAmount⟩)
          split <;> rename_i heq <;> rw [heq] at hcall
          · exact ⟨hcall.tallies, hcall.book⟩
          · exact hcall.trans (quiet_refund config w _ .share _ _)

theorem swap?_drop {σ : Type} (w : Swap) (j : Journal σ) :
    (j.drop w).run.ledger.store.swap? w.key = none := by
  show (BlockRun.dropSwap j.run.ledger.store w).swap? w.key = none
  rw [BlockRun.swap?_dropSwap, if_pos rfl]

/-- **Settling hands back what was not sold**, and the swap is gone. -/
theorem tallies_settleStream (p : SwapStream) :
    Tallies w j (j.settleStream config w p) ⟨[], [], p.rest w⟩ ∧
      (j.settleStream config w p).run.ledger.store.swap? w.key = none := by
  refine ⟨?_, swap?_drop w _⟩
  rw [settleStream, SwapStream.rest]
  -- what was collected is paid out, which is no return
  have hdrop : ∀ j' : Journal Unit, Tallies w j' (j'.drop w) .empty := fun j' =>
    tallies_note w j' .drop _
  by_cases ho : p.output.isZero <;> by_cases hr : p.remainder.isZero
  · simp only [if_pos ho, if_pos hr]
    exact hdrop { j with run := _ }
  · simp only [if_pos ho, if_neg hr]
    exact (quiet_refund config w j .part _ _).tallies.trans (hdrop { j.refund .. with run := _ })
  · simp only [if_neg ho, if_pos hr]
    exact (quiet_pay config w j _).tallies.trans (hdrop { j.pay .. with run := _ })
  · simp only [if_neg ho, if_neg hr]
    exact ((quiet_pay config w j _).tallies.trans (quiet_refund config w _ .part _ _).tallies).trans
      (hdrop { Journal.refund .. with run := _ })

/-- Giving back hands the whole source back, and the swap is gone. -/
theorem tallies_giveBack (e : OrderError) :
    Tallies w j (j.giveBack w e config) ⟨[], [], [w.source]⟩ ∧
      (j.giveBack w e config).run.ledger.store.swap? w.key = none :=
  ⟨(quiet_refund config w j .part w.source e.message).tallies.trans (tallies_note w _ .drop _),
    swap?_drop w _⟩

end Journal

/-! ### A stream and its tally -/

namespace Swap

theorem affiliateAmount_le (w : Swap) : w.affiliateAmount.toNat ≤ w.source.amount.toNat := by
  rw [affiliateAmount]
  split
  · split
    · exact Amount.cappedShare_le _ _ _
    · exact Nat.zero_le _
  · exact Nat.zero_le _

/-- The share and what is swapped are the whole source. -/
theorem affiliateAmount_add_primaryAmount (w : Swap) :
    w.affiliateAmount.toNat + w.primaryAmount.toNat = w.source.amount.toNat := by
  rw [primaryAmount, Amount.toNat_sub]
  exact Nat.add_sub_cancel' w.affiliateAmount_le

theorem source_pos_of_validate (w : Swap) (h : w.validate = .ok ()) :
    w.source.amount.toNat ≠ 0 := by
  intro hzero
  rw [validate, if_pos (Amount.isZero_iff.mpr hzero)] at h
  cases h

theorem sum_affiliateShare (w : Swap) :
    (w.affiliateShare.map fun c => c.amount.toNat).sum = w.affiliateAmount.toNat := by
  rw [affiliateShare]
  split
  · rename_i h
    rw [Amount.isZero_iff.mp h]
    rfl
  · rw [List.map_singleton, List.sum_singleton]

end Swap

theorem SwapStream.sum_rest (p : SwapStream) (w : Swap) :
    ((p.rest w).map fun c => c.amount.toNat).sum = p.deposit.toNat - p.input.toNat := by
  rw [rest, ← Amount.toNat_sub]
  split
  · rename_i h
    exact (Amount.isZero_iff.mp h).symm
  · rw [List.map_singleton, List.sum_singleton]
    rfl

/-- **The tally is complete.**  It is the whole source exactly when there was something to sell,
and the share has been released once if a slice was sold, and else not at all. -/
def Tally.Settles (t : Tally) (w : Swap) : Prop :=
  (t.total = w.source.amount.toNat ↔ w.primaryAmount.toNat ≠ 0) ∧
    t.shares = if t.parts = [] then [] else w.affiliateShare

/-- The swap is queued, and its stream and its tally agree. -/
structure StreamLive (w : Swap) (s : Store) (t : Tally) (p : SwapStream) : Prop where
  queued : s.swap? w.key = some w
  stream : s.stream? w.tx = some p
  deposit : p.deposit = w.primaryAmount
  inStep : p.InStep
  sold : (t.parts.map Amount.toNat).sum = p.input.toNat
  fresh : p.input.toNat = 0 → p = .ofSwap w ∧ t = .empty
  begun : p.input.toNat ≠ 0 → p.isDone = false ∧ t.shares = w.affiliateShare
  returns : t.returns = []

/-- The swap is queued with its tally, or gone with its tally complete. -/
def StreamStands (w : Swap) (s : Store) (t : Tally) : Prop :=
  (∃ p, StreamLive w s t p) ∨ s.swap? w.key = none ∧ t.Settles w

variable {w : Swap} {s s' : Store} {t : Tally} {p : SwapStream}

theorem StreamLive.sameBook (h : StreamLive w s t p) (hb : s.SameBook s') :
    StreamLive w s' t p :=
  { h with
    queued := by rw [Store.swap?, hb.queue]; exact h.queued
    stream := by rw [Store.stream?, hb.streams]; exact h.stream }

/-- A stream with something to sell is open, or has no slots at all and sells slices of
nothing. -/
theorem StreamLive.isOpen (h : StreamLive w s t p) (hw : w.primaryAmount.toNat ≠ 0) :
    p.isDone = false ∨ p.quantity = 0 ∧ p.input.toNat < p.deposit.toNat := by
  by_cases hinput : p.input.toNat = 0
  · have hdeposit : p.input.toNat < p.deposit.toNat := by
      rw [h.deposit]
      omega
    by_cases hq : p.quantity = 0
    · exact .inr ⟨hq, hdeposit⟩
    · have hcount : p.count = 0 := by rw [(h.fresh hinput).1]; rfl
      exact .inl (SwapStream.isDone_eq_false.mpr ⟨by omega, hdeposit⟩)
  · exact .inl (h.begun hinput).1

/-- Handing the whole source back completes an empty tally. -/
theorem Tally.settles_giveBack (hw : w.primaryAmount.toNat ≠ 0) :
    Tally.Settles ⟨[], [], [w.source]⟩ w := by
  refine ⟨iff_of_true ?_ hw, rfl⟩
  simp [Tally.total]

/-- Handing the rest back completes the tally of a stream that has sold something. -/
theorem Tally.settles_rest (hdeposit : p.deposit = w.primaryAmount) (hpos : p.input.toNat ≠ 0)
    (hle : p.input.toNat ≤ p.deposit.toNat)
    (hsold : (t.parts.map Amount.toNat).sum = p.input.toNat)
    (hshares : t.shares = w.affiliateShare) (hreturns : t.returns = []) :
    Tally.Settles (t ++ ⟨[], [], p.rest w⟩) w := by
  have hsource := w.affiliateAmount_add_primaryAmount
  have hparts : t.parts ≠ [] := by
    intro e
    rw [e] at hsold
    exact hpos hsold.symm
  rw [hdeposit] at hle
  constructor
  · refine iff_of_true ?_ (by omega)
    simp only [Tally.total, Tally.append_parts, Tally.append_shares, Tally.append_returns,
      List.append_nil, hsold, hshares, hreturns, List.nil_append, Swap.sum_affiliateShare,
      SwapStream.sum_rest, hdeposit]
    omega
  · rw [Tally.append_parts, Tally.append_shares, List.append_nil, List.append_nil, if_neg hparts,
      hshares]

namespace Journal

variable (config : Config) {j : Journal Unit}

/-- **Storing progress keeps stream and tally in agreement**, or completes the tally. -/
theorem stands_storeProgress (htx : p.tx = w.tx) (hqueued : j.run.ledger.store.swap? w.key = some w)
    (hdeposit : p.deposit = w.primaryAmount) (hpos : p.input.toNat ≠ 0)
    (hle : p.input.toNat ≤ p.deposit.toNat) (hstep : p.isDone = false → p.InStep)
    (hsold : (t.parts.map Amount.toNat).sum = p.input.toNat)
    (hshares : t.shares = w.affiliateShare) (hreturns : t.returns = []) :
    ∃ t', Tallies w j (j.storeProgress config w p) t' ∧
      StreamStands w (j.storeProgress config w p).run.ledger.store (t ++ t') := by
  rw [storeProgress]
  cases hd : p.isDone with
  | true =>
      obtain ⟨htallies, hgone⟩ := tallies_settleStream config w j p
      exact ⟨_, htallies, .inr ⟨hgone,
        Tally.settles_rest hdeposit hpos hle hsold hshares hreturns⟩⟩
  | false =>
      refine ⟨.empty, tallies_note w j (.progress p) _, .inl ⟨p, ?_⟩⟩
      rw [Tally.append_empty]
      exact ⟨hqueued, by rw [← htx]; exact (Store.stream?_setStream _ p p.tx).trans (if_pos rfl),
        hdeposit, hstep hd, hsold, fun h => absurd h hpos, fun _ => ⟨hd, hshares⟩, hreturns⟩

/-- What an order for a part adds to the tally when it is filled, and that only a positive part
is. -/
theorem call_part (o : Order) (w : Swap) (j : Journal Unit) :
    ∃ j₁, (∃ fill, j.call .pools config w .part o = (j₁, .ok fill) ∧
        o.source.amount.toNat ≠ 0 ∧ Quiet w j j₁ ⟨[o.source.amount], [], []⟩) ∨
      ∃ e, j.call .pools config w .part o = (j₁, .error e) ∧ Quiet w j j₁ .empty := by
  refine ⟨(j.call .pools config w .part o).1, ?_⟩
  have hcall := quiet_call config w j .part o
  have hanswer : (j.call .pools config w .part o).2 =
      (Handler.pools.run config o () j.run.ledger).2 := rfl
  rcases Handler.pools_cases config o j.run.ledger with ⟨l', fill, hrun, hout⟩ | ⟨e, -, hout⟩
  · rw [hout] at hanswer
    obtain ⟨-, -, -, -, -, -, hpos⟩ := Order.run_inv hrun
    rw [hanswer] at hcall
    exact .inl ⟨fill, Prod.ext rfl hanswer, hpos, hcall⟩
  · rw [hout] at hanswer
    rw [hanswer] at hcall
    exact .inr ⟨e, Prod.ext rfl hanswer, hcall⟩

/-- A stream that is complete on entry leaves the queue with its tally empty. -/
theorem stands_complete (hlive : StreamLive w j.run.ledger.store t p)
    (hsource : w.source.amount.toNat ≠ 0) (hzero : w.primaryAmount.toNat = 0) :
    ∃ t', Tallies w j (j.settleStream config w p) t' ∧
      StreamStands w (j.settleStream config w p).run.ledger.store (t ++ t') := by
  obtain ⟨htallies, hgone⟩ := tallies_settleStream config w j p
  have hdeposit : p.deposit.toNat = 0 := by rw [hlive.deposit]; exact hzero
  have hinput : p.input.toNat = 0 := by
    by_contra hne
    have hopen := (SwapStream.isDone_eq_false.mp (hlive.begun hne).1).2
    omega
  obtain ⟨-, rfl⟩ := hlive.fresh hinput
  have hrest : p.rest w = [] := by
    rw [SwapStream.rest, if_pos]
    rw [Amount.isZero_iff, SwapStream.remainder, Amount.toNat_sub, hdeposit, Nat.zero_sub]
  refine ⟨_, htallies, .inr ⟨hgone, ?_⟩⟩
  rw [hrest]
  refine ⟨iff_of_false (fun h => hsource ?_) fun h => h hzero, rfl⟩
  rw [← h]
  rfl

/-- **A slice that is filled.** -/
theorem stands_filled {j₁ : Journal Unit} (htx : p.tx = w.tx)
    (hlive : StreamLive w j₁.run.ledger.store t p) (hopen : p.isDone = false)
    (hsize : p.nextSize.1.toNat ≠ 0) (height : Nat) (output : Amount) :
    ∃ t', Tallies w j₁ ((if p.input.isZero then j₁.releaseAffiliate .pools config w
        else j₁).storeProgress config w (BlockRun.recorded p height p.nextSize.1 output)) t' ∧
      StreamStands w ((if p.input.isZero then j₁.releaseAffiliate .pools config w
        else j₁).storeProgress config w
          (BlockRun.recorded p height p.nextSize.1 output)).run.ledger.store
        (t ++ ⟨[p.nextSize.1], [], []⟩ ++ t') := by
  have hle := SwapStream.input_add_nextSize_le hlive.inStep hopen
  obtain ⟨hinput, hstep⟩ := SwapStream.inStep_recorded hlive.inStep hopen height output
  have hsame : (BlockRun.recorded p height p.nextSize.1 output).tx = p.tx ∧
      (BlockRun.recorded p height p.nextSize.1 output).deposit = p.deposit := by
    rw [SwapStream.recorded_eq hopen]
    exact ⟨rfl, rfl⟩
  -- whether the share is released now or was before, it has been released once
  obtain ⟨j₂, tr, hj₂, hquiet, hshares, hparts, hreturns⟩ : ∃ j₂ tr,
      (if p.input.isZero then j₁.releaseAffiliate .pools config w else j₁) = j₂ ∧
        Quiet w j₁ j₂ tr ∧ t.shares ++ tr.shares = w.affiliateShare ∧ tr.parts = [] ∧
          tr.returns = [] := by
    by_cases hz : p.input.isZero
    · obtain ⟨-, rfl⟩ := hlive.fresh (Amount.isZero_iff.mp hz)
      exact ⟨_, _, if_pos hz, quiet_releaseAffiliate config w j₁, rfl, rfl, rfl⟩
    · refine ⟨j₁, .empty, if_neg hz, .refl w j₁, ?_, rfl, rfl⟩
      rw [(hlive.begun fun h => hz (Amount.isZero_iff.mpr h)).2]
      exact List.append_nil _
  rw [hj₂]
  obtain ⟨t', htallies, hstands⟩ := stands_storeProgress config (j := j₂) (w := w)
    (t := t ++ ⟨[p.nextSize.1], [], []⟩ ++ tr)
    (p := BlockRun.recorded p height p.nextSize.1 output) (hsame.1.trans htx)
    (hlive.sameBook hquiet.book).queued (hsame.2.trans hlive.deposit)
    (by rw [hinput]; omega) (by rw [hinput, hsame.2]; exact hle) hstep
    (by simp [hlive.sold, hparts, hinput]) (by simp [hshares]) (by simp [hlive.returns, hreturns])
  refine ⟨tr ++ t', hquiet.tallies.trans htallies, ?_⟩
  rw [← Tally.append_assoc]
  exact hstands

/-- **A slice that fails**: a later attempt may follow, the whole source is handed back, or the
slot is used up. -/
theorem stands_failed {j₁ : Journal Unit} (htx : p.tx = w.tx)
    (hlive : StreamLive w j₁.run.ledger.store t p) (hprimary : w.primaryAmount.toNat ≠ 0)
    (height : Nat) (e : OrderError) :
    ∃ j₂ t', (if p.count = 0 && w.isLimit && e.isTransient then (j₁.retain w, false)
        else if p.input.isZero && p.output.isZero then (j₁.giveBack w e config, false)
        else (storeProgress config w (p.recordFailure height e.message)
          { j₁ with run.report.sliceFailures := j₁.run.report.sliceFailures + 1 }, false)) =
          (j₂, false) ∧
      Tallies w j₁ j₂ t' ∧ StreamStands w j₂.run.ledger.store (t ++ t') := by
  split
  · refine ⟨_, .empty, rfl, tallies_note w j₁ .retain _, .inl ⟨p, ?_⟩⟩
    rw [Tally.append_empty]
    exact hlive
  · split
    · rename_i hz
      rw [Bool.and_eq_true] at hz
      obtain ⟨-, rfl⟩ := hlive.fresh (Amount.isZero_iff.mp hz.1)
      obtain ⟨htallies, hgone⟩ := tallies_giveBack config w j₁ e
      exact ⟨_, _, rfl, htallies, .inr ⟨hgone, Tally.settles_giveBack hprimary⟩⟩
    · rename_i hz
      -- a stream that has sold nothing has collected nothing
      have hpos : p.input.toNat ≠ 0 := by
        intro h
        obtain ⟨hp, -⟩ := hlive.fresh h
        rw [hp] at hz
        exact hz rfl
      obtain ⟨hopen, hshares⟩ := hlive.begun hpos
      obtain ⟨t', htallies, hstands⟩ := stands_storeProgress config (w := w) (t := t)
        (j := { j₁ with run.report.sliceFailures := j₁.run.report.sliceFailures + 1 })
        (p := p.recordFailure height e.message) htx hlive.queued hlive.deposit hpos
        (Nat.le_of_lt (SwapStream.isDone_eq_false.mp hopen).2)
        (fun _ => SwapStream.inStep_recordFailure hlive.inStep height e.message) hlive.sold hshares
        hlive.returns
      exact ⟨_, t', rfl, htallies, hstands⟩

/-- **Running a slice keeps stream and tally in agreement**, or completes the tally. -/
theorem stands_executeSlice (hi : j.run.ledger.store.Indexed)
    (hlive : StreamLive w j.run.ledger.store t p) (hsource : w.source.amount.toNat ≠ 0)
    (height : Nat) :
    ∃ t', Tallies w j (j.executeSlice .pools config height w).1 t' ∧
      StreamStands w (j.executeSlice .pools config height w).1.run.ledger.store (t ++ t') := by
  have hprogress : j.run.ledger.store.progress w = p := by
    rw [Store.progress, hlive.stream, Option.getD_some]
  have htx : p.tx = w.tx := hi.keyed.stream w.tx p hlive.stream
  rw [executeSlice, hprogress]
  by_cases hzero : w.primaryAmount.toNat = 0
  · -- the deposit is empty, so the stream is complete on entry
    have hslice : p.nextSlice = .error .streamCompleted := by
      rw [SwapStream.nextSlice, if_pos]
      rw [Bool.or_eq_true, decide_eq_true_eq, Amount.le_def, hlive.deposit, hzero]
      exact .inr (Nat.zero_le _)
    simp only [hslice]
    exact stands_complete config hlive hsource hzero
  · have hopen := hlive.isOpen hzero
    simp only [SwapStream.nextSlice_eq_ok hopen]
    obtain ⟨j₁, ⟨fill, hcall, hsize, hquiet⟩ | ⟨e, hcall, hquiet⟩⟩ :=
      call_part config (BlockRun.orderOf w p.nextSize.1 p.nextSize.2) w j
    · -- no order for a slice of nothing is filled, so the stream has slots
      have hdone : p.isDone = false := by
        rcases hopen with h | ⟨hq, -⟩
        · exact h
        · refine absurd ?_ hsize
          simp [BlockRun.orderOf, SwapStream.nextSize, hq]
      obtain ⟨t', htallies, hstands⟩ := stands_filled config htx (hlive.sameBook hquiet.book)
        hdone hsize height fill.emit.amount
      rw [hcall]
      refine ⟨_, hquiet.tallies.trans htallies, ?_⟩
      rw [← Tally.append_assoc]
      exact hstands
    · obtain ⟨j₂, t', hj₂, htallies, hstands⟩ := stands_failed config htx
        (hlive.sameBook hquiet.book) hzero height e
      rw [hcall]
      simp only [hj₂]
      refine ⟨_, hquiet.tallies.trans htallies, ?_⟩
      rw [Tally.empty_append]
      exact hstands

end Journal

end PoolExchange
