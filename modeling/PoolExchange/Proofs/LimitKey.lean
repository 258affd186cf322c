import PoolExchange.Proofs.Ratio
import PoolExchange.Proofs.Store.Snapshot

/-!
# LimitKey — which keys read back from their texts

A key is written source, `>`, target, `/`, ratio, `/`.  The ratio is what stands between the last
two slashes and holds none itself, so slashes in the symbols do no harm.  The source ends at the
first `>`, and a symbol may hold that too: **a key reads back exactly when there is no `>` in the
symbol of its source** (`LimitKey.legible_iff`).

Two keys share a text only when the text of one divides the pair at a `>` that stands inside the
source of the other (`LimitKey.text_eq_iff`).
-/

namespace PoolExchange

/-! ### Assets -/

namespace Asset

theorem Legible.text_injective {a b : Asset} (ha : a.Legible) (hb : b.Legible)
    (h : a.text = b.text) : a = b :=
  Except.ok.inj (ha.read?_text.symm.trans (h ▸ hb.read?_text))

/-- Only the symbol may hold a `>`. -/
theorem Legible.mem_text_iff {a : Asset} (h : a.Legible) :
    '>' ∈ a.text.toList ↔ '>' ∈ a.symbol.toList := by
  have hchain : '>' ∉ a.chain.toList := fun hc =>
    absurd ((legible_iff_proper.mp h).alphanum _ hc) (by decide)
  have hseparator : '>' ≠ a.kind.separator := by cases a.kind <;> decide
  rw [toList_text, List.mem_append, List.mem_cons]
  tauto

end Asset

/-! ### Keys -/

theorem Pair.toList_text (p : Pair) :
    p.text.toList = p.source.text.toList ++ '>' :: p.target.text.toList := by
  rw [text, String.toList_append, String.toList_append, List.append_assoc]
  rfl

namespace LimitKey

/-- The last slash is found. -/
theorem splitLast?_append {before after : List Char} (h : '/' ∉ after) :
    splitLast? (before ++ '/' :: after) = some (before, after) := by
  have hslash : ∀ c ∈ after.reverse, decide (c ≠ '/') = true := fun c hc =>
    decide_eq_true fun hc' => h (hc' ▸ List.mem_reverse.mp hc)
  have hreverse : (before ++ '/' :: after).reverse = after.reverse ++ '/' :: before.reverse := by
    simp
  rw [splitLast?, hreverse, List.dropWhile_append_of_pos hslash,
    List.takeWhile_append_of_pos hslash, List.dropWhile_cons_of_neg (by decide),
    List.takeWhile_cons_of_neg (by decide), List.append_nil]
  simp only [List.reverse_reverse]

/-- The first `>` is found. -/
theorem splitPair?_append {before after : List Char} (h : '>' ∉ before) :
    splitPair? (before ++ '>' :: after) = some (before, after) := by
  have hmark : ∀ c ∈ before, decide (c ≠ '>') = true := fun c hc =>
    decide_eq_true fun hc' => h (hc' ▸ hc)
  rw [splitPair?, List.dropWhile_append_of_pos hmark, List.takeWhile_append_of_pos hmark,
    List.dropWhile_cons_of_neg (by decide), List.takeWhile_cons_of_neg (by decide),
    List.append_nil]

theorem toList_text (k : LimitKey) :
    k.text.toList = (k.pair.text.toList ++ '/' :: k.ratio.text.toList) ++ ['/'] := by
  simp [text, String.toList_append]

/-- The ratio is told from the pair, and the pair divided at the first `>`. -/
theorem segments?_text {k : LimitKey} {source target : List Char}
    (hpair : k.pair.text.toList = source ++ '>' :: target) (h : '>' ∉ source) :
    segments? k.text = some (String.ofList source, String.ofList target, k.ratio.text) := by
  rw [segments?, toList_text, List.dropLast_concat, List.getLast?_concat, if_neg (by simp),
    splitLast?_append k.ratio.slash_notMem_text, hpair]
  simp [splitPair?_append h]

/-- The assets of the key were read, and its ratio fits the width. -/
structure Proper (k : LimitKey) : Prop where
  source : k.pair.source.Legible
  target : k.pair.target.Legible
  ratio : k.ratio.value ≤ Ratio.maxValue

variable {k k' : LimitKey}

theorem readAsset_eq_ok {s : String} {a : Asset} : readAsset s = .ok a ↔ Asset.read? s = .ok a := by
  rw [readAsset]
  cases Asset.read? s <;> simp

/-- **A key reads back exactly when there is no `>` in the symbol of its source.** -/
theorem legible_iff (hk : k.Proper) : k.Legible ↔ '>' ∉ k.pair.source.symbol.toList := by
  rw [← hk.source.mem_text_iff, Legible]
  constructor
  · intro h hmem
    -- the first `>` cuts the source short
    obtain ⟨start, rest, hsource, hstart⟩ := List.eq_append_cons_of_mem hmem
    have hpair : k.pair.text.toList = start ++ '>' :: (rest ++ '>' :: k.pair.target.text.toList) := by
      rw [Pair.toList_text, hsource, List.append_assoc, List.cons_append]
    simp only [read?, segments?_text hpair hstart, bind_eq_ok, pure_eq_ok, readAsset_eq_ok] at h
    obtain ⟨source, hread, target, -, ratio, -, rfl⟩ := h
    have hlength := congrArg (fun s => s.toList.length) (Asset.text_of_read? hread)
    simp only [hsource, Text.toList_upper, String.toList_ofList, List.length_map,
      List.length_append, List.length_cons] at hlength
    omega
  · intro hmem
    simp only [read?, segments?_text k.pair.toList_text hmem, String.ofList_toList, bind_eq_ok,
      pure_eq_ok, readAsset_eq_ok]
    exact ⟨_, hk.source.read?_text, _, hk.target.read?_text, _, Ratio.read?_text hk.ratio, rfl⟩

/-! ### Keys that share a text -/

/-- The text of `k` divides the pair at a `>` that stands inside the source of `k'`. -/
def Overlaps (k k' : LimitKey) : Prop :=
  k.ratio = k'.ratio ∧ ∃ m, k'.pair.source.text = k.pair.source.text ++ ">" ++ m ∧
    k.pair.target.text = m ++ ">" ++ k'.pair.target.text

theorem Overlaps.text_eq (h : Overlaps k k') : k.text = k'.text := by
  obtain ⟨hratio, m, hsource, htarget⟩ := h
  rw [text, text, Pair.text, Pair.text, hratio, hsource, htarget]
  simp only [String.append_assoc]

/-- What follows the shorter of two sources begins with the `>` that ends it. -/
theorem overlaps_of_append {m : List Char} (hratio : k.ratio = k'.ratio) (hm : m ≠ [])
    (hsource : k'.pair.source.text.toList = k.pair.source.text.toList ++ m)
    (htarget : '>' :: k.pair.target.text.toList = m ++ '>' :: k'.pair.target.text.toList) :
    Overlaps k k' := by
  cases m with
  | nil => exact absurd rfl hm
  | cons c m =>
      obtain ⟨rfl, htarget⟩ := List.cons.inj htarget
      refine ⟨hratio, String.ofList m, ?_, ?_⟩ <;> refine String.toList_injective ?_
      · simpa using hsource
      · simpa using htarget

/-- **Two keys share a text exactly when they overlap.** -/
theorem text_eq_iff (hk : k.Proper) (hk' : k'.Proper) :
    k.text = k'.text ↔ k = k' ∨ Overlaps k k' ∨ Overlaps k' k := by
  constructor
  · intro h
    have hbody : k.pair.text.toList ++ '/' :: k.ratio.text.toList =
        k'.pair.text.toList ++ '/' :: k'.ratio.text.toList := by
      have hlist := congrArg String.toList h
      rw [toList_text, toList_text] at hlist
      exact List.append_cancel_right hlist
    have hsplit := congrArg splitLast? hbody
    rw [splitLast?_append k.ratio.slash_notMem_text, splitLast?_append k'.ratio.slash_notMem_text]
      at hsplit
    obtain ⟨hpair, hratio⟩ := Prod.mk.inj (Option.some.inj hsplit)
    have hratio : k.ratio = k'.ratio := by
      have hread := Ratio.read?_text hk'.ratio
      rw [← String.toList_injective hratio, Ratio.read?_text hk.ratio] at hread
      exact Except.ok.inj hread
    rw [Pair.toList_text, Pair.toList_text, List.append_eq_append_iff] at hpair
    have hsame (hs : k.pair.source.text.toList = k'.pair.source.text.toList)
        (ht : '>' :: k.pair.target.text.toList = '>' :: k'.pair.target.text.toList) : k = k' :=
      LimitKey.ext (Pair.ext (hk.source.text_injective hk'.source (String.toList_injective hs))
        (hk.target.text_injective hk'.target (String.toList_injective (List.cons.inj ht).2))) hratio
    rcases hpair with ⟨m, hsource, htarget⟩ | ⟨m, hsource, htarget⟩
    all_goals by_cases hm : m = []
    · subst hm
      exact .inl (hsame (by simpa using hsource.symm) htarget)
    · exact .inr (.inl (overlaps_of_append hratio hm hsource htarget))
    · subst hm
      exact .inl (hsame (by simpa using hsource) htarget.symm)
    · exact .inr (.inr (overlaps_of_append hratio.symm hm hsource htarget))
  · rintro (rfl | h | h)
    · rfl
    · exact h.text_eq
    · exact h.text_eq.symm

/-- **A key reads back exactly when there is no `>` in the symbol of its source**, and has its text
to itself unless it overlaps with another. -/
theorem reads_back_iff (hk : k.Proper) :
    (read? k.text = .ok k ↔ '>' ∉ k.pair.source.symbol.toList) ∧
      ∀ k', k'.Proper → (k.text = k'.text ↔ k = k' ∨ Overlaps k k' ∨ Overlaps k' k) :=
  ⟨legible_iff hk, fun _ hk' => text_eq_iff hk hk'⟩

/-- Bitcoin for a token with a `>` in its symbol. -/
def tokenBid : LimitKey :=
  ⟨⟨⟨"BTC", "BTC", .layer1⟩, ⟨"ETH", "ETH>THOR.RUNE", .layer1⟩⟩, ⟨150000000⟩⟩

/-- Such a token for native. -/
def tokenSale : LimitKey := ⟨⟨⟨"BTC", "BTC>ETH.ETH", .layer1⟩, .native⟩, ⟨150000000⟩⟩

theorem tokenBid_proper : tokenBid.Proper :=
  ⟨⟨"BTC.BTC", by decide +kernel⟩, ⟨"ETH.ETH>THOR.RUNE", by decide +kernel⟩, by decide⟩

theorem tokenSale_proper : tokenSale.Proper :=
  ⟨⟨"BTC.BTC>ETH.ETH", by decide +kernel⟩, ⟨"THOR.RUNE", by decide +kernel⟩, by decide⟩

theorem reads_back_iff_tokenBid :
    tokenBid.Proper ∧ tokenSale.Proper ∧ read? tokenBid.text = .ok tokenBid ∧
      Overlaps tokenBid tokenSale ∧ tokenBid.text = tokenSale.text := by
  obtain ⟨hread, hshared⟩ := reads_back_iff tokenBid_proper
  have hoverlaps : Overlaps tokenBid tokenSale := ⟨rfl, "ETH.ETH", by decide, by decide⟩
  exact ⟨tokenBid_proper, tokenSale_proper, hread.mpr (by decide), hoverlaps,
    (hshared _ tokenSale_proper).mpr (.inr (.inl hoverlaps))⟩

/-- The sale is read as the bid. -/
theorem tokenSale_misread :
    Asset.read? "BTC.BTC>ETH.ETH" = .ok tokenSale.pair.source ∧
      Asset.read? "THOR.RUNE" = .ok tokenSale.pair.target ∧
      tokenSale.ratio.value ≤ Ratio.maxValue ∧
      read? tokenSale.text = .ok tokenBid ∧ tokenBid ≠ tokenSale ∧
      tokenBid.text = tokenSale.text := by
  decide +kernel

end LimitKey

end PoolExchange
