import PoolExchange.Identity
import PoolExchange.Proofs.Spelling

/-!
# Names — what is written in upper case reads back

The readers of assets and transactions put letters in upper case, so the text of an asset or a
transaction need not be the text that it was read from; but **what was read once reads back from its
own text** (`Asset.Legible.read?_text`, `TxId.Legible.read?_text`), because upper case is kept and
the characters that a reader accepts stay what they are.  A transaction made of its bytes could have
been read (`TxId.legible_ofBytes`).
-/

namespace PoolExchange

/-! ### Assets -/

namespace Asset

/-- A chain of letters and digits and a symbol, both in upper case. -/
structure Proper (a : Asset) : Prop where
  chain_ne : a.chain.toList ≠ []
  symbol_ne : a.symbol.toList ≠ []
  alphanum : ∀ c ∈ a.chain.toList, c.isAlphanum = true
  upper_chain : Text.upper a.chain = a.chain
  upper_symbol : Text.upper a.symbol = a.symbol

theorem proper_of_read? {s : String} {a : Asset} (h : read? s = .ok a) : a.Proper := by
  obtain ⟨w, -, rfl⟩ := read?_eq_ok.mp h
  have hchain : w.asset.chain.toList = w.chain.map Char.toUpper := by
    rw [Spelling.asset, ofNames, Text.toList_upper, String.toList_ofList]
  have hsymbol : w.asset.symbol.toList = w.symbol.map Char.toUpper := by
    rw [Spelling.asset, ofNames, Text.toList_upper, String.toList_ofList]
  refine ⟨?_, ?_, fun c hc => ?_, Text.upper_upper _, Text.upper_upper _⟩
  · rw [hchain, ne_eq, List.map_eq_nil_iff]
    exact w.chain_ne
  · rw [hsymbol, ne_eq, List.map_eq_nil_iff]
    exact w.symbol_ne
  · rw [hchain, List.mem_map] at hc
    obtain ⟨c, hc, rfl⟩ := hc
    rw [Text.isAlphanum_toUpper]
    exact w.isAlphanum c hc

/-- **A proper asset reads back from its text**, which spells it. -/
theorem Proper.read?_text {a : Asset} (h : a.Proper) : read? a.text = .ok a := by
  refine read?_eq_ok.mpr ⟨⟨_, a.kind, _, h.chain_ne, h.alphanum, h.symbol_ne⟩, ?_, ?_⟩
  · exact String.toList_injective (String.toList_ofList.trans a.toList_text.symm)
  · rw [Spelling.asset, ofNames, String.ofList_toList, String.ofList_toList, h.upper_chain,
      h.upper_symbol]

/-- The asset was read from a text. -/
def Legible (a : Asset) : Prop := ∃ s, read? s = .ok a

theorem legible_iff_proper {a : Asset} : a.Legible ↔ a.Proper :=
  ⟨fun ⟨_, hs⟩ => proper_of_read? hs, fun h => ⟨_, h.read?_text⟩⟩

/-- **An asset that was read reads back from its own text.** -/
theorem Legible.read?_text {a : Asset} (h : a.Legible) : read? a.text = .ok a :=
  (legible_iff_proper.mp h).read?_text

/-- The layer-1 form of an asset that was read could have been read too. -/
theorem Legible.layer1 {a : Asset} (h : a.Legible) : a.layer1.Legible := by
  obtain ⟨hchain, hsymbol, halphanum, hupper, hupper'⟩ := legible_iff_proper.mp h
  exact legible_iff_proper.mpr ⟨hchain, hsymbol, halphanum, hupper, hupper'⟩

end Asset

/-! ### Transactions -/

namespace TxId

/-- The transaction was read from a text. -/
def Legible (t : TxId) : Prop := ∃ s, read? s = .ok t

theorem isHexDigit_iff {c : Char} : isHexDigit c = true ↔
    48 ≤ c.toNat ∧ c.toNat ≤ 57 ∨ 97 ≤ c.toNat ∧ c.toNat ≤ 102 ∨
      65 ≤ c.toNat ∧ c.toNat ≤ 70 := by
  simp only [isHexDigit, Bool.or_eq_true, Bool.and_eq_true, decide_eq_true_eq, Text.isDigit_iff,
    Char.le_def, UInt32.le_iff_toNat_le, or_assoc]
  rfl

theorem isHexDigit_toUpper {c : Char} (h : isHexDigit c = true) : isHexDigit c.toUpper = true := by
  by_cases hc : c.isLower = true
  · have hrange := Text.isLower_iff.mp hc
    have hvalid : (c.toNat - 32).isValidChar := by
      left
      omega
    rw [isHexDigit_iff] at h ⊢
    rw [Char.toUpper_eq_of_isLower hc, Char.toNat_ofNat, if_pos hvalid]
    omega
  · rwa [Char.toUpper_eq_of_not_isLower hc]

/-- **A transaction that was read reads back from its own text.** -/
theorem Legible.read?_text {t : TxId} (h : t.Legible) : read? t.text = .ok t := by
  obtain ⟨s, hs⟩ := h
  simp only [read?] at hs
  split at hs
  · rename_i hhex
    rw [Bool.and_eq_true, decide_eq_true_eq, List.all_eq_true] at hhex
    obtain ⟨hlength, hhex⟩ := hhex
    obtain rfl := Except.ok.inj hs
    have hok : (decide ((Text.upper s).toList.length = length) &&
        (Text.upper s).toList.all isHexDigit) = true := by
      rw [Text.toList_upper, List.length_map, hlength, List.all_map, Bool.and_eq_true,
        List.all_eq_true]
      exact ⟨decide_eq_true rfl, fun c hc => isHexDigit_toUpper (hhex c hc)⟩
    simp only [read?, if_pos hok, Text.upper_upper]
  · cases hs

/-- A transaction that was made of its 32 bytes could have been read too. -/
theorem legible_ofBytes {bytes : List UInt8} (h : bytes.length = 32) :
    (ofBytes bytes).Legible := by
  have hhex : ∀ n < 16, isHexDigit n.digitChar.toUpper = true := by decide
  have hdigit : ∀ c ∈ (ofBytes bytes).text.toList, ∃ n < 16, c = n.digitChar.toUpper := by
    intro c hc
    rw [ofBytes, String.toList_ofList, List.mem_flatMap] at hc
    obtain ⟨b, -, hc⟩ := hc
    have hb : b.toNat < 256 := b.toNat_lt
    rcases List.mem_pair.mp hc with hc | hc
    · exact ⟨b.toNat / 16, by omega, hc⟩
    · exact ⟨b.toNat % 16, by omega, hc⟩
  have hlength : (ofBytes bytes).text.toList.length = length := by
    rw [ofBytes, String.toList_ofList, List.length_flatMap]
    simp [h, length]
  have hupper : Text.upper (ofBytes bytes).text = (ofBytes bytes).text := by
    rw [Text.upper, List.map_congr_left (g := id), List.map_id, String.ofList_toList]
    intro c hc
    obtain ⟨n, -, rfl⟩ := hdigit c hc
    exact Char.toUpper_toUpper_eq_toUpper _
  refine ⟨(ofBytes bytes).text, ?_⟩
  rw [read?, if_pos, hupper]
  rw [Bool.and_eq_true, decide_eq_true_eq, List.all_eq_true]
  refine ⟨hlength, fun c hc => ?_⟩
  obtain ⟨n, hn, rfl⟩ := hdigit c hc
  exact hhex n hn

end TxId

end PoolExchange
