import Mathlib
import PoolExchange.Asset
import PoolExchange.Proofs.Results

/-!
# Spelling — which texts are read, and as what

An amount is spelled with digits, after a plus sign or not, and with blanks around
(`Amount.Spelling`); its value is the positional one.  **A text is read as an amount exactly when it
has a spelling of that value, and refused as a whole otherwise; an amount reads back from its own
text** (`Amount.reads_exactly`).

An asset is spelled with a chain of letters and digits, a separator and a symbol
(`Asset.Spelling`).  The separator is the first character that is neither a letter nor a digit, so a
text has one spelling at most, whatever the symbol holds.  Upper case keeps letters and digits what
they are and moves no separator, so a text is spelled exactly when its upper case is
(`Asset.Spelling.exists_of_upper`), and **two texts are read as one asset exactly when they are the
same in upper case, which is how the asset is written** (`Asset.reads_same_iff`).
-/

namespace PoolExchange

namespace Text

/-! ### Characters -/

theorem isDigit_iff {c : Char} : c.isDigit = true ↔ 48 ≤ c.toNat ∧ c.toNat ≤ 57 := by
  simp only [Char.isDigit, Bool.and_eq_true, decide_eq_true_eq, ge_iff_le, UInt32.le_iff_toNat_le]
  rfl

theorem isUpper_iff {c : Char} : c.isUpper = true ↔ 65 ≤ c.toNat ∧ c.toNat ≤ 90 := by
  simp only [Char.isUpper, decide_eq_true_eq, ge_iff_le, UInt32.le_iff_toNat_le]
  rfl

theorem isLower_iff {c : Char} : c.isLower = true ↔ 97 ≤ c.toNat ∧ c.toNat ≤ 122 := by
  simp only [Char.isLower, Bool.and_eq_true, decide_eq_true_eq, ge_iff_le, UInt32.le_iff_toNat_le]
  rfl

theorem isBlank_of_isDigit {c : Char} (h : c.isDigit = true) : isBlank c = false := by
  have hrange : 48 ≤ c.toNat ∧ c.toNat ≤ 57 := isDigit_iff.mp h
  simp only [isBlank, blankRanges, List.any_cons, List.any_nil, Bool.or_false, Bool.or_eq_false_iff,
    Bool.and_eq_false_iff, decide_eq_false_iff_not]
  omega

/-- Upper case neither makes nor spoils a digit. -/
theorem isDigit_toUpper (c : Char) : c.toUpper.isDigit = c.isDigit := by
  by_cases hc : c.isLower = true
  · have hupper : c.toUpper.isUpper = true := by
      rw [Char.isUpper_toUpper_eq_isAlpha, Char.isAlpha, hc, Bool.or_true]
    have hrange := isUpper_iff.mp hupper
    have hlower := isLower_iff.mp hc
    rw [Bool.eq_iff_iff, isDigit_iff, isDigit_iff]
    omega
  · rw [Char.toUpper_eq_of_not_isLower hc]

theorem isAlphanum_toUpper (c : Char) : c.toUpper.isAlphanum = c.isAlphanum := by
  rw [Char.isAlphanum, Char.isAlphanum, Char.isAlpha_toUpper_eq_isAlpha, isDigit_toUpper]

/-- What is neither a letter nor a digit stays as it is. -/
theorem toUpper_of_not_isAlphanum {c : Char} (h : c.isAlphanum = false) : c.toUpper = c := by
  refine Char.toUpper_eq_of_not_isLower fun hlower => ?_
  rw [Char.isAlphanum, Char.isAlpha, hlower, Bool.or_true, Bool.true_or] at h
  cases h

theorem toList_upper (s : String) : (upper s).toList = s.toList.map Char.toUpper := by
  rw [upper, String.toList_ofList]

theorem upper_upper (s : String) : upper (upper s) = upper s := by
  rw [upper, toList_upper, List.map_map, upper]
  exact congrArg String.ofList (List.map_congr_left fun c _ => Char.toUpper_toUpper_eq_toUpper c)

/-! ### Blanks -/

/-- What is dropped at the ends of a text is blank. -/
theorem exists_blanks (cs : List Char) : ∃ before after, (∀ c ∈ before, isBlank c = true) ∧
    (∀ c ∈ after, isBlank c = true) ∧ cs = before ++ trim cs ++ after := by
  let rest := cs.dropWhile isBlank
  refine ⟨cs.takeWhile isBlank, (rest.reverse.takeWhile isBlank).reverse,
    fun c hc => List.mem_takeWhile_imp hc,
    fun c hc => List.mem_takeWhile_imp (List.mem_reverse.mp hc), ?_⟩
  have hend : trim cs ++ (rest.reverse.takeWhile isBlank).reverse = rest := by
    rw [trim, trimEnd, ← List.reverse_append, List.takeWhile_append_dropWhile, List.reverse_reverse]
  rw [List.append_assoc, hend, List.takeWhile_append_dropWhile]

/-- Blanks are dropped at both ends, up to what is not blank. -/
theorem trim_append {before core after : List Char} (hbefore : ∀ c ∈ before, isBlank c = true)
    (hne : core ≠ []) (hcore : ∀ c ∈ core, isBlank c = false)
    (hafter : ∀ c ∈ after, isBlank c = true) : trim (before ++ core ++ after) = core := by
  have hstart : (before ++ core ++ after).dropWhile isBlank = core ++ after := by
    rw [List.append_assoc, List.dropWhile_append_of_pos hbefore]
    cases core with
    | nil => exact absurd rfl hne
    | cons c rest => exact List.dropWhile_cons_of_neg (by simp [hcore c List.mem_cons_self])
  have hend : core.reverse.dropWhile isBlank = core.reverse := by
    cases hr : core.reverse with
    | nil => rfl
    | cons c rest =>
        have hc : c ∈ core := List.mem_reverse.mp (hr ▸ List.mem_cons_self)
        exact List.dropWhile_cons_of_neg (by simp [hcore c hc])
  rw [trim, trimEnd, hstart, List.reverse_append,
    List.dropWhile_append_of_pos fun c hc => hafter c (List.mem_reverse.mp hc), hend,
    List.reverse_reverse]

/-! ### Numerals -/

/-- The value of a run of digits, each counting ten times the one after it. -/
def positional (digits : List Char) : Nat :=
  Nat.ofDigits 10 (digits.reverse.map fun c => c.toNat - '0'.toNat)

theorem ofDigitChars_eq_positional (digits : List Char) :
    Nat.ofDigitChars 10 digits 0 = positional digits := by
  induction digits using List.reverseRecOn with
  | nil => rfl
  | append_singleton digits c ih =>
      rw [Nat.ofDigitChars_append, ih, Nat.ofDigitChars_cons, Nat.ofDigitChars_nil, positional,
        positional, List.reverse_concat, List.map_cons, Nat.ofDigits_cons, Nat.add_comm]

theorem numeral?_eq_some {cs : List Char} {n : Nat} : numeral? cs = some n ↔
    cs ≠ [] ∧ (∀ c ∈ cs, c.isDigit = true) ∧ positional cs = n := by
  rw [numeral?, ofDigitChars_eq_positional]
  split
  all_goals
    rename_i h
    rw [Bool.and_eq_true, Bool.not_eq_true', List.isEmpty_eq_false_iff, allDigits,
      List.all_eq_true] at h
  · rw [Option.some.injEq]
    exact ⟨fun hvalue => ⟨h.1, h.2, hvalue⟩, fun hnum => hnum.2.2⟩
  · exact iff_of_false (Option.some_ne_none n).symm fun hnum => h ⟨hnum.1, hnum.2.1⟩

end Text

/-! ### Amounts -/

namespace Amount

theorem ofNat?_eq_some {n : Nat} {a : Amount} : ofNat? n = some a ↔ n = a.toNat := by
  rw [ofNat?]
  split
  · rw [Option.some.injEq, Amount.ext_iff]
  · rename_i h
    simp only [reduceCtorEq, false_iff]
    exact fun heq => h (heq ▸ a.toNat_lt)

/-- What is dropped in front of a number is a plus sign or nothing. -/
theorem exists_sign (cs : List Char) :
    ∃ plus : Bool, cs = if plus then '+' :: unsigned cs else unsigned cs := by
  unfold unsigned
  split
  · exact ⟨true, rfl⟩
  · exact ⟨false, rfl⟩

/-- How a number can be written where an amount is read. -/
structure Spelling where
  before : List Char
  plus : Bool
  digits : List Char
  after : List Char
  isBlank_before : ∀ c ∈ before, Text.isBlank c = true
  digits_ne : digits ≠ []
  isDigit : ∀ c ∈ digits, c.isDigit = true
  isBlank_after : ∀ c ∈ after, Text.isBlank c = true

namespace Spelling

/-- The digits with their sign. -/
def signed (w : Spelling) : List Char :=
  if w.plus then '+' :: w.digits else w.digits

def text (w : Spelling) : String :=
  String.ofList (w.before ++ w.signed ++ w.after)

def value (w : Spelling) : Nat := Text.positional w.digits

theorem unsigned_signed (w : Spelling) : unsigned w.signed = w.digits := by
  rw [signed]
  split
  · rfl
  · unfold unsigned
    split
    · rename_i hplus
      exact absurd (w.isDigit '+' (hplus ▸ List.mem_cons_self)) (by decide)
    · rfl

theorem trim_text (w : Spelling) : Text.trim w.text.toList = w.signed := by
  have hdigit : ∀ c ∈ w.digits, Text.isBlank c = false := fun c hc =>
    Text.isBlank_of_isDigit (w.isDigit c hc)
  rw [text, String.toList_ofList]
  refine Text.trim_append w.isBlank_before ?_ ?_ w.isBlank_after <;> rw [signed] <;> split
  · exact List.cons_ne_nil _ _
  · exact w.digits_ne
  · rw [List.forall_mem_cons]
    exact ⟨by decide, hdigit⟩
  · exact hdigit

/-- What is spelled is read, if its value is an amount. -/
theorem read?_text {w : Spelling} {a : Amount} (h : w.value = a.toNat) :
    read? w.text = .ok a := by
  have hnumeral : Text.numeral? w.digits = some w.value :=
    Text.numeral?_eq_some.mpr ⟨w.digits_ne, w.isDigit, rfl⟩
  simp only [read?, trim_text, unsigned_signed, hnumeral, Option.bind_some, ofNat?_eq_some.mpr h]

end Spelling

variable {s : String} {a : Amount}

theorem read?_eq_ok : read? s = .ok a ↔ ∃ w : Spelling, w.text = s ∧ w.value = a.toNat := by
  constructor
  · intro h
    rw [read?] at h
    split at h
    · rename_i b hread
      obtain rfl := Except.ok.inj h
      obtain ⟨n, hnumeral, hfits⟩ := Option.bind_eq_some_iff.mp hread
      obtain ⟨hne, hdigit, hvalue⟩ := Text.numeral?_eq_some.mp hnumeral
      obtain ⟨before, after, hbefore, hafter, hs⟩ := Text.exists_blanks s.toList
      obtain ⟨plus, hplus⟩ := exists_sign (Text.trim s.toList)
      refine ⟨⟨before, plus, _, after, hbefore, hne, hdigit, hafter⟩, ?_, ?_⟩
      · rw [Spelling.text, Spelling.signed, ← hplus, ← hs, String.ofList_toList]
      · exact hvalue.trans (ofNat?_eq_some.mp hfits)
    · cases h
  · rintro ⟨w, rfl, hw⟩
    exact Spelling.read?_text hw

/-- A refusal holds the text as it was given. -/
theorem eq_invalidNumber {e : AmountError} (h : read? s = .error e) : e = .invalidNumber s := by
  rw [read?] at h
  split at h
  · cases h
  · exact (Except.error.inj h).symm

theorem read?_eq_error {e : AmountError} : read? s = .error e ↔
    e = .invalidNumber s ∧ ∀ w : Spelling, w.text = s → bound ≤ w.value := by
  constructor
  · intro h
    refine ⟨eq_invalidNumber h, fun w hw => Nat.not_lt.mp fun hlt => ?_⟩
    have hok : read? s = .ok ⟨w.value, hlt⟩ := read?_eq_ok.mpr ⟨w, hw, rfl⟩
    rw [hok] at h
    cases h
  · rintro ⟨rfl, hlarge⟩
    cases h : read? s with
    | ok a =>
        obtain ⟨w, hw, hvalue⟩ := read?_eq_ok.mp h
        exact absurd (hlarge w hw) (Nat.not_le.mpr (hvalue ▸ a.toNat_lt))
    | error e => rw [eq_invalidNumber h]

/-- An amount is written with digits alone. -/
def spelling (a : Amount) : Spelling where
  before := []
  plus := false
  digits := Nat.toDigits 10 a.toNat
  after := []
  isBlank_before := List.forall_mem_nil _
  digits_ne := Nat.toDigits_ne_nil
  isDigit _ := Nat.isDigit_of_mem_toDigits (by decide) (by decide)
  isBlank_after := List.forall_mem_nil _

theorem text_spelling (a : Amount) : a.spelling.text = a.text := by
  refine String.toList_injective ?_
  rw [Spelling.text, String.toList_ofList, text, Nat.toString_eq_repr, Nat.toList_repr]
  exact List.append_nil _

theorem value_spelling (a : Amount) : a.spelling.value = a.toNat :=
  (Text.numeral?_eq_some.mp (Text.numeral?_toDigits a.toNat)).2.2

theorem read?_text (a : Amount) : read? a.text = .ok a :=
  read?_eq_ok.mpr ⟨a.spelling, a.text_spelling, a.value_spelling⟩

/-- **Amounts are read exactly as they are spelled.**  An amount reads back from its text.  A text
is read as an amount when it has a spelling of that value; otherwise it is refused, and the refusal
holds the text with its blanks. -/
theorem reads_exactly : (∀ a : Amount, read? a.text = .ok a) ∧
    ∀ s, (∀ a, read? s = .ok a ↔ ∃ w : Spelling, w.text = s ∧ w.value = a.toNat) ∧
      ∀ e, read? s = .error e ↔
        e = .invalidNumber s ∧ ∀ w : Spelling, w.text = s → bound ≤ w.value :=
  ⟨read?_text, fun _ => ⟨fun _ => read?_eq_ok, fun _ => read?_eq_error⟩⟩

/-- An ideographic space, a plus sign, zeros in front and a line end. -/
example : read? "\u3000+007\n" = .ok 7 := by decide +kernel

end Amount

/-! ### Assets -/

namespace AssetKind

theorem isAlphanum_separator (k : AssetKind) : k.separator.isAlphanum = false := by
  cases k <;> rfl

theorem toUpper_separator (k : AssetKind) : k.separator.toUpper = k.separator := by
  cases k <;> rfl

/-- Every kind has one of the four separators, and each of them a kind. -/
theorem exists_separator_iff {c : Char} :
    (∃ k : AssetKind, k.separator = c) ↔ c ∈ ['.', '/', '~', '-'] := by
  constructor
  · rintro ⟨k, rfl⟩
    cases k <;> decide
  · intro h
    simp only [List.mem_cons, List.not_mem_nil, or_false] at h
    obtain rfl | rfl | rfl | rfl := h
    exacts [⟨.layer1, rfl⟩, ⟨.synthetic, rfl⟩, ⟨.trade, rfl⟩, ⟨.secured, rfl⟩]

end AssetKind

namespace Asset

/-- How an asset can be written where one is read: its separator tells the kind. -/
structure Spelling where
  chain : List Char
  kind : AssetKind
  symbol : List Char
  chain_ne : chain ≠ []
  isAlphanum : ∀ c ∈ chain, c.isAlphanum = true
  symbol_ne : symbol ≠ []

theorem toList_text (a : Asset) :
    a.text.toList = a.chain.toList ++ a.kind.separator :: a.symbol.toList := by
  rw [text, String.toList_append, String.toList_append, String.toList_ofList, List.append_assoc]
  rfl

namespace Spelling

def text (w : Spelling) : String :=
  String.ofList (w.chain ++ w.kind.separator :: w.symbol)

def asset (w : Spelling) : Asset :=
  ofNames (String.ofList w.chain) (String.ofList w.symbol) w.kind

/-- The chain ends where the separator stands. -/
theorem read?_text (w : Spelling) : read? w.text = .ok w.asset := by
  have hsep := w.kind.isAlphanum_separator
  have hchain : w.text.toList.takeWhile Char.isAlphanum = w.chain := by
    rw [text, String.toList_ofList, List.takeWhile_append_of_pos w.isAlphanum,
      List.takeWhile_cons_of_neg (by simp [hsep]), List.append_nil]
  have hrest : w.text.toList.dropWhile Char.isAlphanum = w.kind.separator :: w.symbol := by
    rw [text, String.toList_ofList, List.dropWhile_append_of_pos w.isAlphanum,
      List.dropWhile_cons_of_neg (by simp [hsep])]
  have hnonempty : ¬ (w.chain.isEmpty || w.symbol.isEmpty) = true := by
    simp [List.isEmpty_iff, w.chain_ne, w.symbol_ne]
  simp only [read?, hchain, hrest, AssetKind.ofSeparator?_eq_some.mpr rfl, if_neg hnonempty, asset]

/-- An asset is written as it was spelled, in upper case. -/
theorem text_asset (w : Spelling) : w.asset.text = Text.upper w.text := by
  refine String.toList_injective ?_
  rw [toList_text, asset, ofNames, Text.toList_upper, Text.toList_upper, Text.toList_upper, text,
    String.toList_ofList, String.toList_ofList, String.toList_ofList, List.map_append,
    List.map_cons, AssetKind.toUpper_separator]

/-- Upper case moves no separator and makes none. -/
theorem eq_separator_of_toUpper {c : Char} {k : AssetKind} (h : c.toUpper = k.separator) :
    c = k.separator := by
  rw [← h]
  refine (Text.toUpper_of_not_isAlphanum ?_).symm
  rw [← Text.isAlphanum_toUpper, h, k.isAlphanum_separator]

/-- A text that is the same in upper case spells the same asset. -/
theorem exists_of_upper {t : String} (w : Spelling) (h : Text.upper w.text = Text.upper t) :
    ∃ v : Spelling, v.text = t ∧ v.asset = w.asset := by
  have hmap : t.toList.map Char.toUpper = w.chain.map Char.toUpper ++
      (w.kind.separator :: w.symbol).map Char.toUpper := by
    rw [← Text.toList_upper, ← h, Text.toList_upper, text, String.toList_ofList, List.map_append]
  obtain ⟨chain, rest, ht, hchain, hrest⟩ := List.map_eq_append_iff.mp hmap
  rw [List.map_cons, AssetKind.toUpper_separator] at hrest
  obtain ⟨sep, symbol, rfl, hsep, hsymbol⟩ := List.map_eq_cons_iff.mp hrest
  obtain rfl := eq_separator_of_toUpper hsep
  have halphanum : ∀ c ∈ chain, c.isAlphanum = true := by
    intro c hc
    obtain ⟨d, hd, heq⟩ := List.mem_map.mp (hchain ▸ List.mem_map_of_mem hc)
    rw [← Text.isAlphanum_toUpper, ← heq, Text.isAlphanum_toUpper]
    exact w.isAlphanum d hd
  refine ⟨⟨chain, w.kind, symbol, ?_, halphanum, ?_⟩, ?_, ?_⟩
  · rintro rfl
    exact w.chain_ne (List.map_eq_nil_iff.mp hchain.symm)
  · rintro rfl
    exact w.symbol_ne (List.map_eq_nil_iff.mp hsymbol.symm)
  · exact String.toList_injective (String.toList_ofList.trans ht.symm)
  · rw [asset, asset, ofNames, ofNames, Text.upper, Text.upper, Text.upper, Text.upper]
    simp only [String.toList_ofList, hchain, hsymbol]

end Spelling

variable {s t : String} {a : Asset}

theorem read?_eq_ok : read? s = .ok a ↔ ∃ w : Spelling, w.text = s ∧ w.asset = a := by
  constructor
  · intro h
    simp only [read?] at h
    split at h
    · cases h
    · rename_i sep symbol hrest
      split at h
      · cases h
      · rename_i kind hkind
        rw [guard_eq_ok, Bool.or_eq_true, not_or, List.isEmpty_iff, List.isEmpty_iff] at h
        obtain ⟨⟨hchain, hsymbol⟩, h⟩ := h
        refine ⟨⟨_, kind, symbol, hchain, fun c hc => List.mem_takeWhile_imp hc, hsymbol⟩, ?_,
          Except.ok.inj h⟩
        rw [Spelling.text, ← AssetKind.ofSeparator?_eq_some.mp hkind, ← hrest,
          List.takeWhile_append_dropWhile, String.ofList_toList]
  · rintro ⟨w, rfl, rfl⟩
    exact w.read?_text

/-- A refusal holds the text as it was given. -/
theorem eq_invalidAsset {e : InputError} (h : read? s = .error e) : e = .invalidAsset s := by
  simp only [read?] at h
  split at h
  · exact (Except.error.inj h).symm
  · split at h
    · exact (Except.error.inj h).symm
    · split at h
      · exact (Except.error.inj h).symm
      · cases h

/-- An asset is written as it was read, in upper case. -/
theorem text_of_read? (h : read? s = .ok a) : a.text = Text.upper s := by
  obtain ⟨w, rfl, rfl⟩ := read?_eq_ok.mp h
  exact w.text_asset

/-- What one text is read as, every text is that is the same in upper case. -/
theorem read?_of_upper (h : read? s = .ok a) (hupper : Text.upper s = Text.upper t) :
    read? t = .ok a := by
  obtain ⟨w, rfl, rfl⟩ := read?_eq_ok.mp h
  exact read?_eq_ok.mpr (w.exists_of_upper hupper)

/-- A run of letters and digits, a separator and something after it. -/
def Spelled (s : String) : Prop :=
  ∃ chain sep symbol, s.toList = chain ++ sep :: symbol ∧ chain ≠ [] ∧
    (∀ c ∈ chain, c.isAlphanum = true) ∧ sep ∈ ['.', '/', '~', '-'] ∧ symbol ≠ []

theorem exists_read?_iff : (∃ a, read? s = .ok a) ↔ Spelled s := by
  constructor
  · rintro ⟨a, ha⟩
    obtain ⟨w, rfl, -⟩ := read?_eq_ok.mp ha
    exact ⟨w.chain, w.kind.separator, w.symbol, String.toList_ofList, w.chain_ne, w.isAlphanum,
      AssetKind.exists_separator_iff.mp ⟨_, rfl⟩, w.symbol_ne⟩
  · rintro ⟨chain, sep, symbol, hs, hchain, halphanum, hsep, hsymbol⟩
    obtain ⟨kind, rfl⟩ := AssetKind.exists_separator_iff.mpr hsep
    refine ⟨_, read?_eq_ok.mpr ⟨⟨chain, kind, symbol, hchain, halphanum, hsymbol⟩, ?_, rfl⟩⟩
    exact String.toList_injective (String.toList_ofList.trans hs.symm)

/-- **Texts are read as one asset exactly when they are the same in upper case.**  A text is read as
an asset when it is a run of letters and digits, a separator and something after it, and refused
otherwise.  The asset is written as the text in upper case, and reads back from that. -/
theorem reads_same_iff :
    (∀ s, (∃ a, read? s = .ok a) ↔ Spelled s) ∧
      (∀ s e, read? s = .error e ↔ e = .invalidAsset s ∧ ¬ Spelled s) ∧
      (∀ s a, read? s = .ok a → a.text = Text.upper s ∧ read? a.text = .ok a) ∧
      ∀ s t a, read? s = .ok a → (read? t = .ok a ↔ Text.upper s = Text.upper t) := by
  refine ⟨fun s => exists_read?_iff, fun s e => ⟨fun h => ⟨eq_invalidAsset h, fun hs => ?_⟩, ?_⟩,
    fun s a h => ⟨text_of_read? h, ?_⟩, fun s t a h => ⟨fun ht => ?_, read?_of_upper h⟩⟩
  · obtain ⟨a, ha⟩ := exists_read?_iff.mpr hs
    rw [h] at ha
    cases ha
  · rintro ⟨rfl, hs⟩
    cases h : read? s with
    | ok a => exact absurd (exists_read?_iff.mp ⟨a, h⟩) hs
    | error e => rw [eq_invalidAsset h]
  · rw [text_of_read? h]
    exact read?_of_upper h (Text.upper_upper s).symm
  · rw [← text_of_read? h, text_of_read? ht]

/-- A token in two cases: its symbol holds another separator, and a letter that has no case here. -/
theorem reads_same_iff_token :
    read? "eth.Usdc-0xa0é" = .ok ⟨"ETH", "USDC-0XA0é", .layer1⟩ ∧
      read? "ETH.USDC-0xA0é" = .ok ⟨"ETH", "USDC-0XA0é", .layer1⟩ := by
  have hread : read? "eth.Usdc-0xa0é" = .ok ⟨"ETH", "USDC-0XA0é", .layer1⟩ := by decide +kernel
  obtain ⟨-, -, -, hsame⟩ := reads_same_iff
  exact ⟨hread, (hsame _ _ _ hread).mpr (by decide +kernel)⟩

end Asset

end PoolExchange
