import PoolExchange.LimitKey
import PoolExchange.Proofs.Spelling

/-!
# Ratio — the order of ratios and the order of their texts

A ratio is the scaled input over the output, rounded down and cut to the largest that can be written
(`Ratio.value_of`).  The scaled input may stop at the largest amount; scaling, division and cut all
keep the order, so more input for less output is never a lower ratio (`Ratio.of_mono`).

Two runs of digits that are equally long are decided at the first place where they differ, as bytes
and as numbers (`Text.compare_bytes_of_isDigit`).  A ratio is written with a digit for every place,
zeros in front, and nothing else is read as one (`Ratio.read?_eq_ok`); so whatever made the ratio, it
has its full width in the text of its key.  **The texts of the keys of a pair are equally long and
compare byte by byte as their ratios do** (`LimitKey.texts_in_order`).
-/

namespace PoolExchange

/-! ### Places -/

theorem mul_add_lt {b m n x : Nat} (hx : x < b) (h : m < n) (y : Nat) :
    m * b + x < n * b + y :=
  calc m * b + x < (m + 1) * b := by rw [Nat.succ_mul]; exact Nat.add_lt_add_left hx _
    _ ≤ n * b := Nat.mul_le_mul_right b h
    _ ≤ n * b + y := Nat.le_add_right _ _

/-- The first place decides, and where that is the same the rest does. -/
theorem compare_mul_add {b x y : Nat} (hx : x < b) (hy : y < b) (m n : Nat) :
    compare (m * b + x) (n * b + y) = (compare m n).then (compare x y) := by
  rcases Nat.lt_trichotomy m n with h | rfl | h
  · rw [Nat.compare_eq_lt.mpr h, Nat.compare_eq_lt.mpr (mul_add_lt hx h y), Ordering.lt_then]
  · rw [Std.compare_self, Ordering.eq_then]
    simp only [Nat.compare_eq_ite_lt, Nat.add_lt_add_iff_left]
  · rw [Nat.compare_eq_gt.mpr h, Nat.compare_eq_gt.mpr (mul_add_lt hy h x), Ordering.gt_then]

namespace Text

/-! ### Bytes -/

/-- The bytes of a text in UTF-8. -/
def bytes (s : String) : List UInt8 := s.toUTF8.data.toList

theorem bytes_append (s t : String) : bytes (s ++ t) = bytes s ++ bytes t := by
  simp [bytes]

theorem bytes_injective {s t : String} (h : bytes s = bytes t) : s = t :=
  String.toByteArray_inj.mp (ByteArray.ext (Array.toList_inj.mp h))

/-- Equally long beginnings are compared first. -/
theorem compare_append {xs ys : List UInt8} (hlength : xs.length = ys.length)
    (xs' ys' : List UInt8) :
    compare (xs ++ xs') (ys ++ ys') = (compare xs ys).then (compare xs' ys') := by
  induction xs generalizing ys with
  | nil =>
      obtain rfl := List.length_eq_zero_iff.mp hlength.symm
      rfl
  | cons x xs ih =>
      obtain ⟨y, ys, rfl⟩ := List.exists_cons_of_length_eq_add_one hlength.symm
      rw [List.cons_append, List.cons_append, List.compare_cons_cons, List.compare_cons_cons,
        ih (Nat.succ.inj hlength), Ordering.then_assoc]

/-! ### Digits -/

/-- A digit is one byte. -/
theorem bytes_of_isDigit {digits : List Char} (h : ∀ c ∈ digits, c.isDigit = true) :
    bytes (String.ofList digits) = digits.map Char.toUInt8 := by
  have hchar : ∀ c ∈ digits, String.utf8EncodeChar c = [c.toUInt8] := by
    intro c hc
    refine String.utf8EncodeChar_eq_singleton (Char.utf8Size_eq_one_iff.mpr ?_)
    have hrange : c.val.toNat ≤ 57 := (isDigit_iff.mp (h c hc)).2
    rw [UInt32.le_iff_toNat_le]
    exact hrange.trans (by decide)
  rw [bytes, String.toUTF8_eq_toByteArray, String.toByteArray_ofList, List.utf8Encode,
    List.data_toByteArray, List.flatMap_congr hchar, ← List.map_eq_flatMap]

/-- Digits are in the order of their values. -/
theorem compare_toUInt8_of_isDigit {c c' : Char} (h : c.isDigit = true) (h' : c'.isDigit = true) :
    compare c.toUInt8 c'.toUInt8 = compare (c.toNat - '0'.toNat) (c'.toNat - '0'.toNat) := by
  have hbyte {c : Char} (h : c.isDigit = true) :
      48 ≤ c.toNat ∧ c.toUInt8.toNat = c.toNat := by
    have hrange := isDigit_iff.mp h
    exact ⟨hrange.1, Nat.mod_eq_of_lt (hrange.2.trans_lt (by decide))⟩
  obtain ⟨hzero, hc⟩ := hbyte h
  obtain ⟨hzero', hc'⟩ := hbyte h'
  have hvalue : '0'.toNat = 48 := rfl
  rw [UInt8.compare_eq_toNat_compare_toNat, hc, hc', hvalue, Nat.compare_eq_ite_lt,
    Nat.compare_eq_ite_lt]
  simp only [Nat.sub_lt_sub_iff_right, hzero, hzero']

theorem positional_cons (c : Char) (digits : List Char) :
    positional (c :: digits) = (c.toNat - '0'.toNat) * 10 ^ digits.length + positional digits := by
  rw [positional, List.reverse_cons, List.map_append, Nat.ofDigits_append, positional,
    List.length_map, List.length_reverse, List.map_singleton, Nat.ofDigits_singleton]
  ring

theorem positional_lt {digits : List Char} (h : ∀ c ∈ digits, c.isDigit = true) :
    positional digits < 10 ^ digits.length := by
  have hlt := Nat.ofDigits_lt_base_pow_length (b := 10) (by decide)
    (l := digits.reverse.map fun c => c.toNat - '0'.toNat) fun d hd => by
      obtain ⟨c, hc, rfl⟩ := List.mem_map.mp hd
      have hrange := isDigit_iff.mp (h c (List.mem_reverse.mp hc))
      show c.toNat - 48 < 10
      omega
  rwa [List.length_map, List.length_reverse] at hlt

/-- **Equally long runs of digits compare byte by byte as their values do.** -/
theorem compare_bytes_of_isDigit {digits digits' : List Char}
    (h : ∀ c ∈ digits, c.isDigit = true) (h' : ∀ c ∈ digits', c.isDigit = true)
    (hlength : digits.length = digits'.length) :
    compare (bytes (String.ofList digits)) (bytes (String.ofList digits')) =
      compare (positional digits) (positional digits') := by
  rw [bytes_of_isDigit h, bytes_of_isDigit h']
  induction digits generalizing digits' with
  | nil =>
      obtain rfl := List.length_eq_zero_iff.mp hlength.symm
      rfl
  | cons c digits ih =>
      obtain ⟨c', digits', rfl⟩ := List.exists_cons_of_length_eq_add_one hlength.symm
      rw [List.forall_mem_cons] at h h'
      have hlength := Nat.succ.inj hlength
      -- what follows the first place is below one unit of that place, in either run
      rw [List.map_cons, List.map_cons, List.compare_cons_cons, ih h.2 h'.2 hlength,
        compare_toUInt8_of_isDigit h.1 h'.1, positional_cons, positional_cons, hlength,
        compare_mul_add (hlength ▸ positional_lt h.2) (positional_lt h'.2)]

/-- Equally long runs of digits with one value are the same. -/
theorem eq_of_positional_eq {digits digits' : List Char}
    (h : ∀ c ∈ digits, c.isDigit = true) (h' : ∀ c ∈ digits', c.isDigit = true)
    (hlength : digits.length = digits'.length) (hvalue : positional digits = positional digits') :
    digits = digits' := by
  have hcompare := compare_bytes_of_isDigit h h' hlength
  rw [hvalue, Std.compare_self] at hcompare
  exact String.ofList_injective (bytes_injective (Std.LawfulEqOrd.eq_of_compare hcompare))

/-! ### Padded numerals -/

theorem isDigit_of_mem_padded {width n : Nat} {c : Char} (h : c ∈ padded width n) :
    c.isDigit = true :=
  (numeral?_eq_some.mp (numeral?_padded width n)).2.1 c h

theorem positional_padded (width n : Nat) : positional (padded width n) = n :=
  (numeral?_eq_some.mp (numeral?_padded width n)).2.2

/-- What fits the width is written with as many digits. -/
theorem length_padded {width n : Nat} (hwidth : 0 < width) (h : n < 10 ^ width) :
    (padded width n).length = width := by
  have hle : (Nat.toDigits 10 n).length ≤ width :=
    (Nat.length_toDigits_le_iff (by decide) hwidth).mpr h
  simp only [padded, List.length_append, List.length_replicate]
  omega

end Text

namespace Ratio

/-! ### Ratios as numbers -/

theorem value_of (input output : Amount) :
    (of input output).value =
      min ((input * .clamp wholeCoin).toNat / output.toNat) maxValue := by
  rw [of]
  split
  · rename_i h
    rw [Amount.isZero_iff.mp h, Nat.div_zero]
    rfl
  · rw [← Amount.toNat_div]

/-- A scaled input that fits is exact. -/
theorem value_of_fits {input output : Amount}
    (h : input.toNat * wholeCoin < Amount.bound) :
    (of input output).value = min (input.toNat * wholeCoin / output.toNat) maxValue := by
  have hwhole : (Amount.clamp wholeCoin).toNat = wholeCoin := by decide
  rw [value_of, Amount.toNat_mul_of_lt (by rwa [hwhole]), hwhole]

/-- More input for less output is a higher ratio, while there is output. -/
theorem of_mono {input input' output output' : Amount} (hinput : input ≤ input')
    (houtput : output' ≤ output) (hpos : output'.toNat ≠ 0) :
    (of input output).value ≤ (of input' output').value := by
  rw [value_of, value_of]
  refine min_le_min_right _ (Nat.div_le_div ?_ houtput hpos)
  rw [Amount.toNat_mul, Amount.toNat_mul]
  exact min_le_min_right _ (Nat.mul_le_mul_right _ hinput)

theorem of_eq_zero {input output : Amount} (h : output.toNat = 0) : of input output = zero := by
  rw [of, if_pos (Amount.isZero_iff.mpr h)]

theorem le_or_zero_of {input input' output output' : Amount} (hinput : input ≤ input')
    (houtput : output' ≤ output) :
    (of input output).value ≤ (of input' output').value ∨ of input' output' = zero := by
  by_cases hzero : output'.toNat = 0
  · exact .inr (of_eq_zero hzero)
  · exact .inl (of_mono hinput houtput hzero)

/-! ### Ratios as texts -/

variable {r r' : Ratio} {s : String}

theorem toList_text (r : Ratio) : r.text.toList = Text.padded width r.value := by
  rw [text, String.toList_ofList]

theorem isDigit_of_mem_text (r : Ratio) : ∀ c ∈ r.text.toList, c.isDigit = true := fun c hc => by
  rw [toList_text] at hc
  exact Text.isDigit_of_mem_padded hc

theorem positional_text (r : Ratio) : Text.positional r.text.toList = r.value := by
  rw [toList_text, Text.positional_padded]

/-- The numbers that fit the width are those up to the largest ratio. -/
theorem le_maxValue_iff {n : Nat} : n ≤ maxValue ↔ n < 10 ^ width := by
  have hwidth : 10 ^ width = maxValue + 1 := by decide
  rw [hwidth, Nat.lt_succ_iff]

/-- A ratio that is not too large has a digit for every place and no more. -/
theorem length_text (h : r.value ≤ maxValue) : r.text.toList.length = width := by
  rw [toList_text]
  exact Text.length_padded (by decide) (le_maxValue_iff.mp h)

theorem read?_text (h : r.value ≤ maxValue) : read? r.text = .ok r := by
  rw [read?, if_pos (length_text h), toList_text, Text.numeral?_padded]

/-- **A text is read as a ratio exactly when it is the text of that ratio.** -/
theorem read?_eq_ok : read? s = .ok r ↔ s = r.text ∧ r.value ≤ maxValue := by
  refine ⟨fun h => ?_, fun ⟨hs, hr⟩ => hs ▸ read?_text hr⟩
  simp only [read?] at h
  split at h
  · rename_i hlength
    split at h
    · rename_i n hread
      obtain rfl := Except.ok.inj h
      obtain ⟨-, hdigit, rfl⟩ := Text.numeral?_eq_some.mp hread
      have hfits : Text.positional s.toList ≤ maxValue :=
        le_maxValue_iff.mpr (hlength ▸ Text.positional_lt hdigit)
      exact ⟨String.toList_injective (Text.eq_of_positional_eq hdigit (isDigit_of_mem_text _)
        (hlength.trans (length_text hfits).symm) (positional_text _).symm), hfits⟩
    · cases h
  · cases h

theorem slash_notMem_text (r : Ratio) : '/' ∉ r.text.toList := fun h =>
  absurd (r.isDigit_of_mem_text _ h) (by decide)

/-- The ratio is that of two amounts, or was read from a text. -/
inductive Made : Ratio → Prop
  | of (input output : Amount) : Made (Ratio.of input output)
  | read {s : String} {r : Ratio} (h : read? s = .ok r) : Made r

/-- Ratios that were made are those that can be written. -/
theorem made_iff : r.Made ↔ r.value ≤ maxValue := by
  constructor
  · rintro (⟨input, output⟩ | h)
    · exact value_of_le input output
    · exact (read?_eq_ok.mp h).2
  · exact fun h => .read (read?_text h)

theorem length_bytes_text (h : r.value ≤ maxValue) : (Text.bytes r.text).length = width := by
  rw [← String.ofList_toList (s := r.text), Text.bytes_of_isDigit r.isDigit_of_mem_text,
    List.length_map, length_text h]

/-- The texts of two ratios compare byte by byte as the ratios do. -/
theorem compare_bytes_text (h : r.value ≤ maxValue) (h' : r'.value ≤ maxValue) :
    compare (Text.bytes r.text) (Text.bytes r'.text) = compare r r' := by
  have hcompare := Text.compare_bytes_of_isDigit r.isDigit_of_mem_text r'.isDigit_of_mem_text
    ((length_text h).trans (length_text h').symm)
  rwa [String.ofList_toList, String.ofList_toList, positional_text, positional_text] at hcompare

end Ratio

namespace LimitKey

/-! ### Keys of one pair -/

theorem bytes_text (k : LimitKey) : Text.bytes k.text =
    Text.bytes (k.pair.text ++ "/") ++ (Text.bytes k.ratio.text ++ Text.bytes "/") := by
  rw [text, Text.bytes_append, Text.bytes_append, List.append_assoc]

/-- **The texts of the keys of a pair are equally long and compare byte by byte as their ratios do**,
whether these are the ratios of two amounts or were read.  A ratio reads back from its text, and more
input for less output, while there is some, is never a lower ratio. -/
theorem texts_in_order :
    (∀ (pair : Pair) (r r' : Ratio), r.Made → r'.Made →
        (Text.bytes (text ⟨pair, r⟩)).length = (Text.bytes (text ⟨pair, r'⟩)).length ∧
        compare (Text.bytes (text ⟨pair, r⟩)) (Text.bytes (text ⟨pair, r'⟩)) = compare r r') ∧
      (∀ r : Ratio, r.Made → Ratio.read? r.text = .ok r) ∧
      ∀ input input' output output' : Amount, input ≤ input' → output' ≤ output → output' ≠ 0 →
        (Ratio.of input output).value ≤ (Ratio.of input' output').value := by
  refine ⟨fun pair r r' hr hr' => ?_, fun r hr => Ratio.read?_text (Ratio.made_iff.mp hr),
    fun input input' output output' hinput houtput hpos => ?_⟩
  · have hfits := Ratio.made_iff.mp hr
    have hfits' := Ratio.made_iff.mp hr'
    have hlength : (Text.bytes r.text).length = (Text.bytes r'.text).length :=
      (Ratio.length_bytes_text hfits).trans (Ratio.length_bytes_text hfits').symm
    rw [bytes_text, bytes_text]
    constructor
    · rw [List.length_append, List.length_append, List.length_append, List.length_append, hlength]
    · rw [Text.compare_append rfl, Std.compare_self, Ordering.eq_then, Text.compare_append hlength,
        Std.compare_self, Ordering.then_eq, Ratio.compare_bytes_text hfits hfits']
  · exact Ratio.of_mono hinput houtput fun hzero => hpos (Amount.eq_zero_iff.mpr hzero)

/-- The largest ratio, which stands for every larger one, and the one below it; and two inputs that
scale to the largest amount. -/
theorem texts_in_order_largest :
    let pair : Pair := ⟨.native, ⟨"ETH", "USDC-é", .layer1⟩⟩
    let below : Ratio := ⟨999999999999999998⟩
    let input : Amount := .clamp (2 ^ 255)
    let output : Amount := .clamp (2 ^ 200)
    (Ratio.of .largest 1).Made ∧ Ratio.read? "999999999999999998" = .ok below ∧
      (Text.bytes (text ⟨pair, .of .largest 1⟩)).length =
        (Text.bytes (text ⟨pair, below⟩)).length ∧
      compare (Text.bytes (text ⟨pair, .of .largest 1⟩)) (Text.bytes (text ⟨pair, below⟩)) = .gt ∧
      Ratio.read? (Ratio.of .largest 1).text = .ok (Ratio.of .largest 1) ∧
      Amount.bound ≤ input.toNat * wholeCoin ∧ input < .largest ∧ output ≠ 0 ∧
      (Ratio.of input output).value = 72057594037927935 ∧
      (Ratio.of input output).value ≤ (Ratio.of .largest output).value := by
  intro pair below input output
  have hread : Ratio.read? "999999999999999998" = .ok below := by decide +kernel
  have hinput : input < .largest := by decide +kernel
  have houtput : output ≠ 0 := by decide +kernel
  obtain ⟨htexts, hback, hmono⟩ := texts_in_order
  obtain ⟨hlength, horder⟩ := htexts pair _ below (.of .largest 1) (.read hread)
  exact ⟨.of _ _, hread, hlength, horder.trans (by decide +kernel), hback _ (.of _ _),
    by decide +kernel, hinput, houtput, by decide +kernel,
    hmono _ _ _ _ (Nat.le_of_lt hinput) (Nat.le_refl _) houtput⟩

end LimitKey

end PoolExchange
