/-!
# Text — decimal numerals

`numeral? cs` is the number that a non-empty run of ASCII digits denotes; leading zeros are
allowed.  `padded width n` writes `n` with at least `width` digits.  Reading what was written
gives the number back (`numeral?_toDigits`, `numeral?_padded`).
-/

namespace PoolExchange.Text

def allDigits (cs : List Char) : Bool :=
  cs.all Char.isDigit

/-- The value of a non-empty run of ASCII digits. -/
def numeral? (cs : List Char) : Option Nat :=
  if !cs.isEmpty && allDigits cs then some (Nat.ofDigitChars 10 cs 0) else none

/-- `n` in decimal, with zeros in front up to `width` digits. -/
def padded (width n : Nat) : List Char :=
  let digits := Nat.toDigits 10 n
  List.replicate (width - digits.length) '0' ++ digits

theorem numeral?_toDigits (n : Nat) : numeral? (Nat.toDigits 10 n) = some n := by
  have hd : allDigits (Nat.toDigits 10 n) = true := by
    simp only [allDigits, List.all_eq_true]
    exact fun c hc => Nat.isDigit_of_mem_toDigits (by decide) (by decide) hc
  simp [numeral?, hd, Nat.toDigits_ne_nil, Nat.ofDigitChars_toDigits]

theorem numeral?_padded (width n : Nat) : numeral? (padded width n) = some n := by
  have hd : allDigits (padded width n) = true := by
    simp only [allDigits, padded, List.all_append, Bool.and_eq_true, List.all_eq_true]
    exact ⟨fun c hc => by rw [List.eq_of_mem_replicate hc]; decide,
      fun c hc => Nat.isDigit_of_mem_toDigits (by decide) (by decide) hc⟩
  have hne : padded width n ≠ [] := by simp [padded, Nat.toDigits_ne_nil]
  simp [numeral?, hd, hne]
  simp [padded, Nat.ofDigitChars_append, Nat.ofDigitChars_toDigits]

/-- The text with its ASCII letters in upper case; other characters stay. -/
def upper (s : String) : String :=
  String.ofList (s.toList.map Char.toUpper)

/-- The lower case of a character, where that is an ASCII letter; the Kelvin sign has one too. -/
def lowerChar (c : Char) : Char :=
  if c = '\u212a' then 'k' else c.toLower

/-- The text with every character whose lower case is an ASCII letter in lower case; the others
stay. -/
def lower (s : String) : String :=
  String.ofList (s.toList.map lowerChar)

end PoolExchange.Text
