import Mathlib.Tactic
import PoolExchange.Json.Reader

/-!
# Json — what is printed reads back

A string is printed escape by escape, and every escape reads as one unit that stands for the
character (`units?_escapeChar`).  An integer is printed without leading zeros and ends where
nothing follows that could go on with it (`Ends`); of what the printer puts after a value, a comma
or a bracket, nothing can.  The reader needs no more fuel than the text has characters (`Reads`).

So **the compact text of a value without reals reads back** (`Plain.read?_compact`).
-/

namespace PoolExchange.Json

/-! ### Strings -/

section Strings

variable {rest : List Char}

theorem units?_escape {e c : Char} (h : escape? e = some c) (he : e ≠ 'u') :
    units? ('\\' :: e :: rest) = (units? rest).bind fun r => some (.char c :: r.1, r.2) := by
  rw [units?]
  · simp only [h]
    rfl
  · rintro a b c d r rfl
    exact fun _ => he rfl

theorem units?_code {a b c d : Char} {n : Nat} (h : hexNumber? [a, b, c, d] = some n) :
    units? ('\\' :: 'u' :: a :: b :: c :: d :: rest) =
      (units? rest).bind fun r => some (.code n :: r.1, r.2) := by
  rw [units?, h]
  rfl

theorem units?_plain {c : Char} (hquote : c ≠ '"') (hslash : c ≠ '\\') (hcontrol : ¬ c.toNat < 32) :
    units? (c :: rest) = (units? rest).bind fun r => some (.char c :: r.1, r.2) := by
  rw [units?, if_neg hcontrol]
  · rfl
  · exact hquote
  · rintro a b c' d r rfl
    exact fun _ => hslash rfl
  · rintro a b rfl
    exact fun _ => hslash rfl

/-- A code below the surrogates is the character with that number. -/
theorem join?_code {n : Nat} (h : n < 0xD800) (us : List StringUnit) :
    join? (.code n :: us) = (Char.ofNat n :: ·) <$> join? us := by
  have hhigh : isHigh n = false := by
    rw [isHigh, Bool.and_eq_false_iff]
    exact .inl (decide_eq_false (by omega))
  have hlow : isLow n = false := by
    rw [isLow, Bool.and_eq_false_iff]
    exact .inl (decide_eq_false (by omega))
  cases us with
  | nil => simp only [join?, hhigh, hlow, Bool.or_self, Bool.false_eq_true, if_false]
  | cons u us =>
    cases u with
    | char c =>
      simp only [join?, hhigh, hlow, Bool.or_self, Bool.false_eq_true, if_false]
    | code m =>
      simp only [join?, hhigh, hlow, Bool.false_and, Bool.or_self, Bool.false_eq_true, if_false]

theorem hexNumber?_control : ∀ n < 32,
    hexNumber? ['0', '0', (n / 16).digitChar, (n % 16).digitChar] = some n := by
  decide

/-- The characters of one escape read as one unit, which stands for the character. -/
theorem units?_escapeChar (c : Char) :
    ∃ u, (∀ rest, units? (escapeChar c ++ rest) =
        (units? rest).bind fun r => some (u :: r.1, r.2)) ∧
      ∀ us, join? (u :: us) = (c :: ·) <$> join? us := by
  have hshort : ∀ {e : Char}, escape? e = some c → e ≠ 'u' → escapeChar c = ['\\', e] →
      ∃ u, (∀ rest, units? (escapeChar c ++ rest) =
          (units? rest).bind fun r => some (u :: r.1, r.2)) ∧
        ∀ us, join? (u :: us) = (c :: ·) <$> join? us := fun h he hc =>
    ⟨.char c, fun rest => by rw [hc]; exact units?_escape h he, fun us => by rw [join?]⟩
  have hof : ∀ n, c.toNat = n → Char.ofNat n = c := by
    rintro n rfl
    exact Char.ofNat_toNat c
  by_cases hquote : c = '"'
  · subst hquote; exact hshort (e := '"') rfl (by decide) rfl
  by_cases hslash : c = '\\'
  · subst hslash; exact hshort (e := '\\') rfl (by decide) rfl
  by_cases hn : c = '\n'
  · subst hn; exact hshort (e := 'n') rfl (by decide) rfl
  by_cases hr : c = '\r'
  · subst hr; exact hshort (e := 'r') rfl (by decide) rfl
  by_cases ht : c = '\t'
  · subst ht; exact hshort (e := 't') rfl (by decide) rfl
  by_cases hb : c.toNat = 8
  · obtain rfl := hof 8 hb; exact hshort (e := 'b') rfl (by decide) rfl
  by_cases hf : c.toNat = 12
  · obtain rfl := hof 12 hf; exact hshort (e := 'f') rfl (by decide) rfl
  simp only [escapeChar, if_neg hquote, if_neg hslash, if_neg hn, if_neg hr, if_neg ht, if_neg hb,
    if_neg hf]
  by_cases hcontrol : c.toNat < 32
  · refine ⟨.code c.toNat, fun rest => ?_, fun us => ?_⟩
    · rw [if_pos hcontrol]
      exact units?_code (hexNumber?_control _ hcontrol)
    · rw [join?_code (by omega), Char.ofNat_toNat]
  · refine ⟨.char c, fun rest => ?_, fun us => by rw [join?]⟩
    rw [if_neg hcontrol]
    exact units?_plain hquote hslash hcontrol

/-- **A quoted text reads back.** -/
theorem units?_quoted (cs : List Char) (rest : List Char) :
    ∃ us, units? (cs.flatMap escapeChar ++ '"' :: rest) = some (us, rest) ∧ join? us = some cs := by
  induction cs with
  | nil => exact ⟨[], by rw [List.flatMap_nil, List.nil_append, units?], rfl⟩
  | cons c cs ih =>
    obtain ⟨us, hread, hjoin⟩ := ih
    obtain ⟨u, hunit, hchar⟩ := units?_escapeChar c
    refine ⟨u :: us, ?_, ?_⟩
    · rw [List.flatMap_cons, List.append_assoc, hunit, hread, Option.bind_some]
    · rw [hchar, hjoin]
      rfl

end Strings

/-! ### Numbers -/

/-- What may follow a number: nothing that would go on with it. -/
def Ends (rest : List Char) : Prop :=
  ∀ c ∈ rest.head?, c.isDigit = false ∧ c ≠ '.' ∧ c ≠ 'e' ∧ c ≠ 'E'

theorem head?_toDigits {n : Nat} (h : 0 < n) : (Nat.toDigits 10 n).head? ≠ some '0' := by
  induction n using Nat.strongRecOn with
  | ind n ih =>
    by_cases hn : n < 10
    · rw [Nat.toDigits_of_lt_base hn, List.head?_cons, ne_eq, Option.some.injEq,
        Nat.digitChar_eq_zero]
      omega
    · have hrest := ih (n / 10) (by omega) (by omega)
      rw [Nat.toDigits_of_base_le (by decide) (by omega), List.head?_append]
      cases hd : Nat.toDigits 10 (n / 10) with
      | nil => exact absurd hd Nat.toDigits_ne_nil
      | cons d ds => rwa [hd] at hrest

theorem isDigit_toDigits {n : Nat} {c : Char} (h : c ∈ Nat.toDigits 10 n) : c.isDigit = true :=
  Nat.isDigit_of_mem_toDigits (by decide) (by decide) h

section Numbers

variable {rest : List Char} (hrest : Ends rest)

include hrest

theorem digits?_append {ds : List Char} (hd : ∀ c ∈ ds, c.isDigit = true) (hne : ds ≠ []) :
    digits? (ds ++ rest) = some (ds, rest) := by
  have htake : rest.takeWhile Char.isDigit = [] := by
    cases rest with
    | nil => rfl
    | cons c cs => exact List.takeWhile_cons_of_neg (by simp [(hrest c rfl).1])
  have hdrop : rest.dropWhile Char.isDigit = rest := by
    cases rest with
    | nil => rfl
    | cons c cs => exact List.dropWhile_cons_of_neg (by simp [(hrest c rfl).1])
  simp only [digits?, List.takeWhile_append_of_pos hd, List.dropWhile_append_of_pos hd, htake,
    hdrop, List.append_nil, List.isEmpty_iff, if_neg hne]

/-- No leading zero is written, so the whole run is read. -/
theorem whole?_toDigits (n : Nat) :
    whole? (Nat.toDigits 10 n ++ rest) = some (Nat.toDigits 10 n, rest) := by
  rcases Nat.eq_zero_or_pos n with rfl | hn
  · rw [Nat.toDigits_zero]
    rfl
  · rw [whole?]
    · exact digits?_append hrest (fun c => isDigit_toDigits) Nat.toDigits_ne_nil
    · intro tail htail
      refine head?_toDigits hn ?_
      cases hd : Nat.toDigits 10 n with
      | nil => exact absurd hd Nat.toDigits_ne_nil
      | cons d ds =>
        rw [hd, List.cons_append, List.cons.injEq] at htail
        rw [List.head?_cons, htail.1]

theorem fraction?_of_ends : fraction? rest = some ([], rest) := by
  cases rest with
  | nil => rfl
  | cons c cs =>
    rw [fraction?]
    rintro tail h
    exact (hrest c rfl).2.1 (List.cons.inj h).1

theorem exponent?_of_ends : exponent? rest = some ([], rest) := by
  cases rest with
  | nil => rfl
  | cons c cs =>
    obtain ⟨-, -, he, hE⟩ := hrest c rfl
    simp only [exponent?, he, hE, Bool.or_self, decide_false, Bool.false_eq_true, if_false]

/-- **An integer of 64 bits reads back.** -/
theorem readNumber_integer {n : Int} (hlow : -(wordBound 63 : Int) ≤ n) (hhigh : n < wordBound 64) :
    readNumber (integer n ++ rest) = some (.number n, rest) := by
  cases n with
  | ofNat n =>
    have hword : wordInteger? false n = some (Int.ofNat n) := by
      rw [wordInteger?, if_neg Bool.false_ne_true, if_pos (by simpa using hhigh)]
      rfl
    have hsign : ((Nat.toDigits 10 n ++ rest).head? == some '-') = false := by
      cases hd : Nat.toDigits 10 n with
      | nil => exact absurd hd Nat.toDigits_ne_nil
      | cons d ds =>
        have hdigit : d.isDigit = true := isDigit_toDigits (hd ▸ List.mem_cons_self)
        refine beq_eq_false_iff_ne.mpr fun e => ?_
        rw [List.cons_append, List.head?_cons, Option.some.injEq] at e
        rw [e] at hdigit
        exact absurd hdigit (by decide)
    simp only [readNumber, integer, hsign, Bool.false_eq_true, if_false, whole?_toDigits hrest,
      fraction?_of_ends hrest, exponent?_of_ends hrest, Option.bind_eq_bind, Option.bind_some,
      List.isEmpty_nil, Bool.and_self, if_true, Nat.ofDigitChars_ten_toDigits, hword]
    rfl
  | negSucc n =>
    have hword : wordInteger? true (n + 1) = some (Int.negSucc n) := by
      have hle : n + 1 ≤ wordBound 63 := by omega
      rw [wordInteger?, if_pos rfl, if_pos (by simpa using hle)]
      rfl
    simp only [readNumber, integer, List.cons_append, List.head?_cons, beq_self_eq_true, if_true,
      List.drop_succ_cons, List.drop_zero, whole?_toDigits hrest,
      fraction?_of_ends hrest, exponent?_of_ends hrest, Option.bind_eq_bind, Option.bind_some,
      List.isEmpty_nil, Bool.and_self, Nat.ofDigitChars_ten_toDigits, hword]
    rfl

end Numbers

/-! ### Values -/

/-- Texts, integers of 64 bits and what is made of them. -/
inductive Plain : Json → Prop
  | null : Plain null
  | bool (b : Bool) : Plain (bool b)
  | number {n : Int} (hlow : -(wordBound 63 : Int) ≤ n) (hhigh : n < wordBound 64) :
      Plain (number n)
  | text (s : String) : Plain (text s)
  | array {items : List Json} (h : ∀ j ∈ items, Plain j) : Plain (array items)
  | object {members : List (String × Json)} (h : ∀ m ∈ members, Plain m.2) :
      Plain (object members)

/-- The value is read from its text, with fuel for every character. -/
def Reads (j : Json) : Prop :=
  ∀ fuel rest, j.print.length ≤ fuel → Ends rest → readValue fuel (j.print ++ rest) = some (j, rest)

theorem ends_cons {c : Char} {rest : List Char}
    (hc : (!c.isDigit && c != '.' && c != 'e' && c != 'E') = true) : Ends (c :: rest) := by
  intro d hd
  obtain rfl := Option.some.inj hd
  simpa [and_assoc] using hc

theorem skip_cons {c : Char} {cs : List Char} (hc : isSpace c = false) : skip (c :: cs) = c :: cs :=
  List.dropWhile_cons_of_neg (by simp [hc])

/-- How a number starts. -/
theorem integer_head (n : Int) :
    ∃ c cs, integer n = c :: cs ∧ (c.isDigit = true ∨ c = '-') := by
  cases n with
  | ofNat n =>
    cases hd : Nat.toDigits 10 n with
    | nil => exact absurd hd Nat.toDigits_ne_nil
    | cons d ds => exact ⟨d, ds, hd, .inl (isDigit_toDigits (hd ▸ List.mem_cons_self))⟩
  | negSucc n => exact ⟨'-', _, rfl, .inr rfl⟩

theorem ne_of_number_head {c d : Char} (hc : c.isDigit = true ∨ c = '-')
    (hd : (!d.isDigit && d != '-') = true) : c ≠ d := by
  rintro rfl
  rcases hc with hc | rfl
  · simp [hc] at hd
  · simp at hd

theorem isSpace_of_number_head {c : Char} (hc : c.isDigit = true ∨ c = '-') :
    isSpace c = false := by
  have hne := fun d hd => ne_of_number_head (d := d) hc hd
  simp [isSpace, hne ' ' (by decide), hne '\n' (by decide), hne '\t' (by decide),
    hne '\r' (by decide)]

theorem readValue_number {fuel : Nat} {c : Char} {cs : List Char}
    (hc : c.isDigit = true ∨ c = '-') : readValue (fuel + 1) (c :: cs) = readNumber (c :: cs) := by
  have hne := fun d hd => ne_of_number_head (d := d) hc hd
  rw [readValue, skip_cons (isSpace_of_number_head hc)]
  split
  · rename_i h; exact absurd (List.cons.inj h).1 (hne 'n' (by decide))
  · rename_i h; exact absurd (List.cons.inj h).1 (hne 't' (by decide))
  · rename_i h; exact absurd (List.cons.inj h).1 (hne 'f' (by decide))
  · rename_i h; exact absurd (List.cons.inj h).1 (hne '"' (by decide))
  · rename_i h; exact absurd (List.cons.inj h).1 (hne '[' (by decide))
  · rename_i h; exact absurd (List.cons.inj h).1 (hne '{' (by decide))
  · rfl

/-- The text of a value starts with no blank and with no closing bracket. -/
theorem Plain.print_head {j : Json} (h : j.Plain) :
    ∃ c cs, j.print = c :: cs ∧ isSpace c = false ∧ c ≠ ']' := by
  cases h with
  | null => exact ⟨'n', _, by rw [print], by decide, by decide⟩
  | bool b => cases b <;> exact ⟨_, _, by rw [print], by decide, by decide⟩
  | @number n _ _ =>
    obtain ⟨c, cs, hcs, hc⟩ := integer_head n
    exact ⟨c, cs, by rw [print, hcs], isSpace_of_number_head hc, ne_of_number_head hc (by decide)⟩
  | text s => exact ⟨'"', _, by rw [print, quote]; rfl, by decide, by decide⟩
  | array _ => exact ⟨'[', _, by rw [print]; rfl, by decide, by decide⟩
  | object _ => exact ⟨'{', _, by rw [print]; rfl, by decide, by decide⟩

theorem readItems_more {fuel : Nat} {cs after : List Char} {j : Json}
    (h : readValue fuel cs = some (j, ',' :: after)) :
    readItems (fuel + 1) cs = (fun r => (j :: r.1, r.2)) <$> readItems fuel after := by
  have hskip : skip (',' :: after) = ',' :: after := skip_cons (by decide)
  simp only [readItems, h, Option.bind_eq_bind, Option.bind_some, hskip]

theorem readItems_last {fuel : Nat} {cs rest : List Char} {j : Json}
    (h : readValue fuel cs = some (j, ']' :: rest)) : readItems (fuel + 1) cs = some ([j], rest) := by
  have hskip : skip (']' :: rest) = ']' :: rest := skip_cons (by decide)
  simp only [readItems, h, Option.bind_eq_bind, Option.bind_some, hskip]
  rfl

theorem printItems_more (j k : Json) (rest : List Json) :
    printItems (j :: k :: rest) = j.print ++ ',' :: printItems (k :: rest) :=
  printItems.eq_3 j (k :: rest) (List.cons_ne_nil _ _)

theorem printMembers_more (name : String) (j : Json) (m : String × Json)
    (rest : List (String × Json)) :
    printMembers ((name, j) :: m :: rest) =
      quote name ++ ':' :: (j.print ++ ',' :: printMembers (m :: rest)) :=
  printMembers.eq_3 name j (m :: rest) (List.cons_ne_nil _ _)

theorem readItems_print {items : List Json} (h : ∀ j ∈ items, Reads j) (hne : items ≠ [])
    {fuel : Nat} (hfuel : (printItems items).length < fuel) (rest : List Char) :
    readItems fuel (printItems items ++ ']' :: rest) = some (items, rest) := by
  induction items generalizing fuel with
  | nil => exact absurd rfl hne
  | cons j items ih =>
    obtain ⟨fuel, rfl⟩ : ∃ f, fuel = f + 1 := ⟨fuel - 1, by omega⟩
    have hj := h j List.mem_cons_self
    cases items with
    | nil =>
      rw [printItems] at hfuel ⊢
      exact readItems_last (hj fuel _ (by omega) (ends_cons (by decide)))
    | cons k items =>
      rw [printItems_more, List.length_append, List.length_cons] at hfuel
      rw [printItems_more, List.append_assoc, List.cons_append,
        readItems_more (hj fuel _ (by omega) (ends_cons (by decide))),
        ih (fun j hm => h j (List.mem_cons_of_mem _ hm)) (List.cons_ne_nil _ _) (by omega)]
      rfl

theorem readName_quote (name : String) (rest : List Char) :
    readName (quote name ++ ':' :: rest) = some (some name, rest) := by
  obtain ⟨us, hunits, hjoin⟩ := units?_quoted name.toList (':' :: rest)
  have hstart : quote name ++ ':' :: rest =
      '"' :: (name.toList.flatMap escapeChar ++ '"' :: ':' :: rest) := by
    rw [quote, List.cons_append, List.cons_append, List.append_assoc]
    rfl
  have hskip : skip (':' :: rest) = ':' :: rest := skip_cons (by decide)
  have hskip' : skip (quote name ++ ':' :: rest) = quote name ++ ':' :: rest := by
    rw [hstart]
    exact skip_cons (by decide)
  rw [readName, hskip', hstart]
  simp only [hunits, Option.bind_eq_bind, Option.bind_some, hskip, hjoin]
  simp

theorem readMembers_more {fuel : Nat} {cs body after : List Char} {name : String} {j : Json}
    (hname : readName cs = some (some name, body))
    (h : readValue fuel body = some (j, ',' :: after)) :
    readMembers (fuel + 1) cs =
      (fun r => (r.1.map ((name, j) :: ·), r.2)) <$> readMembers fuel after := by
  have hskip : skip (',' :: after) = ',' :: after := skip_cons (by decide)
  simp only [readMembers, hname, h, Option.bind_eq_bind, Option.bind_some, hskip, Option.map_some]

theorem readMembers_last {fuel : Nat} {cs body rest : List Char} {name : String} {j : Json}
    (hname : readName cs = some (some name, body))
    (h : readValue fuel body = some (j, '}' :: rest)) :
    readMembers (fuel + 1) cs = some (some [(name, j)], rest) := by
  have hskip : skip ('}' :: rest) = '}' :: rest := skip_cons (by decide)
  simp only [readMembers, hname, h, Option.bind_eq_bind, Option.bind_some, hskip, Option.map_some]
  rfl

theorem readMembers_print {members : List (String × Json)} (h : ∀ m ∈ members, Reads m.2)
    (hne : members ≠ []) {fuel : Nat} (hfuel : (printMembers members).length < fuel)
    (rest : List Char) :
    readMembers fuel (printMembers members ++ '}' :: rest) = some (some members, rest) := by
  induction members generalizing fuel with
  | nil => exact absurd rfl hne
  | cons m members ih =>
    obtain ⟨fuel, rfl⟩ : ∃ f, fuel = f + 1 := ⟨fuel - 1, by omega⟩
    obtain ⟨name, j⟩ := m
    have hj : Reads j := h (name, j) List.mem_cons_self
    cases members with
    | nil =>
      simp only [printMembers, List.length_append, List.length_cons] at hfuel
      rw [printMembers, List.append_assoc, List.cons_append]
      exact readMembers_last (readName_quote name _)
        (hj fuel _ (by omega) (ends_cons (by decide)))
    | cons k members =>
      simp only [printMembers_more, List.length_append, List.length_cons] at hfuel
      rw [printMembers_more, List.append_assoc, List.cons_append, List.append_assoc,
        List.cons_append,
        readMembers_more (readName_quote name _) (hj fuel _ (by omega) (ends_cons (by decide))),
        ih (fun m hm => h m (List.mem_cons_of_mem _ hm)) (List.cons_ne_nil _ _) (by omega)]
      rfl

theorem printItems_head {j : Json} (items : List Json) (h : j.Plain) :
    ∃ c cs, printItems (j :: items) = c :: cs ∧ isSpace c = false ∧ c ≠ ']' := by
  obtain ⟨c, cs, hcs, hc⟩ := h.print_head
  cases items with
  | nil => exact ⟨c, cs, by rw [printItems, hcs], hc⟩
  | cons k items => exact ⟨c, _, by rw [printItems_more, hcs, List.cons_append], hc⟩

theorem printMembers_head (m : String × Json) (members : List (String × Json)) :
    ∃ cs, printMembers (m :: members) = '"' :: cs := by
  obtain ⟨name, j⟩ := m
  cases members with
  | nil => exact ⟨_, by rw [printMembers, quote]; rfl⟩
  | cons k members => exact ⟨_, by rw [printMembers_more, quote]; rfl⟩

/-! Each kind of value is read, if its parts are. -/

/-- A value that is written with at least one character leaves fuel for its parts. -/
theorem reads_of_succ {j : Json} (hne : j.print ≠ [])
    (h : ∀ fuel rest, j.print.length ≤ fuel + 1 → Ends rest →
      readValue (fuel + 1) (j.print ++ rest) = some (j, rest)) : Reads j := by
  intro fuel rest hfuel hends
  obtain ⟨fuel, rfl⟩ := Nat.exists_eq_add_of_le'
    (Nat.le_trans (List.length_pos_of_ne_nil hne) hfuel)
  exact h fuel rest hfuel hends

theorem reads_null : Reads null :=
  reads_of_succ (by simp [print]) fun _ _ _ _ => rfl

theorem reads_bool (b : Bool) : Reads (bool b) := by
  cases b with
  | true => exact reads_of_succ (by simp [print]) fun _ _ _ _ => rfl
  | false => exact reads_of_succ (by simp [print]) fun _ _ _ _ => rfl

theorem reads_number {n : Int} (hlow : -(wordBound 63 : Int) ≤ n) (hhigh : n < wordBound 64) :
    Reads (number n) := by
  obtain ⟨c, cs, hcs, hc⟩ := integer_head n
  refine reads_of_succ (by simp [print, hcs]) fun fuel rest _ hends => ?_
  have hread := readNumber_integer hends hlow hhigh
  rw [hcs] at hread
  rw [print, hcs, List.cons_append, readValue_number hc]
  exact hread

theorem reads_text (s : String) : Reads (text s) := by
  refine reads_of_succ (by simp [print, quote]) fun fuel rest _ _ => ?_
  obtain ⟨us, hunits, hjoin⟩ := units?_quoted s.toList rest
  rw [print, quote, List.cons_append, List.cons_append, List.append_assoc, List.singleton_append,
    readValue, skip_cons (by decide)]
  simp only [readString, hunits, Option.bind_eq_bind, Option.bind_some, hjoin,
    String.ofList_toList]
  rfl

theorem reads_array {items : List Json} (h : ∀ j ∈ items, j.Plain) (hreads : ∀ j ∈ items, Reads j) :
    Reads (array items) := by
  refine reads_of_succ (by simp [print]) fun fuel rest hfuel _ => ?_
  rw [print, List.cons_append, List.length_cons, List.length_append, List.length_singleton]
    at hfuel
  rw [print, List.cons_append, List.cons_append, List.append_assoc, List.singleton_append,
    readValue, skip_cons (by decide)]
  cases items with
  | nil => rfl
  | cons j items =>
    have hread : readItems fuel (printItems (j :: items) ++ ']' :: rest) =
        some (j :: items, rest) :=
      readItems_print hreads (List.cons_ne_nil _ _) (by omega) rest
    -- what comes after the bracket is not the end of the array
    obtain ⟨c, cs, hcs, hspace, hclose⟩ := printItems_head items (h j List.mem_cons_self)
    rw [hcs, List.cons_append] at hread ⊢
    simp only [skip_cons hspace]
    split
    · rename_i hc
      exact absurd (List.cons.inj hc).1 hclose
    · rw [hread]
      rfl

theorem reads_object {members : List (String × Json)} (hreads : ∀ m ∈ members, Reads m.2) :
    Reads (object members) := by
  refine reads_of_succ (by simp [print]) fun fuel rest hfuel _ => ?_
  rw [print, List.cons_append, List.length_cons, List.length_append, List.length_singleton]
    at hfuel
  rw [print, List.cons_append, List.cons_append, List.append_assoc, List.singleton_append,
    readValue, skip_cons (by decide)]
  cases members with
  | nil => rfl
  | cons m members =>
    have hread : readMembers fuel (printMembers (m :: members) ++ '}' :: rest) =
        some (some (m :: members), rest) :=
      readMembers_print hreads (List.cons_ne_nil _ _) (by omega) rest
    obtain ⟨cs, hcs⟩ := printMembers_head m members
    rw [hcs, List.cons_append] at hread ⊢
    simp only [skip_cons (show isSpace '"' = false by decide)]
    split
    · rename_i hc
      exact absurd (List.cons.inj hc).1 (by decide)
    · rw [hread]
      rfl

/-- **A plain value is read from its text.** -/
theorem Plain.reads {j : Json} (h : j.Plain) : Reads j := by
  induction h with
  | null => exact reads_null
  | bool b => exact reads_bool b
  | number hlow hhigh => exact reads_number hlow hhigh
  | text s => exact reads_text s
  | array h ih => exact reads_array h ih
  | object _ ih => exact reads_object ih

/-- **The compact text of a plain value reads back.** -/
theorem Plain.read?_compact {j : Json} (h : j.Plain) : read? j.compact = some j := by
  have hread := h.reads (2 * j.print.length + 2) [] (by omega) (by simp [Ends])
  rw [List.append_nil] at hread
  rw [read?, compact, String.toList_ofList]
  simp only [hread, Option.bind_eq_bind, Option.bind_some]
  rfl

/-- The value that bytes denote. -/
def ofBytes? (bytes : ByteArray) : Option Json := (String.fromUTF8? bytes).bind read?

theorem ofBytes?_toUTF8 (s : String) : ofBytes? s.toUTF8 = read? s := by
  have hvalid : s.toUTF8.IsValidUTF8 := s.isValidUTF8
  rw [ofBytes?, String.fromUTF8?, dif_pos hvalid]
  rfl

end PoolExchange.Json
