import Mathlib.Data.List.Basic
import EncoderVectors.Text.Numeral

/-!
# Reading numerals back

Readers of unsigned numerals, signed decimals and integer literals, and the laws that they invert the
spellings of `EncoderVectors.Text.Numeral`. A reader takes the front of a list of characters and
leaves the rest. Each law holds for every rest that cannot go on with the numeral; in an instruction
that is a comma, a bracket, or nothing.

Main results: `readNumeral_toDigits`, `readSigned_signedDecimal`, `readLiteral_decimal`,
`readLiteral_hex`.
-/

set_option autoImplicit false

namespace EncoderVectors.Text

/-! ## Digits -/

/-- The value of a lowercase digit; characters that are no digit count as sixteen. -/
def digitValue (c : Char) : Nat :=
  if c.isDigit then c.toNat - 48
  else if 'a' ≤ c ∧ c ≤ 'f' then c.toNat - 87
  else 16

/-- The character is a digit in the given base. -/
def isDigitIn (base : Nat) (c : Char) : Bool :=
  digitValue c < base

/-- The number that digits stand for, the highest first. -/
def ofDigits (base : Nat) (digits : List Char) : Nat :=
  digits.foldl (fun n c => base * n + digitValue c) 0

theorem digitValue_digitChar {d : Nat} (h : d < 16) : digitValue d.digitChar = d := by
  have table : ∀ d : Fin 16, digitValue d.val.digitChar = d.val := by decide
  exact table ⟨d, h⟩

theorem ofDigits_concat (base : Nat) (digits : List Char) (c : Char) :
    ofDigits base (digits ++ [c]) = base * ofDigits base digits + digitValue c := by
  simp [ofDigits]

/-- Digits in any base up to sixteen stand for the number they were written from. -/
theorem ofDigits_toDigits {base : Nat} (low : 1 < base) (high : base ≤ 16) (n : Nat) :
    ofDigits base (Nat.toDigits base n) = n := by
  -- on the digits from the last one on, as `Nat.toDigits` appends them
  induction n using Nat.base_induction base low with
  | single d hd =>
      rw [Nat.toDigits_of_lt_base hd]
      simp [ofDigits, digitValue_digitChar (Nat.lt_of_lt_of_le hd high)]
  | digit n d hd hn ih =>
      rw [← Nat.toDigits_append_toDigits low hn hd, Nat.toDigits_of_lt_base hd, ofDigits_concat, ih,
        digitValue_digitChar (Nat.lt_of_lt_of_le hd high)]

/-- Every character of a numeral is a digit of its base. -/
theorem isDigitIn_of_mem_toDigits {base : Nat} (low : 1 < base) (high : base ≤ 16) (n : Nat) :
    ∀ c ∈ Nat.toDigits base n, isDigitIn base c = true := by
  induction n using Nat.base_induction base low with
  | single d hd =>
      intro c hc
      rw [Nat.toDigits_of_lt_base hd, List.mem_singleton] at hc
      subst hc
      simpa [isDigitIn, digitValue_digitChar (Nat.lt_of_lt_of_le hd high)] using hd
  | digit n d hd hn ih =>
      intro c hc
      rw [← Nat.toDigits_append_toDigits low hn hd, Nat.toDigits_of_lt_base hd, List.mem_append,
        List.mem_singleton] at hc
      rcases hc with hc | rfl
      · exact ih c hc
      · simpa [isDigitIn, digitValue_digitChar (Nat.lt_of_lt_of_le hd high)] using hd

/-! ## Numerals -/

/-- Nothing, or text that opens with a comma or a bracket: no numeral goes on into it. -/
def Closes (rest : List Char) : Prop :=
  ∀ c ∈ rest.head?, c = ',' ∨ c = '(' ∨ c = ')'

theorem closes_nil : Closes [] := by
  intro c hc
  simp at hc

theorem closes_cons {c : Char} (rest : List Char) (h : c = ',' ∨ c = '(' ∨ c = ')') :
    Closes (c :: rest) := by
  intro d hd
  simp only [List.head?_cons, Option.mem_some_iff] at hd
  exact hd ▸ h

/-- A property that no comma and no bracket has does not go on into closing text. -/
theorem Closes.not_of_head {rest : List Char} (h : Closes rest) {p : Char → Bool}
    (marks : p ',' = false ∧ p '(' = false ∧ p ')' = false) :
    ∀ c ∈ rest.head?, p c = false := by
  intro c hc
  rcases h c hc with rfl | rfl | rfl
  · exact marks.1
  · exact marks.2.1
  · exact marks.2.2

/-- Characters with a property, before text that does not open with such a one, are exactly what a
scan for the property takes. -/
theorem span_append {p : Char → Bool} {taken rest : List Char} (all : ∀ c ∈ taken, p c = true)
    (stop : ∀ c ∈ rest.head?, p c = false) :
    (taken ++ rest).takeWhile p = taken ∧ (taken ++ rest).dropWhile p = rest := by
  have halt : rest.takeWhile p = [] ∧ rest.dropWhile p = rest := by
    cases rest with
    | nil => exact ⟨rfl, rfl⟩
    | cons c rest => simp [stop c (by simp)]
  rw [List.takeWhile_append_of_pos all, List.dropWhile_append_of_pos all, halt.1, halt.2]
  exact ⟨List.append_nil _, rfl⟩

/-- A scan up to a mark takes what stands before the first one. -/
theorem span_mark {mark : Char} {front : List Char} (absent : mark ∉ front) (rest : List Char) :
    (front ++ mark :: rest).takeWhile (· ≠ mark) = front ∧
      (front ++ mark :: rest).dropWhile (· ≠ mark) = mark :: rest := by
  apply span_append
  · intro c hc
    simpa using fun same : c = mark => absent (same ▸ hc)
  · simp

/-- A scan up to a mark that is not there takes everything. -/
theorem span_no_mark {mark : Char} {front : List Char} (absent : mark ∉ front) :
    front.takeWhile (· ≠ mark) = front ∧ front.dropWhile (· ≠ mark) = [] := by
  have all : ∀ c ∈ front, decide (c ≠ mark) = true := by
    intro c hc
    simpa using fun same : c = mark => absent (same ▸ hc)
  have whole := @span_append _ front [] all (by simp)
  rwa [List.append_nil] at whole

/-- Reads an unsigned numeral: at least one digit, and as many as there are. -/
def readNumeral (base : Nat) (cs : List Char) : Option (Nat × List Char) :=
  match cs.takeWhile (isDigitIn base) with
  | [] => none
  | digits => some (ofDigits base digits, cs.dropWhile (isDigitIn base))

theorem readNumeral_append {base : Nat} {digits rest : List Char} (some_digit : digits ≠ [])
    (all : ∀ c ∈ digits, isDigitIn base c = true) (stop : ∀ c ∈ rest.head?, isDigitIn base c = false) :
    readNumeral base (digits ++ rest) = some (ofDigits base digits, rest) := by
  obtain ⟨taken, left⟩ := span_append all stop
  unfold readNumeral
  rw [taken, left]
  cases digits with
  | nil => exact absurd rfl some_digit
  | cons d ds => rfl

/-- A numeral in any base up to sixteen reads back as its number. -/
theorem readNumeral_toDigits {base : Nat} (low : 1 < base) (high : base ≤ 16) (n : Nat)
    {rest : List Char} (stop : ∀ c ∈ rest.head?, isDigitIn base c = false) :
    readNumeral base (Nat.toDigits base n ++ rest) = some (n, rest) := by
  rw [readNumeral_append Nat.toDigits_ne_nil (isDigitIn_of_mem_toDigits low high n) stop,
    ofDigits_toDigits low high]

theorem readNumeral_decimal (n : Nat) {rest : List Char} (h : Closes rest) :
    readNumeral 10 ((decimal n).toList ++ rest) = some (n, rest) := by
  rw [decimal, String.toList_ofList]
  exact readNumeral_toDigits (by decide) (by decide) n (h.not_of_head (by decide))

/-! ## Signed decimals -/

/-- Reads a decimal with an optional minus sign. -/
def readSigned (cs : List Char) : Option (Int × List Char) :=
  match cs with
  | '-' :: digits => (readNumeral 10 digits).map fun (n, rest) => (-(n : Int), rest)
  | _ => (readNumeral 10 cs).map fun (n, rest) => ((n : Int), rest)

/-- No decimal opens with a minus sign. -/
theorem decimal_ne_minus (n : Nat) (rest tail : List Char) :
    (decimal n).toList ++ rest ≠ '-' :: tail := by
  intro h
  rw [decimal, String.toList_ofList] at h
  cases digits : Nat.toDigits 10 n with
  | nil => exact Nat.toDigits_ne_nil digits
  | cons d ds =>
      rw [digits, List.cons_append, List.cons.injEq] at h
      have isDigit := @isDigitIn_of_mem_toDigits 10 (by decide) (by decide) n '-'
        (by rw [digits, h.1]; exact List.mem_cons_self)
      exact absurd isDigit (by decide)

/-- A signed decimal reads back as its integer. -/
theorem readSigned_signedDecimal (z : Int) {rest : List Char} (h : Closes rest) :
    readSigned ((signedDecimal z).toList ++ rest) = some (z, rest) := by
  by_cases neg : z < 0
  · have text : (signedDecimal z).toList ++ rest = '-' :: ((decimal z.natAbs).toList ++ rest) := by
      simp [signedDecimal, neg]
    rw [text]
    simp only [readSigned, readNumeral_decimal z.natAbs h, Option.map_some, Option.some.injEq,
      Prod.mk.injEq, and_true]
    omega
  · have text : signedDecimal z = decimal z.natAbs := by simp [signedDecimal, neg]
    rw [text]
    unfold readSigned
    -- the reader takes a leading minus for a sign, and a decimal has none
    split
    · next digits same => exact absurd same (decimal_ne_minus _ _ _)
    · simp only [readNumeral_decimal z.natAbs h, Option.map_some, Option.some.injEq, Prod.mk.injEq,
        and_true]
      omega

/-! ## Integer literals -/

/-- Drops the mark of an unsigned literal, if there is one. -/
def dropUnsignedMark : List Char → List Char
  | 'u' :: rest => rest
  | rest => rest

/-- Reads an integer literal: hexadecimal after `0x` and decimal otherwise, with or without the mark
of an unsigned one. -/
def readLiteral (cs : List Char) : Option (Nat × List Char) :=
  let number :=
    match cs with
    | '0' :: 'x' :: digits => readNumeral 16 digits
    | _ => readNumeral 10 cs
  number.map fun (n, rest) => (n, dropUnsignedMark rest)

theorem dropUnsignedMark_of_closes {rest : List Char} (h : Closes rest) :
    dropUnsignedMark rest = rest := by
  unfold dropUnsignedMark
  split
  · next tail =>
      have mark := h 'u' (by simp)
      simp at mark
  · rfl

/-- A decimal before text that opens with neither a digit nor an `x` is read as a decimal. -/
theorem readLiteral_toDigits (n : Nat) {rest : List Char}
    (stop : ∀ c ∈ rest.head?, isDigitIn 10 c = false ∧ c ≠ 'x') :
    readLiteral ((decimal n).toList ++ rest) = some (n, dropUnsignedMark rest) := by
  rw [decimal, String.toList_ofList]
  have number := @readNumeral_toDigits 10 (by decide) (by decide) n rest
    fun c hc => (stop c hc).1
  unfold readLiteral
  split
  · next digits same =>
      -- the `x` would be a digit of the numeral or the first character after it
      cases ds : Nat.toDigits 10 n with
      | nil => exact absurd ds Nat.toDigits_ne_nil
      | cons d more =>
          rw [ds, List.cons_append, List.cons.injEq] at same
          cases more with
          | nil => exact absurd rfl (stop 'x' (by rw [← List.nil_append rest, same.2]; simp)).2
          | cons e more =>
              rw [List.cons_append, List.cons.injEq] at same
              have isDigit := @isDigitIn_of_mem_toDigits 10 (by decide) (by decide) n 'x'
                (by rw [ds, same.2.1]; simp)
              exact absurd isDigit (by decide)
  · rw [number]
    rfl

theorem readLiteral_decimal (n : Nat) {rest : List Char} (h : Closes rest) :
    readLiteral ((decimal n).toList ++ rest) = some (n, rest) := by
  rw [readLiteral_toDigits n, dropUnsignedMark_of_closes h]
  intro c hc
  exact ⟨h.not_of_head (by decide) c hc, by rcases h c hc with rfl | rfl | rfl <;> decide⟩

theorem readLiteral_unsigned (n : Nat) (rest : List Char) :
    readLiteral ((decimal n ++ "u").toList ++ rest) = some (n, rest) := by
  have text : (decimal n ++ "u").toList ++ rest = (decimal n).toList ++ 'u' :: rest := by simp
  rw [text, readLiteral_toDigits n]
  · rfl
  · intro c hc
    simp only [List.head?_cons, Option.mem_some_iff] at hc
    subst hc
    decide

/-- Hexadecimal digits after their base mark are read as one literal. -/
theorem readLiteral_hexDigits {digits rest : List Char} (some_digit : digits ≠ [])
    (all : ∀ c ∈ digits, isDigitIn 16 c = true) (h : Closes rest) :
    readLiteral ('0' :: 'x' :: (digits ++ rest)) = some (ofDigits 16 digits, rest) := by
  have number := readNumeral_append some_digit all (h.not_of_head (p := isDigitIn 16) (by decide))
  simp only [readLiteral, number, Option.map_some, dropUnsignedMark_of_closes h]

theorem readLiteral_hex (n : Nat) {rest : List Char} (h : Closes rest) :
    readLiteral ((hex n).toList ++ rest) = some (n, rest) := by
  have text : (hex n).toList ++ rest = '0' :: 'x' :: (Nat.toDigits 16 n ++ rest) := by
    simp [hex, hexDigits]
  rw [text, readLiteral_hexDigits Nat.toDigits_ne_nil
    (isDigitIn_of_mem_toDigits (by decide) (by decide) n) h, ofDigits_toDigits (by decide) (by decide)]

/-- Three zeros after a hexadecimal literal shift it by twelve bits. -/
theorem readLiteral_hex_shifted (n : Nat) {rest : List Char} (h : Closes rest) :
    readLiteral ((hex n ++ "000").toList ++ rest) = some (n * 4096, rest) := by
  have text : (hex n ++ "000").toList ++ rest =
      '0' :: 'x' :: ((((Nat.toDigits 16 n ++ ['0']) ++ ['0']) ++ ['0']) ++ rest) := by
    simp [hex, hexDigits]
  have value : ofDigits 16 (((Nat.toDigits 16 n ++ ['0']) ++ ['0']) ++ ['0']) = n * 4096 := by
    have zero : digitValue '0' = 0 := by decide
    rw [ofDigits_concat, ofDigits_concat, ofDigits_concat,
      ofDigits_toDigits (by decide) (by decide), zero]
    omega
  rw [text, readLiteral_hexDigits (by simp) _ h, value]
  intro c hc
  simp only [List.mem_append, List.mem_singleton] at hc
  rcases hc with ((hc | rfl) | rfl) | rfl
  · exact isDigitIn_of_mem_toDigits (by decide) (by decide) n c hc
  · decide
  · decide
  · decide

end EncoderVectors.Text
