import EncoderVectors.Proofs.Json.Reading

/-!
# Values of a kind

What a value is taken for when a value of some kind is asked for: a string, a truth value, an unsigned
number, a list, and each of them or null. The readers of `EncoderVectors.Json.Reader` read these kinds
from every text of the grammar.
-/

set_option autoImplicit false

namespace EncoderVectors.Json

variable {α β : Type}

namespace Value

/-- The characters of a string. -/
def text? : Value → Option String
  | .text content => content
  | _ => none

/-- A truth value. -/
def boolean? : Value → Option Bool
  | .boolean b => some b
  | _ => none

/-- An unsigned integer of 64 bits: digits alone. -/
def natural? : Value → Option Nat
  | .number ⟨false, whole, none, none⟩ =>
      if Nat.ofDigitChars 10 whole 0 < UInt64.size then some (Nat.ofDigitChars 10 whole 0) else none
  | _ => none

/-- What `decode` makes of a value, or nothing of the null. -/
def orNull? (decode : Value → Option α) : Value → Option (Option α)
  | .null => some none
  | v => (decode v).map some

/-- The first member of an object that has the key. -/
def member? (key : String) : Value → Option Value
  | .object members => members.lookup (some key)
  | _ => none

/-- An object whose keys are texts, with none of the given ones there twice. -/
def Keyed (keys : List String) (v : Value) : Prop :=
  ∃ members, v = .object members ∧ (∀ m ∈ members, m.1.isSome) ∧
    ∀ k ∈ keys, (members.map Prod.fst).count (some k) ≤ 1

/-- What `decode` makes of the elements of an array. -/
def list? (decode : Value → Option α) : Value → Option (List α)
  | .array elements => elements.mapM decode
  | _ => none

end Value

open Value

/-! ## Strings and truth values -/

theorem takes_text {s : String} {cs cs₁ rest : List Char} (expected : String)
    (blank : Blanks cs cs₁) (quoted : Quoted (some s) cs₁ rest) : Takes (text expected) cs s rest := by
  obtain ⟨inside, rfl, -⟩ := quoted.exists_formed
  refine (takes_look blank rfl).bind ?_
  rw [if_pos rfl]
  exact takes_textLiteral (blanks_refl _) quoted

theorem reads_text (expected : String) : Reads (text expected) text? := by
  intro v s cs cs₁ rest decoded blank spelled ends
  cases spelled with
  | @text content _ _ quoted =>
      obtain rfl : content = some s := decoded
      exact takes_text expected blank quoted
  | _ => cases decoded

theorem reads_boolean : Reads boolean boolean? := by
  intro v b cs cs₁ rest decoded blank spelled ends
  cases spelled with
  | truth =>
      obtain rfl : true = b := Option.some.inj decoded
      refine (takes_look blank rfl).bind ?_
      exact (takes_literal ['t', 'r', 'u', 'e'] rest).bind (takes_pure _ _)
  | untruth =>
      obtain rfl : false = b := Option.some.inj decoded
      refine (takes_look blank rfl).bind ?_
      exact (takes_literal ['f', 'a', 'l', 's', 'e'] rest).bind (takes_pure _ _)
  | _ => cases decoded

/-! ## Numbers -/

/-- The number that digits alone stand for, if it fits 64 bits. -/
theorem natural?_eq_some_iff {v : Value} {n : Nat} : v.natural? = some n ↔
    ∃ whole, v = .number ⟨false, whole, none, none⟩ ∧ Nat.ofDigitChars 10 whole 0 = n ∧
      n < UInt64.size := by
  constructor
  · intro decoded
    unfold natural? at decoded
    split at decoded
    · next whole =>
        split at decoded
        · next small =>
            obtain rfl := Option.some.inj decoded
            exact ⟨whole, rfl, rfl, small⟩
        · cases decoded
    · cases decoded
  · rintro ⟨whole, rfl, rfl, small⟩
    simp [natural?, small]

theorem takes_numberLiteral {whole cs rest : List Char}
    (numeral : Numeral ⟨false, whole, none, none⟩ cs rest) (ends : Ends rest)
    (small : Nat.ofDigitChars 10 whole 0 < UInt64.size) :
    Takes numberLiteral cs (.integer (Nat.ofDigitChars 10 whole 0)) rest := by
  have value : value? ⟨false, whole, none, none⟩ =
      some (.integer (Nat.ofDigitChars 10 whole 0)) := by
    simp [value?, small]
  refine (takes_scanned (scanNumber_of_numeral numeral ends)).bind ?_
  rw [value]
  exact takes_pure _ _

theorem reads_unsigned (expected : String) : Reads (unsigned expected) natural? := by
  intro v n cs cs₁ rest decoded blank spelled ends
  obtain ⟨whole, rfl, rfl, small⟩ := natural?_eq_some_iff.mp decoded
  cases spelled with
  | number numeral =>
      obtain ⟨c, more, rfl, first, -⟩ := numeral.exists_cons
      have visible := isSpace_eq_false (opensValue_of_opensNumber first)
      refine (takes_look blank visible).bind ?_
      dsimp only
      rw [if_pos (by simpa using first)]
      refine (takes_numberLiteral numeral ends small).bind ?_
      dsimp only
      rw [if_neg (by omega)]
      exact takes_pure _ _

/-! ## Null -/

/-- Only the null opens with its letter. -/
theorem Spells.eq_null {v : Value} {cs rest : List Char} (h : Spells v ('n' :: cs) rest) :
    v = .null := by
  cases h with
  | null => rfl
  | number numeral =>
      obtain ⟨c, more, same, first, -⟩ := numeral.exists_cons
      obtain rfl := (List.cons.inj same).1
      rcases first with wrong | wrong <;> cases wrong
  | text quoted =>
      obtain ⟨inside, same, -⟩ := quoted.exists_formed
      cases same

theorem orNull?_of_ne_null (decode : Value → Option α) {v : Value} (h : v ≠ .null) :
    orNull? decode v = (decode v).map some := by
  cases v with
  | null => exact absurd rfl h
  | _ => rfl

theorem Reads.optional {read : Reader α} {decode : Value → Option α} (reads : Reads read decode) :
    Reads (optional read) (orNull? decode) := by
  intro v o cs cs₁ rest decoded blank spelled ends
  obtain ⟨c, more, rfl, opens⟩ := spelled.exists_cons
  refine (takes_look blank (isSpace_eq_false opens)).bind ?_
  by_cases letter : c = 'n'
  · subst letter
    obtain rfl := spelled.eq_null
    obtain rfl : none = o := Option.some.inj decoded
    cases spelled
    rw [if_pos rfl]
    exact (takes_literal ['n', 'u', 'l', 'l'] rest).bind (takes_pure _ _)
  · have other : v ≠ .null := by
      rintro rfl
      cases spelled
      exact letter rfl
    rw [orNull?_of_ne_null decode other, Option.map_eq_some_iff] at decoded
    obtain ⟨a, decoded, rfl⟩ := decoded
    rw [if_neg (by simpa using letter)]
    exact (reads decoded (blanks_refl _) spelled ends).map some

theorem Reads.map {read : Reader α} {decode : Value → Option α} (reads : Reads read decode)
    (f : α → β) : Reads (f <$> read) fun v => (decode v).map f := by
  intro v b cs cs₁ rest decoded blank spelled ends
  obtain ⟨a, inner, rfl⟩ := Option.map_eq_some_iff.mp decoded
  exact (reads inner blank spelled ends).map f

/-! ## Arrays -/

/-- An array of items is read as the list of them. -/
theorem takes_sequence {item : α → List Char → List Char → Prop} {read : Reader α}
    (expected : String) (shrinks : ∀ {a cs rest}, item a cs rest → rest.length < cs.length)
    (opens : ∀ {a cs rest}, item a cs rest → ∃ c more, cs = c :: more ∧ opensValue c = true)
    (reads : ∀ {a cs rest}, item a cs rest → Ends rest → Takes read cs a rest) {as : List α}
    {cs cs₁ rest : List Char} (blank : Blanks cs ('[' :: cs₁))
    (enclosed : Enclosed item ']' as cs₁ rest) : Takes (sequence expected read) cs as rest := by
  refine (takes_look blank rfl).bind ?_
  rw [if_pos rfl]
  refine (takes_advance '[' cs₁).bind ?_
  refine Loop.takes_collecting (Or.inl rfl) shrinks ?_ ?_ takes_anotherElement_ending reads enclosed
  · intro a cs cs₁ rest before spelled
    obtain ⟨c, more, rfl, first⟩ := opens spelled
    exact takes_anotherElement_first before first
  · intro a cs cs₁ cs₂ rest comma before spelled
    obtain ⟨c, more, rfl, first⟩ := opens spelled
    exact takes_anotherElement_further comma before first

theorem Reads.sequence {read : Reader α} {decode : Value → Option α} (reads : Reads read decode)
    (expected : String) : Reads (sequence expected read) (list? decode) := by
  intro v as cs cs₁ rest decoded blank spelled ends
  cases spelled with
  | array enclosed =>
      refine takes_sequence expected ?_ ?_ ?_ blank (enclosed.decoded decoded)
      · rintro a cs rest ⟨v, -, spelled⟩
        exact spelled.length_lt
      · rintro a cs rest ⟨v, -, spelled⟩
        exact spelled.exists_cons
      · rintro a cs rest ⟨v, decoded, spelled⟩ ends
        exact reads decoded (blanks_refl _) spelled ends
  | _ => cases decoded

end EncoderVectors.Json
