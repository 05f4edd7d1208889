import Mathlib.Data.List.Basic
import EncoderVectors.Proofs.Json.Grammar
import EncoderVectors.Proofs.Text.Numeral

/-!
# Scanning strings and numbers

The scanners take exactly what the grammar says: a string that is kept (`scanString_eq_some_iff`), a
string that is passed over (`skipString_of_formed`), and a number before a character that cannot go on
with it (`scanNumber_of_numeral`). What follows a value in a text is a blank, a comma, a closing
bracket or nothing, and none of these goes on with a number (`Ends`).
-/

set_option autoImplicit false

namespace EncoderVectors.Json

/-! ## Blanks -/

theorem blanks_refl (cs : List Char) : Blanks cs cs :=
  ⟨[], by simp, rfl⟩

theorem Blanks.length_le {cs rest : List Char} (h : Blanks cs rest) : rest.length ≤ cs.length := by
  obtain ⟨blanks, -, rfl⟩ := h
  simp

/-- Blanks are dropped up to the first character that is none. -/
theorem Blanks.dropWhile_eq {cs rest : List Char} {c : Char} (h : Blanks cs (c :: rest))
    (visible : isSpace c = false) : cs.dropWhile isSpace = c :: rest := by
  obtain ⟨blanks, all, rfl⟩ := h
  rw [List.dropWhile_append_of_pos all, List.dropWhile_cons_of_neg (by simp [visible])]

/-! ## Strings -/

theorem isLowHalf_eq_false {u : Nat} (high : isHighHalf u = true) : isLowHalf u = false := by
  simp only [isHighHalf, Bool.and_eq_true, decide_eq_true_eq] at high
  simp only [isLowHalf, Bool.and_eq_false_iff, decide_eq_false_iff_not]
  omega

/-- No letter escape is the mark of a code unit. -/
theorem ne_u_of_escapeChar? {e c : Char} (h : escapeChar? e = some c) : e ≠ 'u' := by
  rintro rfl
  cases h

/-- A string that stands for characters is kept as them. -/
theorem scanString_of_inside {s cs rest : List Char} (h : Inside s cs rest) :
    scanString cs = some (s, rest) := by
  induction h with
  | close => rw [scanString]
  | @plain c s cs rest quote backslash seen more ih =>
      rw [scanString, if_neg (Nat.not_lt.mpr seen), ih]
      · rfl
      · exact quote
      · intro _ _ _ _ _ same
        exact absurd same backslash
      · intro _ _ same
        exact absurd same backslash
  | @letter e c s cs rest meaning more ih =>
      rw [scanString, meaning, ih]
      · rfl
      · intro _ _ _ _ _ same
        exact absurd same (ne_u_of_escapeChar? meaning)
  | unit meaning low high more ih =>
      rw [scanString, meaning, ih]
      simp [low, high]
  | pair meaning high second low more ih =>
      rw [scanString, meaning]
      simp [isLowHalf_eq_false high, high, second, low, ih]

theorem inside_of_scanString {s cs rest : List Char} (h : scanString cs = some (s, rest)) :
    Inside s cs rest := by
  fun_induction scanString cs generalizing s rest with
  | case1 => cases h
  | case2 rest' =>
      obtain ⟨rfl, rfl⟩ := Prod.mk.inj (Option.some.inj h)
      exact .close
  | case3 => cases h
  | case4 => cases h
  | case5 => cases h
  | case6 a b c d u meaning notLow high e f g i more v second low ih =>
      obtain ⟨⟨s', rest'⟩, found, same⟩ := Option.map_eq_some_iff.mp h
      obtain ⟨rfl, rfl⟩ := Prod.mk.inj same
      exact .pair meaning high second low (ih found)
  | case7 => cases h
  | case8 => cases h
  | case9 a b c d more u meaning notLow notHigh ih =>
      obtain ⟨⟨s', rest'⟩, found, same⟩ := Option.map_eq_some_iff.mp h
      obtain ⟨rfl, rfl⟩ := Prod.mk.inj same
      exact .unit meaning (by simpa using notLow) (by simpa using notHigh) (ih found)
  | case10 e more notUnit c meaning ih =>
      obtain ⟨⟨s', rest'⟩, found, same⟩ := Option.map_eq_some_iff.mp h
      obtain ⟨rfl, rfl⟩ := Prod.mk.inj same
      exact .letter meaning (ih found)
  | case11 => cases h
  | case12 => cases h
  | case13 c more quote notUnit notLetter seen ih =>
      obtain ⟨⟨s', rest'⟩, found, same⟩ := Option.map_eq_some_iff.mp h
      obtain ⟨rfl, rfl⟩ := Prod.mk.inj same
      refine .plain quote ?_ (Nat.not_lt.mp seen) (ih found)
      -- a backslash has something after it, or the string does not end
      intro backslash
      cases more with
      | nil => cases found
      | cons e more => exact notLetter e more backslash rfl

theorem scanString_eq_some_iff {s cs rest : List Char} :
    scanString cs = some (s, rest) ↔ Inside s cs rest :=
  ⟨inside_of_scanString, scanString_of_inside⟩

/-- A string that stands for characters is well formed. -/
theorem Inside.formed {s cs rest : List Char} (h : Inside s cs rest) : Formed cs rest := by
  induction h with
  | close => exact .close
  | plain quote backslash seen more ih => exact .plain quote backslash seen ih
  | letter meaning more ih => exact .letter meaning ih
  | unit meaning low high more ih => exact .unit meaning ih
  | pair meaning high second low more ih => exact .unit meaning (.unit second ih)

/-- A well-formed string is passed over. -/
theorem skipString_of_formed {cs rest : List Char} (h : Formed cs rest) :
    skipString cs = some rest := by
  induction h with
  | close => rw [skipString]
  | plain quote backslash seen more ih =>
      rw [skipString, if_neg (Nat.not_lt.mpr seen), ih]
      · exact quote
      · intro _ _ _ _ _ same
        exact absurd same backslash
      · intro _ _ same
        exact absurd same backslash
  | letter meaning more ih =>
      rw [skipString, meaning, ih]
      · rfl
      · intro _ _ _ _ _ same
        exact absurd same (ne_u_of_escapeChar? meaning)
  | unit meaning more ih =>
      rw [skipString, meaning, ih]
      rfl

theorem Formed.length_lt {cs rest : List Char} (h : Formed cs rest) : rest.length < cs.length := by
  induction h with
  | close => simp
  | plain quote backslash seen more ih => exact Nat.lt_succ_of_lt ih
  | letter meaning more ih =>
      simp only [List.length_cons]
      omega
  | unit meaning more ih =>
      simp only [List.length_cons]
      omega

theorem Quoted.exists_formed {content : Option String} {cs rest : List Char}
    (h : Quoted content cs rest) : ∃ inside, cs = '"' :: inside ∧ Formed inside rest := by
  cases h with
  | whole inside => exact ⟨_, rfl, inside.formed⟩
  | unpaired formed nothing => exact ⟨_, rfl, formed⟩

theorem Quoted.length_lt {content : Option String} {cs rest : List Char}
    (h : Quoted content cs rest) : rest.length < cs.length := by
  obtain ⟨inside, rfl, formed⟩ := h.exists_formed
  exact Nat.lt_succ_of_lt formed.length_lt

/-! ## Numbers -/

/-- Nothing, a blank, a comma or a closing bracket: no value goes on into it. -/
def Ends (rest : List Char) : Prop :=
  ∀ c ∈ rest.head?, isSpace c = true ∨ c = ',' ∨ c = ']' ∨ c = '\x7d'

theorem ends_cons {c : Char} (rest : List Char)
    (h : isSpace c = true ∨ c = ',' ∨ c = ']' ∨ c = '\x7d') : Ends (c :: rest) := by
  intro d hd
  simp only [List.head?_cons, Option.mem_some_iff] at hd
  exact hd ▸ h

theorem Blanks.ends {cs rest : List Char} (h : Blanks cs rest) (ends : Ends rest) : Ends cs := by
  obtain ⟨blanks, all, rfl⟩ := h
  cases blanks with
  | nil => exact ends
  | cons b blanks => exact ends_cons _ (Or.inl (all b List.mem_cons_self))

theorem ends_nil : Ends [] := by
  intro c hc
  simp at hc

/-- The characters that end a value. -/
theorem Ends.mem_marks {rest : List Char} (h : Ends rest) :
    ∀ c ∈ rest.head?, c ∈ [' ', '\t', '\n', '\r', ',', ']', '\x7d'] := by
  intro c hc
  rcases h c hc with blank | rfl | rfl | rfl
  · simp only [isSpace, Bool.or_eq_true, decide_eq_true_eq] at blank
    rcases blank with ((rfl | rfl) | rfl) | rfl <;> simp
  · simp
  · simp
  · simp

theorem scanDigits_append {ds rest : List Char} (digits : ∀ d ∈ ds, d.isDigit = true)
    (stop : ∀ c ∈ rest.head?, c.isDigit = false) : scanDigits (ds ++ rest) = (ds, rest) := by
  obtain ⟨taken, left⟩ := Text.span_append digits stop
  rw [scanDigits, taken, left]

theorem scanWhole_append {ds rest : List Char} (whole : WholeDigits ds)
    (stop : ∀ c ∈ rest.head?, c.isDigit = false) : scanWhole (ds ++ rest) = some (ds, rest) := by
  obtain ⟨⟨nonempty, digits⟩, zero⟩ := whole
  rw [scanWhole, scanDigits_append digits stop]
  split
  · next same => exact absurd (congrArg Prod.fst same) nonempty
  · next d ds' _ same =>
      -- a zero in front of other digits is no whole number
      have shape : ds = '0' :: d :: ds' := congrArg Prod.fst same
      have alone := zero (by rw [shape]; rfl)
      rw [shape] at alone
      cases alone
  · next _ _ same =>
      obtain ⟨rfl, rfl⟩ := Prod.mk.inj same
      rfl

theorem scanFraction_append {fraction : Option (List Char)} {point rest : List Char}
    (fractional : FractionText fraction point)
    (stop : ∀ c ∈ rest.head?, c.isDigit = false ∧ c ≠ '.') :
    scanFraction (point ++ rest) = some (fraction, rest) := by
  cases fractional with
  | none =>
      rw [List.nil_append]
      unfold scanFraction
      split
      · next cs => exact absurd rfl (stop '.' rfl).2
      · rfl
  | some digits =>
      obtain ⟨nonempty, all⟩ := digits
      rw [List.cons_append, scanFraction, scanDigits_append all fun c hc => (stop c hc).1]
      split
      · next same => exact absurd (congrArg Prod.fst same) nonempty
      · next _ same =>
          obtain ⟨rfl, rfl⟩ := Prod.mk.inj same
          rfl

theorem scanExponentDigits_append {ds rest : List Char} (negative : Bool) (digits : Digits ds)
    (stop : ∀ c ∈ rest.head?, c.isDigit = false) :
    scanExponentDigits negative (ds ++ rest) = some (some (negative, ds), rest) := by
  obtain ⟨nonempty, all⟩ := digits
  rw [scanExponentDigits, scanDigits_append all stop]
  split
  · next same => exact absurd (congrArg Prod.fst same) nonempty
  · next _ same =>
      obtain ⟨rfl, rfl⟩ := Prod.mk.inj same
      rfl

theorem scanSignedExponent_append {negative : Bool} {sign ds rest : List Char}
    (signed : SignText negative sign) (digits : Digits ds)
    (stop : ∀ c ∈ rest.head?, c.isDigit = false) :
    scanSignedExponent (sign ++ ds ++ rest) = some (some (negative, ds), rest) := by
  cases signed with
  | plus => exact scanExponentDigits_append false digits stop
  | minus => exact scanExponentDigits_append true digits stop
  | none =>
      rw [List.nil_append]
      unfold scanSignedExponent
      -- the first digit is no sign
      obtain ⟨nonempty, all⟩ := digits
      cases ds with
      | nil => exact absurd rfl nonempty
      | cons d ds =>
          have first := all d List.mem_cons_self
          split
          · next same =>
              rw [(List.cons.inj same).1] at first
              cases first
          · next same =>
              rw [(List.cons.inj same).1] at first
              cases first
          · exact scanExponentDigits_append false ⟨nonempty, all⟩ stop

theorem scanExponent_append {exponent : Option (Bool × List Char)} {power rest : List Char}
    (exponential : ExponentText exponent power)
    (stop : ∀ c ∈ rest.head?, c.isDigit = false ∧ c ≠ 'e' ∧ c ≠ 'E') :
    scanExponent (power ++ rest) = some (exponent, rest) := by
  cases exponential with
  | none =>
      rw [List.nil_append]
      unfold scanExponent
      split
      · next cs => exact absurd rfl (stop 'e' rfl).2.1
      · next cs => exact absurd rfl (stop 'E' rfl).2.2
      · rfl
  | some marked signed digits =>
      rcases marked with rfl | rfl
      · exact scanSignedExponent_append signed digits fun c hc => (stop c hc).1
      · exact scanSignedExponent_append signed digits fun c hc => (stop c hc).1

/-- What follows the digits before the point: no digit. -/
theorem FractionText.stops {fraction : Option (List Char)} {point rest : List Char}
    (fractional : FractionText fraction point) (stop : ∀ c ∈ rest.head?, c.isDigit = false) :
    ∀ c ∈ (point ++ rest).head?, c.isDigit = false := by
  cases fractional with
  | none => exact stop
  | some digits =>
      intro c hc
      simp only [List.cons_append, List.head?_cons, Option.mem_some_iff] at hc
      subst hc
      rfl

/-- What follows the fraction: neither a digit nor a point. -/
theorem ExponentText.stops {exponent : Option (Bool × List Char)} {power rest : List Char}
    (exponential : ExponentText exponent power)
    (stop : ∀ c ∈ rest.head?, c.isDigit = false ∧ c ≠ '.') :
    ∀ c ∈ (power ++ rest).head?, c.isDigit = false ∧ c ≠ '.' := by
  cases exponential with
  | none => exact stop
  | some marked signed digits =>
      intro c hc
      simp only [List.cons_append, List.head?_cons, Option.mem_some_iff] at hc
      subst hc
      rcases marked with rfl | rfl
      · decide
      · decide

theorem Ends.stops {rest : List Char} (h : Ends rest) :
    ∀ c ∈ rest.head?, c.isDigit = false ∧ c ≠ '.' ∧ c ≠ 'e' ∧ c ≠ 'E' := by
  have marks : ∀ c ∈ [' ', '\t', '\n', '\r', ',', ']', '\x7d'],
      c.isDigit = false ∧ c ≠ '.' ∧ c ≠ 'e' ∧ c ≠ 'E' := by simp
  intro c hc
  exact marks c (h.mem_marks c hc)

/-- The first digit of a number is no sign. -/
theorem WholeDigits.exists_cons {ds : List Char} (whole : WholeDigits ds) :
    ∃ d more, ds = d :: more ∧ d.isDigit = true := by
  obtain ⟨⟨nonempty, digits⟩, -⟩ := whole
  cases ds with
  | nil => exact absurd rfl nonempty
  | cons d more => exact ⟨d, more, rfl, digits d List.mem_cons_self⟩

/-- A number is scanned up to what ends it. -/
theorem scanNumber_of_numeral {parts : NumberText} {cs rest : List Char} (h : Numeral parts cs rest)
    (ends : Ends rest) : scanNumber cs = some (parts, rest) := by
  cases h with
  | @mk negative whole fraction exponent point power _ digits fractional exponential =>
      have stop := ends.stops
      have power_stop := exponential.stops fun c hc => ⟨(stop c hc).1, (stop c hc).2.1⟩
      have point_stop := fractional.stops fun c hc => (power_stop c hc).1
      have scans := And.intro (scanWhole_append digits point_stop)
        (And.intro (scanFraction_append fractional power_stop)
          (scanExponent_append exponential fun c hc => ⟨(stop c hc).1, (stop c hc).2.2⟩))
      cases negative with
      | true => simp [scanNumber, scans]
      | false =>
          obtain ⟨d, more, rfl, digit⟩ := digits.exists_cons
          -- the first digit is no sign, so nothing is taken off the front
          rw [List.cons_append] at scans
          unfold scanNumber
          simp only [Bool.false_eq_true, if_false, List.nil_append, List.cons_append]
          split
          · next same =>
              rw [(List.cons.inj same).1] at digit
              cases digit
          · simp [scans]

theorem Numeral.exists_cons {parts : NumberText} {cs rest : List Char} (h : Numeral parts cs rest) :
    ∃ c more, cs = c :: more ∧ (c = '-' ∨ c.isDigit = true) ∧ rest.length ≤ more.length := by
  cases h with
  | @mk negative whole fraction exponent point power _ digits fractional exponential =>
      obtain ⟨d, more, rfl, digit⟩ := digits.exists_cons
      cases negative with
      | true =>
          refine ⟨'-', d :: more ++ (point ++ (power ++ rest)), rfl, Or.inl rfl, ?_⟩
          simp only [List.length_append]
          omega
      | false =>
          refine ⟨d, more ++ (point ++ (power ++ rest)), rfl, Or.inr digit, ?_⟩
          simp only [List.length_append]
          omega

end EncoderVectors.Json
