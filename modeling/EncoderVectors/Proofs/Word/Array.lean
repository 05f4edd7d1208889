import EncoderVectors.Word.Text
import EncoderVectors.Proofs.Text.Numeral

/-!
# Reading the array of words

The array of a listing is read the way a compiler reads it: what stands between the last opening brace
and the brace that closes it, as initializers that each end in a comma, with spaces and line ends of
no account. What stands before the array may hold braces and literals of its own; what stands after it
has no brace to open another.
-/

set_option autoImplicit false

namespace EncoderVectors.Word

/-- The character only serves the layout of the array. -/
def isLayout (c : Char) : Bool :=
  c == ' ' || c == '\n'

/-- The word of an initializer: a literal that fits 32 bits, with nothing after it. -/
def readInitializer (cs : List Char) : Option UInt32 :=
  match Text.readLiteral (cs.dropWhile isLayout) with
  | some (n, []) => if n < UInt32.size then some (UInt32.ofNat n) else none
  | _ => none

/-- The words of initializers that each end in a comma. -/
def readInitializers (cs : List Char) : Option (List UInt32) :=
  (cs.splitOn ',').dropLast.mapM readInitializer

/-- What stands after the last mark. -/
def afterLast (mark : Char) (cs : List Char) : List Char :=
  (cs.reverse.takeWhile (· ≠ mark)).reverse

/-- The words of the last array in a text. -/
def readArray (text : String) : Option (List UInt32) :=
  readInitializers ((afterLast '\x7b' text.toList).takeWhile (· ≠ '\x7d'))

/-! ## One initializer -/

theorem ofDigits_zeros (base k : Nat) (digits : List Char) :
    Text.ofDigits base (List.replicate k '0' ++ digits) = Text.ofDigits base digits := by
  have zero : Text.digitValue '0' = 0 := by decide
  induction k with
  | zero => rfl
  | succ k ih =>
      rw [← ih, List.replicate_succ, Text.ofDigits, List.cons_append, List.foldl_cons, zero]
      rfl

theorem readLiteral_literal (w : UInt32) :
    Text.readLiteral (literal w).toList = some (w.toNat, []) := by
  have text : (literal w).toList = '0' :: 'x' ::
      (List.replicate (8 - (Nat.toDigits 16 w.toNat).length) '0' ++ Nat.toDigits 16 w.toNat ++
        []) := by
    simp [literal, Text.paddedHexDigits]
  rw [text, Text.readLiteral_hexDigits _ _ Text.closes_nil, ofDigits_zeros,
    Text.ofDigits_toDigits (by decide) (by decide)]
  · simp [Nat.toDigits_ne_nil]
  · intro c hc
    rcases List.mem_append.mp hc with hc | hc
    · rw [List.eq_of_mem_replicate hc]
      decide
    · exact Text.isDigitIn_of_mem_toDigits (by decide) (by decide) _ c hc

theorem readInitializer_literal (w : UInt32) :
    readInitializer (literal w).toList = some w := by
  have bare : (literal w).toList.dropWhile isLayout = (literal w).toList := by
    simp [literal, isLayout]
  rw [readInitializer, bare, readLiteral_literal]
  simp [w.toNat_lt]

/-- A literal is made of digits and its base mark. -/
theorem not_mem_literal {c : Char} (digit : Text.isDigitIn 16 c = false) (mark : c ≠ 'x')
    (w : UInt32) : c ∉ (literal w).toList := by
  intro h
  have cases : c = '0' ∨ c = 'x' ∨ c ∈ Nat.toDigits 16 w.toNat := by
    simp only [literal, Text.paddedHexDigits, String.toList_append, String.toList_ofList,
      List.mem_append, List.mem_replicate] at h
    rcases h with h | ⟨-, rfl⟩ | h
    · have : c = '0' ∨ c = 'x' := by simpa using h
      rcases this with rfl | rfl
      · exact Or.inl rfl
      · exact Or.inr (Or.inl rfl)
    · exact Or.inl rfl
    · exact Or.inr (Or.inr h)
  rcases cases with rfl | rfl | h
  · exact absurd digit (by decide)
  · exact mark rfl
  · rw [Text.isDigitIn_of_mem_toDigits (by decide) (by decide) _ c h] at digit
    cases digit

/-! ## Many initializers -/

theorem readInitializers_nil : readInitializers [] = some [] := rfl

/-- Layout in front of an initializer is of no account. -/
theorem readInitializers_layout {c : Char} (h : isLayout c = true) (cs : List Char) :
    readInitializers (c :: cs) = readInitializers cs := by
  have other : (c == ',') = false := by
    rcases Bool.or_eq_true_iff.mp h with blank | blank
    · rw [beq_iff_eq.mp blank]
      decide
    · rw [beq_iff_eq.mp blank]
      decide
  unfold readInitializers
  rw [List.splitOn_cons_eq_if_modifyHead, other]
  -- the character joins the first piece, which is dropped when it is also the last
  cases pieces : cs.splitOn ',' with
  | nil => exact absurd pieces (List.splitOn_ne_nil _ _)
  | cons first rest =>
      cases rest with
      | nil => rfl
      | cons second rest =>
          have same : readInitializer (c :: first) = readInitializer first := by
            rw [readInitializer, List.dropWhile_cons_of_pos h]
            rfl
          simp [same]

theorem readInitializers_literal (w : UInt32) (cs : List Char) :
    readInitializers ((literal w).toList ++ ',' :: cs) = (readInitializers cs).map (w :: ·) := by
  have alone : (literal w).toList.splitOn ',' = [(literal w).toList] := by
    apply List.splitOn_eq_singleton
    exact not_mem_literal (by decide) (by decide) w
  unfold readInitializers
  rw [List.splitOn_append_cons_self, alone, List.singleton_append,
    List.dropLast_cons_of_ne_nil (List.splitOn_ne_nil _ _), List.mapM_cons,
    readInitializer_literal]
  cases (cs.splitOn ',').dropLast.mapM readInitializer with
  | none => rfl
  | some words => rfl

/-! ## Lines -/

/-- The initializers of a line, without the indentation. -/
def lineText (words : List UInt32) : String :=
  String.intercalate " " (words.map fun w => literal w ++ ",")

theorem readInitializers_lineText (words : List UInt32) (cs : List Char) :
    readInitializers ((lineText words).toList ++ cs) = (readInitializers cs).map (words ++ ·) := by
  induction words with
  | nil => simp [lineText]
  | cons w words ih =>
      cases words with
      | nil =>
          have text : (lineText [w]).toList ++ cs = (literal w).toList ++ ',' :: cs := by
            simp [lineText]
          rw [text, readInitializers_literal]
          rfl
      | cons next words =>
          have text : (lineText (w :: next :: words)).toList ++ cs =
              (literal w).toList ++ ',' :: ' ' :: ((lineText (next :: words)).toList ++ cs) := by
            simp [lineText, String.intercalate_cons_cons]
          rw [text, readInitializers_literal, readInitializers_layout (by decide), ih,
            Option.map_map]
          rfl

theorem not_mem_lineText {c : Char} (digit : Text.isDigitIn 16 c = false) (mark : c ≠ 'x')
    (comma : c ≠ ',') (blank : c ≠ ' ') (words : List UInt32) :
    c ∉ (lineText words).toList := by
  have absent := fun w => not_mem_literal digit mark w
  induction words with
  | nil => simp [lineText]
  | cons w words ih =>
      cases words with
      | nil => simp [lineText, absent, comma]
      | cons next words =>
          have text : (lineText (w :: next :: words)).toList =
              (literal w).toList ++ ',' :: ' ' :: (lineText (next :: words)).toList := by
            simp [lineText, String.intercalate_cons_cons]
          simp [text, absent, comma, blank, ih]

/-- The lines of an array, as characters. -/
def linesText (lines : List (List UInt32)) : List Char :=
  (Text.unlines (lines.map arrayLine)).toList

theorem linesText_cons (line : List UInt32) (lines : List (List UInt32)) :
    linesText (line :: lines) =
      ' ' :: ' ' :: ' ' :: ' ' :: ((lineText line).toList ++ '\n' :: linesText lines) := by
  simp [linesText, Text.unlines, arrayLine, lineText]

theorem readInitializers_linesText (lines : List (List UInt32)) (cs : List Char) :
    readInitializers (linesText lines ++ cs) =
      (readInitializers cs).map (lines.flatten ++ ·) := by
  have space : isLayout ' ' = true := by decide
  induction lines with
  | nil => simp [linesText, Text.unlines]
  | cons line lines ih =>
      simp only [linesText_cons, List.cons_append, List.append_assoc, readInitializers_layout space,
        readInitializers_lineText]
      rw [readInitializers_layout (by decide), ih, Option.map_map]
      simp [Function.comp_def]

theorem not_mem_linesText {c : Char} (digit : Text.isDigitIn 16 c = false) (mark : c ≠ 'x')
    (comma : c ≠ ',') (layout : isLayout c = false) (lines : List (List UInt32)) :
    c ∉ linesText lines := by
  have plain : c ≠ ' ' ∧ c ≠ '\n' := by simpa [isLayout] using layout
  have absent := fun line => not_mem_lineText digit mark comma plain.1 line
  induction lines with
  | nil => simp [linesText, Text.unlines]
  | cons line lines ih => simp [linesText_cons, absent, plain, ih]

/-! ## The whole array -/

theorem flatten_fours (words : List UInt32) : (fours words).flatten = words := by
  fun_induction fours words with
  | case1 => rfl
  | case2 a b c d rest ih => simp [ih]
  | case3 => simp

section Fours

variable {α : Type} {words row : List α}

theorem length_of_mem_fours (h : row ∈ fours words) : 0 < row.length ∧ row.length ≤ 4 := by
  fun_induction fours words with
  | case1 => cases h
  | case2 a b c d rest ih =>
      rcases List.mem_cons.mp h with rfl | later
      · simp
      · exact ih later
  | case3 few some_word fewer =>
      rw [List.mem_singleton.mp h]
      rcases few with _ | ⟨a, _ | ⟨b, _ | ⟨c, _ | ⟨d, rest⟩⟩⟩⟩
      · exact absurd rfl some_word
      · simp
      · simp
      · simp
      · exact absurd rfl (fewer a b c d rest)

/-- Only the last row can have fewer than four words. -/
theorem length_of_mem_dropLast_fours (h : row ∈ (fours words).dropLast) : row.length = 4 := by
  fun_induction fours words with
  | case1 => cases h
  | case2 a b c d rest ih =>
      cases further : fours rest with
      | nil => simp [further] at h
      | cons next rows =>
          rw [further, List.dropLast_cons_cons] at h
          rcases List.mem_cons.mp h with rfl | later
          · rfl
          · exact ih (further ▸ later)
  | case3 => cases h

end Fours

theorem afterLast_append {mark : Char} {rest : List Char} (absent : mark ∉ rest)
    (front : List Char) : afterLast mark (front ++ mark :: rest) = rest := by
  have backwards : (front ++ mark :: rest).reverse = rest.reverse ++ mark :: front.reverse := by
    simp
  rw [afterLast, backwards, (Text.span_mark (by simpa using absent) _).1, List.reverse_reverse]

/-- The array is read back from any text in which no brace opens after it. -/
theorem readArray_append (before after : String) (words : List UInt32)
    (last : '\x7b' ∉ after.toList) : readArray (before ++ array words ++ after) = some words := by
  have text : (before ++ array words ++ after).toList =
      (before ++ "  static const unsigned int insns[] =\n  ").toList ++ '\x7b' ::
        ('\n' :: (linesText (fours words) ++ [' ', ' ']) ++
          '\x7d' :: (';' :: '\n' :: after.toList)) := by
    simp [array, linesText, Text.unlines]
  have closed : '\x7b' ∉ '\n' :: (linesText (fours words) ++ [' ', ' ']) ++
      '\x7d' :: (';' :: '\n' :: after.toList) := by
    have lines := not_mem_linesText (c := '\x7b') (by decide) (by decide) (by decide) (by decide)
      (fours words)
    simp [lines, last]
  have inside : '\x7d' ∉ '\n' :: (linesText (fours words) ++ [' ', ' ']) := by
    have lines := not_mem_linesText (c := '\x7d') (by decide) (by decide) (by decide) (by decide)
      (fours words)
    simp [lines]
  -- between the braces there are a line end, the lines, and the indentation of the closing brace
  rw [readArray, text, afterLast_append closed, (Text.span_mark inside _).1,
    readInitializers_layout (by decide), readInitializers_linesText, flatten_fours,
    readInitializers_layout (by decide), readInitializers_layout (by decide), readInitializers_nil]
  simp

end EncoderVectors.Word
