import Mathlib.Data.List.Forall2
import EncoderVectors.Json.Layout
import EncoderVectors.Proofs.Json.Scanning

/-!
# Printed values

Text that is laid out by `EncoderVectors.Json.Layout` is text of the grammar: a quoted string stands for
its characters, a decimal for its digits, and brackets around written members for an array or an object
of them. `Writes text v` says so whatever comes after the text, so that it goes inside brackets as it
is.
-/

set_option autoImplicit false

namespace EncoderVectors.Json

/-- The text spells the value, whatever comes after it. -/
def Writes (text : String) (v : Value) : Prop :=
  ∀ rest, Spells v (text.toList ++ rest) rest

theorem Writes.isText {text : String} {v : Value} (h : Writes text v) : IsText v text := by
  refine ⟨text.toList, [], blanks_refl _, ?_, blanks_refl _⟩
  have spelled := h []
  rwa [List.append_nil] at spelled

/-! ## Strings -/

/-- The code unit of a list of four digits. -/
def unitOf? : List Char → Option Nat
  | [a, b, c, d] => unit? a b c d
  | _ => none

theorem exists_of_unitOf? {digits : List Char} {u : Nat} (h : unitOf? digits = some u) :
    ∃ a b c d, digits = [a, b, c, d] ∧ unit? a b c d = some u := by
  unfold unitOf? at h
  split at h
  · next a b c d => exact ⟨a, b, c, d, rfl, h⟩
  · cases h

/-- The four digits of a control character are its code unit. -/
theorem unitOf?_paddedHexDigits {n : Nat} (control : n < 0x20) :
    unitOf? (Text.paddedHexDigits 4 n).toList = some n := by
  have table : ∀ n : Fin 0x20, unitOf? (Text.paddedHexDigits 4 n).toList = some n.val := by decide
  exact table ⟨n, control⟩

/-- A character, escaped or not, stands for itself. -/
theorem inside_escape (c : Char) {s cs rest : List Char} (more : Inside s cs rest) :
    Inside (c :: s) (escape c ++ cs) rest := by
  unfold escape
  split
  · next h =>
      subst h
      exact .letter rfl more
  split
  · next h =>
      subst h
      exact .letter rfl more
  split
  · next h =>
      subst h
      exact .letter rfl more
  split
  · next h =>
      subst h
      exact .letter rfl more
  split
  · next h =>
      subst h
      exact .letter rfl more
  split
  · next h =>
      subst h
      exact .letter rfl more
  split
  · next h =>
      subst h
      exact .letter rfl more
  split
  · next control =>
      obtain ⟨x₁, x₂, x₃, x₄, digits, meaning⟩ := exists_of_unitOf? (unitOf?_paddedHexDigits control)
      have low : isLowHalf c.toNat = false := by
        simp only [isLowHalf, Bool.and_eq_false_iff, decide_eq_false_iff_not]
        omega
      have high : isHighHalf c.toNat = false := by
        simp only [isHighHalf, Bool.and_eq_false_iff, decide_eq_false_iff_not]
        omega
      have unit := Inside.unit meaning low high more
      rw [Char.ofNat_toNat] at unit
      rw [digits]
      exact unit
  · next quote backslash _ _ _ _ _ seen => exact .plain quote backslash (Nat.not_lt.mp seen) more

theorem inside_flatMap_escape (s rest : List Char) :
    Inside s (s.flatMap escape ++ '"' :: rest) rest := by
  induction s with
  | nil => exact .close
  | cons c s ih =>
      rw [List.flatMap_cons, List.append_assoc]
      exact inside_escape c ih

theorem quoted_quote (s : String) (rest : List Char) :
    Quoted (some s) ((quote s).toList ++ rest) rest := by
  have text : (quote s).toList ++ rest = '"' :: (s.toList.flatMap escape ++ '"' :: rest) := by
    simp [quote]
  rw [text]
  exact .whole (inside_flatMap_escape s.toList rest)

theorem writes_quote (s : String) : Writes (quote s) (.text (some s)) :=
  fun rest => .text (quoted_quote s rest)

/-! ## Numbers -/

/-- No decimal but that of zero opens with a zero. -/
theorem wholeDigits_toDigits (n : Nat) : WholeDigits (Nat.toDigits 10 n) := by
  refine ⟨⟨Nat.toDigits_ne_nil, fun d => Nat.isDigit_of_mem_toDigits (by decide) (by decide)⟩, ?_⟩
  -- the digits come one by one from the last, and the first stays what it is
  induction n using Nat.base_induction 10 (by decide) with
  | single d hd =>
      intro zero
      rw [Nat.toDigits_of_lt_base hd] at zero ⊢
      rw [Option.some.inj zero]
  | digit n d hd hn ih =>
      intro zero
      rw [← Nat.toDigits_append_toDigits (by decide) hn hd,
        List.head?_append_of_ne_nil _ Nat.toDigits_ne_nil] at zero
      have nothing := congrArg (Nat.ofDigitChars 10 · 0) (ih zero)
      simp only [Nat.ofDigitChars_ten_toDigits] at nothing
      exact absurd nothing (Nat.ne_of_gt hn)

theorem writes_decimal (n : Nat) :
    Writes (Text.decimal n) (.number ⟨false, Nat.toDigits 10 n, none, none⟩) := by
  intro rest
  rw [Text.decimal, String.toList_ofList]
  exact .number (.mk rest (wholeDigits_toDigits n) .none .none)

/-! ## Brackets -/

theorem blanks_indent (level : Nat) (cs : List Char) :
    Blanks ('\n' :: ((indent level).toList ++ cs)) cs := by
  refine ⟨'\n' :: (indent level).toList, ?_, rfl⟩
  intro b member
  rw [indent, String.toList_ofList] at member
  rcases List.mem_cons.mp member with rfl | member
  · rfl
  · rw [List.eq_of_mem_replicate member]
    rfl

section

variable {α : Type} {item : α → List Char → List Char → Prop} {texts : List String} {as : List α}

/-- Members on lines of their own are a list of them. -/
theorem listed_lines (level : Nat)
    (written : List.Forall₂ (fun t a => ∀ rest, item a (t.toList ++ rest) rest) texts as)
    (some_text : texts ≠ []) {tail rest : List Char} (after : Blanks tail rest) :
    Listed item as ('\n' :: ((String.intercalate ",\n"
      (texts.map fun t => indent level ++ t)).toList ++ tail)) rest := by
  induction written with
  | nil => exact absurd rfl some_text
  | @cons t a texts as spelled others ih =>
      cases others with
      | nil =>
          have text : (String.intercalate ",\n" ([t].map fun t => indent level ++ t)).toList ++ tail =
              (indent level).toList ++ (t.toList ++ tail) := by
            simp
          rw [text]
          exact .last (blanks_indent level _) (spelled tail) after
      | @cons t' a' texts as spelled' others =>
          have text : (String.intercalate ",\n"
              ((t :: t' :: texts).map fun t => indent level ++ t)).toList ++ tail =
              (indent level).toList ++ (t.toList ++ ',' :: '\n' :: ((String.intercalate ",\n"
                ((t' :: texts).map fun t => indent level ++ t)).toList ++ tail)) := by
            simp [String.intercalate_cons_cons]
          rw [text]
          exact .more (blanks_indent level _) (spelled _) (blanks_refl _) (ih (List.cons_ne_nil _ _))

theorem enclosed_bracketed (level : Nat) (opening closing : String) {o c : Char}
    (opens : opening.toList = [o]) (closes : closing.toList = [c])
    (written : List.Forall₂ (fun t a => ∀ rest, item a (t.toList ++ rest) rest) texts as)
    (rest : List Char) :
    ∃ inner, (bracketed level opening closing texts).toList ++ rest = o :: inner ∧
      Enclosed item c as inner rest := by
  cases written with
  | nil => exact ⟨c :: rest, by simp [bracketed, opens, closes], .empty (blanks_refl _)⟩
  | @cons t a texts as spelled others =>
      refine ⟨_, ?_, .filled (listed_lines (level + 1) (.cons spelled others)
        (List.cons_ne_nil _ _) (blanks_indent level (c :: rest)))⟩
      simp [bracketed, opens, closes]

end

theorem writes_array (level : Nat) {texts : List String} {vs : List Value}
    (written : List.Forall₂ Writes texts vs) : Writes (array level texts) (.array vs) := by
  intro rest
  obtain ⟨inner, text, enclosed⟩ := enclosed_bracketed level "[" "]" rfl rfl written rest
  rw [array, text]
  exact .array enclosed

/-- A field of a written object is a member. -/
theorem member_written {key text : String} {v : Value} (h : Writes text v) (rest : List Char) :
    Member Spells (some key, v) ((quote key ++ ": " ++ text).toList ++ rest) rest := by
  have shape : (quote key ++ ": " ++ text).toList ++ rest =
      (quote key).toList ++ ':' :: ' ' :: (text.toList ++ rest) := by
    simp
  rw [shape]
  exact .mk (quoted_quote key _) (blanks_refl _) ⟨[' '], by simp [isSpace], rfl⟩ (h rest)

theorem writes_object (level : Nat) {fields : List (String × String)}
    {members : List (Option String × Value)}
    (written : List.Forall₂ (fun f m => m.1 = some f.1 ∧ Writes f.2 m.2) fields members) :
    Writes (object level fields) (.object members) := by
  intro rest
  have lines : List.Forall₂ (fun t m => ∀ rest, Member Spells m (t.toList ++ rest) rest)
      (fields.map fun f => quote f.1 ++ ": " ++ f.2) members := by
    rw [List.forall₂_map_left_iff]
    apply written.imp
    rintro ⟨key, text⟩ ⟨_, v⟩ ⟨rfl, h⟩ rest
    exact member_written h rest
  obtain ⟨inner, text, enclosed⟩ := enclosed_bracketed level "\x7b" "\x7d" rfl rfl lines rest
  have layout : object level fields =
      bracketed level "\x7b" "\x7d" (fields.map fun f => quote f.1 ++ ": " ++ f.2) := rfl
  rw [layout, text]
  exact .object enclosed

end EncoderVectors.Json
