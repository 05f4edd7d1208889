import EncoderVectors.Json.Reader

/-!
# The grammar of JSON text

What it means for characters to be a JSON text, said without a reader. Every relation of the grammar
is between the characters at hand and those that are left: `Spells v cs rest` says that `cs` is a text
of the value `v` and then `rest`. Blanks may stand around every value and every mark, a string may
spell its characters in several ways, and the members of an object stand in any order.

A string whose escapes leave half of a surrogate pair unpaired is a string of the grammar, but it
stands for no characters. Its content is `none`.
-/

set_option autoImplicit false

namespace EncoderVectors.Json

/-- A value of the format. -/
inductive Value where
  /-- The null. -/
  | null
  /-- A truth value. -/
  | boolean (value : Bool)
  /-- A number, by its text. -/
  | number (parts : NumberText)
  /-- A string; it has no content if an escape in it stands for no character. -/
  | text (content : Option String)
  /-- An array. -/
  | array (elements : List Value)
  /-- An object: keys and values in order. -/
  | object (members : List (Option String × Value))

/-- Blanks, and then `rest`. -/
def Blanks (cs rest : List Char) : Prop :=
  ∃ blanks, (∀ b ∈ blanks, isSpace b = true) ∧ cs = blanks ++ rest

/-! ## Strings -/

/-- The inside of a string that stands for the characters `s`, its closing quote, and then `rest`. -/
inductive Inside : List Char → List Char → List Char → Prop
  /-- The closing quote. -/
  | close {rest : List Char} : Inside [] ('"' :: rest) rest
  /-- A character that stands for itself. -/
  | plain {c : Char} {s cs rest : List Char} (quote : c ≠ '"') (backslash : c ≠ '\\')
      (seen : 0x20 ≤ c.toNat) (more : Inside s cs rest) : Inside (c :: s) (c :: cs) rest
  /-- A backslash and a letter. -/
  | letter {e c : Char} {s cs rest : List Char} (meaning : escapeChar? e = some c)
      (more : Inside s cs rest) : Inside (c :: s) ('\\' :: e :: cs) rest
  /-- A code unit that is a character. -/
  | unit {a b c d : Char} {u : Nat} {s cs rest : List Char} (meaning : unit? a b c d = some u)
      (low : isLowHalf u = false) (high : isHighHalf u = false) (more : Inside s cs rest) :
      Inside (Char.ofNat u :: s) ('\\' :: 'u' :: a :: b :: c :: d :: cs) rest
  /-- Two code units that make a character together. -/
  | pair {a b c d e f g h : Char} {u v : Nat} {s cs rest : List Char}
      (meaning : unit? a b c d = some u) (high : isHighHalf u = true)
      (second : unit? e f g h = some v) (low : isLowHalf v = true) (more : Inside s cs rest) :
      Inside (pairChar u v :: s)
        ('\\' :: 'u' :: a :: b :: c :: d :: '\\' :: 'u' :: e :: f :: g :: h :: cs) rest

/-- The inside of a string whose escapes are well formed, its closing quote, and then `rest`. -/
inductive Formed : List Char → List Char → Prop
  /-- The closing quote. -/
  | close {rest : List Char} : Formed ('"' :: rest) rest
  /-- A character that stands for itself. -/
  | plain {c : Char} {cs rest : List Char} (quote : c ≠ '"') (backslash : c ≠ '\\')
      (seen : 0x20 ≤ c.toNat) (more : Formed cs rest) : Formed (c :: cs) rest
  /-- A backslash and a letter. -/
  | letter {e c : Char} {cs rest : List Char} (meaning : escapeChar? e = some c)
      (more : Formed cs rest) : Formed ('\\' :: e :: cs) rest
  /-- A code unit. -/
  | unit {a b c d : Char} {u : Nat} {cs rest : List Char} (meaning : unit? a b c d = some u)
      (more : Formed cs rest) : Formed ('\\' :: 'u' :: a :: b :: c :: d :: cs) rest

/-- A string with its quotes, and then `rest`. -/
inductive Quoted : Option String → List Char → List Char → Prop
  /-- A string that stands for characters. -/
  | whole {s : String} {cs rest : List Char} (inside : Inside s.toList cs rest) :
      Quoted (some s) ('"' :: cs) rest
  /-- A string that stands for no characters. -/
  | unpaired {cs rest : List Char} (formed : Formed cs rest) (nothing : ∀ s, ¬ Inside s cs rest) :
      Quoted none ('"' :: cs) rest

/-! ## Numbers -/

/-- At least one digit, and nothing else. -/
def Digits (ds : List Char) : Prop :=
  ds ≠ [] ∧ ∀ d ∈ ds, d.isDigit = true

/-- Digits that start with no zero, or a zero alone. -/
def WholeDigits (ds : List Char) : Prop :=
  Digits ds ∧ (ds.head? = some '0' → ds = ['0'])

/-- The point and the digits after it, if there are any. -/
inductive FractionText : Option (List Char) → List Char → Prop
  /-- No point. -/
  | none : FractionText none []
  /-- A point with digits after it. -/
  | some {ds : List Char} (digits : Digits ds) : FractionText (some ds) ('.' :: ds)

/-- The sign of an exponent: a minus, a plus, or nothing. -/
inductive SignText : Bool → List Char → Prop
  /-- No sign. -/
  | none : SignText false []
  /-- A plus sign. -/
  | plus : SignText false ['+']
  /-- A minus sign. -/
  | minus : SignText true ['-']

/-- The exponent, if there is one. -/
inductive ExponentText : Option (Bool × List Char) → List Char → Prop
  /-- No exponent. -/
  | none : ExponentText none []
  /-- The mark of an exponent, a sign and digits. -/
  | some {mark : Char} {negative : Bool} {sign ds : List Char} (marked : mark = 'e' ∨ mark = 'E')
      (signed : SignText negative sign) (digits : Digits ds) :
      ExponentText (some (negative, ds)) (mark :: (sign ++ ds))

/-- The text of a number, and then `rest`. -/
inductive Numeral : NumberText → List Char → List Char → Prop
  /-- A sign, digits, a fraction and an exponent. -/
  | mk {negative : Bool} {whole : List Char} {fraction : Option (List Char)}
      {exponent : Option (Bool × List Char)} {point power : List Char} (rest : List Char)
      (digits : WholeDigits whole) (fractional : FractionText fraction point)
      (exponential : ExponentText exponent power) :
      Numeral ⟨negative, whole, fraction, exponent⟩
        ((if negative then ['-'] else []) ++ (whole ++ (point ++ (power ++ rest)))) rest

/-! ## Values -/

section

variable {α : Type}

/-- Items with commas between them and blanks around them, and then `rest`. -/
inductive Listed (item : α → List Char → List Char → Prop) :
    List α → List Char → List Char → Prop
  /-- The last item. -/
  | last {a : α} {cs₀ cs₁ cs₂ rest : List Char} (before : Blanks cs₀ cs₁) (spelled : item a cs₁ cs₂)
      (after : Blanks cs₂ rest) : Listed item [a] cs₀ rest
  /-- An item that others follow. -/
  | more {a : α} {as : List α} {cs₀ cs₁ cs₂ cs₃ rest : List Char} (before : Blanks cs₀ cs₁)
      (spelled : item a cs₁ cs₂) (after : Blanks cs₂ (',' :: cs₃)) (others : Listed item as cs₃ rest) :
      Listed item (a :: as) cs₀ rest

/-- Any number of items up to a closing mark, and then `rest`. -/
inductive Enclosed (item : α → List Char → List Char → Prop) (closing : Char) :
    List α → List Char → List Char → Prop
  /-- No items. -/
  | empty {cs rest : List Char} (blank : Blanks cs (closing :: rest)) :
      Enclosed item closing [] cs rest
  /-- Some items. -/
  | filled {as : List α} {cs rest : List Char} (listed : Listed item as cs (closing :: rest)) :
      Enclosed item closing as cs rest

/-- A key, a colon and an item, and then `rest`. -/
inductive Member (item : α → List Char → List Char → Prop) :
    Option String × α → List Char → List Char → Prop
  /-- Blanks may stand around the colon. -/
  | mk {key : Option String} {a : α} {cs cs₁ cs₂ cs₃ rest : List Char} (quoted : Quoted key cs cs₁)
      (before : Blanks cs₁ (':' :: cs₂)) (after : Blanks cs₂ cs₃) (spelled : item a cs₃ rest) :
      Member item (key, a) cs rest

end

/-- A text of a value, and then `rest`. -/
inductive Spells : Value → List Char → List Char → Prop
  /-- The null. -/
  | null {rest : List Char} : Spells .null ('n' :: 'u' :: 'l' :: 'l' :: rest) rest
  /-- The truth. -/
  | truth {rest : List Char} : Spells (.boolean true) ('t' :: 'r' :: 'u' :: 'e' :: rest) rest
  /-- The untruth. -/
  | untruth {rest : List Char} :
      Spells (.boolean false) ('f' :: 'a' :: 'l' :: 's' :: 'e' :: rest) rest
  /-- A number. -/
  | number {parts : NumberText} {cs rest : List Char} (numeral : Numeral parts cs rest) :
      Spells (.number parts) cs rest
  /-- A string. -/
  | text {content : Option String} {cs rest : List Char} (quoted : Quoted content cs rest) :
      Spells (.text content) cs rest
  /-- An array. -/
  | array {elements : List Value} {cs rest : List Char}
      (enclosed : Enclosed Spells ']' elements cs rest) :
      Spells (.array elements) ('[' :: cs) rest
  /-- An object. -/
  | object {members : List (Option String × Value)} {cs rest : List Char}
      (enclosed : Enclosed (Member Spells) '\x7d' members cs rest) :
      Spells (.object members) ('\x7b' :: cs) rest

/-- The text is a JSON text of the value, with blanks around it. -/
def IsText (v : Value) (text : String) : Prop :=
  ∃ cs rest, Blanks text.toList cs ∧ Spells v cs rest ∧ Blanks rest []

end EncoderVectors.Json
