import Mathlib.Data.List.Basic

/-!
# Reading tokens

Fixed tokens, items listed with commas, and choices among a few spellings. A list of items is read
with a comma in front of every item, the first included, so that no item is special; `commaLed` puts
that comma there and `commaLed_intercalate` says that it does so exactly.

A choice is recognized by the text it ends in, or by the text it opens with. It is read back when no
two choices can be mistaken for each other.
-/

set_option autoImplicit false

namespace EncoderVectors.Text

/-- Takes a fixed token off the front. -/
def expect (token : String) (cs : List Char) : Option (List Char) :=
  cs.dropPrefix? token.toList

@[simp] theorem expect_append (token : String) (rest : List Char) :
    expect token (token.toList ++ rest) = some rest :=
  List.dropPrefix?_append_of_beq rest (beq_self_eq_true _)

/-- Takes a fixed token off the end. -/
def expectLast (token : String) (cs : List Char) : Option (List Char) :=
  cs.dropSuffix? token.toList

@[simp] theorem expectLast_append (token : String) (before : List Char) :
    expectLast token (before ++ token.toList) = some before :=
  List.dropSuffix?_eq_some_iff.mpr ⟨token.toList, rfl, beq_self_eq_true _⟩

/-! ## Lists of items -/

/-- Items with a comma and a space in front of each. -/
def listed (items : List String) : List Char :=
  items.flatMap fun item => ", ".toList ++ item.toList

@[simp] theorem listed_nil : listed [] = [] := rfl

@[simp] theorem listed_cons (item : String) (items : List String) :
    listed (item :: items) = ", ".toList ++ (item.toList ++ listed items) := by
  simp [listed]

@[simp] theorem listed_append (items more : List String) :
    listed (items ++ more) = listed items ++ listed more := by
  simp [listed]

/-- The text of a list with a comma and a space in front of its first item, if it has one. -/
def commaLed : List Char → List Char
  | [] => []
  | cs => ", ".toList ++ cs

theorem commaLed_of_ne_nil {cs : List Char} (h : cs ≠ []) : commaLed cs = ", ".toList ++ cs := by
  cases cs with
  | nil => exact absurd rfl h
  | cons c cs => rfl

/-- Items joined by commas are the listed items without the first comma. -/
theorem listed_eq_append_intercalate (item : String) (items : List String) :
    listed (item :: items) = ", ".toList ++ (String.intercalate ", " (item :: items)).toList := by
  induction items generalizing item with
  | nil => simp
  | cons next items ih =>
      rw [listed_cons, ih next, String.intercalate_cons_cons, String.toList_append,
        String.toList_append, List.append_assoc]

/-- Only one item, and that without any text, would be taken for no item at all. -/
theorem commaLed_intercalate {items : List String} (h : items ≠ [""]) :
    commaLed (String.intercalate ", " items).toList = listed items := by
  cases items with
  | nil => simp [commaLed]
  | cons item items =>
      rw [listed_eq_append_intercalate]
      apply commaLed_of_ne_nil
      cases items with
      | nil => simpa using h
      | cons next items => simp [String.intercalate_cons_cons]

/-! ## Choices -/

section Choice

variable {α β : Type}

/-- A search that only ever finds one thing, and finds it somewhere, yields it. -/
theorem findSome?_eq_some_of_unique {f : α → Option β} {choices : List α} {a : α} {b : β}
    (mem : a ∈ choices) (found : f a = some b)
    (unique : ∀ x ∈ choices, ∀ y, f x = some y → y = b) : choices.findSome? f = some b := by
  cases result : choices.findSome? f with
  | none => exact absurd (List.findSome?_eq_none_iff.mp result a mem) (by simp [found])
  | some y =>
      obtain ⟨x, hx, hy⟩ := List.exists_of_findSome?_eq_some result
      rw [unique x hx y hy]

/-- The choice whose text the characters end in, and what stands before it. -/
def readLast (choices : List α) (text : α → String) (cs : List Char) : Option (α × List Char) :=
  choices.findSome? fun a => (expectLast (text a) cs).map fun before => (a, before)

/-- Choices of distinct texts of one length are told apart by the end of what they are read from. -/
theorem readLast_append {choices : List α} (text : α → String) {a : α} (mem : a ∈ choices)
    (injective : ∀ x ∈ choices, text x = text a → x = a)
    (width : ∀ x ∈ choices, (text x).length = (text a).length) (before : List Char) :
    readLast choices text (before ++ (text a).toList) = some (a, before) := by
  apply findSome?_eq_some_of_unique mem
  · simp
  · rintro x hx ⟨x', before'⟩ hy
    simp only [Option.map_eq_some_iff, Prod.mk.injEq] at hy
    obtain ⟨front, cut, rfl, rfl⟩ := hy
    obtain ⟨tail, split, same⟩ := List.dropSuffix?_eq_some_iff.mp cut
    rw [eq_of_beq same] at split
    -- both texts end the same characters and have one length, so they are the same
    have lengths : (text x).toList.length = (text a).toList.length := by
      rw [String.length_toList, String.length_toList, width x hx]
    obtain ⟨sameFront, sameText⟩ := List.append_inj' split lengths.symm
    rw [injective x hx (String.toList_inj.mp sameText.symm), sameFront]

/-- The choice whose text the characters open with, and what stands after it. -/
def readFirst (choices : List α) (text : α → String) (cs : List Char) : Option (α × List Char) :=
  choices.findSome? fun a => (expect (text a) cs).map fun rest => (a, rest)

/-- Choices whose first characters differ are told apart by the front of what they are read from. -/
theorem readFirst_append {choices : List α} (text : α → String) {a : α} (mem : a ∈ choices)
    (nonempty : ∀ x ∈ choices, text x ≠ "")
    (injective : ∀ x ∈ choices, (text x).toList.head? = (text a).toList.head? → x = a)
    (rest : List Char) : readFirst choices text ((text a).toList ++ rest) = some (a, rest) := by
  apply findSome?_eq_some_of_unique mem
  · simp
  · rintro x hx ⟨x', rest'⟩ hy
    simp only [Option.map_eq_some_iff, Prod.mk.injEq] at hy
    obtain ⟨tail, cut, rfl, rfl⟩ := hy
    obtain ⟨front, split, same⟩ := List.dropPrefix?_eq_some_iff.mp cut
    rw [eq_of_beq same] at split
    -- neither text is empty, so both open with the first character that is read
    have heads : (text x).toList.head? = (text a).toList.head? := by
      have left := congrArg List.head? split
      rwa [List.head?_append_of_ne_nil _ (by simpa using nonempty a mem),
        List.head?_append_of_ne_nil _ (by simpa using nonempty x hx), eq_comm] at left
    have choice := injective x hx heads
    subst choice
    exact Prod.ext rfl (List.append_cancel_left split).symm

/-- The choice whose text is exactly what is read. -/
def readWhole (choices : List α) (text : α → String) (cs : List Char) : Option α :=
  choices.find? fun a => decide ((text a).toList = cs)

/-- Choices of distinct texts are told apart by their whole text. -/
theorem readWhole_toList {choices : List α} (text : α → String) {a : α} (mem : a ∈ choices)
    (injective : ∀ x ∈ choices, text x = text a → x = a) :
    readWhole choices text (text a).toList = some a := by
  cases result : readWhole choices text (text a).toList with
  | none =>
      have missed := List.find?_eq_none.mp result a mem
      simp at missed
  | some x =>
      have found := List.find?_some (p := fun x => decide ((text x).toList = (text a).toList)) result
      rw [injective x (List.mem_of_find?_eq_some result) (String.toList_inj.mp (of_decide_eq_true found))]

end Choice

end EncoderVectors.Text
