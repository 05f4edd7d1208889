import Mathlib.Data.List.Basic
import EncoderVectors.Text.Utf8

/-!
# Texts through bytes

The bytes of a text are read back as the text (`ofUtf8?_utf8`). Characters take one to four bytes, and
for each number of bytes there is a table of what the first byte opens. No byte of a text is zero,
unless the text holds the zero character (`zero_not_mem_utf8`).
-/

set_option autoImplicit false

namespace EncoderVectors.Text

/-! ## First bytes -/

theorem lead_one {n : Nat} (h : n < 0x80) : lead (UInt8.ofNat n) = .whole (Char.ofNat n) := by
  have table : ∀ k : Fin 0x80, lead (UInt8.ofNat k) = .whole (Char.ofNat k) := by decide
  exact table ⟨n, h⟩

theorem lead_two {n : Nat} (low : 2 ≤ n) (high : n < 32) :
    lead (UInt8.ofNat (n + 192)) = .opened ⟨n, 0, 0x80, 0xBF⟩ := by
  have table : ∀ k : Fin 32, 2 ≤ k.val →
      lead (UInt8.ofNat (k + 192)) = .opened ⟨k, 0, 0x80, 0xBF⟩ := by decide
  exact table ⟨n, high⟩ low

theorem lead_three {n : Nat} (high : n < 16) :
    lead (UInt8.ofNat (n + 224)) =
      .opened ⟨n, 1, if n = 0 then 0xA0 else 0x80, if n = 13 then 0x9F else 0xBF⟩ := by
  have table : ∀ k : Fin 16, lead (UInt8.ofNat (k + 224)) =
      .opened ⟨k, 1, if k.val = 0 then 0xA0 else 0x80, if k.val = 13 then 0x9F else 0xBF⟩ := by
    decide
  exact table ⟨n, high⟩

theorem lead_four {n : Nat} (high : n < 5) :
    lead (UInt8.ofNat (n + 240)) =
      .opened ⟨n, 2, if n = 0 then 0x90 else 0x80, if n = 4 then 0x8F else 0xBF⟩ := by
  have table : ∀ k : Fin 5, lead (UInt8.ofNat (k + 240)) =
      .opened ⟨k, 2, if k.val = 0 then 0x90 else 0x80, if k.val = 4 then 0x8F else 0xBF⟩ := by
    decide
  exact table ⟨n, high⟩

theorem decodeUtf8From_opened {b : UInt8} {u : Unfinished} (opened : lead b = .opened u)
    (rest : List UInt8) : decodeUtf8From none (b :: rest) = decodeUtf8From (some u) rest := by
  rw [decodeUtf8From, opened]

/-! ## Further bytes -/

/-- A byte that goes on with a character carries six bits of it. -/
theorem decodeUtf8From_going {value later n : Nat} {least most : UInt8} (rest : List UInt8)
    (low : least.toNat ≤ n + 128) (high : n + 128 ≤ most.toNat) (six : n < 64) :
    decodeUtf8From (some ⟨value, later, least, most⟩) (UInt8.ofNat (n + 128) :: rest) =
      match later with
      | 0 => some (Char.ofNat (value * 64 + n)) :: decodeUtf8From none rest
      | later + 1 => decodeUtf8From (some ⟨value * 64 + n, later, 0x80, 0xBF⟩) rest := by
  have byte : (UInt8.ofNat (n + 128)).toNat = n + 128 := by
    rw [UInt8.toNat_ofNat']
    omega
  have bits : (n + 128) % 64 = n := by omega
  have within : (least ≤ UInt8.ofNat (n + 128) && UInt8.ofNat (n + 128) ≤ most) = true := by
    simp only [Bool.and_eq_true, decide_eq_true_eq, UInt8.le_iff_toNat_le, byte]
    exact ⟨low, high⟩
  cases later with
  | zero =>
      rw [decodeUtf8From, if_pos within, byte, bits]
  | succ later =>
      rw [decodeUtf8From, if_pos within, byte, bits]

theorem decodeUtf8From_further {value later n : Nat} (rest : List UInt8) (six : n < 64) :
    decodeUtf8From (some ⟨value, later, 0x80, 0xBF⟩) (UInt8.ofNat (n + 128) :: rest) =
      match later with
      | 0 => some (Char.ofNat (value * 64 + n)) :: decodeUtf8From none rest
      | later + 1 => decodeUtf8From (some ⟨value * 64 + n, later, 0x80, 0xBF⟩) rest := by
  apply decodeUtf8From_going rest _ _ six
  · exact Nat.le_add_left 128 n
  · show n + 128 ≤ 191
    omega

/-! ## Characters and texts -/

/-- No character is a surrogate, and none lies above the last code point. -/
theorem toNat_bounds (c : Char) : c.toNat < 0xD800 ∨ 0xDFFF < c.toNat ∧ c.toNat < 0x110000 :=
  c.valid

theorem decodeUtf8From_utf8EncodeChar (c : Char) (rest : List UInt8) :
    decodeUtf8From none (String.utf8EncodeChar c ++ rest) = some c :: decodeUtf8From none rest := by
  have bounds := toNat_bounds c
  have back := Char.ofNat_toNat c
  have value : c.val.toNat = c.toNat := rfl
  rw [String.utf8EncodeChar, value]
  generalize c.toNat = v at bounds back
  subst back
  split
  · next one =>
      rw [List.singleton_append, decodeUtf8From, lead_one (by omega)]
  split
  · next two =>
      have whole : v / 64 % 32 * 64 + v % 64 = v := by omega
      rw [List.cons_append, decodeUtf8From_opened (lead_two (by omega) (by omega)),
        List.singleton_append, decodeUtf8From_further rest (by omega), whole]
  split
  · next three =>
      have whole : (v / 4096 % 16 * 64 + v / 64 % 64) * 64 + v % 64 = v := by omega
      rw [List.cons_append, decodeUtf8From_opened (lead_three (by omega)), List.cons_append,
        decodeUtf8From_going _ _ _ (by omega), List.singleton_append]
      · dsimp only
        rw [decodeUtf8From_further rest (by omega), whole]
      -- a second byte that would make the form overlong or a surrogate is not there
      · split
        · show 160 ≤ v / 64 % 64 + 128
          omega
        · exact Nat.le_add_left 128 _
      · split
        · show v / 64 % 64 + 128 ≤ 159
          omega
        · show v / 64 % 64 + 128 ≤ 191
          omega
  · next four =>
      have whole : ((v / 262144 % 8 * 64 + v / 4096 % 64) * 64 + v / 64 % 64) * 64 + v % 64 = v := by
        omega
      rw [List.cons_append, decodeUtf8From_opened (lead_four (by omega)), List.cons_append,
        decodeUtf8From_going _ _ _ (by omega), List.cons_append]
      · dsimp only
        rw [decodeUtf8From_further _ (by omega), List.singleton_append]
        dsimp only
        rw [decodeUtf8From_further rest (by omega), whole]
      -- nor one that would lead above the last code point
      · split
        · show 144 ≤ v / 4096 % 64 + 128
          omega
        · exact Nat.le_add_left 128 _
      · split
        · show v / 4096 % 64 + 128 ≤ 143
          omega
        · show v / 4096 % 64 + 128 ≤ 191
          omega

theorem decodeUtf8_flatMap (cs : List Char) :
    decodeUtf8 (cs.flatMap String.utf8EncodeChar) = cs.map some := by
  induction cs with
  | nil => rfl
  | cons c cs ih =>
      rw [decodeUtf8, List.flatMap_cons, decodeUtf8From_utf8EncodeChar, List.map_cons, ← ih]
      rfl

/-- The bytes of a text are read back as the text. -/
theorem ofUtf8?_utf8 (text : String) : ofUtf8? (utf8 text) = some text := by
  rw [ofUtf8?, utf8, decodeUtf8_flatMap]
  simp [List.filterMap_map, String.ofList_toList]

theorem utf8_injective {a b : String} (same : utf8 a = utf8 b) : a = b := by
  have read := ofUtf8?_utf8 a
  rw [same, ofUtf8?_utf8] at read
  exact (Option.some.inj read).symm

/-! ## Zero bytes -/

/-- Only the zero character has a zero byte. -/
theorem zero_not_mem_utf8EncodeChar {c : Char} (free : c ≠ '\x00') :
    0 ∉ String.utf8EncodeChar c := by
  have small : ∀ n, 0 < n → n < 256 → (0 : UInt8) ≠ UInt8.ofNat n := by
    intro n pos below zero
    have value := congrArg UInt8.toNat zero
    rw [UInt8.toNat_ofNat', Nat.mod_eq_of_lt below] at value
    exact absurd value (Nat.ne_of_lt pos)
  have pos : 0 < c.val.toNat := by
    apply Nat.pos_of_ne_zero
    intro zero
    exact free (Char.toNat_inj.mp zero)
  rw [String.utf8EncodeChar]
  generalize c.val.toNat = v at pos
  split
  · simp only [List.mem_cons, List.not_mem_nil, or_false]
    exact small _ pos (by omega)
  -- every byte of a longer form is 128 at least
  split
  · simp only [List.mem_cons, List.not_mem_nil, or_false, not_or]
    exact ⟨small _ (by omega) (by omega), small _ (by omega) (by omega)⟩
  split
  · simp only [List.mem_cons, List.not_mem_nil, or_false, not_or]
    exact ⟨small _ (by omega) (by omega), small _ (by omega) (by omega),
      small _ (by omega) (by omega)⟩
  · simp only [List.mem_cons, List.not_mem_nil, or_false, not_or]
    exact ⟨small _ (by omega) (by omega), small _ (by omega) (by omega),
      small _ (by omega) (by omega), small _ (by omega) (by omega)⟩

theorem zero_not_mem_utf8 {text : String} (free : '\x00' ∉ text.toList) : 0 ∉ utf8 text := by
  intro zero
  obtain ⟨c, inside, zero⟩ := List.mem_flatMap.mp zero
  refine zero_not_mem_utf8EncodeChar ?_ zero
  rintro rfl
  exact free inside

end EncoderVectors.Text
