import EncoderVectors.Word.Bytes

/-!
# Where the words of code stand

The word of number `i` is made of the four bytes from `4 * i` on, the least one first. So code of whole
words has a word for every four of its bytes, and nothing else decides what the words are.
-/

set_option autoImplicit false

namespace EncoderVectors.Word

/-- The value of the four bytes from position `4 * i` on, the least one first. -/
def valueAt (code : List UInt8) (i : Nat) : Nat :=
  (code.getD (4 * i) 0).toNat + 0x100 * (code.getD (4 * i + 1) 0).toNat +
    0x10000 * (code.getD (4 * i + 2) 0).toNat + 0x1000000 * (code.getD (4 * i + 3) 0).toNat

theorem toNat_ofBytes (a b c d : UInt8) :
    (ofBytes a b c d).toNat =
      a.toNat + 0x100 * b.toNat + 0x10000 * c.toNat + 0x1000000 * d.toNat := by
  have ha := a.toNat_lt
  have hb := b.toNat_lt
  have hc := c.toNat_lt
  have hd := d.toNat_lt
  rw [ofBytes, UInt32.toNat_ofNat', Nat.mod_eq_of_lt (by omega)]

theorem length_group (code : List UInt8) : (group code).length = code.length / 4 := by
  fun_induction group code with
  | case1 a b c d rest ih =>
      rw [List.length_cons, ih]
      simp only [List.length_cons]
      omega
  | case2 code few =>
      have short : code.length < 4 := by
        match code with
        | [] | [_] | [_, _] | [_, _, _] => simp
        | a :: b :: c :: d :: rest => exact (few a b c d rest rfl).elim
      rw [List.length_nil, Nat.div_eq_of_lt short]

/-- The word of number `i` has the value of the bytes that stand there. -/
theorem toNat_getElem_group (code : List UInt8) (i : Nat) (h : i < (group code).length) :
    (group code)[i].toNat = valueAt code i := by
  fun_induction group code generalizing i with
  | case1 a b c d rest ih =>
      cases i with
      | zero => exact toNat_ofBytes a b c d
      | succ i =>
          -- one word further on is four bytes further on
          have later : valueAt (a :: b :: c :: d :: rest) (i + 1) = valueAt rest i := by
            simp [valueAt, Nat.mul_succ]
          rw [later, List.getElem_cons_succ]
          exact ih i (Nat.lt_of_succ_lt_succ h)
  | case2 => exact absurd h (Nat.not_lt_zero i)

theorem valueAt_lt (code : List UInt8) (i : Nat) : valueAt code i < UInt32.size := by
  have h₀ := (code.getD (4 * i) 0).toNat_lt
  have h₁ := (code.getD (4 * i + 1) 0).toNat_lt
  have h₂ := (code.getD (4 * i + 2) 0).toNat_lt
  have h₃ := (code.getD (4 * i + 3) 0).toNat_lt
  unfold valueAt UInt32.size
  omega

/-- The first `count` words of some code. -/
def wordsOf (code : List UInt8) (count : Nat) : List UInt32 :=
  (List.range count).map fun i => UInt32.ofNat (valueAt code i)

theorem length_wordsOf (code : List UInt8) (count : Nat) : (wordsOf code count).length = count := by
  simp [wordsOf]

theorem group_eq_wordsOf {code : List UInt8} {count : Nat} (h : code.length = 4 * count) :
    group code = wordsOf code count := by
  have length : (group code).length = count := by
    rw [length_group, h]
    omega
  apply List.ext_getElem
  · rw [length, length_wordsOf]
  · intro i hi _
    simp [wordsOf, ← toNat_getElem_group code i hi]

theorem ofCode_eq_ok_iff {code : List UInt8} {words : List UInt32} :
    ofCode code = .ok words ↔ code.length = 4 * words.length ∧ words = group code := by
  unfold ofCode
  constructor
  · intro h
    split at h
    · rename_i whole
      cases h
      refine ⟨?_, rfl⟩
      rw [length_group]
      omega
    · cases h
  · rintro ⟨length, rfl⟩
    rw [if_pos (by omega)]

end EncoderVectors.Word
