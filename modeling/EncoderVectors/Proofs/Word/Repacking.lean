import EncoderVectors.Run
import EncoderVectors.Proofs.Word.Bytes

/-!
# Words from code and code from words

Code of whole words and sequences of words are one thing in two forms. `toCode` writes words as code,
and `ofCode` takes back every code that was written so, and no other (`ofCode_eq_ok_iff_toCode`). Code
that is put together from code of whole words and more code has the words of both, one after another.

Main result: `ofCode_repacks`.
-/

set_option autoImplicit false

namespace EncoderVectors.Word

/-! ## One word -/

/-- The bytes of a word are its digits in base 256, the least one first. -/
theorem toNat_toBytes (w : UInt32) :
    (toBytes w).map UInt8.toNat =
      [w.toNat % 0x100, w.toNat / 0x100 % 0x100, w.toNat / 0x10000 % 0x100,
        w.toNat / 0x1000000 % 0x100] := by
  simp only [toBytes, List.map_cons, List.map_nil, UInt32.toNat_toUInt8, UInt32.toNat_shiftRight,
    UInt32.reduceToNat, Nat.reduceMod, Nat.shiftRight_eq_div_pow, Nat.reducePow]

theorem toBytes_ofBytes (a b c d : UInt8) : toBytes (ofBytes a b c d) = [a, b, c, d] := by
  have ha := a.toNat_lt
  have hb := b.toNat_lt
  have hc := c.toNat_lt
  have hd := d.toNat_lt
  apply (List.map_inj_right fun _ _ => UInt8.toNat_inj.mp).mp
  rw [toNat_toBytes, toNat_ofBytes]
  simp only [List.map_cons, List.map_nil, List.cons.injEq, and_true]
  omega

/-- Four bytes at the front make the first word. -/
theorem group_toBytes_append (w : UInt32) (rest : List UInt8) :
    group (toBytes w ++ rest) = w :: group rest := by
  have bound := w.toNat_lt
  have digits := toNat_toBytes w
  simp only [toBytes, List.map_cons, List.map_nil, List.cons.injEq, and_true] at digits
  obtain ⟨first, second, third, fourth⟩ := digits
  have whole : ofBytes w.toUInt8 (w >>> 8).toUInt8 (w >>> 16).toUInt8 (w >>> 24).toUInt8 = w := by
    apply UInt32.toNat_inj.mp
    rw [toNat_ofBytes, first, second, third, fourth]
    omega
  exact congrArg (· :: group rest) whole

/-! ## Many words -/

theorem length_toCode (words : List UInt32) : (toCode words).length = 4 * words.length := by
  induction words with
  | nil => rfl
  | cons w words ih =>
      have bytes : (toBytes w).length = 4 := rfl
      rw [toCode, List.flatMap_cons, List.length_append, bytes, ← toCode, ih, List.length_cons]
      omega

/-- The words that some code starts with are the first ones found in it. -/
theorem group_toCode_append (words : List UInt32) (rest : List UInt8) :
    group (toCode words ++ rest) = words ++ group rest := by
  induction words with
  | nil => rfl
  | cons w words ih =>
      rw [toCode, List.flatMap_cons, List.append_assoc, group_toBytes_append, ← toCode, ih]
      rfl

theorem toCode_group {code : List UInt8} (whole : 4 ∣ code.length) :
    toCode (group code) = code := by
  fun_induction group code with
  | case1 a b c d rest ih =>
      have shorter : 4 ∣ rest.length := by
        simp only [List.length_cons] at whole
        omega
      rw [toCode, List.flatMap_cons, toBytes_ofBytes, ← toCode, ih shorter]
      rfl
  | case2 code few =>
      -- fewer than four bytes are left, and their number is a multiple of four
      rcases code with _ | ⟨a, _ | ⟨b, _ | ⟨c, _ | ⟨d, rest⟩⟩⟩⟩
      · rfl
      · simp at whole
      · simp at whole
      · simp at whole
      · exact (few a b c d rest rfl).elim

/-! ## Taking code back -/

theorem ofCode_eq_error_iff {code : List UInt8} {n : Nat} :
    ofCode code = .error n ↔ ¬ 4 ∣ code.length ∧ n = code.length := by
  rw [ofCode, Nat.dvd_iff_mod_eq_zero]
  split
  · next whole => simp [whole]
  · next broken => simp [broken, eq_comm]

/-- Code is taken back as the words that it was written from, and as no others. -/
theorem ofCode_eq_ok_iff_toCode {code : List UInt8} {words : List UInt32} :
    ofCode code = .ok words ↔ toCode words = code := by
  rw [ofCode_eq_ok_iff]
  constructor
  · rintro ⟨length, rfl⟩
    exact toCode_group ⟨_, length⟩
  · rintro rfl
    refine ⟨length_toCode words, ?_⟩
    have found := group_toCode_append words []
    have none : group [] = [] := rfl
    rw [List.append_nil, none, List.append_nil] at found
    exact found.symm

theorem toCode_injective {words words' : List UInt32} (same : toCode words = toCode words') :
    words = words' := by
  have taken := ofCode_eq_ok_iff_toCode.mpr same
  rw [ofCode_eq_ok_iff_toCode.mpr rfl] at taken
  exact (Except.ok.inj taken).symm

/-- Behind code of whole words, words are found as if that code were not there. -/
theorem ofCode_append_eq_ok_iff {code more : List UInt8} (whole : 4 ∣ code.length)
    {words : List UInt32} :
    ofCode (code ++ more) = .ok words ↔
      ∃ front back, ofCode code = .ok front ∧ ofCode more = .ok back ∧ words = front ++ back := by
  have joined (front back : List UInt32) : toCode (front ++ back) = toCode front ++ toCode back :=
    List.flatMap_append
  simp only [ofCode_eq_ok_iff_toCode]
  constructor
  · intro taken
    have length := congrArg List.length taken
    rw [length_toCode, List.length_append] at length
    have rest : 4 ∣ more.length := by omega
    refine ⟨group code, group more, toCode_group whole, toCode_group rest, ?_⟩
    -- the words of the parts are written as the same code
    apply toCode_injective
    rw [taken, joined, toCode_group whole, toCode_group rest]
  · rintro ⟨front, back, rfl, rfl, rfl⟩
    exact joined front back

/-- Code is refused exactly when its length is no multiple of four, and the refusal reports the
length. Code that is taken back has a word for every four bytes, and the bytes of these words are the
code. Every sequence of words is taken back from its bytes. Behind code of whole words, more code adds
its own words, and is refused exactly when it would be refused alone. -/
theorem ofCode_repacks (code : List UInt8) :
    (∀ n, ofCode code = .error n ↔ ¬ 4 ∣ code.length ∧ n = code.length) ∧
    (∀ e n, Fixture.ofCode e code = .error (.misaligned n) ↔ ¬ 4 ∣ code.length ∧ n = code.length) ∧
    (∀ words, ofCode code = .ok words → words.length = code.length / 4 ∧ toCode words = code) ∧
    (∀ words, ofCode (toCode words) = .ok words) ∧
    (4 ∣ code.length → ∀ more,
      (∀ words, ofCode (code ++ more) = .ok words ↔
        ∃ front back, ofCode code = .ok front ∧ ofCode more = .ok back ∧ words = front ++ back) ∧
      ((∃ n, ofCode (code ++ more) = .error n) ↔ ¬ 4 ∣ more.length)) := by
  refine ⟨fun n => ofCode_eq_error_iff, ?_, ?_, ?_, ?_⟩
  · intro e n
    rw [← ofCode_eq_error_iff, Fixture.ofCode]
    cases ofCode code with
    | error length => simp
    | ok words => cases paired : Fixture.pair e words <;> simp [paired]
  · intro words taken
    have length := (ofCode_eq_ok_iff.mp taken).1
    exact ⟨by omega, ofCode_eq_ok_iff_toCode.mp taken⟩
  · exact fun words => ofCode_eq_ok_iff_toCode.mpr rfl
  · intro whole more
    refine ⟨fun words => ofCode_append_eq_ok_iff whole, ?_⟩
    simp [ofCode_eq_error_iff, Nat.dvd_add_right whole]

/-- Control: the word of a jump backwards, and what half a word behind it makes of it. -/
theorem ofCode_repacks_jump :
    let jump : List UInt8 := [0x6F, 0xF0, 0x9F, 0xFF]
    4 ∣ jump.length ∧ ofCode jump = .ok [0xFF9FF06F] ∧ ofCode (jump ++ jump) =
      .ok [0xFF9FF06F, 0xFF9FF06F] ∧ ∃ n, ofCode (jump ++ [0x13, 0]) = .error n := by
  intro jump
  obtain ⟨-, -, -, back, joined⟩ := ofCode_repacks jump
  have whole : 4 ∣ jump.length := by decide
  have taken : ofCode jump = .ok [0xFF9FF06F] := back [0xFF9FF06F]
  exact ⟨whole, taken, ((joined whole jump).1 _).mpr ⟨_, _, taken, taken, rfl⟩,
    (joined whole [0x13, 0]).2.mpr (by decide)⟩

end EncoderVectors.Word
