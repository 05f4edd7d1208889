import EncoderVectors.Proofs.Emission.Layout
import EncoderVectors.Proofs.Fixture.Pairing
import Mathlib.Tactic.SplitIfs

/-!
# Words without their target fields

What the forms of a control transfer are compared by is the word outside its target field, and nothing
less. Two words count as the same exactly when they agree under a mask that depends on the opcode:
`0x01FFF07F` for a conditional branch, `0xFFF` for a jump, and everything for any other word
(`targetFree_eq_iff`).

Both encodings are undone field by field. So the encodings of one transfer with any offsets agree, and
control transfers that agree are encodings of one transfer (`targetFree_exact`).

Words are compared bit by bit: a field that is cut out is the same as the word under a shifted mask
(`slice_eq_iff`), and masks are put together by `or` (`and_or_eq_iff`).
-/

set_option autoImplicit false

namespace EncoderVectors.Word

/-! ## Bits -/

/-- Bit number `i` of a word, the least one being number 0. -/
def bit (w : UInt32) (i : Nat) : Bool :=
  w.toBitVec.getLsbD i

theorem eq_of_bits {v w : UInt32} (same : ∀ i < 32, bit v i = bit w i) : v = w := by
  apply UInt32.toBitVec_inj.mp
  exact BitVec.eq_of_getLsbD_eq fun i h => same i h

theorem bit_of_le (w : UInt32) {i : Nat} (h : 32 ≤ i) : bit w i = false :=
  BitVec.getLsbD_of_ge _ _ h

@[simp] theorem bit_and (v w : UInt32) (i : Nat) : bit (v &&& w) i = (bit v i && bit w i) := by
  simp [bit]

@[simp] theorem bit_or (v w : UInt32) (i : Nat) : bit (v ||| w) i = (bit v i || bit w i) := by
  simp [bit]

theorem bit_shiftRight (w : UInt32) {k : UInt32} (h : k.toNat < 32) (i : Nat) :
    bit (w >>> k) i = bit w (k.toNat + i) := by
  simp [bit, UInt32.toBitVec_shiftRight, BitVec.getLsbD_ushiftRight, Nat.mod_eq_of_lt h]

theorem bit_shiftLeft (w : UInt32) {k : UInt32} (h : k.toNat < 32) (i : Nat) :
    bit (w <<< k) i = (decide (i < 32) && !decide (i < k.toNat) && bit w (i - k.toNat)) := by
  simp [bit, UInt32.toBitVec_shiftLeft, BitVec.getLsbD_shiftLeft, Nat.mod_eq_of_lt h]

theorem bit_ones {n : Nat} (h : n ≤ 32) (i : Nat) :
    bit (UInt32.ofNat (2 ^ n - 1)) i = decide (i < n) := by
  have fits : 2 ^ n - 1 < 2 ^ 32 := by
    have most : 2 ^ n ≤ 2 ^ 32 := Nat.pow_le_pow_right (by decide) h
    have least : 0 < 2 ^ n := Nat.two_pow_pos n
    omega
  rw [bit, BitVec.getLsbD, UInt32.toNat_toBitVec, UInt32.toNat_ofNat_of_lt' fits,
    Nat.testBit_two_pow_sub_one]

/-- The mask has the `n` lowest bits, and moved up by `k` it stays in the word. -/
def IsField (m k : UInt32) (n : Nat) : Prop :=
  m = UInt32.ofNat (2 ^ n - 1) ∧ k.toNat < 32 ∧ n + k.toNat ≤ 32

instance (m k : UInt32) (n : Nat) : Decidable (IsField m k n) :=
  inferInstanceAs (Decidable (_ ∧ _ ∧ _))

/-- The bits of a field that is cut out of a word. -/
theorem bit_slice (w : UInt32) {m k : UInt32} (n : Nat) (field : IsField m k n) (i : Nat) :
    bit ((w >>> k) &&& m) i = (bit w (k.toNat + i) && decide (i < n)) := by
  obtain ⟨rfl, hk, hn⟩ := field
  rw [bit_and, bit_shiftRight _ hk, bit_ones (by omega)]

/-- The bits of a field that is put into a word. -/
theorem bit_put (x : UInt32) {m k : UInt32} (n : Nat) (field : IsField m k n) (i : Nat) :
    bit ((x &&& m) <<< k) i =
      (decide (k.toNat ≤ i) && decide (i < n + k.toNat) && bit x (i - k.toNat)) := by
  obtain ⟨rfl, hk, hn⟩ := field
  rw [bit_shiftLeft _ hk, bit_and, bit_ones (by omega)]
  by_cases inside : k.toNat ≤ i ∧ i < n + k.toNat
  · have upper : i < 32 := by omega
    have lower : ¬ i < k.toNat := by omega
    have within : i - k.toNat < n := by omega
    simp [inside, upper, lower, within]
  · have nothing : (decide (k.toNat ≤ i) && decide (i < n + k.toNat)) = false := by
      simpa using inside
    have outside : i < k.toNat ∨ ¬ i - k.toNat < n := by omega
    rw [nothing]
    rcases outside with below | above
    · simp [below]
    · simp [above]

/-! ## Masks -/

/-- Words are the same under a mask when they have the same bits where the mask has one. -/
theorem and_eq_and_iff {v w m : UInt32} :
    v &&& m = w &&& m ↔ ∀ i < 32, bit m i = true → bit v i = bit w i := by
  constructor
  · intro same i _ inside
    have here := congrArg (bit · i) same
    simpa [inside] using here
  · intro same
    apply eq_of_bits
    intro i hi
    rw [bit_and, bit_and]
    cases inside : bit m i with
    | false => rw [Bool.and_false, Bool.and_false]
    | true => rw [same i hi inside]

theorem and_or_eq_iff {v w a b : UInt32} :
    v &&& (a ||| b) = w &&& (a ||| b) ↔ v &&& a = w &&& a ∧ v &&& b = w &&& b := by
  simp only [and_eq_and_iff, bit_or, Bool.or_eq_true, or_imp, forall_and]

/-- A field that is cut out is the same when the words are the same under the mask of the field. -/
theorem slice_eq_iff {v w m k : UInt32} (h : k.toNat < 32) :
    (v >>> k) &&& m = (w >>> k) &&& m ↔ v &&& (m <<< k) = w &&& (m <<< k) := by
  rw [and_eq_and_iff, and_eq_and_iff]
  simp only [bit_shiftRight _ h, bit_shiftLeft _ h]
  constructor
  · intro same i hi inside
    rw [Bool.and_eq_true, Bool.and_eq_true, Bool.not_eq_true', decide_eq_false_iff_not] at inside
    have here := same (i - k.toNat) (by omega) inside.2
    rwa [Nat.add_sub_cancel' (by omega)] at here
  · intro same i hi inside
    -- bits that are moved in from above are zero in both words
    by_cases within : k.toNat + i < 32
    · exact same (k.toNat + i) within (by simp [within, inside])
    · rw [bit_of_le v (by omega), bit_of_le w (by omega)]

/-- The bits of a branch outside its target field: all but 31 to 25 and 11 to 7. -/
def branchMask : UInt32 := 0x01FFF07F

/-- The bits of a jump outside its target field: all but 31 to 12. -/
def jumpMask : UInt32 := 0x00000FFF

theorem branch_fields_eq_iff (v w : UInt32) :
    opcode v = opcode w ∧ funct3 v = funct3 w ∧ rs1 v = rs1 w ∧ rs2 v = rs2 w ↔
      v &&& branchMask = w &&& branchMask := by
  have mask : branchMask =
      (0x7F : UInt32) |||
        ((0x7 : UInt32) <<< 12 ||| ((0x1F : UInt32) <<< 15 ||| (0x1F : UInt32) <<< 20)) := by
    decide
  rw [mask, and_or_eq_iff, and_or_eq_iff, and_or_eq_iff, ← slice_eq_iff (by decide),
    ← slice_eq_iff (by decide), ← slice_eq_iff (by decide)]
  rfl

theorem jump_fields_eq_iff (v w : UInt32) :
    opcode v = opcode w ∧ rd v = rd w ↔ v &&& jumpMask = w &&& jumpMask := by
  have mask : jumpMask = (0x7F : UInt32) ||| (0x1F : UInt32) <<< 7 := by decide
  rw [mask, and_or_eq_iff, ← slice_eq_iff (by decide)]
  rfl

/-- The words are the same but for what the target field of their opcode holds. -/
def SameButTarget (v w : UInt32) : Prop :=
  v &&& 0x7F = w &&& 0x7F ∧
    if v &&& 0x7F = branchOpcode then v &&& branchMask = w &&& branchMask
    else if v &&& 0x7F = jumpOpcode then v &&& jumpMask = w &&& jumpMask
    else v = w

theorem targetFree_of_branch {w : UInt32} (h : opcode w = branchOpcode) :
    targetFree w = .branch (funct3 w) (rs1 w) (rs2 w) := by
  rw [targetFree, if_pos h]

theorem targetFree_of_jump {w : UInt32} (h : opcode w = jumpOpcode) :
    targetFree w = .jump (rd w) := by
  have other : opcode w ≠ branchOpcode := by
    rw [h]
    decide
  rw [targetFree, if_neg other, if_pos h]

theorem targetFree_of_other {w : UInt32} (notBranch : opcode w ≠ branchOpcode)
    (notJump : opcode w ≠ jumpOpcode) : targetFree w = .other w := by
  rw [targetFree, if_neg notBranch, if_neg notJump]

/-- What is left of a word tells its opcode. -/
theorem opcode_eq_of_targetFree_eq {v w : UInt32} (same : targetFree v = targetFree w) :
    opcode v = opcode w := by
  -- with different opcodes, what is left is of different kinds, or one word is the other
  unfold targetFree at same
  split at same
  · rename_i branch
    split at same
    · rename_i branch'
      rw [branch, branch']
    · split at same <;> cases same
  · split at same
    · rename_i jump
      split at same
      · cases same
      · split at same
        · rename_i jump'
          rw [jump, jump']
        · cases same
    · split at same
      · cases same
      · split at same
        · cases same
        · rw [TargetFree.other.inj same]

/-- Words are the same without their target fields when they differ in nothing else. -/
theorem targetFree_eq_iff (v w : UInt32) : targetFree v = targetFree w ↔ SameButTarget v w := by
  have split : SameButTarget v w ↔ opcode v = opcode w ∧
      if opcode v = branchOpcode then v &&& branchMask = w &&& branchMask
      else if opcode v = jumpOpcode then v &&& jumpMask = w &&& jumpMask else v = w := Iff.rfl
  rw [split, ← branch_fields_eq_iff, ← jump_fields_eq_iff]
  constructor
  · intro same
    have opcodes := opcode_eq_of_targetFree_eq same
    refine ⟨opcodes, ?_⟩
    by_cases branch : opcode v = branchOpcode
    · rw [targetFree_of_branch branch, targetFree_of_branch (opcodes ▸ branch)] at same
      simpa [branch, opcodes ▸ branch] using same
    · by_cases jump : opcode v = jumpOpcode
      · rw [targetFree_of_jump jump, targetFree_of_jump (opcodes ▸ jump)] at same
        rw [if_neg branch, if_pos jump]
        exact ⟨opcodes, TargetFree.jump.inj same⟩
      · rw [targetFree_of_other branch jump,
          targetFree_of_other (opcodes ▸ branch) (opcodes ▸ jump)] at same
        rw [if_neg branch, if_neg jump]
        exact TargetFree.other.inj same
  · rintro ⟨opcodes, fields⟩
    by_cases branch : opcode v = branchOpcode
    · rw [if_pos branch] at fields
      obtain ⟨-, sameFunct3, sameRs1, sameRs2⟩ := fields
      rw [targetFree_of_branch branch, targetFree_of_branch (opcodes ▸ branch), sameFunct3, sameRs1,
        sameRs2]
    · rw [if_neg branch] at fields
      by_cases jump : opcode v = jumpOpcode
      · rw [if_pos jump] at fields
        rw [targetFree_of_jump jump, targetFree_of_jump (opcodes ▸ jump), fields.2]
      · rw [if_neg jump] at fields
        rw [fields]

/-! ## Encodings -/

/-- The offset in the target field of a branch: twelve bits, the least of which is dropped. -/
def branchOffset (w : UInt32) : UInt32 :=
  (((w >>> 31) &&& 0x1) <<< 12) ||| (((w >>> 7) &&& 0x1) <<< 11) |||
    (((w >>> 25) &&& 0x3F) <<< 5) ||| (((w >>> 8) &&& 0xF) <<< 1)

/-- The offset in the target field of a jump. -/
def jumpOffset (w : UInt32) : UInt32 :=
  (((w >>> 31) &&& 0x1) <<< 20) ||| (((w >>> 12) &&& 0xFF) <<< 12) |||
    (((w >>> 20) &&& 0x1) <<< 11) ||| (((w >>> 21) &&& 0x3FF) <<< 1)

/-- Which bit of which field stands where in a branch. -/
theorem bit_encodeBranch (funct3 rs1 rs2 offset : UInt32) {i : Nat} (h : i < 32) :
    bit (encodeBranch funct3 rs1 rs2 offset) i =
      if i < 7 then bit branchOpcode i
      else if i = 7 then bit offset 11
      else if i < 12 then bit offset (i - 7)
      else if i < 15 then bit funct3 (i - 12)
      else if i < 20 then bit rs1 (i - 15)
      else if i < 25 then bit rs2 (i - 20)
      else if i < 31 then bit offset (i - 20)
      else bit offset 12 := by
  have high : ∀ i < 32, 7 ≤ i → bit branchOpcode i = false := by decide
  rw [encodeBranch, bit_or, bit_or, bit_or, bit_or, bit_or, bit_or, bit_or, bit_put _ 1 (by decide),
    bit_put _ 6 (by decide), bit_put _ 5 (by decide), bit_put _ 5 (by decide),
    bit_put _ 3 (by decide), bit_put _ 4 (by decide), bit_put _ 1 (by decide),
    bit_shiftRight _ (by decide), bit_shiftRight _ (by decide), bit_shiftRight _ (by decide),
    bit_shiftRight _ (by decide)]
  simp only [UInt32.reduceToNat]
  -- of the eight fields that are put together, exactly one has a bit in each range
  split_ifs <;> grind

/-- Which bit of which field stands where in a jump. -/
theorem bit_encodeJump (rd offset : UInt32) {i : Nat} (h : i < 32) :
    bit (encodeJump rd offset) i =
      if i < 7 then bit jumpOpcode i
      else if i < 12 then bit rd (i - 7)
      else if i < 20 then bit offset i
      else if i = 20 then bit offset 11
      else if i < 31 then bit offset (i - 20)
      else bit offset 20 := by
  have high : ∀ i < 32, 7 ≤ i → bit jumpOpcode i = false := by decide
  rw [encodeJump, bit_or, bit_or, bit_or, bit_or, bit_or, bit_put _ 1 (by decide),
    bit_put _ 10 (by decide), bit_put _ 1 (by decide), bit_put _ 8 (by decide),
    bit_put _ 5 (by decide), bit_shiftRight _ (by decide), bit_shiftRight _ (by decide),
    bit_shiftRight _ (by decide), bit_shiftRight _ (by decide)]
  simp only [UInt32.reduceToNat]
  split_ifs <;> grind

/-- Which bit of a branch an offset takes from where. -/
theorem bit_branchOffset (w : UInt32) (i : Nat) :
    bit (branchOffset w) i =
      if i = 0 then false
      else if i < 5 then bit w (i + 7)
      else if i < 11 then bit w (i + 20)
      else if i = 11 then bit w 7
      else if i = 12 then bit w 31
      else false := by
  rw [branchOffset, bit_or, bit_or, bit_or, bit_put _ 1 (by decide), bit_put _ 1 (by decide),
    bit_put _ 6 (by decide), bit_put _ 4 (by decide), bit_shiftRight _ (by decide),
    bit_shiftRight _ (by decide), bit_shiftRight _ (by decide), bit_shiftRight _ (by decide)]
  simp only [UInt32.reduceToNat]
  split_ifs <;> grind

/-- Which bit of a jump an offset takes from where. -/
theorem bit_jumpOffset (w : UInt32) (i : Nat) :
    bit (jumpOffset w) i =
      if i = 0 then false
      else if i < 11 then bit w (i + 20)
      else if i = 11 then bit w 20
      else if i < 20 then bit w i
      else if i = 20 then bit w 31
      else false := by
  rw [jumpOffset, bit_or, bit_or, bit_or, bit_put _ 1 (by decide), bit_put _ 8 (by decide),
    bit_put _ 1 (by decide), bit_put _ 10 (by decide), bit_shiftRight _ (by decide),
    bit_shiftRight _ (by decide), bit_shiftRight _ (by decide), bit_shiftRight _ (by decide)]
  simp only [UInt32.reduceToNat]
  split_ifs <;> grind

/-- A field that holds the low bits of a number is read back as these bits. -/
theorem slice_eq_and {w x m k : UInt32} (n : Nat) (field : IsField m k n)
    (same : ∀ i < n, bit w (k.toNat + i) = bit x i) : (w >>> k) &&& m = x &&& m := by
  apply eq_of_bits
  intro i _
  rw [bit_slice w n field, bit_and, field.1, bit_ones (by have := field.2.2; omega)]
  by_cases inside : i < n
  · rw [same i inside]
  · simp [inside]

/-- A word with the low bits of an opcode has this opcode. -/
theorem opcode_eq {w code : UInt32} (low : code &&& 0x7F = code)
    (same : ∀ i < 7, bit w i = bit code i) : opcode w = code := by
  rw [opcode, ← low, and_eq_and_iff]
  intro i _ inside
  rw [show (0x7F : UInt32) = UInt32.ofNat (2 ^ 7 - 1) by decide, bit_ones (by decide)] at inside
  exact same i (of_decide_eq_true inside)

theorem opcode_encodeBranch (funct3 rs1 rs2 offset : UInt32) :
    opcode (encodeBranch funct3 rs1 rs2 offset) = branchOpcode := by
  refine opcode_eq (by decide) fun i h => ?_
  rw [bit_encodeBranch _ _ _ _ (by omega), if_pos h]

theorem opcode_encodeJump (rd offset : UInt32) : opcode (encodeJump rd offset) = jumpOpcode := by
  refine opcode_eq (by decide) fun i h => ?_
  rw [bit_encodeJump _ _ (by omega), if_pos h]

/-- The offset of a branch leaves no trace outside the target field. -/
theorem targetFree_encodeBranch (f a b offset : UInt32) :
    targetFree (encodeBranch f a b offset) = .branch (f &&& 0x7) (a &&& 0x1F) (b &&& 0x1F) := by
  have sameFunct3 : funct3 (encodeBranch f a b offset) = f &&& 0x7 := by
    refine slice_eq_and 3 (by decide) fun i h => ?_
    change bit _ (12 + i) = _
    rw [bit_encodeBranch _ _ _ _ (by omega)]
    grind
  have sameRs1 : rs1 (encodeBranch f a b offset) = a &&& 0x1F := by
    refine slice_eq_and 5 (by decide) fun i h => ?_
    change bit _ (15 + i) = _
    rw [bit_encodeBranch _ _ _ _ (by omega)]
    grind
  have sameRs2 : rs2 (encodeBranch f a b offset) = b &&& 0x1F := by
    refine slice_eq_and 5 (by decide) fun i h => ?_
    change bit _ (20 + i) = _
    rw [bit_encodeBranch _ _ _ _ (by omega)]
    grind
  rw [targetFree_of_branch (opcode_encodeBranch f a b offset), sameFunct3, sameRs1, sameRs2]

/-- The offset of a jump leaves no trace outside the target field. -/
theorem targetFree_encodeJump (r offset : UInt32) :
    targetFree (encodeJump r offset) = .jump (r &&& 0x1F) := by
  have sameRd : rd (encodeJump r offset) = r &&& 0x1F := by
    refine slice_eq_and 5 (by decide) fun i h => ?_
    change bit _ (7 + i) = _
    rw [bit_encodeJump _ _ (by omega)]
    grind
  rw [targetFree_of_jump (opcode_encodeJump r offset), sameRd]

/-- The bits of an opcode are the low bits of the word. -/
theorem bit_eq_of_opcode_eq {w code : UInt32} (h : opcode w = code) {i : Nat} (low : i < 7) :
    bit w i = bit code i := by
  have inside : bit 0x7F i = true := by
    rw [show (0x7F : UInt32) = UInt32.ofNat (2 ^ 7 - 1) by decide, bit_ones (by decide)]
    exact decide_eq_true low
  rw [← h, opcode, bit_and, inside, Bool.and_true]

theorem bit_funct3 (w : UInt32) (i : Nat) :
    bit (funct3 w) i = (bit w (12 + i) && decide (i < 3)) :=
  bit_slice w 3 (by decide) i

theorem bit_rs1 (w : UInt32) (i : Nat) : bit (rs1 w) i = (bit w (15 + i) && decide (i < 5)) :=
  bit_slice w 5 (by decide) i

theorem bit_rs2 (w : UInt32) (i : Nat) : bit (rs2 w) i = (bit w (20 + i) && decide (i < 5)) :=
  bit_slice w 5 (by decide) i

theorem bit_rd (w : UInt32) (i : Nat) : bit (rd w) i = (bit w (7 + i) && decide (i < 5)) :=
  bit_slice w 5 (by decide) i

/-- A branch is the encoding of its fields. -/
theorem encodeBranch_fields {w : UInt32} (h : opcode w = branchOpcode) :
    encodeBranch (funct3 w) (rs1 w) (rs2 w) (branchOffset w) = w := by
  apply eq_of_bits
  intro i hi
  -- each bit of the encoding is one of the word, wherever its field took it from
  rw [bit_encodeBranch _ _ _ _ hi]
  split_ifs with code
  · exact (bit_eq_of_opcode_eq h code).symm
  · rw [bit_branchOffset]
    grind
  · rw [bit_branchOffset]
    grind
  · rw [bit_funct3]
    grind
  · rw [bit_rs1]
    grind
  · rw [bit_rs2]
    grind
  · rw [bit_branchOffset]
    grind
  · rw [bit_branchOffset]
    grind

/-- A jump is the encoding of its fields. -/
theorem encodeJump_fields {w : UInt32} (h : opcode w = jumpOpcode) :
    encodeJump (rd w) (jumpOffset w) = w := by
  apply eq_of_bits
  intro i hi
  rw [bit_encodeJump _ _ hi]
  split_ifs with code
  · exact (bit_eq_of_opcode_eq h code).symm
  · rw [bit_rd]
    grind
  · rw [bit_jumpOffset]
    grind
  · rw [bit_jumpOffset]
    grind
  · rw [bit_jumpOffset]
    grind
  · rw [bit_jumpOffset]
    grind

/-! ## Lists of words -/

/-- The word is a conditional branch or a jump. -/
def IsTransfer (w : UInt32) : Prop :=
  opcode w = branchOpcode ∨ opcode w = jumpOpcode

/-- The words are encodings of one branch or of one jump, each with an offset of its own. -/
def OneTransfer (words : List UInt32) : Prop :=
  (∃ f a b : UInt32, f < 8 ∧ a < 32 ∧ b < 32 ∧
      ∀ w ∈ words, ∃ offset, w = encodeBranch f a b offset) ∨
    ∃ r : UInt32, r < 32 ∧ ∀ w ∈ words, ∃ offset, w = encodeJump r offset

theorem funct3_lt (w : UInt32) : funct3 w < 8 := by
  rw [UInt32.lt_iff_toNat_lt, funct3, UInt32.toNat_and]
  exact Nat.lt_of_le_of_lt Nat.and_le_right (by decide)

theorem register_lt (w k : UInt32) : (w >>> k) &&& 0x1F < 32 := by
  rw [UInt32.lt_iff_toNat_lt, UInt32.toNat_and]
  exact Nat.lt_of_le_of_lt Nat.and_le_right (by decide)

open Fixture (Agrees)

theorem agrees_of_targetFree_eq {words : List UInt32} {rest : TargetFree}
    (same : ∀ w ∈ words, targetFree w = rest) : Agrees words := by
  intro v hv w hw
  rw [same v hv, same w hw]

theorem agrees_encodeBranch (f a b : UInt32) (offsets : List UInt32) :
    Agrees (offsets.map (encodeBranch f a b)) := by
  apply agrees_of_targetFree_eq
  intro w hw
  obtain ⟨offset, -, rfl⟩ := List.mem_map.mp hw
  exact targetFree_encodeBranch f a b offset

theorem agrees_encodeJump (r : UInt32) (offsets : List UInt32) :
    Agrees (offsets.map (encodeJump r)) := by
  apply agrees_of_targetFree_eq
  intro w hw
  obtain ⟨offset, -, rfl⟩ := List.mem_map.mp hw
  exact targetFree_encodeJump r offset

theorem OneTransfer.agrees {words : List UInt32} (one : OneTransfer words) : Agrees words := by
  rcases one with ⟨f, a, b, -, -, -, encoded⟩ | ⟨r, -, encoded⟩
  · apply agrees_of_targetFree_eq
    intro w hw
    obtain ⟨offset, rfl⟩ := encoded w hw
    exact targetFree_encodeBranch f a b offset
  · apply agrees_of_targetFree_eq
    intro w hw
    obtain ⟨offset, rfl⟩ := encoded w hw
    exact targetFree_encodeJump r offset

/-- Control transfers that agree are encodings of the first of them up to their offsets. -/
theorem oneTransfer_of_agrees {words : List UInt32} (transfers : ∀ w ∈ words, IsTransfer w)
    (agrees : Agrees words) : OneTransfer words := by
  cases words with
  | nil => exact Or.inr ⟨0, by decide, fun w hw => absurd hw List.not_mem_nil⟩
  | cons first rest =>
      have same : ∀ w ∈ first :: rest, targetFree w = targetFree first := by
        intro w hw
        exact agrees w hw first List.mem_cons_self
      rcases transfers first List.mem_cons_self with branch | jump
      · refine Or.inl ⟨funct3 first, rs1 first, rs2 first, funct3_lt _, register_lt _ _,
          register_lt _ _, ?_⟩
        intro w hw
        have own : opcode w = branchOpcode :=
          (opcode_eq_of_targetFree_eq (same w hw)).trans branch
        have fields := same w hw
        rw [targetFree_of_branch own, targetFree_of_branch branch] at fields
        obtain ⟨sameFunct3, sameRs1, sameRs2⟩ := TargetFree.branch.inj fields
        refine ⟨branchOffset w, ?_⟩
        rw [← sameFunct3, ← sameRs1, ← sameRs2, encodeBranch_fields own]
      · refine Or.inr ⟨rd first, register_lt _ _, ?_⟩
        intro w hw
        have own : opcode w = jumpOpcode := (opcode_eq_of_targetFree_eq (same w hw)).trans jump
        have fields := same w hw
        rw [targetFree_of_jump own, targetFree_of_jump jump] at fields
        refine ⟨jumpOffset w, ?_⟩
        rw [← TargetFree.jump.inj fields, encodeJump_fields own]

/-! ## The main statement -/

theorem branchMask_eq_iff (v w : UInt32) :
    v &&& branchMask = w &&& branchMask ↔
      ∀ i < 32, ¬ (25 ≤ i ∨ 7 ≤ i ∧ i ≤ 11) → bit v i = bit w i := by
  have bits : ∀ i < 32, bit branchMask i = true ↔ ¬ (25 ≤ i ∨ 7 ≤ i ∧ i ≤ 11) := by decide
  rw [and_eq_and_iff]
  exact forall₂_congr fun i h => by rw [bits i h]

theorem jumpMask_eq_iff (v w : UInt32) :
    v &&& jumpMask = w &&& jumpMask ↔ ∀ i < 32, ¬ 12 ≤ i → bit v i = bit w i := by
  have bits : ∀ i < 32, bit jumpMask i = true ↔ ¬ 12 ≤ i := by decide
  rw [and_eq_and_iff]
  exact forall₂_congr fun i h => by rw [bits i h]

/-- The check of forms looks at everything but the target. Two words count as the same exactly when
they differ in their target fields only; the encodings of one transfer pass with any offsets, and
control transfers pass only as encodings of one transfer. -/
theorem targetFree_exact :
    (∀ v w, targetFree v = targetFree w ↔ SameButTarget v w) ∧
      (∀ v w, v &&& branchMask = w &&& branchMask ↔
        ∀ i < 32, ¬ (25 ≤ i ∨ 7 ≤ i ∧ i ≤ 11) → bit v i = bit w i) ∧
      (∀ v w, v &&& jumpMask = w &&& jumpMask ↔ ∀ i < 32, ¬ 12 ≤ i → bit v i = bit w i) ∧
      (∀ (f a b : UInt32) (offsets : List UInt32),
        Fixture.agree (offsets.map (encodeBranch f a b)) = true) ∧
      (∀ (r : UInt32) (offsets : List UInt32),
        Fixture.agree (offsets.map (encodeJump r)) = true) ∧
      (∀ words, (∀ w ∈ words, IsTransfer w) → Fixture.agree words = true → OneTransfer words) ∧
      ∀ (e : Emission) (words : List UInt32), words.length = e.size →
        ((∀ s ∈ e.expansions, OneTransfer (s.cut words)) → Fixture.checkForms e words = .ok ()) ∧
        (Fixture.checkForms e words = .ok () → ∀ s ∈ e.expansions,
          (∀ w ∈ s.cut words, IsTransfer w) → OneTransfer (s.cut words)) := by
  refine ⟨targetFree_eq_iff, branchMask_eq_iff, jumpMask_eq_iff, ?_, ?_, ?_, ?_⟩
  · intro f a b offsets
    exact (Fixture.agree_iff _).mpr (agrees_encodeBranch f a b offsets)
  · intro r offsets
    exact (Fixture.agree_iff _).mpr (agrees_encodeJump r offsets)
  · intro words transfers agree
    exact oneTransfer_of_agrees transfers ((Fixture.agree_iff words).mp agree)
  · intro e words paired
    rw [Fixture.checkForms_eq_ok_iff paired]
    constructor
    · intro encoded s hs
      exact (encoded s hs).agrees
    · intro agrees s hs transfers
      exact oneTransfer_of_agrees transfers (agrees s hs)

/-- Control: a jump to itself, one over two words and one back over two words pass for the three forms
of one jump; with another link register in the last they do not. -/
theorem targetFree_exact_jumps :
    Fixture.checkForms ((Generator.ofSeed 0).emit {} 1 jumpCatalog).1
        [0x6f, 0x80006f, 0xff9ff06f] = .ok () ∧
      ¬ OneTransfer [0x6f, 0x80006f, 0xff9ff0ef] := by
  obtain ⟨-, -, -, -, -, -, forms⟩ := targetFree_exact
  have expansions : ((Generator.ofSeed 0).emit {} 1 jumpCatalog).1.expansions = [⟨0, 3⟩] := by
    decide +kernel
  have encoded : OneTransfer [0x6f, 0x80006f, 0xff9ff06f] := by
    refine Or.inr ⟨0, by decide, ?_⟩
    intro w hw
    simp only [List.mem_cons, List.not_mem_nil, or_false] at hw
    rcases hw with rfl | rfl | rfl
    · exact ⟨0, by decide⟩
    · exact ⟨8, by decide⟩
    · exact ⟨0xfffffff8, by decide⟩
  refine ⟨(forms _ _ (by decide +kernel)).1 ?_, ?_⟩
  · rw [expansions]
    simpa [Span.cut, Span.size] using encoded
  · intro one
    have agrees := one.agrees 0x6f (by decide) 0xff9ff0ef (by decide)
    exact absurd agrees (by decide)

end EncoderVectors.Word
