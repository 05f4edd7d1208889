import EncoderVectors.Fixture.Basic
import EncoderVectors.Proofs.Emission.Span
import EncoderVectors.Proofs.Emission.Trace

/-!
# Pairing words with instructions

The check of forms walks blocks and words side by side and drops what it has seen. When there is a word
for each instruction, what it compares in a step is what stands in the span of the block, so it looks
at the expansions of the emission in order and stops at the first whose words do not agree
(`Fixture.checkForms_eq`). Words make a fixture exactly when there is one for each instruction and the
words of every expansion agree (`Fixture.pair_eq_ok_iff`).
-/

set_option autoImplicit false

namespace EncoderVectors

namespace Fixture

/-- The words are the same outside their target fields. -/
def Agrees (words : List UInt32) : Prop :=
  ∀ v ∈ words, ∀ w ∈ words, Word.targetFree v = Word.targetFree w

/-- Agreeing with the first word is agreeing with one another. -/
theorem agree_iff (words : List UInt32) : agree words = true ↔ Agrees words := by
  cases words with
  | nil => simp [agree, Agrees]
  | cons first rest =>
      rw [agree, List.all_eq_true]
      constructor
      · intro h
        have same : ∀ v ∈ first :: rest, Word.targetFree v = Word.targetFree first := by
          intro v hv
          rcases List.mem_cons.mp hv with rfl | hv
          · rfl
          · exact of_decide_eq_true (h v hv)
        intro v hv w hw
        rw [same v hv, same w hw]
      · intro h v hv
        exact decide_eq_true (h v (List.mem_cons_of_mem first hv) first List.mem_cons_self)

theorem agree_of_length_le_one {words : List UInt32} (h : words.length ≤ 1) :
    agree words = true := by
  match words, h with
  | [], _ => rfl
  | [_], _ => rfl

/-- The first expansion whose words do not agree. -/
def disagreement? (e : Emission) (words : List UInt32) : Option Span :=
  e.expansions.find? fun s => !agree (s.cut words)

theorem disagreement?_eq_none_iff {e : Emission} {words : List UInt32} :
    disagreement? e words = none ↔ ∀ s ∈ e.expansions, Agrees (s.cut words) := by
  simp [disagreement?, List.find?_eq_none, agree_iff]

/-- What is wrong with the words in a span: whose forms they are, and the words themselves. -/
def formsFault (instructions : List Instruction) (words : List UInt32) (s : Span) : Fault :=
  .forms (((s.cut instructions).head?.map Instruction.mnemonic).getD "") (s.cut words)

/-- The answer of the check, given the first span whose words do not agree. -/
def formsResult (instructions : List Instruction) (words : List UInt32) :
    Option Span → Except Fault Unit
  | none => .ok ()
  | some s => .error (formsFault instructions words s)

theorem cut_between {α : Type} (before part after : List α) :
    Span.cut ⟨before.length, before.length + part.length⟩ (before ++ (part ++ after)) = part := by
  simp [Span.cut, Span.size]

/-- The check of the blocks that are left, after instructions and words that have been dropped. -/
theorem checkBlocks_eq (blocks : List Block) (words : List UInt32)
    (seen : List Instruction) (dropped : List UInt32) (level : dropped.length = seen.length)
    (paired : words.length = blocks.flatten.length) :
    checkBlocks blocks words =
      formsResult (seen ++ blocks.flatten) (dropped ++ words)
        (((Span.tile seen.length (blocks.map List.length)).filter fun s => 1 < s.size).find?
          fun s => !agree (s.cut (dropped ++ words))) := by
  induction blocks generalizing words seen dropped with
  | nil => rfl
  | cons block blocks ih =>
      rw [List.flatten_cons, List.length_append] at paired
      have own : (words.take block.length).length = block.length := by
        rw [List.length_take]
        omega
      -- the block and its words join what has been seen, and positions stay the same
      have rest := ih (words.drop block.length) (seen ++ block)
        (dropped ++ words.take block.length) (by simp [level, own])
        (by rw [List.length_drop]; omega)
      rw [List.append_assoc, List.append_assoc, List.take_append_drop, List.length_append] at rest
      have cut : Span.cut ⟨seen.length, seen.length + block.length⟩ (dropped ++ words) =
          words.take block.length := by
        have between := cut_between dropped (words.take block.length) (words.drop block.length)
        rwa [own, level, List.take_append_drop] at between
      rw [checkBlocks, rest, List.map_cons, Span.tile, List.find?_filter, List.find?_filter,
        List.find?_cons, cut, List.flatten_cons]
      by_cases same : agree (words.take block.length) = true
      · simp [same]
      · -- words that do not agree are more than one
        have long : 1 < block.length := by
          rw [← own]
          exact Nat.lt_of_not_le fun few => same (agree_of_length_le_one few)
        simp [same, own, Span.size, long, formsResult, formsFault, cut, cut_between]

/-- The check looks at the expansions in order and reports the first whose words do not agree. -/
theorem checkForms_eq {e : Emission} {words : List UInt32} (paired : words.length = e.size) :
    checkForms e words = formsResult e.instructions words (disagreement? e words) := by
  rw [Emission.size, e.instructions_eq_flatten] at paired
  have walk := checkBlocks_eq e.blocks words [] [] rfl paired
  rw [e.instructions_eq_flatten]
  exact walk

theorem checkForms_eq_ok_iff {e : Emission} {words : List UInt32} (paired : words.length = e.size) :
    checkForms e words = .ok () ↔ ∀ s ∈ e.expansions, Agrees (s.cut words) := by
  rw [checkForms_eq paired, ← disagreement?_eq_none_iff]
  cases disagreement? e words with
  | none => simp [formsResult]
  | some s => simp [formsResult]

/-! ## Fixtures -/

theorem checkCount_eq_ok_iff {expected : Nat} {words : List UInt32} :
    checkCount expected words = .ok () ↔ words.length = expected := by
  unfold checkCount
  split
  · rename_i same
    simp [same]
  · rename_i differ
    simp [differ]

/-- The words of vectors are the words they were made of. -/
theorem words_zipWith_vector {instructions : List Instruction} {words : List UInt32}
    (h : words.length = instructions.length) :
    (List.zipWith vector instructions words).map TestVector.word = words := by
  apply List.ext_getElem
  · simp [h]
  · intro i _ _
    simp [vector]

/-- Words make a fixture when there is one for each instruction and those of every expansion agree. -/
theorem pair_eq_ok_iff {e : Emission} {words : List UInt32} {f : Fixture} :
    pair e words = .ok f ↔
      words.length = e.size ∧ (∀ s ∈ e.expansions, Agrees (s.cut words)) ∧
        f = ⟨e.seed, List.zipWith vector e.instructions words⟩ := by
  have stages : pair e words = .ok f ↔ checkCount e.size words = .ok () ∧
      checkForms e words = .ok () ∧ f = ⟨e.seed, List.zipWith vector e.instructions words⟩ := by
    unfold pair
    cases checkCount e.size words with
    | error fault => simp [bind, Except.bind]
    | ok done =>
        cases checkForms e words with
        | error fault => simp [bind, Except.bind]
        | ok done => simp [bind, Except.bind, pure, Except.pure, eq_comm]
  rw [stages, checkCount_eq_ok_iff]
  constructor
  · rintro ⟨paired, forms, rfl⟩
    exact ⟨paired, (checkForms_eq_ok_iff paired).mp forms, rfl⟩
  · rintro ⟨paired, forms, rfl⟩
    exact ⟨paired, (checkForms_eq_ok_iff paired).mpr forms, rfl⟩

end Fixture

end EncoderVectors
