import EncoderVectors.Proofs.Emission.Layout
import EncoderVectors.Proofs.Fixture.Pairing

/-!
# What pairing comes to

Words for an emission are refused for their number, refused for the forms of one expansion, or paired
with the instructions position by position, and each of these happens exactly when it should
(`Fixture.PairsExactly`). The expansion that is reported is the first whose words do not agree.

A check that goes from span to span has to do something about a span that the words do not fill, and
has to report some name where no instruction stands. `Fixture.checkSpans` leaves open what that is. On
an emission with a word for each instruction it makes no difference: no span is passed over.
-/

set_option autoImplicit false

namespace EncoderVectors

/-! ## Spans of an emission -/

theorem Span.head?_cut {α : Type} {s : Span} (h : 0 < s.size) (l : List α) :
    (s.cut l).head? = l[s.start]? := by
  rw [cut, List.head?_take, if_neg (Nat.ne_of_gt h), List.head?_drop]

/-- A span of three positions inside a list holds the elements at these positions. -/
theorem Span.cut_eq_three {α : Type} {s : Span} (size : s.size = 3) {l : List α}
    (inside : s.stop ≤ l.length) :
    ∃ a b c, s.cut l = [a, b, c] ∧ l[s.start]? = some a ∧ l[s.start + 1]? = some b ∧
      l[s.start + 2]? = some c := by
  have end_eq : s.stop = s.start + 3 := by
    unfold Span.size at size
    omega
  have first : s.start < l.length := by omega
  have second : s.start + 1 < l.length := by omega
  have third : s.start + 2 < l.length := by omega
  refine ⟨l[s.start], l[s.start + 1], l[s.start + 2], ?_, ?_, ?_, ?_⟩
  · rw [cut, size, List.drop_eq_getElem_cons first, List.drop_eq_getElem_cons second,
      List.drop_eq_getElem_cons third]
    rfl
  · exact List.getElem?_eq_getElem first
  · exact List.getElem?_eq_getElem second
  · exact List.getElem?_eq_getElem third

namespace Emission

variable {e : Emission}

/-- The instructions of one block bear one name. -/
def OneName (e : Emission) : Prop :=
  ∀ b ∈ e.blocks, ∀ i ∈ b, ∀ j ∈ b, i.mnemonic = j.mnemonic

/-- An expansion ends inside the emission. -/
theorem Regular.stop_le_size (regular : e.Regular) {s : Span} (h : s ∈ e.expansions) :
    s.stop ≤ e.size := by
  have size : s.size = 3 := (regular.targets_expansion h).1
  unfold Span.size at size
  -- an instruction stands at the last position of the span
  obtain ⟨ins, found, -⟩ := (regular.mem_expansion_iff (s.stop - 1)).mp
    ⟨s, h, by omega, by omega⟩
  have inside : s.stop - 1 < e.instructions.length := (List.getElem?_eq_some_iff.mp found).1
  unfold Emission.size
  omega

/-- The instructions of an expansion bear the name of the first of them. -/
theorem OneName.mnemonics_expansion (oneName : e.OneName) {s : Span} (h : s ∈ e.expansions)
    {ins : Instruction} (first : e.instructions[s.start]? = some ins) :
    ∀ i ∈ s.cut e.instructions, i.mnemonic = ins.mnemonic := by
  obtain ⟨n, b, found, long, rfl⟩ := mem_expansions_iff.mp h
  have head : b.head? = some ins := by
    have positive : 0 < (e.blockSpan n b).size := by
      simp only [blockSpan, Span.size]
      omega
    rw [← first, ← Span.head?_cut positive, cut_blockSpan found]
  rw [cut_blockSpan found]
  intro i hi
  exact oneName b (List.mem_of_getElem? found) i hi ins (List.mem_of_head? head)

end Emission

theorem Generator.oneName_emit (g : Generator) (style : CallStyle) (count : Nat) (c : Catalog) :
    (g.emit style count c).1.OneName := by
  have named : ∀ b ∈ (g.emit style count c).1.blocks, ∃ name, ∀ i ∈ b, i.mnemonic = name := by
    intro b hb
    -- a block holds the forms of one instance
    rw [blocks_emit] at hb
    obtain ⟨drawn, -, rfl⟩ := List.mem_map.mp hb
    refine ⟨drawn.2.entry.assemblyName, ?_⟩
    intro i hi
    obtain ⟨f, -, rfl⟩ := List.mem_map.mp hi
    rfl
  intro b hb i hi j hj
  obtain ⟨name, same⟩ := named b hb
  rw [same i hi, same j hj]

namespace Fixture

/-! ## The check from span to span -/

/-- Checks spans one after another. A span that ends beyond the words is left to `outside`, an empty
one to `empty`; both are told what the rest of the check says. A span at whose start no instruction
stands is reported as `nameless`. -/
def checkSpans (outside empty : Except Fault Unit → Except Fault Unit) (nameless : String)
    (instructions : List Instruction) (words : List UInt32) : List Span → Except Fault Unit
  | [] => .ok ()
  | s :: rest =>
      if s.stop ≤ words.length then
        match s.cut words with
        | [] => empty (checkSpans outside empty nameless instructions words rest)
        | first :: more =>
            if more.any fun w => Word.targetFree w ≠ Word.targetFree first then
              .error (.forms ((instructions[s.start]?.map Instruction.mnemonic).getD nameless)
                (first :: more))
            else checkSpans outside empty nameless instructions words rest
      else outside (checkSpans outside empty nameless instructions words rest)

theorem any_eq_not_agree (first : UInt32) (more : List UInt32) :
    (more.any fun w => Word.targetFree w ≠ Word.targetFree first) = !agree (first :: more) := by
  simp [agree, List.not_all_eq_any_not]

/-- Spans that are filled and named are checked for their words alone. -/
theorem checkSpans_eq (outside empty : Except Fault Unit → Except Fault Unit) (nameless : String)
    {instructions : List Instruction} {words : List UInt32} {spans : List Span}
    (filled : ∀ s ∈ spans, 0 < s.size ∧ s.stop ≤ words.length)
    (named : ∀ s ∈ spans, ∃ ins, instructions[s.start]? = some ins) :
    checkSpans outside empty nameless instructions words spans =
      formsResult instructions words (spans.find? fun s => !agree (s.cut words)) := by
  -- neither `outside` nor `empty` is met, so the check is a search for the first wrong span
  induction spans with
  | nil => rfl
  | cons s spans ih =>
      have rest := ih (fun s' h => filled s' (List.mem_cons_of_mem s h))
        (fun s' h => named s' (List.mem_cons_of_mem s h))
      obtain ⟨positive, inside⟩ := filled s List.mem_cons_self
      obtain ⟨ins, found⟩ := named s List.mem_cons_self
      have head := Span.head?_cut positive words
      have name := Span.head?_cut positive instructions
      -- the span starts inside the words, so there is a first word to compare with
      have start : s.start < words.length := by
        unfold Span.size at positive
        omega
      rw [List.getElem?_eq_getElem start] at head
      rw [checkSpans, if_pos inside, rest, List.find?_cons]
      cases own : s.cut words with
      | nil =>
          -- no word at all contradicts the first one
          rw [own] at head
          cases head
      | cons first more =>
          dsimp only
          rw [any_eq_not_agree]
          cases agree (first :: more) with
          | true => rfl
          | false => simp [formsResult, formsFault, name, own, found]

/-! ## Outcomes of pairing -/

section Outcomes

variable {e : Emission} {words : List UInt32}

/-- The three ways that pairing goes. -/
theorem pair_cases (e : Emission) (words : List UInt32) :
    words.length ≠ e.size ∧ pair e words = .error (.wordCount e.size words.length) ∨
    (words.length = e.size ∧ ∃ s, disagreement? e words = some s ∧
      pair e words = .error (formsFault e.instructions words s)) ∨
    (words.length = e.size ∧ disagreement? e words = none ∧
      pair e words = .ok ⟨e.seed, List.zipWith vector e.instructions words⟩) := by
  by_cases length : words.length = e.size
  · right
    simp only [pair, checkCount, if_pos length, checkForms_eq length]
    cases disagreement? e words with
    | none => exact Or.inr ⟨length, rfl, rfl⟩
    | some s => exact Or.inl ⟨length, s, rfl, rfl⟩
  · left
    simp only [pair, checkCount, if_neg length]
    exact ⟨length, rfl⟩

/-- The first expansion whose words do not agree, and those before it. -/
theorem exists_of_disagreement? {s : Span} (h : disagreement? e words = some s) :
    ∃ before after, e.expansions = before ++ s :: after ∧
      (∀ s' ∈ before, Agrees (s'.cut words)) ∧ ¬ Agrees (s.cut words) := by
  obtain ⟨wrong, before, after, split, clear⟩ := List.find?_eq_some_iff_append.mp h
  refine ⟨before, after, split, ?_, ?_⟩
  · intro s' hs'
    have passed := clear s' hs'
    rw [Bool.not_not] at passed
    exact (agree_iff _).mp passed
  · intro agrees
    rw [(agree_iff _).mpr agrees] at wrong
    cases wrong

theorem mem_of_disagreement? {s : Span} (h : disagreement? e words = some s) :
    s ∈ e.expansions ∧ ¬ Agrees (s.cut words) := by
  obtain ⟨before, after, split, -, wrong⟩ := exists_of_disagreement? h
  rw [split]
  exact ⟨List.mem_append_right before List.mem_cons_self, wrong⟩

theorem pair_eq_wordCount_iff (expected actual : Nat) :
    pair e words = .error (.wordCount expected actual) ↔
      words.length ≠ e.size ∧ expected = e.size ∧ actual = words.length := by
  rcases pair_cases e words with ⟨length, answer⟩ | ⟨length, s, -, answer⟩ | ⟨length, -, answer⟩
  · rw [answer]
    simp [length, eq_comm]
  · rw [answer]
    simp [length, formsFault]
  · rw [answer]
    simp [length]

theorem exists_pair_eq_forms_iff :
    (∃ mnemonic reported, pair e words = .error (.forms mnemonic reported)) ↔
      words.length = e.size ∧ ∃ s ∈ e.expansions, ¬ Agrees (s.cut words) := by
  rcases pair_cases e words with ⟨length, answer⟩ | ⟨length, s, found, answer⟩ |
    ⟨length, clear, answer⟩
  · rw [answer]
    simp [length]
  · have wrong : ∃ s ∈ e.expansions, ¬ Agrees (s.cut words) := ⟨s, mem_of_disagreement? found⟩
    rw [answer]
    simp [length, formsFault, wrong]
  · have agreed := disagreement?_eq_none_iff.mp clear
    rw [answer]
    simpa using fun _ => agreed

theorem exists_pair_eq_ok_iff :
    (∃ f, pair e words = .ok f) ↔
      words.length = e.size ∧ ∀ s ∈ e.expansions, Agrees (s.cut words) := by
  simp only [pair_eq_ok_iff]
  constructor
  · rintro ⟨f, length, agreed, -⟩
    exact ⟨length, agreed⟩
  · rintro ⟨length, agreed⟩
    exact ⟨_, length, agreed, rfl⟩

/-- The fixture of words that are paired holds them, each beside the instruction at its position. -/
theorem vectors_of_pair {f : Fixture} (h : pair e words = .ok f) :
    f.seed = e.seed ∧ f.words = words ∧ f.vectors.length = e.size ∧
      ∀ (i : Nat) (ins : Instruction) (w : UInt32), e.instructions[i]? = some ins →
        words[i]? = some w → f.vectors[i]? = some (vector ins w) := by
  obtain ⟨length, -, rfl⟩ := pair_eq_ok_iff.mp h
  refine ⟨rfl, words_zipWith_vector length, ?_, ?_⟩
  · simp [length, Emission.size]
  · intro i ins w instruction word
    simp [List.getElem?_zipWith, instruction, word]

end Outcomes

/-- What pairing words with an emission comes to. -/
structure PairsExactly (e : Emission) (words : List UInt32) : Prop where
  /-- Words are refused for their number when there are more or fewer than instructions. -/
  count : ∀ expected actual, pair e words = .error (.wordCount expected actual) ↔
    words.length ≠ e.size ∧ expected = e.size ∧ actual = words.length
  /-- Otherwise they are refused for their forms when those of some expansion do not agree. -/
  forms : (∃ mnemonic reported, pair e words = .error (.forms mnemonic reported)) ↔
    words.length = e.size ∧ ∃ s ∈ e.expansions, ¬ Agrees (s.cut words)
  /-- What is reported then is the first such expansion: the name that its instructions bear, and its
  three words. -/
  first : ∀ mnemonic reported, pair e words = .error (.forms mnemonic reported) →
    ∃ before s after a b c, e.expansions = before ++ s :: after ∧
      (∀ s' ∈ before, Agrees (s'.cut words)) ∧ ¬ Agrees (s.cut words) ∧
      (∀ ins ∈ s.cut e.instructions, ins.mnemonic = mnemonic) ∧
      s.cut words = [a, b, c] ∧ reported = [a, b, c] ∧ words[s.start]? = some a ∧
      words[s.start + 1]? = some b ∧ words[s.start + 2]? = some c
  /-- Otherwise they make a fixture. -/
  success : (∃ f, pair e words = .ok f) ↔
    words.length = e.size ∧ ∀ s ∈ e.expansions, Agrees (s.cut words)
  /-- The fixture has the seed of the emission, and at each position the instruction and the word
  that stand there. -/
  paired : ∀ f, pair e words = .ok f → f.seed = e.seed ∧ f.words = words ∧
    f.vectors.length = e.size ∧
    ∀ (i : Nat) (ins : Instruction) (w : UInt32), e.instructions[i]? = some ins →
      words[i]? = some w →
      f.vectors[i]? = some (⟨ins.family, ins.call, ins.assembly, w, ins.target⟩ : TestVector)
  /-- With a word for each instruction every expansion is filled and has a name to report. -/
  filled : words.length = e.size → ∀ s ∈ e.expansions, s.size = 3 ∧ s.stop ≤ words.length ∧
    ∃ ins, e.instructions[s.start]? = some ins
  /-- So the check is one that goes from expansion to expansion, and it makes no difference what that
  does about expansions that are not. -/
  unskipped : words.length = e.size → ∀ outside empty nameless,
    checkForms e words = checkSpans outside empty nameless e.instructions words e.expansions

end Fixture

namespace Emission

open Fixture

variable {e : Emission} {words : List UInt32}

theorem Regular.filled (regular : e.Regular) (h : words.length = e.size) {s : Span}
    (hs : s ∈ e.expansions) :
    s.size = 3 ∧ s.stop ≤ words.length ∧ ∃ ins, e.instructions[s.start]? = some ins := by
  have size : s.size = 3 := (regular.targets_expansion hs).1
  have stop := regular.stop_le_size hs
  have inside : s.start < e.instructions.length := by
    unfold Span.size at size
    unfold Emission.size at stop
    omega
  exact ⟨size, h ▸ stop, e.instructions[s.start], List.getElem?_eq_getElem inside⟩

theorem Regular.checkForms_eq_checkSpans (regular : e.Regular) (h : words.length = e.size)
    (outside empty : Except Fault Unit → Except Fault Unit) (nameless : String) :
    checkForms e words = checkSpans outside empty nameless e.instructions words e.expansions := by
  rw [checkForms_eq h, checkSpans_eq]
  · rfl
  · intro s hs
    obtain ⟨size, stop, -⟩ := regular.filled h hs
    exact ⟨by omega, stop⟩
  · intro s hs
    exact (regular.filled h hs).2.2

/-- What is reported of forms that do not agree is the first expansion whose words do not. -/
theorem Regular.first_disagreement (regular : e.Regular) (oneName : e.OneName) {mnemonic : String}
    {reported : List UInt32} (h : pair e words = .error (.forms mnemonic reported)) :
    ∃ before s after a b c, e.expansions = before ++ s :: after ∧
      (∀ s' ∈ before, Agrees (s'.cut words)) ∧ ¬ Agrees (s.cut words) ∧
      (∀ ins ∈ s.cut e.instructions, ins.mnemonic = mnemonic) ∧
      s.cut words = [a, b, c] ∧ reported = [a, b, c] ∧ words[s.start]? = some a ∧
      words[s.start + 1]? = some b ∧ words[s.start + 2]? = some c := by
  rcases pair_cases e words with ⟨-, answer⟩ | ⟨length, s, found, answer⟩ | ⟨-, -, answer⟩
  · rw [answer] at h
    cases h
  · obtain ⟨before, after, split, clear, wrong⟩ := exists_of_disagreement? found
    have member := (mem_of_disagreement? found).1
    obtain ⟨size, stop, ins, start⟩ := regular.filled length member
    obtain ⟨a, b, c, own, first, second, third⟩ := Span.cut_eq_three size stop
    have head := Span.head?_cut (by omega : 0 < s.size) e.instructions
    -- the name reported is that of the instruction at the start of the span
    rw [answer, formsFault, head, start] at h
    obtain ⟨rfl, rfl⟩ := Fault.forms.inj (Except.error.inj h)
    exact ⟨before, s, after, a, b, c, split, clear, wrong,
      oneName.mnemonics_expansion member start, own, own, first, second, third⟩
  · rw [answer] at h
    cases h

end Emission

namespace Fixture

/-- Pairing is exact on every emission that a generator makes. -/
theorem pair_emit (g : Generator) (style : CallStyle) (count : Nat) (c : Catalog)
    (words : List UInt32) : PairsExactly (g.emit style count c).1 words where
  count := pair_eq_wordCount_iff
  forms := exists_pair_eq_forms_iff
  first := by
    intro mnemonic reported h
    exact (Generator.regular_emit g style count c).first_disagreement
      (Generator.oneName_emit g style count c) h
  success := exists_pair_eq_ok_iff
  paired := by
    intro f h
    exact vectors_of_pair h
  filled := by
    intro length s hs
    exact (Generator.regular_emit g style count c).filled length hs
  unskipped := (Generator.regular_emit g style count c).checkForms_eq_checkSpans

/-- Control: of two jumps in three forms each, the second is reported when its third word is no jump
any more. -/
theorem pair_emit_jumps :
    pair ((Generator.ofSeed 0).emit {} 2 jumpCatalog).1
        [0x6f, 0x80006f, 0xff9ff06f, 0x6f, 0x80006f, 0x13] =
      .error (.forms "j" [0x6f, 0x80006f, 0x13]) ∧
    ∃ before s after, ((Generator.ofSeed 0).emit {} 2 jumpCatalog).1.expansions =
        before ++ s :: after ∧
      ∀ s' ∈ before, Agrees (s'.cut [0x6f, 0x80006f, 0xff9ff06f, 0x6f, 0x80006f, 0x13]) := by
  have refused : pair ((Generator.ofSeed 0).emit {} 2 jumpCatalog).1
      [0x6f, 0x80006f, 0xff9ff06f, 0x6f, 0x80006f, 0x13] =
      .error (.forms "j" [0x6f, 0x80006f, 0x13]) := by decide +kernel
  obtain ⟨before, s, after, a, b, c, split, clear, -⟩ :=
    (pair_emit (Generator.ofSeed 0) {} 2 jumpCatalog _).first _ _ refused
  exact ⟨refused, before, s, after, split, clear⟩

end Fixture

end EncoderVectors
