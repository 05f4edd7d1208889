import Mathlib.Computability.RegularExpressions
import EncoderVectors.Proofs.Catalog.Names

/-!
# The grammar of names

A name is checked against four rules, one after another. Together they admit a regular language:
`[a-z][a-z0-9]*(_[a-z0-9]+)*`. The patterns are regular expressions in the sense of formal languages;
the parts between underscores are what ties them to the rules (`mem_partsPattern_iff`).

Main results:

* `mem_namePattern_iff`: a text matches the pattern exactly when it breaks no rule;
* `fault?_eq_find?`: of the rules that a text breaks, the first in their order is reported;
* `names_regular`: what mnemonics there are, and what their two spellings tell about them.
-/

set_option autoImplicit false

namespace EncoderVectors.Mnemonic

/-! ## Patterns -/

/-- The lowercase letters. -/
def smallLetters : List Char :=
  "abcdefghijklmnopqrstuvwxyz".toList

/-- The characters of a part. -/
def partChars : List Char :=
  smallLetters ++ "0123456789".toList

/-- One of some characters. -/
def oneOf : List Char → RegularExpression Char
  | [] => 0
  | c :: cs => .char c + oneOf cs

/-- The pattern `[a-z0-9]+` of a part. -/
def partPattern : RegularExpression Char :=
  oneOf partChars * (oneOf partChars).star

/-- The pattern `(_[a-z0-9]+)*` of what follows the first part. -/
def furtherPattern : RegularExpression Char :=
  (.char '_' * partPattern).star

/-- The pattern `[a-z0-9]+(_[a-z0-9]+)*` of some parts. -/
def partsPattern : RegularExpression Char :=
  partPattern * furtherPattern

/-- The pattern `[a-z][a-z0-9]*(_[a-z0-9]+)*` of a name. -/
def namePattern : RegularExpression Char :=
  oneOf smallLetters * (oneOf partChars).star * furtherPattern

theorem mem_oneOf_iff {chars cs : List Char} :
    cs ∈ (oneOf chars).matches' ↔ ∃ c ∈ chars, cs = [c] := by
  induction chars with
  | nil => simp [oneOf, Language.notMem_zero]
  | cons c chars ih =>
      rw [oneOf, RegularExpression.matches'_add, Language.mem_add, ih]
      simp only [List.mem_cons, exists_eq_or_imp]
      exact Iff.rfl

theorem mem_star_oneOf_iff {chars cs : List Char} :
    cs ∈ (oneOf chars).star.matches' ↔ ∀ c ∈ cs, c ∈ chars := by
  rw [RegularExpression.matches'_star, Language.mem_kstar]
  constructor
  · rintro ⟨words, rfl, each⟩ c inside
    obtain ⟨word, listed, inside⟩ := List.mem_flatten.mp inside
    obtain ⟨d, known, rfl⟩ := mem_oneOf_iff.mp (each word listed)
    rw [List.mem_singleton.mp inside]
    exact known
  · intro all
    refine ⟨cs.map fun c => [c], (List.flatMap_singleton' cs).symm, ?_⟩
    intro word listed
    obtain ⟨c, inside, rfl⟩ := List.mem_map.mp listed
    exact mem_oneOf_iff.mpr ⟨c, all c inside, rfl⟩

/-- Characters of a part, and at least one of them. -/
def IsPart (cs : List Char) : Prop :=
  cs ≠ [] ∧ ∀ c ∈ cs, c ∈ partChars

instance (cs : List Char) : Decidable (IsPart cs) :=
  @instDecidableAnd _ _ inferInstance (List.decidableBAll _ cs)

theorem mem_partPattern_iff {cs : List Char} : cs ∈ partPattern.matches' ↔ IsPart cs := by
  rw [partPattern, RegularExpression.matches'_mul, Language.mem_mul]
  constructor
  · rintro ⟨first, one, rest, more, rfl⟩
    obtain ⟨c, known, rfl⟩ := mem_oneOf_iff.mp one
    exact ⟨by simp, List.forall_mem_cons.mpr ⟨known, mem_star_oneOf_iff.mp more⟩⟩
  · rintro ⟨some, all⟩
    cases cs with
    | nil => exact absurd rfl some
    | cons c rest =>
        obtain ⟨known, more⟩ := List.forall_mem_cons.mp all
        exact ⟨[c], mem_oneOf_iff.mpr ⟨c, known, rfl⟩, rest, mem_star_oneOf_iff.mpr more, rfl⟩

/-- What follows the first part are further parts, each with an underscore in front. -/
theorem mem_furtherPattern_iff {cs : List Char} :
    cs ∈ furtherPattern.matches' ↔
      ∃ parts : List (List Char), (∀ p ∈ parts, IsPart p) ∧ cs = parts.flatMap ('_' :: ·) := by
  rw [furtherPattern, RegularExpression.matches'_star, Language.mem_kstar]
  constructor
  · rintro ⟨words, rfl, each⟩
    induction words with
    | nil => exact ⟨[], by simp, rfl⟩
    | cons word words ih =>
        obtain ⟨first, rest⟩ := List.forall_mem_cons.mp each
        obtain ⟨parts, all, joined⟩ := ih rest
        obtain ⟨joint, underscore, p, part, rfl⟩ := Language.mem_mul.mp first
        cases underscore
        refine ⟨p :: parts, List.forall_mem_cons.mpr ⟨mem_partPattern_iff.mp part, all⟩, ?_⟩
        rw [List.flatten_cons, joined]
        rfl
  · rintro ⟨parts, all, rfl⟩
    refine ⟨parts.map ('_' :: ·), rfl, ?_⟩
    intro word listed
    obtain ⟨p, inside, rfl⟩ := List.mem_map.mp listed
    exact Language.mem_mul.mpr ⟨['_'], rfl, p, mem_partPattern_iff.mpr (all p inside), rfl⟩

/-! ## Parts -/

theorem intercalate_cons (p : List Char) (parts : List (List Char)) :
    ['_'].intercalate (p :: parts) = p ++ parts.flatMap ('_' :: ·) := by
  induction parts generalizing p with
  | nil => simp
  | cons q parts ih =>
      rw [List.intercalate_cons_cons, ih, List.flatMap_cons, List.append_assoc]
      rfl

theorem flatten_splitOn (cs : List Char) :
    (cs.splitOn '_').flatten = cs.filter fun c => c != '_' := by
  induction cs with
  | nil => rfl
  | cons c cs ih =>
      rw [List.splitOn_cons_eq_if_modifyHead]
      split
      · next joint =>
          rw [List.flatten_cons, List.nil_append, ih, eq_of_beq joint]
          rfl
      · next other =>
          obtain ⟨p, parts, split⟩ := List.exists_cons_of_ne_nil (List.splitOn_ne_nil '_' cs)
          have kept : (c != '_') = true := by simpa using other
          rw [List.filter_cons, if_pos kept, ← ih, split]
          rfl

theorem not_mem_partChars : '_' ∉ partChars := by
  decide

/-- A text is made of parts exactly when the pieces between its underscores are parts. -/
theorem mem_partsPattern_iff {cs : List Char} :
    cs ∈ partsPattern.matches' ↔ ∀ p ∈ cs.splitOn '_', IsPart p := by
  rw [partsPattern, RegularExpression.matches'_mul, Language.mem_mul]
  constructor
  · rintro ⟨p, first, rest, further, rfl⟩
    obtain ⟨parts, all, rfl⟩ := mem_furtherPattern_iff.mp further
    have every : ∀ q ∈ p :: parts, IsPart q :=
      List.forall_mem_cons.mpr ⟨mem_partPattern_iff.mp first, all⟩
    rw [← intercalate_cons, List.splitOn_intercalate '_' _ (by simp)]
    · exact every
    · -- joined parts are the pieces again because no part holds the joint
      intro q listed inside
      exact not_mem_partChars ((every q listed).2 '_' inside)
  · intro all
    obtain ⟨p, parts, split⟩ := List.exists_cons_of_ne_nil (List.splitOn_ne_nil '_' cs)
    rw [split] at all
    obtain ⟨first, rest⟩ := List.forall_mem_cons.mp all
    refine ⟨p, mem_partPattern_iff.mpr first, _, mem_furtherPattern_iff.mpr ⟨parts, rest, rfl⟩, ?_⟩
    rw [← intercalate_cons, ← split, List.intercalate_splitOn]

/-- A name is made of parts, and opens with a letter. -/
theorem mem_namePattern_iff_parts {cs : List Char} :
    cs ∈ namePattern.matches' ↔
      (∃ c ∈ smallLetters, [c] <+: cs) ∧ ∀ p ∈ cs.splitOn '_', IsPart p := by
  rw [← mem_partsPattern_iff, namePattern, partsPattern, partPattern]
  simp only [RegularExpression.matches'_mul, Language.mem_mul]
  constructor
  · rintro ⟨front, ⟨first, one, rest, more, rfl⟩, back, further, rfl⟩
    obtain ⟨c, letter, rfl⟩ := mem_oneOf_iff.mp one
    have known : c ∈ partChars := List.mem_append_left _ letter
    exact ⟨⟨c, letter, rest ++ back, rfl⟩,
      _, ⟨[c], mem_oneOf_iff.mpr ⟨c, known, rfl⟩, rest, more, rfl⟩, back, further, rfl⟩
  · rintro ⟨⟨c, letter, opened⟩, front, ⟨first, one, rest, more, rfl⟩, back, further, rfl⟩
    obtain ⟨d, -, rfl⟩ := mem_oneOf_iff.mp one
    obtain ⟨tail, opened⟩ := opened
    cases opened
    exact ⟨_, ⟨[c], mem_oneOf_iff.mpr ⟨c, letter, rfl⟩, rest, more, rfl⟩, back, further, rfl⟩

/-! ## Rules -/

/-- The rules in the order they are looked at. -/
def Fault.order : List Fault :=
  [.empty, .firstLetter, .alphabet, .emptyPart]

/-- The text breaks the rule. -/
def Fault.Broken : Fault → List Char → Prop
  | .empty, cs => cs = []
  | .firstLetter, cs => ¬ ∃ c ∈ smallLetters, [c] <+: cs
  | .alphabet, cs => ∃ c ∈ cs, c ∉ partChars ∧ c ≠ '_'
  | .emptyPart, cs => cs = [] ∨ ['_'] <+: cs ∨ ['_'] <:+ cs ∨ ['_', '_'] <:+: cs

instance (fault : Fault) (cs : List Char) : Decidable (fault.Broken cs) :=
  match fault with
  | .empty => inferInstanceAs (Decidable (_ = _))
  -- only the listed characters are looked at, not all there are
  | .firstLetter => @instDecidableNot _ (List.decidableBEx _ smallLetters)
  | .alphabet => List.decidableBEx _ cs
  | .emptyPart => inferInstanceAs (Decidable (_ ∨ _))

/-- A character of a run is counted from the first of the run. -/
theorem exists_ofNat_add {c first last : Char} {n : Nat}
    (within : (decide (c.val ≥ first.val) && decide (c.val ≤ last.val)) = true)
    (short : last.toNat < first.toNat + n) : ∃ k : Fin n, c = Char.ofNat (first.toNat + k.val) := by
  obtain ⟨above, below⟩ := (Bool.and_eq_true _ _).mp within
  have above : first.toNat ≤ c.toNat := UInt32.le_iff_toNat_le.mp (of_decide_eq_true above)
  have below : c.toNat ≤ last.toNat := UInt32.le_iff_toNat_le.mp (of_decide_eq_true below)
  refine ⟨⟨c.toNat - first.toNat, by omega⟩, ?_⟩
  rw [Nat.add_sub_of_le above, Char.ofNat_toNat]

theorem mem_smallLetters_iff {c : Char} : c ∈ smallLetters ↔ c.isLower = true := by
  constructor
  · have table : smallLetters.all Char.isLower = true := by decide
    exact List.all_eq_true.mp table c
  · have table : ∀ k : Fin 26, Char.ofNat ('a'.toNat + k.val) ∈ smallLetters := by decide
    intro lower
    obtain ⟨k, rfl⟩ := exists_ofNat_add (n := 26) lower (by decide)
    exact table k

theorem mem_digits_iff {c : Char} : c ∈ "0123456789".toList ↔ c.isDigit = true := by
  constructor
  · have table : "0123456789".toList.all Char.isDigit = true := by decide
    exact List.all_eq_true.mp table c
  · have table : ∀ k : Fin 10, Char.ofNat ('0'.toNat + k.val) ∈ "0123456789".toList := by decide
    intro digit
    obtain ⟨k, rfl⟩ := exists_ofNat_add (n := 10) digit (by decide)
    exact table k

theorem mem_partChars_iff {c : Char} : c ∈ partChars ↔ isPartChar c = true := by
  rw [partChars, List.mem_append, mem_smallLetters_iff, mem_digits_iff, isPartChar, Bool.or_eq_true]

/-- Joined parts have an empty one among them only where two underscores meet, or one stands at an
end. -/
theorem broken_intercalate {parts : List (List Char)} (empty : [] ∈ parts) :
    Fault.emptyPart.Broken (['_'].intercalate parts) := by
  -- what an empty part leaves behind moves on as parts are put in front of it: the whole text, then
  -- an underscore at its end, or one at its start that meets the next
  induction parts with
  | nil => exact absurd empty List.not_mem_nil
  | cons p parts ih =>
      cases parts with
      | nil =>
          rw [List.intercalate_singleton]
          exact .inl (List.mem_singleton.mp empty).symm
      | cons q parts =>
          rw [List.intercalate_cons_cons]
          rcases List.mem_cons.mp empty with rfl | later
          · exact .inr (.inl ⟨_, rfl⟩)
          · rcases ih later with none | ⟨rest, opens⟩ | ⟨rest, ends⟩ | twice
            · rw [none]
              exact .inr (.inr (.inl ⟨p, by simp⟩))
            · rw [← opens]
              exact .inr (.inr (.inr ⟨p, rest, by simp⟩))
            · rw [← ends]
              exact .inr (.inr (.inl ⟨p ++ ['_'] ++ rest, by simp⟩))
            · exact .inr (.inr (.inr (twice.trans (List.suffix_append _ _).isInfix)))

theorem nil_mem_splitOn_iff {cs : List Char} :
    [] ∈ cs.splitOn '_' ↔ Fault.emptyPart.Broken cs := by
  have joined : ['_'].intercalate (cs.splitOn '_') = cs := List.intercalate_splitOn '_'
  have cut : ∀ xs ys : List Char, (xs ++ '_' :: ys).splitOn '_' = xs.splitOn '_' ++ ys.splitOn '_' :=
    List.splitOn_append_cons_self
  have opened : ∀ ys : List Char, [] ∈ ('_' :: ys).splitOn '_' := by
    intro ys
    rw [← List.nil_append ('_' :: ys), cut]
    exact List.mem_append_left _ (List.mem_singleton_self [])
  constructor
  · intro empty
    rw [← joined]
    exact broken_intercalate empty
  · rintro (rfl | ⟨rest, rfl⟩ | ⟨rest, rfl⟩ | ⟨front, back, rfl⟩)
    · exact List.mem_singleton_self []
    · exact opened rest
    · rw [cut]
      exact List.mem_append_right _ (List.mem_singleton_self [])
    · rw [List.append_assoc]
      change [] ∈ (front ++ '_' :: '_' :: back).splitOn '_'
      rw [cut]
      exact List.mem_append_right _ (opened back)

/-- The pieces of a text are parts exactly when none is empty and the alphabet is kept. -/
theorem forall_isPart_iff {cs : List Char} : (∀ p ∈ cs.splitOn '_', IsPart p) ↔
    ¬ Fault.alphabet.Broken cs ∧ ¬ Fault.emptyPart.Broken cs := by
  have chars : (∀ p ∈ cs.splitOn '_', ∀ c ∈ p, c ∈ partChars) ↔ ¬ Fault.alphabet.Broken cs := by
    calc (∀ p ∈ cs.splitOn '_', ∀ c ∈ p, c ∈ partChars)
        ↔ ∀ c ∈ (cs.splitOn '_').flatten, c ∈ partChars := by
          simp only [List.mem_flatten]
          exact ⟨fun all c ⟨p, listed, inside⟩ => all p listed c inside,
            fun all p listed c inside => all c ⟨p, listed, inside⟩⟩
      _ ↔ ¬ Fault.alphabet.Broken cs := by
          rw [flatten_splitOn, Fault.Broken]
          simp only [List.mem_filter, bne_iff_ne, ne_eq, not_exists, not_and, not_not, and_imp]
          exact forall₂_congr fun c _ => not_imp_comm
  rw [← chars, ← nil_mem_splitOn_iff]
  constructor
  · intro all
    exact ⟨fun p listed => (all p listed).2, fun empty => (all [] empty).1 rfl⟩
  · rintro ⟨kept, some⟩ p listed
    refine ⟨?_, kept p listed⟩
    rintro rfl
    exact some listed

theorem mem_namePattern_iff {cs : List Char} :
    cs ∈ namePattern.matches' ↔ ∀ fault : Fault, ¬ fault.Broken cs := by
  rw [mem_namePattern_iff_parts, forall_isPart_iff]
  constructor
  · rintro ⟨letter, alphabet, parts⟩ fault
    cases fault with
    | empty =>
        rintro rfl
        exact parts (.inl rfl)
    | firstLetter => exact not_not_intro letter
    | alphabet => exact alphabet
    | emptyPart => exact parts
  · intro none
    exact ⟨not_not.mp (none .firstLetter), none .alphabet, none .emptyPart⟩

section Order

variable {c : Char} {rest cs : List Char}

theorem broken_firstLetter_iff : Fault.firstLetter.Broken (c :: rest) ↔ (!c.isLower) = true := by
  rw [Fault.Broken, Bool.not_eq_true', ← Bool.not_eq_true, ← mem_smallLetters_iff]
  apply not_congr
  constructor
  · rintro ⟨d, small, tail, opened⟩
    cases opened
    exact small
  · intro small
    exact ⟨c, small, rest, rfl⟩

theorem broken_alphabet_iff :
    Fault.alphabet.Broken cs ↔ (!cs.all fun d => isPartChar d || d == '_') = true := by
  rw [Fault.Broken, Bool.not_eq_true', List.all_eq_false]
  simp only [mem_partChars_iff, Bool.or_eq_true, beq_iff_eq, not_or, ne_eq]

theorem broken_emptyPart_iff :
    Fault.emptyPart.Broken cs ↔ (cs.splitOn '_').any List.isEmpty = true := by
  rw [← nil_mem_splitOn_iff, List.any_eq_true]
  simp only [List.isEmpty_iff, exists_eq_right]

/-- A test that tells whether a rule is broken settles the search, or leaves it to the later rules. -/
theorem find?_cons_rule {fault : Fault} {rules : List Fault} {test : Bool}
    (broken : fault.Broken cs ↔ test = true) :
    ((fault :: rules).find? fun rule => rule.Broken cs) =
      if test then some fault else rules.find? fun rule => rule.Broken cs := by
  have same : decide (fault.Broken cs) = test := by
    rw [Bool.eq_iff_iff, decide_eq_true_eq, broken]
  rw [List.find?_cons, same]
  cases test with
  | true => rfl
  | false => rfl

end Order

/-- Of the rules that a text breaks, the first one is reported. -/
theorem fault?_eq_find? (text : String) :
    fault? text = Fault.order.find? fun fault => fault.Broken text.toList := by
  unfold fault?
  split
  · next empty =>
      rw [empty]
      rfl
  · next c rest chars =>
      have filled : Fault.empty.Broken (c :: rest) ↔ false = true := by simp [Fault.Broken]
      rw [chars, Fault.order, find?_cons_rule filled, if_neg Bool.false_ne_true,
        find?_cons_rule broken_firstLetter_iff, find?_cons_rule broken_alphabet_iff,
        find?_cons_rule broken_emptyPart_iff, List.find?_nil]

theorem Fault.mem_order (fault : Fault) : fault ∈ order := by
  cases fault <;> decide

theorem fault?_eq_none_iff {text : String} :
    fault? text = none ↔ text.toList ∈ namePattern.matches' := by
  rw [fault?_eq_find?, List.find?_eq_none, mem_namePattern_iff]
  simp only [decide_eq_true_eq]
  exact ⟨fun none fault => none fault fault.mem_order, fun none fault _ => none fault⟩

/-! ## Making names -/

section Making

variable {text : String} {m : Mnemonic}

theorem ofName_eq_ok_iff : ofName text = .ok m ↔ m.name = text := by
  unfold ofName
  split
  · next sound =>
      constructor
      · intro made
        cases made
        rfl
      · rintro rfl
        rfl
  · next fault unsound =>
      constructor
      · intro made
        cases made
      · rintro rfl
        rw [m.sound] at unsound
        cases unsound

theorem ofName_eq_error_iff {fault : Fault} :
    ofName text = .error fault ↔ fault? text = some fault := by
  unfold ofName
  split
  · next sound => simp [sound]
  · next other unsound => simp [unsound]

theorem exists_ofName_iff :
    (∃ m, ofName text = .ok m) ↔ text.toList ∈ namePattern.matches' := by
  rw [← fault?_eq_none_iff]
  constructor
  · rintro ⟨m, made⟩
    rw [← ofName_eq_ok_iff.mp made]
    exact m.sound
  · intro sound
    exact ⟨⟨text, sound⟩, ofName_eq_ok_iff.mpr rfl⟩

/-- A name takes whatever is made of parts as its further parts. -/
theorem exists_ofName_extended_iff {part : String} :
    (∃ m', ofName (m.extended part) = .ok m') ↔ part.toList ∈ partsPattern.matches' := by
  have chars : (m.extended part).toList = m.name.toList ++ '_' :: part.toList := by
    simp [extended]
  obtain ⟨⟨c, letter, opened⟩, own⟩ :=
    mem_namePattern_iff_parts.mp (fault?_eq_none_iff.mp m.sound)
  rw [exists_ofName_iff, mem_namePattern_iff_parts, mem_partsPattern_iff, chars,
    List.splitOn_append_cons_self]
  constructor
  · rintro ⟨-, all⟩ p listed
    exact all p (List.mem_append_right _ listed)
  · intro further
    refine ⟨⟨c, letter, opened.trans (List.prefix_append _ _)⟩, ?_⟩
    intro p listed
    rcases List.mem_append.mp listed with first | later
    · exact own p first
    · exact further p later

end Making

/-! ## Spellings -/

theorem eq_of_name_eq {m m' : Mnemonic} (same : m.name = m'.name) : m = m' := by
  cases m
  cases m'
  cases same
  rfl

/-- The names that are reserved. -/
def reservedWords : List String :=
  ["and", "or", "not", "xor"]

/-- The first name is reserved, and the second is the call used instead of it. -/
def Collides (name other : String) : Prop :=
  ∃ word ∈ reservedWords, name = word ∧ other = word ++ "r"

theorem collides_of_lookup {name other : String} (found : reserved.lookup name = some other) :
    Collides name other := by
  have table : ∀ row ∈ reserved, row.1 ∈ reservedWords ∧ row.2 = row.1 ++ "r" := by decide
  obtain ⟨word, call⟩ := table _ (mem_reserved_of_lookup found)
  exact ⟨name, word, rfl, call⟩

theorem callName_eq_of_collides {m m' : Mnemonic} (h : Collides m.name m'.name) :
    m.callName = m'.callName := by
  have table : ∀ word ∈ reservedWords, reserved.lookup word = some (word ++ "r") ∧
      reserved.lookup (word ++ "r") = none := by decide
  obtain ⟨word, listed, name, other⟩ := h
  obtain ⟨found, missed⟩ := table word listed
  rw [callName, callName, name, other, found, missed]
  rfl

/-- Calls tell names apart, but for a reserved one and the name used instead of it. -/
theorem callName_eq_iff {m m' : Mnemonic} (differ : m ≠ m') :
    m.callName = m'.callName ↔ Collides m.name m'.name ∨ Collides m'.name m.name := by
  have names : m.name ≠ m'.name := fun same => differ (eq_of_name_eq same)
  constructor
  · intro same
    unfold callName at same
    cases found : reserved.lookup m.name with
    | none =>
        cases found' : reserved.lookup m'.name with
        | none =>
            rw [found, found'] at same
            exact absurd same names
        | some other =>
            rw [found, found'] at same
            have call : m.name = other := same
            exact .inr (call ▸ collides_of_lookup found')
    | some other =>
        cases found' : reserved.lookup m'.name with
        | none =>
            rw [found, found'] at same
            have call : other = m'.name := same
            exact .inl (call ▸ collides_of_lookup found)
        | some other' =>
            -- two reserved names have different calls
            rw [found, found'] at same
            have call : other = other' := same
            have table : ∀ a ∈ reserved, ∀ b ∈ reserved, a.2 = b.2 → a.1 = b.1 := by decide
            exact absurd (table _ (mem_reserved_of_lookup found) _ (mem_reserved_of_lookup found') call)
              names
  · rintro (collide | collide)
    · exact callName_eq_of_collides collide
    · exact (callName_eq_of_collides collide).symm

theorem assemblyName_injective {m m' : Mnemonic} (same : m.assemblyName = m'.assemblyName) :
    m = m' := by
  apply eq_of_name_eq
  apply String.toList_injective
  rw [← m.underscored_assemblyName, same, m'.underscored_assemblyName]

theorem underscore_not_mem_assemblyName (m : Mnemonic) : '_' ∉ m.assemblyName.toList := by
  intro inside
  rcases m.assemblyName_chars '_' inside with part | dot
  · exact not_mem_partChars (mem_partChars_iff.mpr part)
  · exact absurd dot (by decide)

theorem assemblyName_ne_empty (m : Mnemonic) : m.assemblyName ≠ "" := by
  intro empty
  obtain ⟨c, rest, chars, -⟩ := m.exists_first
  have none := m.underscored_assemblyName
  rw [empty, chars] at none
  exact absurd none (by simp [underscored])

/-! ## The main statement -/

/-- The texts that are names are those of a regular language, and a text that is none is refused for
the first rule in order that it breaks. A name takes as further parts exactly what is made of parts,
and joins them with an underscore. The name in assembly is never empty, holds no underscore, and gives
the name back when its dots are made underscores, so it tells names apart. The name of the call tells
names apart too, except for a reserved word and that word followed by `r`. -/
theorem names_regular :
    (∀ text, (∃ m, ofName text = .ok m) ↔ text.toList ∈ namePattern.matches') ∧
    (∀ text m, ofName text = .ok m → m.name = text) ∧
    (∀ text fault, ofName text = .error fault ↔
      (Fault.order.find? fun rule => rule.Broken text.toList) = some fault) ∧
    (∀ (m : Mnemonic) (part : String),
      ((∃ m', ofName (m.extended part) = .ok m') ↔ part.toList ∈ partsPattern.matches') ∧
      ∀ m', ofName (m.extended part) = .ok m' → m'.name = m.name ++ "_" ++ part) ∧
    (∀ m : Mnemonic, underscored m.assemblyName.toList = m.name.toList ∧
      '_' ∉ m.assemblyName.toList ∧ m.assemblyName ≠ "") ∧
    (∀ m m' : Mnemonic, m.assemblyName = m'.assemblyName → m = m') ∧
    ∀ m m' : Mnemonic, m ≠ m' → (m.callName = m'.callName ↔
      Collides m.name m'.name ∨ Collides m'.name m.name) := by
  refine ⟨fun text => exists_ofName_iff, fun text m => ofName_eq_ok_iff.mp, ?_, ?_, ?_, ?_, ?_⟩
  · intro text fault
    rw [ofName_eq_error_iff, fault?_eq_find?]
  · intro m part
    exact ⟨exists_ofName_extended_iff, fun m' made => ofName_eq_ok_iff.mp made⟩
  · intro m
    exact ⟨m.underscored_assemblyName, m.underscore_not_mem_assemblyName, m.assemblyName_ne_empty⟩
  · intro m m'
    exact assemblyName_injective
  · intro m m'
    exact callName_eq_iff

/-- Control: a name and its further parts, a name with an empty part, and a reserved word whose call is
another name. -/
theorem names_regular_reserved :
    let word : Mnemonic := ⟨"and", by decide⟩
    let call : Mnemonic := ⟨"andr", by decide⟩
    word ≠ call ∧ word.callName = call.callName ∧ "w_s".toList ∈ partsPattern.matches' ∧
      (∃ m, ofName (word.extended "w_s") = .ok m ∧ m.name = "and_w_s") ∧
      ofName "fcvt__w" = .error .emptyPart := by
  intro word call
  obtain ⟨-, -, refused, further, -, -, calls⟩ := names_regular
  obtain ⟨extends_iff, joined⟩ := further word "w_s"
  have differ : word ≠ call := by decide
  have parts : "w_s".toList ∈ partsPattern.matches' := by
    rw [mem_partsPattern_iff]
    decide
  obtain ⟨m, made⟩ := extends_iff.mpr parts
  refine ⟨differ, (calls word call differ).mpr ?_, parts, ⟨m, made, joined m made⟩, ?_⟩
  · exact .inl ⟨"and", by decide, rfl, rfl⟩
  · rw [refused]
    decide

end EncoderVectors.Mnemonic
