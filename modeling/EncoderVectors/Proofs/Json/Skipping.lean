import EncoderVectors.Proofs.Json.Reading

/-!
# Passing over values

A value that nobody asked for is passed over with a stack of open brackets. On every text of the
grammar, however deep, the stack comes back to where it was when the value began, and the value is gone
(`takes_skipValue`).
-/

set_option autoImplicit false

namespace EncoderVectors.Json

/-- Some steps of a loop that go on, one after another; each takes a character. -/
inductive Advances {σ β : Type} (step : σ → Reader (σ ⊕ β)) :
    σ → List Char → σ → List Char → Prop
  /-- No steps. -/
  | refl (s : σ) (cs : List Char) : Advances step s cs s cs
  /-- One step, and then others. -/
  | next {s s' s'' : σ} {cs middle rest : List Char} (one : Takes (step s) cs (.inl s') middle)
      (shorter : middle.length < cs.length) (others : Advances step s' middle s'' rest) :
      Advances step s cs s'' rest

section

variable {σ β : Type} {step : σ → Reader (σ ⊕ β)} {s s' s'' : σ} {cs middle rest : List Char} {b : β}

theorem Advances.one (taken : Takes (step s) cs (.inl s') rest) (shorter : rest.length < cs.length) :
    Advances step s cs s' rest :=
  .next taken shorter (.refl s' rest)

theorem Advances.trans (first : Advances step s cs s' middle)
    (second : Advances step s' middle s'' rest) : Advances step s cs s'' rest := by
  induction first with
  | refl => exact second
  | next one shorter others ih => exact .next one shorter (ih second)

theorem Advances.iterates (first : Advances step s cs s' middle)
    (second : Iterates step s' middle b rest) : Iterates step s cs b rest := by
  induction first with
  | refl => exact second
  | next one shorter others ih => exact .next one shorter (ih second)

end

/-- Where a list of items begins once the blanks before it are gone. -/
theorem Listed.exists_first {α : Type} {item : α → List Char → List Char → Prop} {as : List α}
    {cs rest : List Char} (h : Listed item as cs rest) :
    ∃ a cs₁ cs₂, Blanks cs cs₁ ∧ item a cs₁ cs₂ ∧ Listed item as cs₁ rest := by
  cases h with
  | last before spelled after => exact ⟨_, _, _, before, spelled, .last (blanks_refl _) spelled after⟩
  | more before spelled after others =>
      exact ⟨_, _, _, before, spelled, .more (blanks_refl _) spelled after others⟩

theorem Member.exists_quote {α : Type} {item : α → List Char → List Char → Prop}
    {m : Option String × α} {cs rest : List Char} (h : Member item m cs rest) :
    ∃ more, cs = '"' :: more := by
  cases h with
  | mk quoted before after spelled =>
      obtain ⟨inside, rfl, -⟩ := quoted.exists_formed
      exact ⟨inside, rfl⟩

/-! ## Parts of a value -/

variable {outer : List Bracket}

theorem takes_skipString {cs rest : List Char} (formed : Formed cs rest) :
    Takes (scanned fun cs => (skipString cs).map fun rest => ((), rest)) cs () rest := by
  apply takes_scanned
  rw [skipString_of_formed formed]
  rfl

/-- The key of a member and its colon are passed over. -/
theorem takes_skipKey {key : Option String} {cs cs₁ cs₂ rest : List Char} (blank : Blanks cs cs₁)
    (quoted : Quoted key cs₁ cs₂) (colon : Blanks cs₂ (':' :: rest)) : Takes skipKey cs () rest := by
  obtain ⟨inside, rfl, formed⟩ := quoted.exists_formed
  refine (takes_punctuation blank rfl).bind ?_
  exact (takes_skipString formed).bind (takes_punctuation colon rfl)

/-- Passing over the start of a value is one step. -/
theorem advances_start {next : Skipping} {cs rest : List Char}
    (taken : Takes (skipStart outer) cs next rest) (shorter : rest.length < cs.length) :
    Advances skipStep ⟨outer, false⟩ cs next rest :=
  .one (taken.bind (takes_pure _ _)) shorter

theorem advances_closing (bracket : Bracket) {cs rest : List Char}
    (closing : Blanks cs (bracket.closing :: rest)) :
    Advances skipStep ⟨bracket :: outer, true⟩ cs ⟨outer, true⟩ rest := by
  refine .one ?_ ?_
  · cases bracket with
    | array => exact (takes_look closing rfl).bind ((takes_advance ']' rest).bind (takes_pure _ _))
    | object => exact (takes_look closing rfl).bind ((takes_advance '\x7d' rest).bind (takes_pure _ _))
  · have length := closing.length_le
    simp only [List.length_cons] at length
    omega

theorem advances_comma_array {cs rest : List Char} (comma : Blanks cs (',' :: rest)) :
    Advances skipStep ⟨.array :: outer, true⟩ cs ⟨.array :: outer, false⟩ rest := by
  refine .one ((takes_look comma rfl).bind ((takes_advance ',' rest).bind (takes_pure _ _))) ?_
  have length := comma.length_le
  simp only [List.length_cons] at length
  omega

theorem advances_comma_object {cs cs₁ rest : List Char} (comma : Blanks cs (',' :: cs₁))
    (key : Takes skipKey cs₁ () rest) (shorter : rest.length ≤ cs₁.length) :
    Advances skipStep ⟨.object :: outer, true⟩ cs ⟨.object :: outer, false⟩ rest := by
  refine .one ((takes_look comma rfl).bind ((takes_advance ',' cs₁).bind
    (key.bind (takes_pure _ _)))) ?_
  have length := comma.length_le
  simp only [List.length_cons] at length
  omega

/-! ## Whole values -/

/-- Values of at most `n` characters are passed over. -/
def SkipsUpTo (n : Nat) : Prop :=
  ∀ {v : Value} (outer : List Bracket) {cs cs₁ rest : List Char}, cs₁.length ≤ n →
    Blanks cs cs₁ → Spells v cs₁ rest → Ends rest →
    Advances skipStep ⟨outer, false⟩ cs ⟨outer, true⟩ rest

theorem SkipsUpTo.elements {n : Nat} (skips : SkipsUpTo n) {vs : List Value}
    {cs all rest : List Char} (listed : Listed Spells vs cs all) (closed : all = ']' :: rest)
    (bound : cs.length ≤ n) :
    Advances skipStep ⟨.array :: outer, false⟩ cs ⟨outer, true⟩ rest := by
  induction listed with
  | last before spelled after =>
      subst closed
      have value := skips (.array :: outer) (Nat.le_trans before.length_le bound) before
        spelled (after.ends (ends_cons _ (by simp)))
      exact value.trans (advances_closing .array after)
  | more before spelled after others ih =>
      have value := skips (.array :: outer) (Nat.le_trans before.length_le bound) before
        spelled (after.ends (ends_cons _ (by simp)))
      have blanks := before.length_le
      have shorter := spelled.length_lt
      have trailing := after.length_le
      simp only [List.length_cons] at trailing
      exact value.trans ((advances_comma_array after).trans (ih closed (by omega)))

/-- The members of an object are passed over once the first key is. -/
theorem SkipsUpTo.members {n : Nat} (skips : SkipsUpTo n) (outer : List Bracket)
    {ms : List (Option String × Value)}
    {cs all rest : List Char} (listed : Listed (Member Spells) ms cs all)
    (closed : all = '\x7d' :: rest) (bound : cs.length ≤ n) :
    ∃ middle, Takes skipKey cs () middle ∧ middle.length < cs.length ∧
      Advances skipStep ⟨.object :: outer, false⟩ middle ⟨outer, true⟩ rest := by
  induction listed with
  | @last m cs₀ cs₁ cs₂ _ before spelled after =>
      subst closed
      cases spelled with
      | @mk key v _ cs₃ middle cs₄ _ quoted colon blank spelled =>
          have key := takes_skipKey before quoted colon
          have lengths := And.intro before.length_le (And.intro quoted.length_lt
            (And.intro colon.length_le blank.length_le))
          simp only [List.length_cons] at lengths
          have value := skips (.object :: outer) (by omega) blank spelled
            (after.ends (ends_cons _ (by simp)))
          refine ⟨middle, key, by omega, ?_⟩
          exact value.trans (advances_closing .object after)
  | @more m ms cs₀ cs₁ cs₂ cs₅ _ before spelled after others ih =>
      cases spelled with
      | @mk key v _ cs₃ middle cs₄ _ quoted colon blank spelled =>
          have key := takes_skipKey before quoted colon
          have lengths := And.intro before.length_le (And.intro quoted.length_lt
            (And.intro colon.length_le (And.intro blank.length_le
              (And.intro spelled.length_lt after.length_le))))
          simp only [List.length_cons] at lengths
          have value := skips (.object :: outer) (by omega) blank spelled
            (after.ends (ends_cons _ (by simp)))
          obtain ⟨further, nextKey, shorter, others⟩ := ih closed (by omega)
          refine ⟨middle, key, by omega, ?_⟩
          exact value.trans ((advances_comma_object after nextKey (by omega)).trans others)

/-- A number is passed over where no other value opens. -/
theorem takes_skipStart_number {parts : NumberText} {cs cs₁ rest : List Char}
    (blank : Blanks cs cs₁) (numeral : Numeral parts cs₁ rest) (ends : Ends rest) :
    Takes (skipStart outer) cs ⟨outer, true⟩ rest := by
  have scan := takes_scanned (scanNumber_of_numeral numeral ends)
  obtain ⟨c, more, rfl, first, -⟩ := numeral.exists_cons
  have others := ne_of_opensNumber first
  refine (takes_look blank (isSpace_eq_false (opensValue_of_opensNumber first))).bind ?_
  -- the first character of a number is that of no other value
  split
  · next same => exact absurd (Option.some.inj same) others.1
  · next same => exact absurd (Option.some.inj same) others.2.1
  · next same => exact absurd (Option.some.inj same) others.2.2.1
  · next same => exact absurd (Option.some.inj same) others.2.2.2.1
  · next same => exact absurd (Option.some.inj same) others.2.2.2.2.1
  · next same => exact absurd (Option.some.inj same) others.2.2.2.2.2
  · exact scan.bind (takes_pure _ _)

theorem SkipsUpTo.array {n : Nat} (skips : SkipsUpTo n) {vs : List Value} {cs cs₁ rest : List Char}
    (blank : Blanks cs ('[' :: cs₁)) (enclosed : Enclosed Spells ']' vs cs₁ rest)
    (bound : cs₁.length ≤ n) : Advances skipStep ⟨outer, false⟩ cs ⟨outer, true⟩ rest := by
  have length := blank.length_le
  simp only [List.length_cons] at length
  cases enclosed with
  | empty closing =>
      have inner := closing.length_le
      simp only [List.length_cons] at inner
      refine advances_start ((takes_look blank rfl).bind ?_) (by omega)
      refine (takes_advance '[' cs₁).bind ?_
      refine (takes_look closing rfl).bind ?_
      exact (takes_advance ']' rest).bind (takes_pure _ _)
  | filled listed =>
      obtain ⟨v, cs₂, cs₃, before, spelled, trimmed⟩ := listed.exists_first
      obtain ⟨c, more, rfl, opens⟩ := spelled.exists_cons
      have inner := before.length_le
      have start : Takes (skipStart outer) cs ⟨.array :: outer, false⟩ (c :: more) := by
        refine (takes_look blank rfl).bind ?_
        refine (takes_advance '[' cs₁).bind ?_
        refine (takes_look before (isSpace_eq_false opens)).bind ?_
        rw [if_neg (by simpa [Bracket.closing] using ne_closing opens)]
        exact takes_pure _ _
      exact (advances_start start (by omega)).trans (skips.elements trimmed rfl (by omega))

theorem SkipsUpTo.object {n : Nat} (skips : SkipsUpTo n) {ms : List (Option String × Value)}
    {cs cs₁ rest : List Char} (blank : Blanks cs ('\x7b' :: cs₁))
    (enclosed : Enclosed (Member Spells) '\x7d' ms cs₁ rest) (bound : cs₁.length ≤ n) :
    Advances skipStep ⟨outer, false⟩ cs ⟨outer, true⟩ rest := by
  have length := blank.length_le
  simp only [List.length_cons] at length
  cases enclosed with
  | empty closing =>
      have inner := closing.length_le
      simp only [List.length_cons] at inner
      refine advances_start ((takes_look blank rfl).bind ?_) (by omega)
      refine (takes_advance '\x7b' cs₁).bind ?_
      refine (takes_look closing rfl).bind ?_
      exact (takes_advance '\x7d' rest).bind (takes_pure _ _)
  | filled listed =>
      obtain ⟨m, cs₂, cs₃, before, spelled, trimmed⟩ := listed.exists_first
      obtain ⟨more, rfl⟩ := spelled.exists_quote
      have inner := before.length_le
      obtain ⟨middle, key, shorter, members⟩ :=
        skips.members outer trimmed rfl (by omega)
      have start : Takes (skipStart outer) cs ⟨.object :: outer, false⟩ middle := by
        refine (takes_look blank rfl).bind ?_
        refine (takes_advance '\x7b' cs₁).bind ?_
        refine (takes_look before rfl).bind ?_
        exact key.bind (takes_pure _ _)
      exact (advances_start start (by omega)).trans members

/-- Values of any length are passed over. -/
theorem skipsUpTo (n : Nat) : SkipsUpTo n := by
  -- what stands inside the brackets of a value is shorter than the value
  induction n with
  | zero =>
      intro v outer cs cs₁ rest bound blank spelled ends
      have shorter := spelled.length_lt
      omega
  | succ n ih =>
      intro v outer cs cs₁ rest bound blank spelled ends
      have shorter := Nat.lt_of_lt_of_le spelled.length_lt blank.length_le
      cases spelled with
      | null =>
          refine advances_start ((takes_look blank rfl).bind ?_) shorter
          exact (takes_literal ['n', 'u', 'l', 'l'] rest).bind (takes_pure _ _)
      | truth =>
          refine advances_start ((takes_look blank rfl).bind ?_) shorter
          exact (takes_literal ['t', 'r', 'u', 'e'] rest).bind (takes_pure _ _)
      | untruth =>
          refine advances_start ((takes_look blank rfl).bind ?_) shorter
          exact (takes_literal ['f', 'a', 'l', 's', 'e'] rest).bind (takes_pure _ _)
      | number numeral => exact advances_start (takes_skipStart_number blank numeral ends) shorter
      | text quoted =>
          obtain ⟨inside, rfl, formed⟩ := quoted.exists_formed
          refine advances_start ((takes_look blank rfl).bind ?_) shorter
          refine (takes_advance '"' inside).bind ?_
          exact (takes_skipString formed).bind (takes_pure _ _)
      | array enclosed => exact ih.array blank enclosed (Nat.le_of_succ_le_succ bound)
      | object enclosed => exact ih.object blank enclosed (Nat.le_of_succ_le_succ bound)

/-- Every value of the grammar is passed over, and nothing after it. -/
theorem takes_skipValue {v : Value} {cs cs₁ rest : List Char} (blank : Blanks cs cs₁)
    (spelled : Spells v cs₁ rest) (ends : Ends rest) : Takes skipValue cs () rest := by
  have advances := skipsUpTo cs₁.length [] (Nat.le_refl _) blank spelled ends
  exact (advances.iterates (.done (takes_pure _ _))).takes

end EncoderVectors.Json
