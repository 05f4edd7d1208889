import EncoderVectors.Proofs.Json.Skipping
import EncoderVectors.Proofs.Json.Values

/-!
# Parsing a text

A reader of values of every kind, made from the readers and scanners of the program. It yields the value
of every text of the grammar (`parse_eq_ok`), so a text is that of one value at most (`IsText.unique`).
-/

set_option autoImplicit false

namespace EncoderVectors.Json

/-- Reads the inside of a string; one that stands for no characters is passed over. -/
def scanContent (cs : List Char) : Option (Option String × List Char) :=
  match scanString cs with
  | some (s, rest) => some (some (String.ofList s), rest)
  | none => (skipString cs).map fun rest => (none, rest)

/-- Reads a member of an object. -/
def member (read : Reader Value) : Reader (Option String × Value) := do
  punctuation '"'
  let key ← scanned scanContent
  punctuation ':'
  return (key, ← read)

/-- Reads the members of an object, its opening bracket being behind. -/
def members (read : Reader Value) : Reader (List (Option String × Value)) :=
  iterate (fun (ms : List (Option String × Value)) => do
    if ← anotherMember ms.isEmpty then return .inl ((← member read) :: ms)
    else
      advance
      return .inr ms.reverse) []

/-- Reads a value whose brackets are nested at most `depth` deep. -/
def readValue : Nat → Reader Value
  | 0 => malformed
  | depth + 1 => do
      match ← look with
      | some 'n' => literal ['n', 'u', 'l', 'l']; return .null
      | some 't' => literal ['t', 'r', 'u', 'e']; return .boolean true
      | some 'f' => literal ['f', 'a', 'l', 's', 'e']; return .boolean false
      | some '"' => advance; return .text (← scanned scanContent)
      | some '[' => return .array (← sequence "a sequence" (readValue depth))
      | some '\x7b' => advance; return .object (← members (readValue depth))
      | _ => return .number (← scanned scanNumber)

/-- The value of a text. No value is nested deeper than its text is long. -/
def parse (text : String) : Except Fault Value :=
  readAll (readValue text.toList.length) text

/-! ## Parts of a value -/

theorem takes_scanContent {content : Option String} {cs rest : List Char}
    (quoted : Quoted content ('"' :: cs) rest) : Takes (scanned scanContent) cs content rest := by
  apply takes_scanned
  cases quoted with
  | whole inside =>
      rw [scanContent, scanString_eq_some_iff.mpr inside]
      simp only [String.ofList_toList]
  | unpaired formed nothing =>
      cases scan : scanString cs with
      | none => rw [scanContent, scan, skipString_of_formed formed]; rfl
      | some result =>
          -- both scanners would leave the same, so the string would stand for characters
          obtain ⟨s, rest'⟩ := result
          have inside := scanString_eq_some_iff.mp scan
          have same := skipString_of_formed inside.formed
          rw [skipString_of_formed formed] at same
          obtain rfl := Option.some.inj same
          exact absurd inside (nothing s)

theorem takes_member {read : Reader Value} {m : Option String × Value} {cs rest : List Char}
    (h : Member Spells m cs rest)
    (reads : ∀ {cs₁ cs₂}, Blanks cs₁ cs₂ → cs₂.length < cs.length → Spells m.2 cs₂ rest →
      Takes read cs₁ m.2 rest) : Takes (member read) cs m rest := by
  cases h with
  | @mk key v _ cs₁ cs₂ cs₃ _ quoted colon blank value =>
      have shorter : cs₃.length < cs.length := by
        have lengths := And.intro quoted.length_lt (And.intro colon.length_le blank.length_le)
        simp only [List.length_cons] at lengths
        omega
      have taken := reads blank shorter value
      obtain ⟨inside, rfl, -⟩ := quoted.exists_formed
      refine (takes_punctuation (blanks_refl _) rfl).bind ?_
      refine (takes_scanContent quoted).bind ?_
      exact (takes_punctuation colon rfl).bind (taken.bind (takes_pure _ _))

theorem takes_members {item : Option String × Value → List Char → List Char → Prop}
    {read : Reader Value} (member : ∀ {m cs rest}, item m cs rest → Member Spells m cs rest)
    (reads : ∀ {m cs rest}, item m cs rest → Ends rest → Takes (Json.member read) cs m rest)
    {ms : List (Option String × Value)} {cs rest : List Char}
    (enclosed : Enclosed item '\x7d' ms cs rest) : Takes (members read) cs ms rest := by
  refine Loop.takes_collecting (Or.inr rfl) (fun spelled => (member spelled).length_lt) ?_ ?_
    takes_anotherMember_ending reads enclosed
  · intro m cs cs₁ rest before spelled
    obtain ⟨more, rfl⟩ := (member spelled).exists_quote
    exact takes_anotherMember_first before
  · intro m cs cs₁ cs₂ rest comma before spelled
    obtain ⟨more, rfl⟩ := (member spelled).exists_quote
    exact takes_anotherMember_further comma before

theorem takes_readValue_number {parts : NumberText} {depth : Nat} {cs cs₁ rest : List Char}
    (blank : Blanks cs cs₁) (numeral : Numeral parts cs₁ rest) (ends : Ends rest) :
    Takes (readValue (depth + 1)) cs (.number parts) rest := by
  have scan := takes_scanned (scanNumber_of_numeral numeral ends)
  obtain ⟨c, more, rfl, first, -⟩ := numeral.exists_cons
  have others := ne_of_opensNumber first
  refine (takes_look blank (isSpace_eq_false (opensValue_of_opensNumber first))).bind ?_
  split
  · next same => exact absurd (Option.some.inj same) others.1
  · next same => exact absurd (Option.some.inj same) others.2.1
  · next same => exact absurd (Option.some.inj same) others.2.2.1
  · next same => exact absurd (Option.some.inj same) others.2.2.2.1
  · next same => exact absurd (Option.some.inj same) others.2.2.2.2.1
  · next same => exact absurd (Option.some.inj same) others.2.2.2.2.2
  · exact scan.bind (takes_pure _ _)

/-! ## Whole values -/

/-- A depth that the length of a text does not exceed is enough to read it. -/
theorem takes_readValue {depth : Nat} {v : Value} {cs cs₁ rest : List Char}
    (bound : cs₁.length ≤ depth) (blank : Blanks cs cs₁) (spelled : Spells v cs₁ rest)
    (ends : Ends rest) : Takes (readValue depth) cs v rest := by
  -- what stands inside brackets is shorter than the value, so one level less is enough for it
  induction depth generalizing v cs cs₁ rest with
  | zero =>
      have shorter := spelled.length_lt
      omega
  | succ depth ih =>
      cases spelled with
      | null =>
          refine (takes_look blank rfl).bind ?_
          exact (takes_literal ['n', 'u', 'l', 'l'] rest).bind (takes_pure _ _)
      | truth =>
          refine (takes_look blank rfl).bind ?_
          exact (takes_literal ['t', 'r', 'u', 'e'] rest).bind (takes_pure _ _)
      | untruth =>
          refine (takes_look blank rfl).bind ?_
          exact (takes_literal ['f', 'a', 'l', 's', 'e'] rest).bind (takes_pure _ _)
      | number numeral => exact takes_readValue_number blank numeral ends
      | text quoted =>
          obtain ⟨inside, rfl, -⟩ := quoted.exists_formed
          refine (takes_look blank rfl).bind ?_
          refine (takes_advance '"' inside).bind ?_
          exact (takes_scanContent quoted).bind (takes_pure _ _)
      | @array vs cs₂ _ enclosed =>
          have inner : cs₂.length ≤ depth := Nat.le_of_succ_le_succ bound
          refine (takes_look blank rfl).bind ?_
          refine Takes.bind ?_ (takes_pure _ _)
          refine takes_sequence "a sequence" ?_ ?_ ?_ (blanks_refl _)
            (enclosed.bounded (fun _ _ _ => Spells.length_lt) inner)
          · rintro v cs rest ⟨spelled, -⟩
            exact spelled.length_lt
          · rintro v cs rest ⟨spelled, -⟩
            exact spelled.exists_cons
          · rintro v cs rest ⟨spelled, short⟩ ends
            exact ih short (blanks_refl _) spelled ends
      | @object ms cs₂ _ enclosed =>
          have inner : cs₂.length ≤ depth := Nat.le_of_succ_le_succ bound
          refine (takes_look blank rfl).bind ?_
          refine (takes_advance '\x7b' cs₂).bind ?_
          refine Takes.bind ?_ (takes_pure _ _)
          refine takes_members ?_ ?_ (enclosed.bounded (fun _ _ _ => Member.length_lt) inner)
          · rintro m cs rest ⟨spelled, -⟩
            exact spelled
          · rintro m cs rest ⟨spelled, short⟩ ends
            refine takes_member spelled ?_
            intro cs₁ cs₂ blank shorter spelled
            exact ih (by omega) blank spelled ends

theorem readAll_eq_ok {α : Type} {read : Reader α} {text : String} {a : α} {rest : List Char}
    (taken : Takes read text.toList a rest) (blank : Blanks rest []) : readAll read text = .ok a := by
  obtain ⟨blanks, all, rfl⟩ := blank
  rw [List.append_nil] at taken
  rw [readAll, taken]
  dsimp only
  rw [if_pos (List.all_eq_true.mpr all)]

/-- Every text of the grammar is parsed as its value. -/
theorem parse_eq_ok {v : Value} {text : String} (h : IsText v text) : parse text = .ok v := by
  obtain ⟨cs, rest, before, spelled, after⟩ := h
  exact readAll_eq_ok (takes_readValue before.length_le before spelled (after.ends ends_nil)) after

theorem IsText.unique {v w : Value} {text : String} (first : IsText v text) (second : IsText w text) :
    v = w := by
  have same := (parse_eq_ok first).symm.trans (parse_eq_ok second)
  exact Except.ok.inj same

end EncoderVectors.Json
