import EncoderVectors.Proofs.Json.Scanning

/-!
# Readers on texts of the grammar

`Takes r cs a rest` says that the reader `r`, given the characters `cs`, yields `a` and leaves `rest`.
Readers one after another take one after another. A loop whose steps each take a character ends with
what its last step yields (`Iterates.takes`), and a loop over a list of items carries its state from
item to item (`Loop.takes`); one that collects the items yields all of them (`Loop.takes_collecting`).

`Reads r decode` is the law of a reader of values: on every text of a value it yields what `decode`
makes of the value, whatever the blanks before it and the text after it.
-/

set_option autoImplicit false

namespace EncoderVectors.Json

variable {α β σ : Type}

/-- Given `cs`, the reader yields `a` and leaves `rest`. -/
def Takes (r : Reader α) (cs : List Char) (a : α) (rest : List Char) : Prop :=
  r.run cs = .ok (a, rest)

/-! ## Single steps -/

theorem takes_pure (a : α) (cs : List Char) : Takes (pure a) cs a cs := rfl

theorem Takes.bind {x : Reader α} {f : α → Reader β} {cs middle rest : List Char} {a : α} {b : β}
    (first : Takes x cs a middle) (second : Takes (f a) middle b rest) :
    Takes (x >>= f) cs b rest := by
  have step : (x >>= f).run cs = (x.run cs >>= fun p => (f p.1).run p.2) := rfl
  rw [Takes, step, first]
  exact second

theorem Takes.map {x : Reader α} {cs rest : List Char} {a : α} (h : Takes x cs a rest) (f : α → β) :
    Takes (f <$> x) cs (f a) rest := by
  have step : (f <$> x).run cs = (x.run cs >>= fun p => pure (f p.1, p.2)) := rfl
  rw [Takes, step, h]
  rfl

theorem takes_look {cs rest : List Char} {c : Char} (blank : Blanks cs (c :: rest))
    (visible : isSpace c = false) : Takes look cs (some c) (c :: rest) := by
  have step : look.run cs = .ok ((cs.dropWhile isSpace).head?, cs.dropWhile isSpace) := rfl
  rw [Takes, step, blank.dropWhile_eq visible]
  rfl

theorem takes_advance (c : Char) (rest : List Char) : Takes advance (c :: rest) () rest := rfl

theorem takes_punctuation {cs rest : List Char} {c : Char} (blank : Blanks cs (c :: rest))
    (visible : isSpace c = false) : Takes (punctuation c) cs () rest := by
  refine (takes_look blank visible).bind ?_
  rw [if_pos rfl]
  exact takes_advance c rest

theorem takes_literal (chars rest : List Char) : Takes (literal chars) (chars ++ rest) () rest := by
  have step : (literal chars).run (chars ++ rest) =
      (if chars.isPrefixOf (chars ++ rest) then
        set ((chars ++ rest).drop chars.length) else malformed : Reader Unit).run (chars ++ rest) :=
    rfl
  have opens : chars.isPrefixOf (chars ++ rest) = true :=
    List.isPrefixOf_iff_prefix.mpr (List.prefix_append chars rest)
  rw [Takes, step, if_pos opens, List.drop_left]
  rfl

theorem takes_scanned {scan : List Char → Option (α × List Char)} {cs rest : List Char} {a : α}
    (h : scan cs = some (a, rest)) : Takes (scanned scan) cs a rest := by
  have run : (scanned scan).run cs = scanned scan cs := rfl
  rw [Takes, run, scanned, h]

theorem takes_textLiteral {s : String} {cs cs₁ rest : List Char} (blank : Blanks cs cs₁)
    (quoted : Quoted (some s) cs₁ rest) : Takes textLiteral cs s rest := by
  cases quoted with
  | whole inside =>
      refine (takes_punctuation blank rfl).bind ?_
      have scan := takes_scanned (scanString_eq_some_iff.mpr inside)
      have text := scan.map String.ofList
      rwa [String.ofList_toList] at text

/-! ## Loops -/

/-- The steps of a loop from a state: each takes a character or is the last. -/
inductive Iterates (step : σ → Reader (σ ⊕ β)) : σ → List Char → β → List Char → Prop
  /-- The last step. -/
  | done {s : σ} {cs rest : List Char} {b : β} (last : Takes (step s) cs (.inr b) rest) :
      Iterates step s cs b rest
  /-- A step that goes on. -/
  | next {s s' : σ} {cs middle rest : List Char} {b : β}
      (one : Takes (step s) cs (.inl s') middle) (shorter : middle.length < cs.length)
      (others : Iterates step s' middle b rest) : Iterates step s cs b rest

/-- With more steps allowed than there are characters, a loop comes to its end. -/
theorem Iterates.takes_iterateAtMost {step : σ → Reader (σ ⊕ β)} {s : σ} {cs rest : List Char}
    {b : β} (h : Iterates step s cs b rest) {steps : Nat} (enough : cs.length < steps) :
    Takes (iterateAtMost step steps s) cs b rest := by
  induction h generalizing steps with
  | done last =>
      cases steps with
      | zero => omega
      | succ steps => exact last.bind (takes_pure _ _)
  | next one shorter others ih =>
      cases steps with
      | zero => omega
      | succ steps => exact one.bind (ih (by omega))

theorem Iterates.takes {step : σ → Reader (σ ⊕ β)} {s : σ} {cs rest : List Char} {b : β}
    (h : Iterates step s cs b rest) : Takes (iterate step s) cs b rest := by
  have start : Takes (get : Reader (List Char)) cs cs cs := rfl
  exact start.bind (h.takes_iterateAtMost (Nat.lt_succ_self _))

/-! ## Loops over items -/

/-- A loop over the items of a list that ends with `closing`. Its state goes from item to item by
`next` and is turned into the result by `finish`; `Started` holds once an item has been read. -/
structure Loop (item : α → List Char → List Char → Prop) (closing : Char)
    (step : σ → Reader (σ ⊕ β)) (next : σ → α → Option σ) (finish : σ → β) (start : σ)
    (Started : σ → Prop) : Prop where
  /-- The closing mark is a bracket. -/
  bracket : closing = ']' ∨ closing = '\x7d'
  /-- An item takes up characters. -/
  shrinks : ∀ {a cs rest}, item a cs rest → rest.length < cs.length
  /-- Where no item has been read, one may follow. -/
  first : ∀ {a s cs cs₁ rest}, next start a = some s → Blanks cs cs₁ → item a cs₁ rest →
    Ends rest → Takes (step start) cs (.inl s) rest
  /-- Where items have been read, one may follow after a comma. -/
  further : ∀ {a s s' cs cs₁ cs₂ rest}, Started s → next s a = some s' → Blanks cs (',' :: cs₁) →
    Blanks cs₁ cs₂ → item a cs₂ rest → Ends rest → Takes (step s) cs (.inl s') rest
  /-- The closing mark ends the loop. -/
  ending : ∀ {s cs rest}, Started s ∨ s = start → Blanks cs (closing :: rest) →
    Takes (step s) cs (.inr (finish s)) rest
  /-- Reading an item starts the loop. -/
  later : ∀ {s a s'}, next s a = some s' → Started s'

namespace Loop

variable {item : α → List Char → List Char → Prop} {closing : Char} {step : σ → Reader (σ ⊕ β)}
  {next : σ → α → Option σ} {finish : σ → β} {start : σ} {Started : σ → Prop}

theorem ends_closing (loop : Loop item closing step next finish start Started) (rest : List Char) :
    Ends (closing :: rest) :=
  ends_cons rest (Or.inr (Or.inr loop.bracket))

/-- What is left of a loop after an item that another follows. -/
theorem iterates_further (loop : Loop item closing step next finish start Started) {as : List α}
    {s s' : σ} {cs cs₁ all rest : List Char} (listed : Listed item as cs₁ all)
    (closed : all = closing :: rest) (started : Started s) (comma : Blanks cs (',' :: cs₁))
    (fold : as.foldlM next s = some s') : Iterates step s cs (finish s') rest := by
  induction listed generalizing s cs with
  | @last a cs₀ cs₁ cs₂ _ before spelled after =>
      subst closed
      rw [List.foldlM_cons, Option.bind_eq_bind, Option.bind_eq_some_iff] at fold
      obtain ⟨s₁, taken, fold⟩ := fold
      obtain rfl : s₁ = s' := Option.some.inj fold
      refine .next (loop.further started taken comma before spelled
        (after.ends (loop.ends_closing rest))) ?_ (.done (loop.ending (Or.inl (loop.later taken)) after))
      have shrinks := loop.shrinks spelled
      have skipped := comma.length_le
      have blanks := before.length_le
      simp only [List.length_cons] at skipped
      omega
  | @more a as cs₀ cs₁ cs₂ cs₃ _ before spelled after others ih =>
      subst closed
      rw [List.foldlM_cons, Option.bind_eq_bind, Option.bind_eq_some_iff] at fold
      obtain ⟨s₁, taken, fold⟩ := fold
      refine .next (loop.further started taken comma before spelled
        (after.ends (ends_cons _ (by simp)))) ?_ (ih rfl (loop.later taken) after fold)
      have shrinks := loop.shrinks spelled
      have skipped := comma.length_le
      have blanks := before.length_le
      simp only [List.length_cons] at skipped
      omega

theorem iterates_first (loop : Loop item closing step next finish start Started) {as : List α}
    {s' : σ} {cs rest : List Char} (listed : Listed item as cs (closing :: rest))
    (fold : as.foldlM next start = some s') : Iterates step start cs (finish s') rest := by
  -- the first item has no comma in front of it, all others have one
  cases listed with
  | @last a _ cs₁ cs₂ _ before spelled after =>
      rw [List.foldlM_cons, Option.bind_eq_bind, Option.bind_eq_some_iff] at fold
      obtain ⟨s₁, taken, fold⟩ := fold
      obtain rfl : s₁ = s' := Option.some.inj fold
      refine .next (loop.first taken before spelled (after.ends (loop.ends_closing rest))) ?_
        (.done (loop.ending (Or.inl (loop.later taken)) after))
      exact Nat.lt_of_lt_of_le (loop.shrinks spelled) before.length_le
  | @more a as _ cs₁ cs₂ cs₃ _ before spelled after others =>
      rw [List.foldlM_cons, Option.bind_eq_bind, Option.bind_eq_some_iff] at fold
      obtain ⟨s₁, taken, fold⟩ := fold
      refine .next (loop.first taken before spelled (after.ends (ends_cons _ (by simp)))) ?_
        (loop.iterates_further others rfl (loop.later taken) after fold)
      exact Nat.lt_of_lt_of_le (loop.shrinks spelled) before.length_le

/-- A loop over the items of an enclosed list takes the list and its closing mark. -/
theorem takes (loop : Loop item closing step next finish start Started) {as : List α} {s' : σ}
    {cs rest : List Char} (enclosed : Enclosed item closing as cs rest)
    (fold : as.foldlM next start = some s') : Takes (iterate step start) cs (finish s') rest := by
  cases enclosed with
  | empty blank =>
      obtain rfl : start = s' := Option.some.inj fold
      exact (Iterates.done (loop.ending (Or.inr rfl) blank)).takes
  | filled listed => exact (loop.iterates_first listed fold).takes

/-- A loop that puts every item in front of those before it. -/
theorem foldlM_cons_eq (as before : List α) :
    as.foldlM (fun values a => some (a :: values)) before = some (as.reverse ++ before) := by
  induction as generalizing before with
  | nil => rfl
  | cons a as ih =>
      rw [List.foldlM_cons, Option.bind_eq_bind, Option.bind_some, ih, List.reverse_cons,
        List.append_assoc, List.singleton_append]

/-- A loop that collects items takes all of them, in order. -/
theorem takes_collecting {another : Bool → Reader Bool} {read : Reader α}
    (bracket : closing = ']' ∨ closing = '\x7d')
    (shrinks : ∀ {a cs rest}, item a cs rest → rest.length < cs.length)
    (first : ∀ {a cs cs₁ rest}, Blanks cs cs₁ → item a cs₁ rest → Takes (another true) cs true cs₁)
    (further : ∀ {a cs cs₁ cs₂ rest}, Blanks cs (',' :: cs₁) → Blanks cs₁ cs₂ → item a cs₂ rest →
      Takes (another false) cs true cs₂)
    (ending : ∀ {cs rest} (b : Bool), Blanks cs (closing :: rest) →
      Takes (another b) cs false (closing :: rest))
    (reads : ∀ {a cs rest}, item a cs rest → Ends rest → Takes read cs a rest)
    {as : List α} {cs rest : List Char} (enclosed : Enclosed item closing as cs rest) :
    Takes (iterate (fun values : List α => do
      if ← another values.isEmpty then return .inl ((← read) :: values)
      else
        advance
        return .inr values.reverse) []) cs as rest := by
  have loop : Loop item closing (fun values : List α => do
      if ← another values.isEmpty then return .inl ((← read) :: values)
      else
        advance
        return .inr values.reverse)
      (fun values a => some (a :: values)) List.reverse [] (fun values => values ≠ []) := by
    refine ⟨bracket, shrinks, ?_, ?_, ?_, ?_⟩
    · intro a s cs cs₁ rest next before spelled ends
      obtain rfl := Option.some.inj next
      exact (first before spelled).bind ((reads spelled ends).bind (takes_pure _ _))
    · intro a s s' cs cs₁ cs₂ rest started next comma before spelled ends
      obtain rfl := Option.some.inj next
      have one := further comma before spelled
      rw [← List.isEmpty_eq_false_iff.mpr started] at one
      exact one.bind ((reads spelled ends).bind (takes_pure _ _))
    · intro s cs rest _ closed
      exact (ending s.isEmpty closed).bind ((takes_advance closing rest).bind (takes_pure _ _))
    · intro s a s' next
      obtain rfl := Option.some.inj next
      exact List.cons_ne_nil a s
  have fold := foldlM_cons_eq as []
  rw [List.append_nil] at fold
  have taken := loop.takes enclosed fold
  rwa [List.reverse_reverse] at taken

end Loop

/-! ## Lists of items -/

section

variable {item item' : α → List Char → List Char → Prop} {closing : Char} {as : List α}
  {cs rest : List Char} {n : Nat}

theorem Listed.length_lt (shrinks : ∀ a cs rest, cs.length ≤ n → item a cs rest →
    rest.length < cs.length) (h : Listed item as cs rest) (bound : cs.length ≤ n) :
    rest.length < cs.length := by
  induction h with
  | last before spelled after =>
      have one := shrinks _ _ _ (Nat.le_trans before.length_le bound) spelled
      have blanks := before.length_le
      have trailing := after.length_le
      omega
  | more before spelled after others ih =>
      have one := shrinks _ _ _ (Nat.le_trans before.length_le bound) spelled
      have blanks := before.length_le
      have trailing := after.length_le
      simp only [List.length_cons] at trailing
      have more := ih (by omega)
      omega

/-- Items of a list that is no longer than `n` are no longer than `n`. -/
theorem Listed.bounded (shrinks : ∀ a cs rest, item a cs rest → rest.length < cs.length)
    (h : Listed item as cs rest) (bound : cs.length ≤ n) :
    Listed (fun a cs rest => item a cs rest ∧ cs.length ≤ n) as cs rest := by
  induction h with
  | last before spelled after =>
      exact .last before ⟨spelled, Nat.le_trans before.length_le bound⟩ after
  | more before spelled after others ih =>
      have one := shrinks _ _ _ spelled
      have blanks := before.length_le
      have trailing := after.length_le
      simp only [List.length_cons] at trailing
      exact .more before ⟨spelled, Nat.le_trans blanks bound⟩ after (ih (by omega))

theorem Enclosed.bounded (shrinks : ∀ a cs rest, item a cs rest → rest.length < cs.length)
    (h : Enclosed item closing as cs rest) (bound : cs.length ≤ n) :
    Enclosed (fun a cs rest => item a cs rest ∧ cs.length ≤ n) closing as cs rest := by
  cases h with
  | empty blank => exact .empty blank
  | filled listed => exact .filled (listed.bounded shrinks bound)

/-- A list of values is a list of what they are decoded to. -/
theorem Listed.decoded {decode : β → Option α} {item : β → List Char → List Char → Prop}
    {bs : List β} (h : Listed item bs cs rest) (decoded : bs.mapM decode = some as) :
    Listed (fun a cs rest => ∃ b, decode b = some a ∧ item b cs rest) as cs rest := by
  induction h generalizing as with
  | last before spelled after =>
      rw [List.mapM_cons, Option.bind_eq_bind, Option.bind_eq_some_iff] at decoded
      obtain ⟨a, one, decoded⟩ := decoded
      obtain rfl : [a] = as := Option.some.inj decoded
      exact .last before ⟨_, one, spelled⟩ after
  | more before spelled after others ih =>
      rw [List.mapM_cons, Option.bind_eq_bind, Option.bind_eq_some_iff] at decoded
      obtain ⟨a, one, decoded⟩ := decoded
      rw [Option.bind_eq_bind, Option.bind_eq_some_iff] at decoded
      obtain ⟨as', more, decoded⟩ := decoded
      obtain rfl : a :: as' = as := Option.some.inj decoded
      exact .more before ⟨_, one, spelled⟩ after (ih more)

theorem Enclosed.decoded {decode : β → Option α} {item : β → List Char → List Char → Prop}
    {bs : List β} (h : Enclosed item closing bs cs rest) (decoded : bs.mapM decode = some as) :
    Enclosed (fun a cs rest => ∃ b, decode b = some a ∧ item b cs rest) closing as cs rest := by
  cases h with
  | empty blank =>
      obtain rfl : [] = as := Option.some.inj decoded
      exact .empty blank
  | filled listed => exact .filled (listed.decoded decoded)

end

/-! ## First characters -/

/-- The character may open a value. -/
def opensValue (c : Char) : Bool :=
  c.isDigit || ['n', 't', 'f', '"', '[', '\x7b', '-'].contains c

/-- A character that opens a value is no blank. -/
theorem isSpace_eq_false {c : Char} (h : opensValue c = true) : isSpace c = false := by
  cases blank : isSpace c with
  | false => rfl
  | true =>
      simp only [isSpace, Bool.or_eq_true, decide_eq_true_eq] at blank
      rcases blank with ((rfl | rfl) | rfl) | rfl <;> cases h

theorem ne_closing {c : Char} (h : opensValue c = true) : c ≠ ']' := by
  rintro rfl
  cases h

theorem opensValue_of_opensNumber {c : Char} (h : c = '-' ∨ c.isDigit = true) :
    opensValue c = true := by
  rcases h with rfl | digit
  · rfl
  · rw [opensValue, digit, Bool.true_or]

/-- A character that opens a number opens no other value. -/
theorem ne_of_opensNumber {c : Char} (h : c = '-' ∨ c.isDigit = true) :
    c ≠ 'n' ∧ c ≠ 't' ∧ c ≠ 'f' ∧ c ≠ '"' ∧ c ≠ '[' ∧ c ≠ '\x7b' := by
  refine ⟨?_, ?_, ?_, ?_, ?_, ?_⟩
  all_goals
    rintro rfl
    rcases h with wrong | wrong <;> cases wrong

/-- The first character of a value. -/
theorem Spells.exists_cons {v : Value} {cs rest : List Char} (h : Spells v cs rest) :
    ∃ c more, cs = c :: more ∧ opensValue c = true := by
  cases h with
  | null => exact ⟨_, _, rfl, rfl⟩
  | truth => exact ⟨_, _, rfl, rfl⟩
  | untruth => exact ⟨_, _, rfl, rfl⟩
  | number numeral =>
      obtain ⟨c, more, rfl, first, -⟩ := numeral.exists_cons
      exact ⟨c, more, rfl, opensValue_of_opensNumber first⟩
  | text quoted =>
      obtain ⟨inside, rfl, -⟩ := quoted.exists_formed
      exact ⟨_, _, rfl, rfl⟩
  | array enclosed => exact ⟨_, _, rfl, rfl⟩
  | object enclosed => exact ⟨_, _, rfl, rfl⟩

/-- Every value takes up characters. -/
theorem Spells.length_lt_of_le {n : Nat} {v : Value} {cs rest : List Char} (bound : cs.length ≤ n)
    (h : Spells v cs rest) : rest.length < cs.length := by
  -- on the length of the text, since the elements of a value stand inside its brackets
  induction n generalizing v cs rest with
  | zero =>
      obtain ⟨c, more, rfl, -⟩ := h.exists_cons
      simp at bound
  | succ n ih =>
      cases h with
      | null => simp only [List.length_cons]; omega
      | truth => simp only [List.length_cons]; omega
      | untruth => simp only [List.length_cons]; omega
      | number numeral =>
          obtain ⟨c, more, rfl, -, shorter⟩ := numeral.exists_cons
          exact Nat.lt_succ_of_le shorter
      | text quoted => exact quoted.length_lt
      | array enclosed =>
          have inner := Nat.le_of_succ_le_succ bound
          cases enclosed with
          | empty blank =>
              have blanks := blank.length_le
              simp only [List.length_cons] at blanks ⊢
              omega
          | filled listed =>
              have shorter := listed.length_lt (fun _ _ _ => ih) inner
              simp only [List.length_cons] at shorter ⊢
              omega
      | object enclosed =>
          have inner := Nat.le_of_succ_le_succ bound
          cases enclosed with
          | empty blank =>
              have blanks := blank.length_le
              simp only [List.length_cons] at blanks ⊢
              omega
          | filled listed =>
              have shorter := listed.length_lt (n := n) ?_ inner
              · simp only [List.length_cons] at shorter ⊢
                omega
              · rintro _ cs rest short ⟨quoted, before, after, spelled⟩
                have key := quoted.length_lt
                have colon := before.length_le
                have blanks := after.length_le
                simp only [List.length_cons] at colon
                have value := ih (by omega) spelled
                omega

theorem Spells.length_lt {v : Value} {cs rest : List Char} (h : Spells v cs rest) :
    rest.length < cs.length :=
  h.length_lt_of_le (Nat.le_refl _)

theorem Member.length_lt {m : Option String × Value} {cs rest : List Char}
    (h : Member Spells m cs rest) : rest.length < cs.length := by
  cases h with
  | mk quoted before after spelled =>
      have key := quoted.length_lt
      have colon := before.length_le
      have blanks := after.length_le
      have value := spelled.length_lt
      simp only [List.length_cons] at colon
      omega

/-! ## Another item -/

theorem takes_anotherElement_first {cs rest : List Char} {c : Char} (blank : Blanks cs (c :: rest))
    (opens : opensValue c = true) : Takes (anotherElement true) cs true (c :: rest) := by
  refine (takes_look blank (isSpace_eq_false opens)).bind ?_
  dsimp only
  rw [if_neg (ne_closing opens), if_pos rfl]
  exact takes_pure _ _

theorem takes_anotherElement_further {cs cs₁ rest : List Char} {c : Char}
    (comma : Blanks cs (',' :: cs₁)) (blank : Blanks cs₁ (c :: rest)) (opens : opensValue c = true) :
    Takes (anotherElement false) cs true (c :: rest) := by
  refine (takes_look comma rfl).bind ?_
  refine (takes_advance ',' cs₁).bind ?_
  refine (takes_look blank (isSpace_eq_false opens)).bind ?_
  rw [if_neg (by simpa using ne_closing opens)]
  exact takes_pure _ _

theorem takes_anotherElement_ending {cs rest : List Char} (first : Bool)
    (closing : Blanks cs (']' :: rest)) : Takes (anotherElement first) cs false (']' :: rest) :=
  (takes_look closing rfl).bind (takes_pure _ _)

theorem takes_anotherMember_first {cs rest : List Char} (blank : Blanks cs ('"' :: rest)) :
    Takes (anotherMember true) cs true ('"' :: rest) :=
  (takes_look blank rfl).bind (takes_pure _ _)

theorem takes_anotherMember_further {cs cs₁ rest : List Char} (comma : Blanks cs (',' :: cs₁))
    (blank : Blanks cs₁ ('"' :: rest)) : Takes (anotherMember false) cs true ('"' :: rest) := by
  refine (takes_look comma rfl).bind ?_
  refine (takes_advance ',' cs₁).bind ?_
  exact (takes_look blank rfl).bind (takes_pure _ _)

theorem takes_anotherMember_ending {cs rest : List Char} (first : Bool)
    (closing : Blanks cs ('\x7d' :: rest)) : Takes (anotherMember first) cs false ('\x7d' :: rest) :=
  (takes_look closing rfl).bind (takes_pure _ _)

/-! ## Readers of values -/

/-- On every text of a value the reader yields what `decode` makes of the value. -/
def Reads (read : Reader α) (decode : Value → Option α) : Prop :=
  ∀ ⦃v a cs cs₁ rest⦄, decode v = some a → Blanks cs cs₁ → Spells v cs₁ rest → Ends rest →
    Takes read cs a rest

end EncoderVectors.Json
