import EncoderVectors.Proofs.Notation.Agreement

/-!
# Characters of assembly lines and of calls

An assembly line is spelled with lowercase letters, digits and seven other characters, and it opens
with a letter. Every text that a line is put together from is plain in this sense, whatever the values:
names, registers, addresses, constants, labels, rounding modes and fence sets. So a line holds nothing
that ends a line, starts a comment, separates statements or closes a label (`Instance.plain_assembly`,
`Text.Plain.not_mem`).

A call also holds the texts that stand in front of calls and of enumerated arguments. Where these hold
no line feed, no call does (`Instance.newline_not_mem_call`).
-/

set_option autoImplicit false

namespace EncoderVectors

namespace Text

/-- A character that assembly lines are spelled with. -/
def isPlain (c : Char) : Bool :=
  Mnemonic.isPartChar c || ['.', '\t', ',', ' ', '(', ')', '-'].contains c

/-- The text is spelled with such characters. -/
def Plain (text : String) : Prop :=
  ∀ c ∈ text.toList, isPlain c = true

instance decidablePlain : DecidablePred Plain := fun text =>
  decidable_of_iff (text.toList.all isPlain = true) List.all_eq_true

theorem Plain.not_mem {text : String} (h : Plain text) {c : Char} (other : isPlain c = false) :
    c ∉ text.toList := by
  intro hc
  rw [h c hc] at other
  cases other

theorem Plain.append {a b : String} (ha : Plain a) (hb : Plain b) : Plain (a ++ b) := by
  intro c hc
  rw [String.toList_append, List.mem_append] at hc
  rcases hc with hc | hc
  · exact ha c hc
  · exact hb c hc

/-- A character of texts that are joined is one of the joint or of one of the texts. -/
theorem mem_intercalate {separator : String} {texts : List String} {c : Char}
    (h : c ∈ (String.intercalate separator texts).toList) :
    c ∈ separator.toList ∨ ∃ t ∈ texts, c ∈ t.toList := by
  induction texts with
  | nil => simp at h
  | cons t texts ih =>
      cases texts with
      | nil => exact Or.inr ⟨t, by simp, by simpa using h⟩
      | cons next texts =>
          rw [String.intercalate_cons_cons, String.toList_append, String.toList_append,
            List.mem_append, List.mem_append] at h
          rcases h with (first | joint) | later
          · exact Or.inr ⟨t, by simp, first⟩
          · exact Or.inl joint
          · exact (ih later).imp_right fun ⟨u, mem, inside⟩ => ⟨u, List.mem_cons_of_mem t mem, inside⟩

/-- Plain texts joined by a plain text are plain. -/
theorem plain_intercalate {separator : String} (joint : Plain separator) {texts : List String}
    (h : ∀ t ∈ texts, Plain t) : Plain (String.intercalate separator texts) := by
  intro c hc
  rcases mem_intercalate hc with inside | ⟨t, mem, inside⟩
  · exact joint c inside
  · exact h t mem c inside

/-! ## Numerals -/

theorem isPlain_of_isDigitIn {c : Char} (h : isDigitIn 16 c = true) : isPlain c = true := by
  have part : Mnemonic.isPartChar c = true := by
    unfold isDigitIn digitValue at h
    unfold Mnemonic.isPartChar
    split at h
    · rename_i digit
      simp [digit]
    · split at h
      · -- letters that are digits end before those that are not
        rename_i letter
        have high : c ≤ 'z' := Char.le_trans letter.2 (by decide)
        have lower : c.isLower = true :=
          Bool.and_eq_true_iff.mpr ⟨decide_eq_true letter.1, decide_eq_true high⟩
        simp [lower]
      · simp at h
  simp [isPlain, part]

theorem plain_toDigits {base : Nat} (low : 1 < base) (high : base ≤ 16) (n : Nat) :
    Plain (String.ofList (Nat.toDigits base n)) := by
  intro c hc
  rw [String.toList_ofList] at hc
  have digit := isDigitIn_of_mem_toDigits low high n c hc
  apply isPlain_of_isDigitIn
  rw [isDigitIn, decide_eq_true_eq] at digit ⊢
  omega

theorem plain_decimal (n : Nat) : Plain (decimal n) :=
  plain_toDigits (by decide) (by decide) n

theorem plain_signedDecimal (z : Int) : Plain (signedDecimal z) := by
  unfold signedDecimal
  split
  · exact Plain.append (by decide) (plain_decimal _)
  · exact plain_decimal _

theorem plain_hex (n : Nat) : Plain (hex n) :=
  Plain.append (by decide) (plain_toDigits (by decide) (by decide) n)

end Text

open Text

/-! ## Operands -/

theorem Register.plain_render (r : Register) (d : Dialect) : Plain (r.render d) := by
  unfold render
  split
  · decide
  · decide
  · decide
  · exact Plain.append (by decide) (plain_decimal _)
  · exact Plain.append (by decide) (plain_decimal _)

theorem Address.plain_render (a : Address) : Plain (a.render .assembly) := by
  have opened : Plain (signedDecimal a.offset ++ "(x") := (plain_signedDecimal _).append (by decide)
  exact (opened.append (plain_decimal _)).append (by decide)

theorem Immediate.plain_render (i : Immediate) (d : Dialect) : Plain (i.render d) := by
  unfold render
  split
  · exact (plain_decimal _).append (by decide)
  · exact (plain_decimal _).append (by decide)
  · exact (plain_hex _).append (by decide)
  · exact plain_decimal _
  · exact plain_decimal _
  · exact plain_decimal _
  · exact plain_hex _
  · exact plain_hex _
  · exact plain_hex _
  · exact plain_hex _

theorem Operand.plain_render (o : Operand) : Plain (o.render .assembly) := by
  cases o with
  | register r => exact r.plain_render .assembly
  | address a => exact a.plain_render
  | immediate i => exact i.plain_render .assembly

theorem Operand.plain_of_mem_render {values : List Operand} :
    ∀ t ∈ values.map fun o => o.render .assembly, Plain t := by
  intro t ht
  obtain ⟨o, -, rfl⟩ := List.mem_map.mp ht
  exact o.plain_render

theorem Target.plain_assemblyToken (t : Target) : Plain t.assemblyToken := by
  cases t <;> decide

theorem RoundingMode.plain_name (m : RoundingMode) : Plain m.name := by
  cases m <;> decide

theorem Barrier.plain_name (b : Barrier) : Plain b.name := by
  intro c hc
  simp [isPlain, Mnemonic.isPartChar, b.isLower_of_mem_name c hc]

theorem AtomicKind.plain_of_mem_assemblyOrder (kind : AtomicKind) {registers : List String}
    (h : ∀ t ∈ registers, Plain t) : ∀ t ∈ kind.assemblyOrder registers, Plain t := by
  intro t ht
  rcases kind.mem_assemblyOrder ht with plain | ⟨r, register, rfl⟩
  · exact h t plain
  · exact (Plain.append (by decide) (h r register)).append (by decide)

/-! ## Lines -/

theorem Entry.plain_assemblyName (e : Entry) : Plain e.assemblyName := by
  intro c hc
  rcases e.assemblyName_chars c hc with part | rfl
  · simp [isPlain, part]
  · decide

theorem Instance.plain_of_mem_assemblyOperands (i : Instance) (target : Option Target) :
    ∀ t ∈ i.assemblyOperands target, Plain t := by
  unfold assemblyOperands
  split
  · rename_i predecessor successor _
    simp only [List.forall_mem_cons]
    exact ⟨predecessor.plain_name, successor.plain_name, by simp⟩
  · rename_i values _
    dsimp only
    split
    · -- operands in order, then a label and a rounding mode where the entry has one
      intro t ht
      simp only [List.mem_append, List.append_assoc] at ht
      rcases ht with ht | ht | ht
      · exact Operand.plain_of_mem_render t ht
      · obtain ⟨label, -, rfl⟩ := List.mem_map.mp ht
        exact label.plain_assemblyToken
      · obtain ⟨rounding, -, rfl⟩ := List.mem_map.mp ht
        exact rounding.mode.plain_name
    · exact AtomicKind.plain_of_mem_assemblyOrder _ Operand.plain_of_mem_render
    · exact Operand.plain_of_mem_render

/-- Every assembly line is plain. -/
theorem Instance.plain_assembly (i : Instance) (target : Option Target) :
    Plain (i.assembly target) := by
  unfold assembly
  split
  · exact i.entry.plain_assemblyName
  · have operands := plain_intercalate (by decide : Plain ", ")
      (i.plain_of_mem_assemblyOperands target)
    exact (i.entry.plain_assemblyName.append (by decide)).append operands

/-- Every assembly line opens with a lowercase letter. -/
theorem Instance.exists_first_assembly (i : Instance) (target : Option Target) :
    ∃ c rest, (i.assembly target).toList = c :: rest ∧ c.isLower = true := by
  obtain ⟨c, rest, chars, lower⟩ := i.entry.mnemonic.exists_first
  -- the first letter is not a joint, so it is the same in the name, with an ordering after the
  -- name, and with operands after that
  have joint : c ≠ '_' := by
    rintro rfl
    exact absurd lower (by decide)
  have mnemonic : ∃ tail, i.entry.mnemonic.assemblyName.toList = c :: tail := by
    simp [Mnemonic.assemblyName, chars, joint]
  obtain ⟨tail, mnemonic⟩ := mnemonic
  have name : ∃ tail, i.entry.assemblyName.toList = c :: tail := by
    unfold Entry.assemblyName
    split <;> simp [mnemonic]
  obtain ⟨tail, name⟩ := name
  have text : ∃ tail, (i.assembly target).toList = c :: tail := by
    unfold assembly
    split <;> simp [name]
  obtain ⟨tail, text⟩ := text
  exact ⟨c, tail, text, lower⟩

/-! ## Calls -/

theorem Operand.newline_not_mem_render (o : Operand) (d : Dialect) :
    '\n' ∉ (o.render d).toList := by
  cases o with
  | register r => exact (r.plain_render d).not_mem (by decide)
  | immediate i => exact (i.plain_render d).not_mem (by decide)
  | address a =>
      cases d with
      | assembly => exact a.plain_render.not_mem (by decide)
      | call =>
          -- but for its first letter the text is plain
          have base := (plain_decimal a.base).not_mem (c := '\n') (by decide)
          have offset := (plain_signedDecimal a.offset).not_mem (c := '\n') (by decide)
          simp [Operand.render, Address.render, base, offset]

/-- The texts in front of calls and of enumerated arguments hold no line feed. -/
def CallStyle.OneLine (style : CallStyle) : Prop :=
  '\n' ∉ style.callPrefix.toList ∧ '\n' ∉ style.enumScope.toList

theorem Target.newline_not_mem_callToken (t : Target) {callPrefix : String}
    (whole : '\n' ∉ callPrefix.toList) : '\n' ∉ (t.callToken callPrefix).toList := by
  cases t with
  | current => simp [callToken, whole]
  | forward => exact (by decide : '\n' ∉ forthLabel.toList)
  | backward => exact (by decide : '\n' ∉ backLabel.toList)

namespace Instance

variable (i : Instance) {style : CallStyle}

theorem newline_not_mem_callArguments (whole : style.OneLine) (target : Option Target)
    {text : String} (h : text ∈ i.callArguments style target) : '\n' ∉ text.toList := by
  have decimals (n : Nat) : '\n' ∉ (decimal n ++ "u").toList :=
    ((plain_decimal n).append (by decide)).not_mem (by decide)
  rcases i.filling_cases with ⟨values, filling, layout⟩ |
    ⟨kind, ordering, values, filling, layout, -⟩ | ⟨predecessor, successor, filling, layout⟩
  · simp only [callArguments, filling, layout, List.mem_append, List.mem_map] at h
    rcases h with (⟨o, -, rfl⟩ | ⟨t, -, rfl⟩) | ⟨r, -, rfl⟩
    · exact o.newline_not_mem_render .call
    · exact t.newline_not_mem_callToken whole.1
    · simp [whole.2, r.mode.plain_name.not_mem (c := '\n') (by decide)]
  · simp only [callArguments, filling, layout, List.mem_append, List.mem_map,
      List.mem_singleton] at h
    rcases h with ⟨o, -, rfl⟩ | rfl
    · exact o.newline_not_mem_render .call
    · have suffix : '\n' ∉ ordering.suffix.toList := by cases ordering <;> decide
      simp [whole.2, suffix]
  · simp only [callArguments, filling, List.mem_cons, List.not_mem_nil, or_false] at h
    rcases h with rfl | rfl
    · exact decimals _
    · exact decimals _

/-- No call holds a line feed where the texts in front of calls and of enumerated arguments hold
none. -/
theorem newline_not_mem_call (whole : style.OneLine) (target : Option Target) :
    '\n' ∉ (i.call style target).toList := by
  have name : '\n' ∉ i.entry.callName.toList := i.entry.not_mem_callName (by decide) (by decide)
  have arguments :
      '\n' ∉ (String.intercalate ", " (i.callArguments style target)).toList := by
    intro h
    rcases mem_intercalate h with joint | ⟨text, mem, inside⟩
    · exact absurd joint (by decide)
    · exact i.newline_not_mem_callArguments whole target mem inside
  have text : (i.call style target).toList = style.callPrefix.toList ++ (i.entry.callName.toList ++
      ('(' :: ((String.intercalate ", " (i.callArguments style target)).toList ++ [')', ';']))) := by
    simp [call]
  rw [text]
  simp only [List.mem_append, List.mem_cons, not_or]
  exact ⟨whole.1, name, by decide, arguments, by decide⟩

/-- Every call ends in a semicolon. -/
theorem exists_call_concat (style : CallStyle) (target : Option Target) :
    ∃ front, (i.call style target).toList = front ++ [';'] :=
  ⟨(style.callPrefix ++ i.entry.callName ++ "(" ++
    String.intercalate ", " (i.callArguments style target) ++ ")").toList, by simp [call]⟩

end Instance

end EncoderVectors
