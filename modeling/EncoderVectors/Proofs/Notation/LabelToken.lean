import EncoderVectors.Proofs.Notation.Agreement

/-!
# The label in the texts of an instance

The forms of an instance that takes a label differ in the token of the label and in nothing else: what
stands around the token is the same in all of them (`Instance.exists_call_around_label`,
`Instance.exists_assembly_around_label`). No two forms look alike, whatever stands in front of calls.

An instance that takes no label has one form, and no part of its texts is the token of a label. The
tokens are told from all other parts by the characters they end in (`Text.endsAsLabel`); the scope in
front of an enumerated argument may be any text, but the argument does not end in it.

Main result: `Instance.forms_around_label`.
-/

set_option autoImplicit false

namespace EncoderVectors

namespace Text

/-- What stands around one item of a list does not depend on the item. -/
theorem exists_intercalate_around (separator : String) (before after : List String) :
    ∃ front back, ∀ item, String.intercalate separator (before ++ item :: after) =
      front ++ item ++ back := by
  induction before with
  | nil =>
      cases after with
      | nil => exact ⟨"", "", fun item => by simp⟩
      | cons next after =>
          refine ⟨"", separator ++ String.intercalate separator (next :: after), fun item => ?_⟩
          simp [String.append_assoc]
  | cons first before ih =>
      obtain ⟨front, back, around⟩ := ih
      refine ⟨first ++ separator ++ front, back, fun item => ?_⟩
      rw [List.cons_append, String.intercalate_cons_of_ne_nil (by simp), around]
      simp only [String.append_assoc]

/-! ## How tokens end -/

/-- The text ends as the tokens of labels do. -/
def endsAsLabel (text : String) : Bool :=
  match text.toList.reverse.take 2 with
  | [')', '('] | 'h' :: _ | 'k' :: _ | '.' :: _ => true
  | _ => false

/-- The last two characters of a text decide how it ends. -/
theorem endsAsLabel_append (front : String) {back : String} (two : 2 ≤ back.length) :
    endsAsLabel (front ++ back) = endsAsLabel back := by
  have last : (front ++ back).toList.reverse.take 2 = back.toList.reverse.take 2 := by
    rw [String.toList_append, List.reverse_append]
    apply List.take_append_of_le_length
    rwa [List.length_reverse, String.length_toList]
  rw [endsAsLabel, last, endsAsLabel]

theorem endsAsLabel_concat {text : String} {front : List Char} {c : Char}
    (last : text.toList = front ++ [c]) (other : c ∉ [')', 'h', 'k', '.']) :
    endsAsLabel text = false := by
  simp only [List.mem_cons, not_or] at other
  simp [endsAsLabel, last, other]

/-- A closing bracket is the end of a label only after an opening one. -/
theorem endsAsLabel_bracketed {text : String} {front : List Char} {c : Char}
    (last : text.toList = front ++ [c, ')']) (other : c ≠ '(') : endsAsLabel text = false := by
  simp [endsAsLabel, last, other]

/-- Numerals end in a digit. -/
theorem exists_toDigits_concat {base : Nat} (low : 1 < base) (high : base ≤ 16) (n : Nat) :
    ∃ front c, Nat.toDigits base n = front ++ [c] ∧ isDigitIn 16 c = true := by
  rcases List.eq_nil_or_concat (Nat.toDigits base n) with empty | ⟨front, c, digits⟩
  · exact absurd empty Nat.toDigits_ne_nil
  · have digit := isDigitIn_of_mem_toDigits low high n c (by simp [digits])
    refine ⟨front, c, by simpa using digits, ?_⟩
    rw [isDigitIn, decide_eq_true_eq] at digit ⊢
    omega

theorem endsAsLabel_toDigits {base : Nat} (low : 1 < base) (high : base ≤ 16) (front : String)
    (n : Nat) : endsAsLabel (front ++ String.ofList (Nat.toDigits base n)) = false := by
  obtain ⟨digits, c, text, digit⟩ := exists_toDigits_concat low high n
  have last : (front ++ String.ofList (Nat.toDigits base n)).toList =
      (front.toList ++ digits) ++ [c] := by simp [text]
  apply endsAsLabel_concat last
  intro mark
  have marks : [')', 'h', 'k', '.'].all (fun d => !isDigitIn 16 d) = true := by decide
  have other := List.all_eq_true.mp marks c mark
  simp [digit] at other

theorem endsAsLabel_decimal (front : String) (n : Nat) : endsAsLabel (front ++ decimal n) = false :=
  endsAsLabel_toDigits (by decide) (by decide) front n

/-- A bracket that closes after a numeral does not end a label. -/
theorem endsAsLabel_decimal_bracket (front : String) (n : Nat) :
    endsAsLabel (front ++ decimal n ++ ")") = false := by
  obtain ⟨digits, c, text, digit⟩ := @exists_toDigits_concat 10 (by decide) (by decide) n
  have last : (front ++ decimal n ++ ")").toList = (front.toList ++ digits) ++ [c, ')'] := by
    simp [decimal, text]
  apply endsAsLabel_bracketed last
  rintro rfl
  exact absurd digit (by decide)

end Text

open Text

theorem Target.endsAsLabel_callToken (t : Target) (callPrefix : String) :
    endsAsLabel (t.callToken callPrefix) = true := by
  cases t with
  | current => exact endsAsLabel_append callPrefix (by decide)
  | forward => exact (by decide : endsAsLabel forthLabel = true)
  | backward => exact (by decide : endsAsLabel backLabel = true)

theorem Target.endsAsLabel_assemblyToken (t : Target) : endsAsLabel t.assemblyToken = true := by
  cases t <;> decide

theorem Target.assemblyToken_injective {t t' : Target} (h : t.assemblyToken = t'.assemblyToken) :
    t = t' := by
  have table : ∀ a ∈ all, ∀ b ∈ all, a.assemblyToken = b.assemblyToken → a = b := by decide
  exact table t t.mem_all t' t'.mem_all h

/-! ## How all other parts end -/

theorem Register.endsAsLabel_render (r : Register) (d : Dialect) :
    endsAsLabel (r.render d) = false := by
  unfold render
  split
  · decide
  · decide
  · decide
  · exact endsAsLabel_decimal _ _
  · exact endsAsLabel_decimal _ _

theorem Address.endsAsLabel_render (a : Address) (d : Dialect) :
    endsAsLabel (a.render d) = false := by
  cases d with
  | assembly => exact endsAsLabel_decimal_bracket _ _
  | call =>
      change endsAsLabel ("Address(x" ++ decimal a.base ++ ", " ++ signedDecimal a.offset ++ ")") =
        false
      unfold signedDecimal
      split
      · rw [← String.append_assoc]
        exact endsAsLabel_decimal_bracket _ _
      · exact endsAsLabel_decimal_bracket _ _

theorem Immediate.endsAsLabel_render (i : Immediate) (d : Dialect) :
    endsAsLabel (i.render d) = false := by
  have unsigned (n : Nat) : endsAsLabel (decimal n ++ "u") = false :=
    endsAsLabel_concat (String.toList_append ..) (by decide)
  have plain (n : Nat) : endsAsLabel (decimal n) = false := by
    simpa using endsAsLabel_decimal "" n
  have hexadecimal (n : Nat) : endsAsLabel (hex n) = false :=
    endsAsLabel_toDigits (by decide) (by decide) "0x" n
  have shifted (n : Nat) : endsAsLabel (hex n ++ "000") = false :=
    endsAsLabel_append (hex n) (by decide)
  unfold render
  split
  · exact unsigned _
  · exact unsigned _
  · exact shifted _
  · exact plain _
  · exact plain _
  · exact plain _
  · exact hexadecimal _
  · exact hexadecimal _
  · exact hexadecimal _
  · exact hexadecimal _

theorem Operand.endsAsLabel_render (o : Operand) (d : Dialect) :
    endsAsLabel (o.render d) = false := by
  cases o with
  | register r => exact r.endsAsLabel_render d
  | address a => exact a.endsAsLabel_render d
  | immediate i => exact i.endsAsLabel_render d

theorem Barrier.endsAsLabel_text (b : Barrier) (d : Dialect) : endsAsLabel (b.text d) = false := by
  cases d with
  | call => exact endsAsLabel_concat (String.toList_append ..) (by decide)
  | assembly =>
      obtain ⟨input, output, read, write⟩ := b
      cases input <;> cases output <;> cases read <;> cases write <;> decide

theorem RoundingMode.endsAsLabel_name (m : RoundingMode) (scope : String) :
    endsAsLabel (scope ++ m.name) = false := by
  rw [endsAsLabel_append scope (by simp [m.length_name])]
  cases m <;> decide

theorem AtomicOrdering.endsAsLabel_suffix (o : AtomicOrdering) (scope : String) :
    endsAsLabel (scope ++ o.suffix) = false := by
  rw [endsAsLabel_append scope (by simp [o.length_suffix])]
  cases o <;> decide

/-- The brackets around the address of an atomic memory operation close after the number of its
register. -/
theorem Operand.endsAsLabel_bracketed {o : Operand} (general : o.slot = .general) :
    endsAsLabel ("(" ++ o.render .assembly ++ ")") = false := by
  cases o with
  | register r =>
      have cls : r.cls = .general := Slot.register.inj general
      have text : "(" ++ r.render .assembly ++ ")" = "(x" ++ decimal r.index ++ ")" := by
        simp [Register.render, cls, ← String.append_assoc]
      rw [render, text]
      exact endsAsLabel_decimal_bracket _ _
  | address a => cases general
  | immediate i => cases general

namespace Instance

variable (i : Instance) (style : CallStyle)

/-! ## Around the label -/

/-- An entry that takes a label has operands in slots. -/
theorem exists_operands_of_transfer (labelled : i.entry.shape.transfer.isSome = true) :
    ∃ values, i.filling = .operands values ∧
      i.entry.shape.layout = .slots (values.map Operand.slot) := by
  rcases i.filling_cases with slots | ⟨kind, ordering, _, _, layout, _⟩ | ⟨_, _, _, layout⟩
  · exact slots
  · have fixed := (i.entry.rounding_transfer_eq_none (by simp [layout])).2
    simp [fixed] at labelled
  · have fixed := (i.entry.rounding_transfer_eq_none (by simp [layout])).2
    simp [fixed] at labelled

/-- What stands around the label in a call. -/
theorem exists_call_around_label (labelled : i.entry.shape.transfer.isSome = true) :
    ∃ front back, ∀ t : Target,
      i.call style (some t) = front ++ t.callToken style.callPrefix ++ back := by
  obtain ⟨values, filling, layout⟩ := i.exists_operands_of_transfer labelled
  obtain ⟨front, back, around⟩ := exists_intercalate_around ", "
    (values.map fun o => o.render .call)
    (i.entry.shape.rounding.toList.map fun r => style.enumScope ++ r.mode.name)
  refine ⟨style.callPrefix ++ i.entry.callName ++ "(" ++ front, back ++ ");", fun t => ?_⟩
  have arguments : i.callArguments style (some t) = (values.map fun o => o.render .call) ++
      t.callToken style.callPrefix ::
        i.entry.shape.rounding.toList.map fun r => style.enumScope ++ r.mode.name := by
    simp [callArguments, filling, layout]
  rw [call, arguments, around]
  simp only [String.append_assoc]

/-- What stands around the label in an assembly line. -/
theorem exists_assembly_around_label (labelled : i.entry.shape.transfer.isSome = true) :
    ∃ front back, ∀ t : Target, i.assembly (some t) = front ++ t.assemblyToken ++ back := by
  obtain ⟨values, filling, layout⟩ := i.exists_operands_of_transfer labelled
  obtain ⟨front, back, around⟩ := exists_intercalate_around ", "
    (values.map fun o => o.render .assembly)
    ((i.entry.shape.rounding.toList.filter Rounding.isSpelled).map fun r => r.mode.name)
  refine ⟨i.entry.assemblyName ++ "\t" ++ front, back, fun t => ?_⟩
  have operands : i.assemblyOperands (some t) = (values.map fun o => o.render .assembly) ++
      t.assemblyToken ::
        (i.entry.shape.rounding.toList.filter Rounding.isSpelled).map fun r => r.mode.name := by
    simp [assemblyOperands, filling, layout]
  have some_operand : i.assemblyOperands (some t) ≠ [] := by simp [operands]
  have text : i.assembly (some t) = i.entry.assemblyName ++ "\t" ++
      String.intercalate ", " (i.assemblyOperands (some t)) := by
    unfold assembly
    split
    · contradiction
    · rfl
  rw [text, operands, around]
  simp only [String.append_assoc]

/-! ## Without a label -/

theorem endsAsLabel_of_mem_callArguments {text : String} (h : text ∈ i.callArguments style none) :
    endsAsLabel text = false := by
  rcases i.filling_cases with ⟨values, filling, layout⟩ |
    ⟨kind, ordering, values, filling, layout, -⟩ | ⟨predecessor, successor, filling, layout⟩
  · simp only [callArguments, filling, layout, List.mem_append, List.mem_map, Option.toList_none,
      List.map_nil, List.append_nil] at h
    rcases h with ⟨o, -, rfl⟩ | ⟨r, -, rfl⟩
    · exact o.endsAsLabel_render .call
    · exact r.mode.endsAsLabel_name style.enumScope
  · simp only [callArguments, filling, layout, List.mem_append, List.mem_map,
      List.mem_singleton] at h
    rcases h with ⟨o, -, rfl⟩ | rfl
    · exact o.endsAsLabel_render .call
    · exact ordering.endsAsLabel_suffix style.enumScope
  · simp only [callArguments, filling, List.mem_cons, List.not_mem_nil, or_false] at h
    rcases h with rfl | rfl
    · exact predecessor.endsAsLabel_text .call
    · exact successor.endsAsLabel_text .call

theorem endsAsLabel_of_mem_assemblyOperands {text : String} (h : text ∈ i.assemblyOperands none) :
    endsAsLabel text = false := by
  rcases i.filling_cases with ⟨values, filling, layout⟩ |
    ⟨kind, ordering, values, filling, layout, slots⟩ | ⟨predecessor, successor, filling, layout⟩
  · simp only [assemblyOperands, filling, layout, List.mem_append, List.mem_map, Option.toList_none,
      List.map_nil, List.append_nil] at h
    rcases h with ⟨o, -, rfl⟩ | ⟨r, -, rfl⟩
    · exact o.endsAsLabel_render .assembly
    · simpa using r.mode.endsAsLabel_name ""
  · simp only [assemblyOperands, filling, layout] at h
    rcases kind.mem_assemblyOrder h with plain | ⟨_, register, rfl⟩
    · obtain ⟨o, -, rfl⟩ := List.mem_map.mp plain
      exact o.endsAsLabel_render .assembly
    · obtain ⟨o, mem, rfl⟩ := List.mem_map.mp register
      apply Operand.endsAsLabel_bracketed
      exact List.eq_of_mem_replicate (slots ▸ List.mem_map_of_mem mem)
  · simp only [assemblyOperands, filling, List.mem_cons, List.not_mem_nil, or_false] at h
    rcases h with rfl | rfl
    · exact predecessor.endsAsLabel_text .assembly
    · exact successor.endsAsLabel_text .assembly

/-! ## The main statement -/

/-- An instance that takes a label has a form for the label at its own address, the one after the body
and the one before it, in this order. The forms differ in the token of the label only: what stands
around it in the assembly lines is known from the instance, and what stands around it in the calls
from the instance and the spelling of calls. No two of the calls are alike, nor are any two of the
lines. An instance that takes no label has one form, without a target; none of the arguments of its
call and none of the operands of its line is the token of a label. -/
theorem forms_around_label :
    (i.entry.shape.transfer.isSome = true →
      ∃ front back, ∀ style : CallStyle, ∃ opening closing,
        (i.forms style = [Target.current, .forward, .backward].map fun t =>
          ⟨some t, opening ++ t.callToken style.callPrefix ++ closing,
            front ++ t.assemblyToken ++ back⟩) ∧
        (i.forms style).Pairwise fun f f' => f.call ≠ f'.call ∧ f.assembly ≠ f'.assembly) ∧
    (i.entry.shape.transfer = none → ∀ style : CallStyle,
      i.forms style = [⟨none, i.call style none, i.assembly none⟩] ∧
        ∀ t : Target, t.callToken style.callPrefix ∉ i.callArguments style none ∧
          t.assemblyToken ∉ i.assemblyOperands none) := by
  constructor
  · intro labelled
    obtain ⟨front, back, line⟩ := i.exists_assembly_around_label labelled
    refine ⟨front, back, fun style => ?_⟩
    obtain ⟨opening, closing, call⟩ := i.exists_call_around_label style labelled
    refine ⟨opening, closing, ?_⟩
    have forms : i.forms style = Target.all.map fun t =>
        ⟨some t, opening ++ t.callToken style.callPrefix ++ closing,
          front ++ t.assemblyToken ++ back⟩ := by
      obtain ⟨x, transfer⟩ := Option.isSome_iff_exists.mp labelled
      simp only [Instance.forms, Shape.targets, transfer, List.map_map]
      simp [form, call, line, Function.comp_def]
    refine ⟨forms, ?_⟩
    rw [forms, List.pairwise_map]
    have distinct : Target.all.Pairwise (· ≠ ·) := by decide
    refine distinct.imp fun differ => ⟨?_, ?_⟩
    · intro same
      exact differ (Target.callToken_injective style.callPrefix
        ((String.append_right_inj _).mp ((String.append_left_inj _).mp same)))
    · intro same
      exact differ (Target.assemblyToken_injective
        ((String.append_right_inj _).mp ((String.append_left_inj _).mp same)))
  · intro unlabelled style
    refine ⟨by simp [forms, Shape.targets, unlabelled, form], fun t => ⟨?_, ?_⟩⟩
    · intro mem
      have ends := i.endsAsLabel_of_mem_callArguments style mem
      rw [t.endsAsLabel_callToken] at ends
      cases ends
    · intro mem
      have ends := i.endsAsLabel_of_mem_assemblyOperands mem
      rw [t.endsAsLabel_assemblyToken] at ends
      cases ends

/-- A branch that compares a float register, with a rounding mode behind its label. -/
def roundedBranch : Instance where
  entry := ⟨⟨"fb_s", by decide⟩,
    (Shape.rounded (.ofSlots [.float, .general]) (.spelled .rdn)).labelled .branch, by decide⟩
  filling := .operands
    [.register ⟨.float, 8, by decide, by decide⟩, .register ⟨.general, 9, by decide, by decide⟩]
  fits := by decide

/-- Control: a label between operands and a rounding mode, where the text in front of calls looks like
another label; and an atomic addition, which takes no label, with a scope that looks like one. -/
theorem forms_around_label_rounded :
    (roundedBranch.entry.shape.transfer.isSome = true ∧
      roundedBranch.forms ⟨"forth, ", "back"⟩ =
        [⟨some .current, "forth, fb_s(f8, x9, forth, pc(), backrdn);", "fb.s\tf8, x9, ., rdn"⟩,
          ⟨some .forward, "forth, fb_s(f8, x9, forth, backrdn);", "fb.s\tf8, x9, forth, rdn"⟩,
          ⟨some .backward, "forth, fb_s(f8, x9, back, backrdn);", "fb.s\tf8, x9, back, rdn"⟩] ∧
      (roundedBranch.forms ⟨"forth, ", "back"⟩).Pairwise fun f f' =>
        f.call ≠ f'.call ∧ f.assembly ≠ f'.assembly) ∧
    amoadd.entry.shape.transfer = none ∧
      ∀ t : Target, t.callToken "forth, " ∉ amoadd.callArguments ⟨"forth, ", "back"⟩ none := by
  have labelled : roundedBranch.entry.shape.transfer.isSome = true := rfl
  have unlabelled : amoadd.entry.shape.transfer = none := rfl
  obtain ⟨_, _, around⟩ := roundedBranch.forms_around_label.1 labelled
  obtain ⟨_, _, -, apart⟩ := around ⟨"forth, ", "back"⟩
  have single := (amoadd.forms_around_label.2 unlabelled ⟨"forth, ", "back"⟩).2
  exact ⟨⟨labelled, by decide +kernel, apart⟩, unlabelled, fun t => (single t).1⟩

end Instance

end EncoderVectors
