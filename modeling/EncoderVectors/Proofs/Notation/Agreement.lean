import EncoderVectors.Proofs.Notation.Name
import EncoderVectors.Proofs.Notation.Reading

/-!
# The two notations carry the same instruction

Every form of every instance is read back from its call and from its assembly line, and both give the
values the instance was made of: operands in order, fence sets, label, ordering and rounding mode.
The texts in front of calls and of enumerated arguments may be anything; labels and enumerated
arguments are told apart by their ends.

Main result: `Instance.forms_read_alike`.
-/

set_option autoImplicit false

namespace EncoderVectors

/-! ## Parts -/

/-- The text of a set in a fence. -/
def Barrier.text (b : Barrier) : Dialect → String
  | .call => Text.decimal b.bits ++ "u"
  | .assembly => b.name

theorem Barrier.ofBits?_bits (b : Barrier) : ofBits? b.bits = some b := by
  obtain ⟨input, output, read, write⟩ := b
  cases input <;> cases output <;> cases read <;> cases write <;> rfl

/-- The letters of a set, one test at a time. -/
theorem Barrier.toList_name (b : Barrier) :
    b.name.toList = (if b.input then ['i'] else []) ++ (if b.output then ['o'] else []) ++
      (if b.read then ['r'] else []) ++ (if b.write then ['w'] else []) := by
  simp only [name, String.toList_append, apply_ite String.toList, String.toList_empty]
  rfl

theorem Barrier.ofLetters?_name (b : Barrier) : ofLetters? b.name.toList = some b := by
  have same : (⟨'i' ∈ b.name.toList, 'o' ∈ b.name.toList, 'r' ∈ b.name.toList,
      'w' ∈ b.name.toList⟩ : Barrier) = b := by
    rw [toList_name]
    obtain ⟨input, output, read, write⟩ := b
    cases input <;> cases output <;> cases read <;> cases write <;> decide
  simp only [ofLetters?, same, if_true]

theorem Barrier.isLower_of_mem_name (b : Barrier) : ∀ c ∈ b.name.toList, c.isLower = true := by
  rw [toList_name, ← List.all_eq_true]
  obtain ⟨input, output, read, write⟩ := b
  cases input <;> cases output <;> cases read <;> cases write <;> decide

/-- A listed set is read back from either dialect. -/
theorem Barrier.readListed_text (b : Barrier) (d : Dialect) {rest : List Char}
    (h : Text.Closes rest) :
    readListed d (", ".toList ++ ((b.text d).toList ++ rest)) = some (b, rest) := by
  cases d with
  | call =>
      simp only [readListed, text, Text.expect_append, Text.readLiteral_unsigned, ofBits?_bits,
        Option.bind_eq_bind, Option.bind_some]
      rfl
  | assembly =>
      obtain ⟨letters, left⟩ := Text.span_append b.isLower_of_mem_name
        (h.not_of_head (p := Char.isLower) (by decide))
      simp only [readListed, text, Text.expect_append, letters, left, ofLetters?_name,
        Option.bind_eq_bind, Option.bind_some]
      rfl

theorem Target.mem_all (t : Target) : t ∈ all := by
  cases t <;> decide

/-- The last character of the token of a label in a call. -/
def Target.lastChar : Target → Char
  | .current => ')'
  | .forward => 'h'
  | .backward => 'k'

theorem Target.getLast?_callToken (t : Target) (callPrefix : String) :
    (t.callToken callPrefix).toList.getLast? = some t.lastChar := by
  cases t with
  | current => simp [callToken, lastChar]
  | forward => simp [callToken, forthLabel, lastChar]
  | backward => simp [callToken, backLabel, lastChar]

/-- Tokens of different labels differ in a call, whatever stands in front of calls. -/
theorem Target.callToken_injective {t t' : Target} (callPrefix : String)
    (h : t.callToken callPrefix = t'.callToken callPrefix) : t = t' := by
  -- a prefix can make one token look like another from the front, but not from its end
  have ends := congrArg (fun s : String => s.toList.getLast?) h
  simp only [getLast?_callToken, Option.some.injEq] at ends
  have table : ∀ a ∈ all, ∀ b ∈ all, a.lastChar = b.lastChar → a = b := by decide
  exact table t t.mem_all t' t'.mem_all ends

/-- The label of a call is read back, whatever stands in front of calls. -/
theorem Target.readCall_listed (t : Target) (callPrefix : String) :
    readCall callPrefix (Text.listed [t.callToken callPrefix]) = some (t, []) := by
  have text : Text.listed [t.callToken callPrefix] = (", " ++ t.callToken callPrefix).toList := by
    simp
  unfold readCall
  rw [text, Text.readWhole_toList (fun t => ", " ++ t.callToken callPrefix) t.mem_all]
  · rfl
  · intro x _ same
    exact callToken_injective callPrefix (String.append_right_inj _ |>.mp same)

/-- The label of an assembly line is read back, and what follows it is left. -/
theorem Target.readAssembly_listed (t : Target) (rest : List Char) :
    readAssembly (Text.listed [t.assemblyToken] ++ rest) = some (t, rest) := by
  have text : Text.listed [t.assemblyToken] ++ rest =
      ", ".toList ++ (t.assemblyToken.toList ++ rest) := by simp
  unfold readAssembly
  rw [text, Text.expect_append]
  apply Text.readFirst_append assemblyToken t.mem_all
  · decide
  · cases t <;> decide

theorem RoundingMode.mem_all (m : RoundingMode) : m ∈ all := by
  cases m <;> decide

theorem RoundingMode.name_injective {m m' : RoundingMode} (h : m.name = m'.name) : m = m' := by
  have table : ∀ a ∈ all, ∀ b ∈ all, a.name = b.name → a = b := by decide
  exact table m m.mem_all m' m'.mem_all h

theorem RoundingMode.length_name (m : RoundingMode) : m.name.length = 3 := by
  cases m <;> decide

/-- A rounding mode is read back from an assembly line, and is nearest-even when it is not spelled. -/
theorem RoundingMode.readAssembly_listed (r : Rounding) :
    readAssembly (Text.listed (([r].filter Rounding.isSpelled).map fun r => r.mode.name)) =
      some (r.mode, []) := by
  cases r with
  | implied => rfl
  | spelled m => cases m <;> decide

theorem AtomicOrdering.mem_all (o : AtomicOrdering) : o ∈ all := by
  cases o <;> decide

theorem AtomicOrdering.suffix_injective {o o' : AtomicOrdering} (h : o.suffix = o'.suffix) :
    o = o' := by
  have table : ∀ a ∈ all, ∀ b ∈ all, a.suffix = b.suffix → a = b := by decide
  exact table o o.mem_all o' o'.mem_all h

theorem AtomicOrdering.length_suffix (o : AtomicOrdering) : o.suffix.length = 2 := by
  cases o <;> decide

/-- An enumerated argument at the end of a call is read back, whatever its scope. -/
theorem Text.readLast_scoped {α : Type} {choices : List α} (name : α → String) {a : α}
    (mem : a ∈ choices) (injective : ∀ x ∈ choices, name x = name a → x = a)
    (width : ∀ x ∈ choices, (name x).length = (name a).length) (scope : String)
    (before : List Char) :
    readLast choices (fun x => ", " ++ scope ++ name x) (before ++ listed [scope ++ name a]) =
      some (a, before) := by
  have text : listed [scope ++ name a] = (", " ++ scope ++ name a).toList := by simp
  rw [text]
  apply readLast_append _ mem
  · intro x hx same
    exact injective x hx (String.append_right_inj _ |>.mp same)
  · intro x hx
    simp [width x hx]

/-- The rounding mode of a call is read off the end of its arguments, if there is to be one. -/
theorem Rounding.readIf_call (r : Option Rounding) (scope : String) (before : List Char) :
    Text.readIf r.isSome (Text.readLast RoundingMode.all fun m => ", " ++ scope ++ m.name)
        (before ++ Text.listed (r.toList.map fun r => scope ++ r.mode.name)) =
      some (r.map mode, before) := by
  cases r with
  | none => simp [Text.readIf]
  | some r =>
      have last := Text.readLast_scoped RoundingMode.name r.mode.mem_all
        (fun x _ => RoundingMode.name_injective)
        (fun x _ => by rw [RoundingMode.length_name, RoundingMode.length_name]) scope before
      simp only [Text.readIf, Option.isSome_some, if_true, Option.toList_some, List.map_cons,
        List.map_nil, last, Option.map_some]

/-- The label of a call is read off what is left of its arguments, if there is to be one. -/
theorem Target.readIf_call (t : Option Target) (callPrefix : String) :
    Text.readIf t.isSome (readCall callPrefix)
        (Text.listed (t.toList.map fun t => t.callToken callPrefix)) = some (t, []) := by
  cases t with
  | none => rfl
  | some t =>
      simp only [Text.readIf, Option.isSome_some, if_true, Option.toList_some, List.map_cons,
        List.map_nil, readCall_listed, Option.map_some]

theorem Target.readIf_assembly (t : Option Target) (rest : List Char) :
    Text.readIf t.isSome readAssembly (Text.listed (t.toList.map assemblyToken) ++ rest) =
      some (t, rest) := by
  cases t with
  | none => rfl
  | some t =>
      simp only [Text.readIf, Option.isSome_some, if_true, Option.toList_some, List.map_cons,
        List.map_nil, readAssembly_listed, Option.map_some]

theorem Rounding.readIf_assembly (r : Option Rounding) :
    Text.readIf r.isSome RoundingMode.readAssembly
        (Text.listed ((r.toList.filter isSpelled).map fun r => r.mode.name)) =
      some (r.map mode, []) := by
  cases r with
  | none => rfl
  | some r =>
      simp only [Text.readIf, Option.isSome_some, if_true, Option.toList_some,
        RoundingMode.readAssembly_listed, Option.map_some]

/-- The operands of an atomic memory operation are written as they are, or in brackets. -/
theorem AtomicKind.mem_assemblyOrder (kind : AtomicKind) {registers : List String} {text : String}
    (h : text ∈ kind.assemblyOrder registers) :
    text ∈ registers ∨ ∃ r ∈ registers, text = "(" ++ r ++ ")" := by
  unfold assemblyOrder at h
  split at h
  · simp only [List.mem_cons, List.not_mem_nil, or_false] at h ⊢
    rcases h with rfl | rfl
    · simp
    · simp
  · simp only [List.mem_cons, List.not_mem_nil, or_false] at h ⊢
    rcases h with rfl | rfl | rfl <;> simp
  · simp only [List.mem_cons, List.not_mem_nil, or_false] at h ⊢
    rcases h with rfl | rfl | rfl <;> simp
  · exact Or.inl h

/-- Plain registers and one in brackets are read and put into the order of the call. -/
theorem AtomicKind.readAssembly_bracketed (kind : AtomicKind) (plain : List Operand)
    (address : Operand)
    (slots : plain.map Operand.slot = List.replicate (kind.registers - 1) .general)
    (slot : address.slot = .general) :
    kind.readAssembly (Text.listed
        ((plain.map fun o => o.render .assembly) ++ ["(" ++ address.render .assembly ++ ")"])) =
      some (kind.callOrder plain address, []) := by
  have text : Text.listed
      ((plain.map fun o => o.render .assembly) ++ ["(" ++ address.render .assembly ++ ")"]) =
      Text.listed (plain.map fun o => o.render .assembly) ++
        (", (".toList ++ ((address.render .assembly).toList ++ (")".toList ++ []))) := by
    simp
  have comma : Text.Closes
      (", (".toList ++ ((address.render .assembly).toList ++ (")".toList ++ []))) :=
    Text.closes_cons _ (by decide)
  have bracket : Text.Closes (")".toList ++ []) := Text.closes_cons [] (by decide)
  have each := Operand.readEach_listed .assembly plain comma
  have bracketed := Operand.read_render address .assembly bracket
  rw [slots] at each
  rw [slot] at bracketed
  simp only [readAssembly, text, each, bracketed, Text.expect_append, Option.bind_eq_bind,
    Option.bind_some]
  rfl

/-- The registers of an atomic memory operation are read back in the order of the call. -/
theorem AtomicKind.readAssembly_listed (kind : AtomicKind) {values : List Operand}
    (slots : values.map Operand.slot = List.replicate kind.registers .general) :
    kind.readAssembly
        (Text.listed (kind.assemblyOrder (values.map fun o => o.render .assembly))) =
      some (values, []) := by
  cases kind with
  | loadReserved =>
      obtain ⟨rd, _, rfl, hrd, h⟩ := List.map_eq_cons_iff.mp slots
      obtain ⟨address, _, rfl, haddress, h⟩ := List.map_eq_cons_iff.mp h
      obtain rfl := List.map_eq_nil_iff.mp h
      exact readAssembly_bracketed .loadReserved [rd] address (congrArg (· :: []) hrd) haddress
  | storeConditional =>
      obtain ⟨rd, _, rfl, hrd, h⟩ := List.map_eq_cons_iff.mp slots
      obtain ⟨value, _, rfl, hvalue, h⟩ := List.map_eq_cons_iff.mp h
      obtain ⟨address, _, rfl, haddress, h⟩ := List.map_eq_cons_iff.mp h
      obtain rfl := List.map_eq_nil_iff.mp h
      exact readAssembly_bracketed .storeConditional [rd, value] address
        (congr (congrArg List.cons hrd) (congrArg (· :: []) hvalue)) haddress
  | memoryOperation =>
      -- the call names the address second, the line last
      obtain ⟨rd, _, rfl, hrd, h⟩ := List.map_eq_cons_iff.mp slots
      obtain ⟨address, _, rfl, haddress, h⟩ := List.map_eq_cons_iff.mp h
      obtain ⟨value, _, rfl, hvalue, h⟩ := List.map_eq_cons_iff.mp h
      obtain rfl := List.map_eq_nil_iff.mp h
      exact readAssembly_bracketed .memoryOperation [rd, value] address
        (congr (congrArg List.cons hrd) (congrArg (· :: []) hvalue)) haddress

/-! ## Items -/

namespace Pattern

theorem readCallItems_slots (style : CallStyle) (values : List Operand) (target : Option Target)
    (rounding : Option Rounding) :
    (slots (values.map Operand.slot) target.isSome rounding.isSome).readCallItems style
        (Text.listed ((values.map fun o => o.render .call) ++
          target.toList.map (fun t => t.callToken style.callPrefix) ++
          rounding.toList.map fun r => style.enumScope ++ r.mode.name)) =
      some { operands := values, target := target, rounding := rounding.map Rounding.mode } := by
  -- the rounding mode is read first, off the end, and the label from what the operands leave
  have labels := Text.closes_listed_append
    (target.toList.map fun t => t.callToken style.callPrefix) Text.closes_nil
  rw [List.append_nil] at labels
  simp only [readCallItems, Text.listed_append, Rounding.readIf_call, Option.bind_eq_bind,
    Option.bind_some, Operand.readEach_listed .call values labels, Target.readIf_call,
    List.isEmpty_nil, if_true]

theorem readAssemblyItems_slots (name : List Char) (values : List Operand)
    (target : Option Target) (rounding : Option Rounding) :
    (slots (values.map Operand.slot) target.isSome rounding.isSome).readAssemblyItems name
        (Text.listed ((values.map fun o => o.render .assembly) ++
          target.toList.map Target.assemblyToken ++
          (rounding.toList.filter Rounding.isSpelled).map fun r => r.mode.name)) =
      some { operands := values, target := target, rounding := rounding.map Rounding.mode } := by
  have modes := Text.closes_listed_append
    ((rounding.toList.filter Rounding.isSpelled).map fun r => r.mode.name) Text.closes_nil
  rw [List.append_nil] at modes
  have labels := Text.closes_listed_append (target.toList.map Target.assemblyToken) modes
  simp only [readAssemblyItems, Text.listed_append, List.append_assoc, Option.bind_eq_bind,
    Option.bind_some, Operand.readEach_listed .assembly values labels, Target.readIf_assembly,
    Rounding.readIf_assembly, List.isEmpty_nil, if_true]

theorem readCallItems_atomic (style : CallStyle) (kind : AtomicKind) (ordering : AtomicOrdering)
    {values : List Operand}
    (slots : values.map Operand.slot = List.replicate kind.registers .general) :
    (atomic kind).readCallItems style
        (Text.listed ((values.map fun o => o.render .call) ++
          [style.enumScope ++ ordering.suffix])) =
      some { operands := values, ordering := some ordering } := by
  have last := Text.readLast_scoped AtomicOrdering.suffix ordering.mem_all
    (fun x _ => AtomicOrdering.suffix_injective)
    (fun x _ => by rw [AtomicOrdering.length_suffix, AtomicOrdering.length_suffix]) style.enumScope
    (Text.listed (values.map fun o => o.render .call))
  have each := Operand.readEach_listed .call values Text.closes_nil
  rw [slots, List.append_nil] at each
  simp only [readCallItems, Text.listed_append, last, each, Option.bind_eq_bind, Option.bind_some,
    List.isEmpty_nil, if_true]

theorem readAssemblyItems_atomic (kind : AtomicKind) (ordering : AtomicOrdering) (name : List Char)
    {values : List Operand}
    (slots : values.map Operand.slot = List.replicate kind.registers .general) :
    (atomic kind).readAssemblyItems (name ++ ("." ++ ordering.suffix).toList)
        (Text.listed (kind.assemblyOrder (values.map fun o => o.render .assembly))) =
      some { operands := values, ordering := some ordering } := by
  have last := Text.readLast_append (fun o => "." ++ AtomicOrdering.suffix o)
    ordering.mem_all
    (fun x _ same => AtomicOrdering.suffix_injective (String.append_right_inj _ |>.mp same))
    (fun x _ => by simp [AtomicOrdering.length_suffix]) name
  simp only [readAssemblyItems, last, AtomicKind.readAssembly_listed kind slots,
    Option.bind_eq_bind, Option.bind_some, List.isEmpty_nil, if_true]

theorem readBarriers_listed (d : Dialect) (predecessor successor : Barrier) :
    (do
      let (p, cs) ← Barrier.readListed d (Text.listed [predecessor.text d, successor.text d])
      let (s, cs) ← Barrier.readListed d cs
      if cs.isEmpty then some ({ barriers := some (p, s) } : Reading) else none) =
      some { barriers := some (predecessor, successor) } := by
  have more := Text.closes_listed_append [successor.text d] Text.closes_nil
  rw [List.append_nil] at more
  have second := Barrier.readListed_text successor d Text.closes_nil
  rw [Text.listed_cons, Barrier.readListed_text predecessor d more]
  simp only [Option.bind_eq_bind, Option.bind_some, Text.listed_cons, Text.listed_nil, second,
    List.isEmpty_nil, if_true]

end Pattern

/-! ## Whole texts -/

/-- The three ways in which values fill a layout. -/
theorem Instance.filling_cases (i : Instance) :
    (∃ values, i.filling = .operands values ∧
      i.entry.shape.layout = .slots (values.map Operand.slot)) ∨
    (∃ kind ordering values, i.filling = .operands values ∧
      i.entry.shape.layout = .atomic kind ordering ∧
      values.map Operand.slot = List.replicate kind.registers .general) ∨
    (∃ predecessor successor, i.filling = .barriers predecessor successor ∧
      i.entry.shape.layout = .fence) := by
  have fits := i.fits
  cases layout : i.entry.shape.layout with
  | slots kinds =>
      cases filling : i.filling with
      | operands values =>
          rw [layout, filling] at fits
          exact Or.inl ⟨values, rfl, congrArg Layout.slots (Eq.symm fits)⟩
      | barriers predecessor successor =>
          rw [layout, filling] at fits
          exact absurd fits id
  | atomic kind ordering =>
      cases filling : i.filling with
      | operands values =>
          rw [layout, filling] at fits
          exact Or.inr (Or.inl ⟨kind, ordering, values, rfl, rfl, fits⟩)
      | barriers predecessor successor =>
          rw [layout, filling] at fits
          exact absurd fits id
  | fence =>
      cases filling : i.filling with
      | operands values =>
          rw [layout, filling] at fits
          exact absurd fits id
      | barriers predecessor successor =>
          exact Or.inr (Or.inr ⟨predecessor, successor, rfl, rfl⟩)

/-- Only operands in slots come with a rounding mode or a label. -/
theorem Entry.rounding_transfer_eq_none (e : Entry)
    (fixed : ∀ kinds, e.shape.layout ≠ .slots kinds) :
    e.shape.rounding = none ∧ e.shape.transfer = none := by
  have sound := e.sound
  unfold Shape.fault? at sound
  cases layout : e.shape.layout with
  | slots kinds => exact absurd layout (fixed kinds)
  | atomic kind ordering => simpa [layout] using sound
  | fence => simpa [layout] using sound

/-- The targets of a shape are labels exactly when it takes one. -/
theorem Shape.isSome_of_mem_targets (s : Shape) {target : Option Target} (h : target ∈ s.targets) :
    target.isSome = s.transfer.isSome := by
  unfold targets at h
  cases transfer : s.transfer with
  | none =>
      simp only [transfer, List.mem_singleton] at h
      rw [h]
      rfl
  | some x =>
      simp only [transfer, List.mem_map] at h
      obtain ⟨t, -, rfl⟩ := h
      rfl

namespace Instance

variable (i : Instance) (style : CallStyle)

/-- An atomic operation or a fence is written without a rounding mode and without a label. -/
theorem rounding_target_eq_none {target : Option Target}
    (labelled : target.isSome = i.entry.shape.transfer.isSome)
    (fixed : ∀ kinds, i.entry.shape.layout ≠ .slots kinds) :
    i.entry.shape.rounding = none ∧ target = none := by
  obtain ⟨rounding, transfer⟩ := i.entry.rounding_transfer_eq_none fixed
  rw [transfer, Option.isSome_none, Option.isSome_eq_false_iff, Option.isNone_iff_eq_none] at labelled
  exact ⟨rounding, labelled⟩

/-- The listed arguments of a call say what the form has to say. -/
theorem readCallItems_callArguments {target : Option Target}
    (labelled : target.isSome = i.entry.shape.transfer.isSome) :
    i.entry.shape.pattern.readCallItems style (Text.listed (i.callArguments style target)) =
      some (i.reading target) := by
  rcases i.filling_cases with ⟨values, filling, layout⟩ |
    ⟨kind, ordering, values, filling, layout, slots⟩ | ⟨predecessor, successor, filling, layout⟩
  · have items := Pattern.readCallItems_slots style values target i.entry.shape.rounding
    simpa only [Shape.pattern, layout, ← labelled, callArguments, filling, reading, operands,
      barriers?, Shape.ordering] using items
  · obtain ⟨rounding, none⟩ := i.rounding_target_eq_none labelled (by simp [layout])
    have items := Pattern.readCallItems_atomic style kind ordering slots
    simpa only [Shape.pattern, layout, callArguments, filling, reading, operands, barriers?,
      Shape.ordering, rounding, none, Option.map_none] using items
  · obtain ⟨rounding, none⟩ := i.rounding_target_eq_none labelled (by simp [layout])
    have items := Pattern.readBarriers_listed .call predecessor successor
    simpa only [Shape.pattern, layout, callArguments, filling, reading, operands, barriers?,
      Shape.ordering, rounding, none, Option.map_none, Pattern.readCallItems, Barrier.text] using items

/-- The name and the listed operands of an assembly line say what the form has to say. -/
theorem readAssemblyItems_assemblyOperands {target : Option Target}
    (labelled : target.isSome = i.entry.shape.transfer.isSome) :
    i.entry.shape.pattern.readAssemblyItems i.entry.assemblyName.toList
        (Text.listed (i.assemblyOperands target)) = some (i.reading target) := by
  rcases i.filling_cases with ⟨values, filling, layout⟩ |
    ⟨kind, ordering, values, filling, layout, slots⟩ | ⟨predecessor, successor, filling, layout⟩
  · have items := Pattern.readAssemblyItems_slots i.entry.assemblyName.toList values target
      i.entry.shape.rounding
    simpa only [Shape.pattern, layout, ← labelled, assemblyOperands, filling, reading, operands,
      barriers?, Shape.ordering] using items
  · obtain ⟨rounding, none⟩ := i.rounding_target_eq_none labelled (by simp [layout])
    have name : i.entry.assemblyName.toList =
        i.entry.mnemonic.assemblyName.toList ++ ("." ++ ordering.suffix).toList := by
      simp [Entry.assemblyName, Shape.ordering, layout]
    have items := Pattern.readAssemblyItems_atomic kind ordering
      i.entry.mnemonic.assemblyName.toList slots
    rw [name]
    simpa only [Shape.pattern, layout, assemblyOperands, filling, reading, operands, barriers?,
      Shape.ordering, rounding, none, Option.map_none] using items
  · obtain ⟨rounding, none⟩ := i.rounding_target_eq_none labelled (by simp [layout])
    have items := Pattern.readBarriers_listed .assembly predecessor successor
    simpa only [Shape.pattern, layout, assemblyOperands, filling, reading, operands, barriers?,
      Shape.ordering, rounding, none, Option.map_none, Pattern.readAssemblyItems, Barrier.text]
      using items

/-- No call has one argument that is written as nothing. -/
theorem callArguments_ne_blank (target : Option Target) : i.callArguments style target ≠ [""] := by
  intro blank
  -- every argument has characters of its own, behind whatever prefix it carries
  have mem : "" ∈ i.callArguments style target := by simp [blank]
  rcases i.filling_cases with ⟨values, filling, layout⟩ |
    ⟨kind, ordering, values, filling, layout, -⟩ | ⟨predecessor, successor, filling, layout⟩
  · simp only [callArguments, filling, layout, List.mem_append, List.mem_map] at mem
    rcases mem with (⟨o, -, empty⟩ | ⟨t, -, empty⟩) | ⟨r, -, empty⟩
    · exact o.render_ne_empty .call empty
    · cases t <;> simp [Target.callToken, forthLabel, backLabel] at empty
    · have length := r.mode.length_name
      simp [(String.append_eq_empty_iff.mp empty).2] at length
  · simp only [callArguments, filling, layout, List.mem_append, List.mem_map,
      List.mem_singleton] at mem
    rcases mem with ⟨o, -, empty⟩ | empty
    · exact o.render_ne_empty .call empty
    · have length := ordering.length_suffix
      simp [(String.append_eq_empty_iff.mp empty.symm).2] at length
  · simp [callArguments, filling] at blank

theorem assemblyOperands_ne_blank (target : Option Target) : i.assemblyOperands target ≠ [""] := by
  intro blank
  have mem : "" ∈ i.assemblyOperands target := by simp [blank]
  rcases i.filling_cases with ⟨values, filling, layout⟩ |
    ⟨kind, ordering, values, filling, layout, slots⟩ | ⟨predecessor, successor, filling, layout⟩
  · simp only [assemblyOperands, filling, layout, List.mem_append, List.mem_map] at mem
    rcases mem with (⟨o, -, empty⟩ | ⟨t, -, empty⟩) | ⟨r, -, empty⟩
    · exact o.render_ne_empty .assembly empty
    · cases t <;> simp [Target.assemblyToken, forthLabel, backLabel] at empty
    · have length := r.mode.length_name
      simp [empty] at length
  · -- the operands of an atomic operation are reordered, so they are looked at through their reader
    have read := AtomicKind.readAssembly_listed kind slots
    simp only [assemblyOperands, filling, layout] at blank
    have missed : kind.readAssembly (Text.listed [""]) = none := by cases kind <;> decide
    rw [blank, missed] at read
    exact absurd read (by simp)
  · simp [assemblyOperands, filling] at blank

/-- A call is read back. -/
theorem readCall_call {target : Option Target}
    (labelled : target.isSome = i.entry.shape.transfer.isSome) :
    i.entry.shape.pattern.readCall style (i.call style target) = some (i.reading target) := by
  have text : (i.call style target).toList =
      style.callPrefix.toList ++ (i.entry.callName.toList ++ '(' ::
        ((String.intercalate ", " (i.callArguments style target)).toList ++ ");".toList)) := by
    simp [call]
  have name : '(' ∉ i.entry.callName.toList := i.entry.not_mem_callName (by decide) (by decide)
  have bracket (rest : List Char) : Text.expect "(" ('(' :: rest) = some rest :=
    Text.expect_append "(" rest
  -- the name ends at the first bracket, because no name holds one
  simp only [Pattern.readCall, text, Text.expect_append, (Text.span_mark name _).2, bracket,
    Text.expectLast_append, Option.bind_eq_bind, Option.bind_some,
    Text.commaLed_intercalate (i.callArguments_ne_blank style target)]
  exact i.readCallItems_callArguments style labelled

/-- An assembly line is read back. -/
theorem readAssembly_assembly {target : Option Target}
    (labelled : target.isSome = i.entry.shape.transfer.isSome) :
    i.entry.shape.pattern.readAssembly (i.assembly target) = some (i.reading target) := by
  have name : '\t' ∉ i.entry.assemblyName.toList :=
    i.entry.not_mem_assemblyName (by decide) (by decide)
  have items := i.readAssemblyItems_assemblyOperands labelled
  unfold Pattern.readAssembly
  cases operands : i.assemblyOperands target with
  | nil =>
      -- without operands there is no tab, and the name is the whole line
      have text : i.assembly target = i.entry.assemblyName := by simp [assembly, operands]
      obtain ⟨taken, left⟩ := Text.span_no_mark name
      rw [operands] at items
      rw [text, taken, left]
      exact items
  | cons first more =>
      have text : (i.assembly target).toList = i.entry.assemblyName.toList ++
          '\t' :: (String.intercalate ", " (first :: more)).toList := by
        simp [assembly, operands]
      obtain ⟨taken, left⟩ := Text.span_mark name (String.intercalate ", " (first :: more)).toList
      have blank := i.assemblyOperands_ne_blank target
      rw [operands] at items blank
      rw [text, taken, left, List.drop_one, List.tail_cons, Text.commaLed_intercalate blank]
      exact items

/-- A form has a label exactly when its entry takes one. -/
theorem isSome_target_of_mem_forms {f : Form} (h : f ∈ i.forms style) :
    f.target.isSome = i.entry.shape.transfer.isSome := by
  obtain ⟨target, ht, rfl⟩ := List.mem_map.mp h
  exact i.entry.shape.isSome_of_mem_targets ht

/-- There is a form for every target of the entry. Call and assembly line of each are read back by
readers that know the pattern of the entry, and the reader of calls how calls are spelled. Both give
the operands of the instance in order, its fence sets, the label of the form, and the ordering and the
rounding mode of its entry. -/
theorem forms_read_alike :
    (i.forms style).map Form.target = i.entry.shape.targets ∧
      ∀ f ∈ i.forms style,
        i.entry.shape.pattern.readCall style f.call = some (i.reading f.target) ∧
          i.entry.shape.pattern.readAssembly f.assembly = some (i.reading f.target) := by
  constructor
  · simp [forms, form, Function.comp_def]
  · intro f h
    have labelled := i.isSome_target_of_mem_forms style h
    obtain ⟨target, -, rfl⟩ := List.mem_map.mp h
    exact ⟨i.readCall_call style labelled, i.readAssembly_assembly labelled⟩

/-- An atomic addition of `x5` to what `x4` points at. -/
def amoadd : Instance where
  entry := ⟨⟨"amoadd_w", by decide⟩, .atomic .memoryOperation .release, by decide⟩
  filling := .operands
    [.register ⟨.general, 3, by decide, by decide⟩, .register ⟨.general, 4, by decide, by decide⟩,
      .register ⟨.general, 5, by decide, by decide⟩]
  fits := by decide

/-- Control: the line names the address last, the call names it second, and the texts in front of the
call and of the ordering look like parts of a call themselves. -/
theorem amoadd_read_alike :
    (⟨none, "a(amoadd_w(x3, x4, x5, , aqrl);", "amoadd.w.rl\tx3, x5, (x4)"⟩ : Form) ∈
        amoadd.forms ⟨"a(", ", aq"⟩ ∧
      (Pattern.atomic .memoryOperation).readCall ⟨"a(", ", aq"⟩ "a(amoadd_w(x3, x4, x5, , aqrl);" =
        some (amoadd.reading none) ∧
      (Pattern.atomic .memoryOperation).readAssembly "amoadd.w.rl\tx3, x5, (x4)" =
        some (amoadd.reading none) := by
  have member : (⟨none, "a(amoadd_w(x3, x4, x5, , aqrl);", "amoadd.w.rl\tx3, x5, (x4)"⟩ : Form) ∈
      amoadd.forms ⟨"a(", ", aq"⟩ := by decide +kernel
  exact ⟨member, (forms_read_alike amoadd ⟨"a(", ", aq"⟩).2 _ member⟩

end Instance

end EncoderVectors
