import EncoderVectors.Instance.Draw
import EncoderVectors.Proofs.Notation.Operand
import EncoderVectors.Proofs.Random.Rejection

/-!
# Drawn instances are legal

An instance is drawn without a check: the numbers go from the stream straight into registers,
addresses, constants and barrier sets. Here the numbers are kept apart from the values made of them.
`Filling.Drawn` says which numbers a layout draws, from the ranges declared for each kind of value and
with no limit on refused words; `Filling.Unchecked.check` puts such numbers through the constructors
that refuse what is out of range.

Main results:

* `Filling.Drawn.legal`: whatever is drawn passes every check, and is what `Filling.draw` yields;
* `Operand.exists_drawnAll`: every list of operands is drawn for its slots from some words;
* `Instance.draw_legal_onto`: drawing an entry yields exactly the instances that are accepted for it.
-/

set_option autoImplicit false

namespace EncoderVectors

/-! ## Declared ranges -/

/-- The indices a class of registers is drawn from. -/
def RegisterClass.indices (c : RegisterClass) : Extent :=
  ⟨c.least, 31⟩

/-- The displacements an address is drawn from. -/
def Address.offsets : Extent :=
  ⟨-2048, 2047⟩

/-- The values a role is drawn from. -/
def ImmediateRole.values (role : ImmediateRole) : Extent :=
  ⟨0, role.bound - 1⟩

/-- The numbers a barrier set is drawn under. -/
def Barrier.numbers : Extent :=
  ⟨0, Barrier.choices.length - 1⟩

theorem RegisterClass.count_indices (c : RegisterClass) : c.indices.count = c.size := by
  cases c <;> rfl

theorem ImmediateRole.count_values (role : ImmediateRole) : role.values.count = role.bound := by
  cases role <;> rfl

/-! ## Operands before they are checked -/

theorem toNat?_cast (n : Nat) : (n : Int).toNat? = some n := rfl

/-- The numbers of an operand, in range or not. -/
inductive Operand.Unchecked where
  /-- The index of a register. -/
  | register (cls : RegisterClass) (index : Int)
  /-- The index of a base register and a displacement. -/
  | address (base offset : Int)
  /-- The value of a constant. -/
  | immediate (role : ImmediateRole) (value : Int)
  deriving DecidableEq, Repr

namespace Operand

/-- The numbers of an operand. -/
def parts : Operand → Unchecked
  | .register r => .register r.cls r.index
  | .address a => .address a.base a.offset
  | .immediate i => .immediate i.role i.value

namespace Unchecked

/-- The slot the numbers are for. -/
def slot : Unchecked → Slot
  | .register cls _ => .register cls
  | .address _ _ => .address
  | .immediate role _ => .immediate role

/-- The operand with these numbers, if its constructor takes them. -/
def check : Unchecked → Option Operand
  | .register cls index => (index.toNat?.bind (Register.ofIndex? cls)).map .register
  | .address base offset => (base.toNat?.bind (Address.ofParts? · offset)).map .address
  | .immediate role value => (value.toNat?.bind (Immediate.ofValue? role)).map .immediate

/-- Every number lies in the range declared for it. -/
def InRange : Unchecked → Prop
  | .register cls index => index ∈ cls.indices
  | .address base offset => base ∈ RegisterClass.general.indices ∧ offset ∈ Address.offsets
  | .immediate role value => value ∈ role.values

/-- Numbers in range are those of an operand. -/
theorem InRange.exists_parts {u : Unchecked} (h : u.InRange) : ∃ o : Operand, u = o.parts := by
  cases u with
  | register cls index =>
      obtain ⟨low, high⟩ := h
      simp only [RegisterClass.indices] at low high
      exact ⟨.register ⟨cls, index.toNat, by omega, by omega⟩, by simp [parts]; omega⟩
  | address base offset =>
      obtain ⟨⟨low, high⟩, ⟨bottom, top⟩⟩ := h
      simp only [RegisterClass.indices, RegisterClass.least, Address.offsets] at low high bottom top
      exact ⟨.address ⟨base.toNat, offset, by omega, by omega, by omega, by omega⟩,
        by simp [parts]; omega⟩
  | immediate role value =>
      obtain ⟨low, high⟩ := h
      simp only [ImmediateRole.values] at low high
      exact ⟨.immediate ⟨role, value.toNat, by omega⟩, by simp [parts]; omega⟩

end Unchecked

/-- The constructors take the numbers of an operand and give it back. -/
theorem check_parts (o : Operand) : o.parts.check = some o := by
  cases o with
  | register r =>
      rw [parts, Unchecked.check, toNat?_cast, Option.bind_some, r.ofIndex?_index]
      rfl
  | address a =>
      rw [parts, Unchecked.check, toNat?_cast, Option.bind_some, a.ofParts?_parts]
      rfl
  | immediate i =>
      have taken : Immediate.ofValue? i.role i.value = some i := dif_pos i.value_lt
      rw [parts, Unchecked.check, toNat?_cast, Option.bind_some, taken]
      rfl

/-- The numbers of an operand are in range. -/
theorem inRange_parts (o : Operand) : o.parts.InRange := by
  cases o with
  | register r =>
      obtain ⟨cls, index, low, high⟩ := r
      exact ⟨Int.ofNat_le.mpr low, by simp only [RegisterClass.indices]; omega⟩
  | address a =>
      obtain ⟨base, offset, low, high, bottom, top⟩ := a
      refine ⟨⟨Int.ofNat_le.mpr low, ?_⟩, bottom, ?_⟩
      · simp only [RegisterClass.indices]
        omega
      · simp only [Address.offsets]
        omega
  | immediate i =>
      obtain ⟨role, value, below⟩ := i
      refine ⟨Int.natCast_nonneg value, ?_⟩
      simp only [ImmediateRole.values]
      omega

/-- An operand is known by its numbers. -/
theorem parts_injective : Function.Injective parts := by
  intro a b same
  have taken := a.check_parts
  rw [same, b.check_parts] at taken
  exact (Option.some.inj taken).symm

theorem slot_parts (o : Operand) : o.parts.slot = o.slot := by
  cases o <;> rfl

/-! ## Drawing operands -/

section Drawn

variable {σ : Type} [WordStream σ]

/-- The numbers are drawn for the slot, each within so many looks. -/
inductive Drawn (looks : Nat) : Slot → σ → Unchecked → σ → Prop where
  /-- A register draws its index. -/
  | register {cls : RegisterClass} {s s' : σ} {index : Int}
      (drawn : Draws .modulus cls.indices looks s index s') :
      Drawn looks (.register cls) s (.register cls index) s'
  /-- An address draws its base and then its displacement. -/
  | address {s s' s'' : σ} {base offset : Int}
      (first : Draws .modulus RegisterClass.general.indices looks s base s')
      (second : Draws .modulus Address.offsets looks s' offset s'') :
      Drawn looks .address s (.address base offset) s''
  /-- A constant draws its value. -/
  | immediate {role : ImmediateRole} {s s' : σ} {value : Int}
      (drawn : Draws .shifted role.values looks s value s') :
      Drawn looks (.immediate role) s (.immediate role value) s'

/-- What is drawn for a slot is in range. -/
theorem Drawn.inRange {looks : Nat} {slot : Slot} {s s' : σ} {u : Unchecked}
    (h : Drawn looks slot s u s') : u.InRange := by
  cases h with
  | register drawn =>
      apply drawn.mem
      rw [RegisterClass.count_indices]
      exact RegisterClass.size_pos _
  | address first second => exact ⟨first.mem (by decide), second.mem (by decide)⟩
  | immediate drawn =>
      apply drawn.mem
      rw [ImmediateRole.count_values]
      exact ImmediateRole.bound_pos _

theorem Drawn.slot_eq {looks : Nat} {slot : Slot} {s s' : σ} {u : Unchecked}
    (h : Drawn looks slot s u s') : u.slot = slot := by
  cases h <;> rfl

/-- The draw of a slot yields what is drawn for it, if patience lasts. -/
theorem Drawn.draw {looks : Nat} {slot : Slot} {s s' : σ} {u : Unchecked}
    (h : Drawn looks slot s u s') (enough : looks ≤ drawPatience) :
    ∃ o : Operand, u = o.parts ∧ (Operand.draw slot).run s = (o, s') := by
  cases h with
  | @register cls _ _ _ drawn =>
      obtain ⟨k, rfl, run⟩ := drawn.drawBelow cls.size_pos cls.count_indices enough
      refine ⟨.register (Register.nth cls k), rfl, ?_⟩
      rw [Operand.draw, Register.draw, bind_assoc, run_bind_of_run run]
      rfl
  | address first second =>
      obtain ⟨i, rfl, runs⟩ := first.drawBelow (by decide : 0 < 31) rfl enough
      obtain ⟨j, rfl, run⟩ := second.drawBelow (by decide : 0 < 4096) rfl enough
      refine ⟨.address (Address.nth i j), rfl, ?_⟩
      rw [Operand.draw, Address.draw, bind_assoc, run_bind_of_run runs, bind_assoc,
        run_bind_of_run run]
      rfl
  | @immediate role _ _ _ drawn =>
      obtain ⟨k, rfl, run⟩ := drawn.drawBelow role.bound_pos role.count_values enough
      refine ⟨.immediate ⟨role, k.val, k.isLt⟩, by simp [parts, ImmediateRole.values], ?_⟩
      rw [Operand.draw, Immediate.draw, bind_assoc, run_bind_of_run run]
      rfl

/-- What is drawn for a slot are the numbers of an operand that fills it, and the slot's own draw
yields this operand if patience lasts. -/
theorem Drawn.exists_operand {looks : Nat} {slot : Slot} {s s' : σ} {u : Unchecked}
    (h : Drawn looks slot s u s') :
    ∃ o : Operand, u = o.parts ∧ o.slot = slot ∧
      (looks ≤ drawPatience → (Operand.draw slot).run s = (o, s')) := by
  obtain ⟨o, rfl⟩ := h.inRange.exists_parts
  refine ⟨o, rfl, ?_, ?_⟩
  · rw [← o.slot_parts, h.slot_eq]
  · intro enough
    obtain ⟨o', same, run⟩ := h.draw enough
    rw [run, parts_injective same]

/-- The numbers of a list of operands are drawn for a list of slots, in order. -/
inductive DrawnAll (looks : Nat) : List Slot → σ → List Unchecked → σ → Prop where
  /-- No slots draw nothing. -/
  | nil {s : σ} : DrawnAll looks [] s [] s
  /-- The first slot draws before the others. -/
  | cons {slot : Slot} {slots : List Slot} {s s' s'' : σ} {u : Unchecked} {us : List Unchecked}
      (first : Drawn looks slot s u s') (others : DrawnAll looks slots s' us s'') :
      DrawnAll looks (slot :: slots) s (u :: us) s''

/-- What is drawn for slots are the numbers of operands that fill them, and the draw of the slots
yields these operands if patience lasts. -/
theorem DrawnAll.exists_operands {looks : Nat} {slots : List Slot} {s s' : σ}
    {us : List Unchecked} (h : DrawnAll looks slots s us s') :
    ∃ os : List Operand, us = os.map parts ∧ os.map slot = slots ∧
      (looks ≤ drawPatience → (slots.mapM Operand.draw).run s = (os, s')) := by
  induction h with
  | nil => exact ⟨[], rfl, rfl, fun _ => rfl⟩
  | cons first _ ih =>
      obtain ⟨o, rfl, rfl, run⟩ := first.exists_operand
      obtain ⟨os, rfl, rfl, runs⟩ := ih
      refine ⟨o :: os, rfl, rfl, ?_⟩
      intro enough
      rw [List.mapM_cons, run_bind_of_run (run enough), run_bind_of_run (runs enough)]
      rfl

end Drawn

/-- The constructors give a list of operands back from its numbers. -/
theorem mapM_check_parts (os : List Operand) :
    (os.map parts).mapM Unchecked.check = some os := by
  induction os with
  | nil => rfl
  | cons o os ih =>
      rw [List.map_cons, List.mapM_cons, check_parts, ih]
      rfl

/-- Every operand is drawn for its slot from some words, with the first raw word for each number. -/
theorem exists_drawn (o : Operand) (rest : Stream' UInt32) :
    ∃ s : Stream' UInt32, Drawn 1 o.slot s o.parts rest := by
  have legal := o.inRange_parts
  cases o with
  | register r =>
      have small : 2 * r.cls.indices.count ≤ DrawMethod.modulus.size := by
        cases r.cls <;> decide
      obtain ⟨s, drawn⟩ := Draws.exists_one _ legal small rest
      exact ⟨s, .register drawn⟩
  | address a =>
      -- the displacement is drawn last, so its words come first in the construction
      obtain ⟨s, second⟩ := Draws.exists_one .modulus legal.2 (by decide) rest
      obtain ⟨s, first⟩ := Draws.exists_one .modulus legal.1 (by decide) s
      exact ⟨s, .address first second⟩
  | immediate i =>
      have small : 2 * i.role.values.count ≤ DrawMethod.shifted.size := by
        cases i.role <;> decide
      obtain ⟨s, drawn⟩ := Draws.exists_one _ legal small rest
      exact ⟨s, .immediate drawn⟩

/-- Every list of operands is drawn for its slots from some words. -/
theorem exists_drawnAll (os : List Operand) (rest : Stream' UInt32) :
    ∃ s : Stream' UInt32, DrawnAll 1 (os.map slot) s (os.map parts) rest := by
  induction os with
  | nil => exact ⟨rest, .nil⟩
  | cons o os ih =>
      obtain ⟨s, others⟩ := ih
      obtain ⟨s, first⟩ := o.exists_drawn s
      exact ⟨s, .cons first others⟩

end Operand

/-! ## Barrier sets -/

/-- The set drawn under a number, if it is the number of a choice. -/
def Barrier.nth? (number : Int) : Option Barrier :=
  number.toNat?.bind (choices[·]?)

/-- A number in range is the number of a choice, and the draw of a set yields this choice if patience
lasts. -/
theorem Barrier.exists_choice {σ : Type} [WordStream σ] {looks : Nat} {s s' : σ} {number : Int}
    (h : Draws .wide numbers looks s number s') :
    ∃ b : Barrier, nth? number = some b ∧ b ∈ choices ∧
      (looks ≤ drawPatience → Barrier.draw.run s = (b, s')) := by
  obtain ⟨k, below, rfl⟩ := Extent.mem_iff_exists_lt.mp (h.mem (by decide))
  refine ⟨nth ⟨k, below⟩, ?_, List.get_mem _ _, ?_⟩
  · rw [numbers, Int.zero_add, nth?, toNat?_cast, Option.bind_some]
    exact List.getElem?_eq_getElem below
  · intro enough
    obtain ⟨i, same, run⟩ := h.drawBelow (by decide : 0 < 7) rfl enough
    have value : k = i.val := Int.ofNat_inj.mp (Int.add_left_cancel same)
    have number : i = ⟨k, below⟩ := Fin.ext value.symm
    rw [Barrier.draw, run_bind_of_run run, number]
    rfl

/-! ## Instances -/

/-- The numbers of a filling, in range or not. -/
inductive Filling.Unchecked where
  /-- The numbers of operands in layout order. -/
  | operands (values : List Operand.Unchecked)
  /-- The numbers of two barrier sets. -/
  | barriers (predecessor successor : Int)
  deriving DecidableEq, Repr

namespace Filling

/-- The filling with these numbers, if every constructor takes its own. -/
def Unchecked.check : Unchecked → Option Filling
  | .operands values => (values.mapM Operand.Unchecked.check).map .operands
  | .barriers predecessor successor => do
      let p ← Barrier.nth? predecessor
      let q ← Barrier.nth? successor
      return .barriers p q

/-- Every number lies in the range declared for it. -/
def Unchecked.InRange : Unchecked → Prop
  | .operands values => ∀ u ∈ values, u.InRange
  | .barriers predecessor successor =>
      predecessor ∈ Barrier.numbers ∧ successor ∈ Barrier.numbers

/-- The numbers are drawn for the layout, each within so many looks. -/
inductive Drawn {σ : Type} [WordStream σ] (looks : Nat) : Layout → σ → Unchecked → σ → Prop where
  /-- Slots draw their operands in order. -/
  | slots {kinds : List Slot} {s s' : σ} {values : List Operand.Unchecked}
      (drawn : Operand.DrawnAll looks kinds s values s') :
      Drawn looks (.slots kinds) s (.operands values) s'
  /-- An atomic operation draws its registers. -/
  | atomic {kind : AtomicKind} {ordering : AtomicOrdering} {s s' : σ}
      {values : List Operand.Unchecked}
      (drawn : Operand.DrawnAll looks (List.replicate kind.registers .general) s values s') :
      Drawn looks (.atomic kind ordering) s (.operands values) s'
  /-- A fence draws its predecessor and then its successor. -/
  | fence {s s' s'' : σ} {predecessor successor : Int}
      (first : Draws .wide Barrier.numbers looks s predecessor s')
      (second : Draws .wide Barrier.numbers looks s' successor s'') :
      Drawn looks .fence s (.barriers predecessor successor) s''

/-- The values are of the kinds the layout asks for, and barrier sets are among the choices. -/
def Legal (layout : Layout) : Filling → Prop
  | .operands values => layout ≠ .fence ∧ values.map Operand.slot = layout.operandSlots
  | .barriers predecessor successor =>
      layout = .fence ∧ predecessor ∈ Barrier.choices ∧ successor ∈ Barrier.choices

theorem Legal.accepts {layout : Layout} {f : Filling} (h : f.Legal layout) : layout.Accepts f := by
  cases f with
  | operands values =>
      obtain ⟨operands, kinds⟩ := h
      cases layout with
      | slots | atomic => exact kinds
      | fence => exact absurd rfl operands
  | barriers predecessor successor =>
      obtain ⟨rfl, _⟩ := h
      trivial

theorem accepts_operands_iff (layout : Layout) (values : List Operand) :
    layout.Accepts (.operands values) ↔ (Filling.operands values).Legal layout := by
  cases layout <;> simp [Layout.Accepts, Legal, Layout.operandSlots]

theorem inRange_map_parts (os : List Operand) :
    (Unchecked.operands (os.map Operand.parts)).InRange := by
  intro u listed
  obtain ⟨o, _, rfl⟩ := List.mem_map.mp listed
  exact o.inRange_parts

theorem check_map_parts (os : List Operand) :
    (Unchecked.operands (os.map Operand.parts)).check = some (.operands os) := by
  rw [Unchecked.check, Operand.mapM_check_parts]
  rfl

/-- Whatever a layout draws is in range and passes every check, what is made of it is legal, and the
layout's own draw yields it if patience lasts. -/
theorem Drawn.legal {σ : Type} [WordStream σ] {looks : Nat} {layout : Layout} {s s' : σ}
    {u : Unchecked} (h : Drawn looks layout s u s') :
    u.InRange ∧ ∃ f : Filling, u.check = some f ∧ f.Legal layout ∧
      (looks ≤ drawPatience → (Filling.draw layout).run s = (f, s')) := by
  cases h with
  | slots drawn | atomic drawn =>
      obtain ⟨os, rfl, kinds, run⟩ := drawn.exists_operands
      refine ⟨inRange_map_parts os, .operands os, check_map_parts os, ⟨by simp, kinds⟩, ?_⟩
      intro enough
      rw [Filling.draw, run_bind_of_run (run enough)]
      rfl
  | fence first second =>
      obtain ⟨p, isP, chosenP, runP⟩ := Barrier.exists_choice first
      obtain ⟨q, isQ, chosenQ, runQ⟩ := Barrier.exists_choice second
      refine ⟨⟨first.mem (by decide), second.mem (by decide)⟩, .barriers p q, ?_,
        ⟨rfl, chosenP, chosenQ⟩, ?_⟩
      · simp [Unchecked.check, isP, isQ]
      · intro enough
        rw [Filling.draw, run_bind_of_run (runP enough), run_bind_of_run (runQ enough)]
        rfl

end Filling

namespace Instance

theorem ofFilling_of_accepts {e : Entry} {f : Filling} (h : e.shape.layout.Accepts f) :
    ofFilling e f = .ok ⟨e, f, h⟩ :=
  dif_pos h

theorem accepts_of_ofFilling {e : Entry} {f : Filling} {i : Instance} (h : ofFilling e f = .ok i) :
    ∃ fits : e.shape.layout.Accepts f, i = ⟨e, f, fits⟩ := by
  unfold ofFilling at h
  split at h
  · next fits => exact ⟨fits, (Except.ok.inj h).symm⟩
  · split at h <;> cases h

theorem run_draw_eq {σ : Type} [WordStream σ] (e : Entry) (s : σ) :
    (draw e).run s =
      (⟨e, ((Filling.draw e.shape.layout).run s).1, e.shape.layout.accepts_draw s⟩,
        ((Filling.draw e.shape.layout).run s).2) := rfl

theorem run_draw_of_run {σ : Type} [WordStream σ] {e : Entry} {f : Filling} {s s' : σ}
    (run : (Filling.draw e.shape.layout).run s = (f, s')) (fits : e.shape.layout.Accepts f) :
    (draw e).run s = (⟨e, f, fits⟩, s') := by
  simp only [run_draw_eq, run]

/-- The values that a layout draws are legal whatever the stream yields, also when patience runs
out. -/
theorem legal_draw {σ : Type} [WordStream σ] (layout : Layout) (s : σ) :
    ((Filling.draw layout).run s).1.Legal layout := by
  cases layout with
  | slots kinds => exact ⟨by simp, Operand.slots_drawAll kinds s⟩
  | atomic kind ordering => exact ⟨by simp, Operand.slots_drawAll _ s⟩
  | fence => exact ⟨rfl, List.get_mem _ _, List.get_mem _ _⟩

/-- Every list of operands that an entry accepts is drawn for it from some words. -/
theorem exists_drawn_operands {layout : Layout} {values : List Operand}
    (fits : layout.Accepts (.operands values)) :
    ∃ s s' : Stream' UInt32,
      Filling.Drawn 1 layout s (.operands (values.map Operand.parts)) s' := by
  obtain ⟨s, drawn⟩ := Operand.exists_drawnAll values (Stream'.const 0)
  cases layout with
  | slots kinds =>
      have kinds : values.map Operand.slot = kinds := fits
      subst kinds
      exact ⟨s, _, .slots drawn⟩
  | atomic kind ordering =>
      have kinds : values.map Operand.slot = List.replicate kind.registers .general := fits
      rw [kinds] at drawn
      exact ⟨s, _, .atomic drawn⟩
  | fence => exact fits.elim

/-- Drawing an entry yields exactly the instances that are accepted for it. Whatever numbers are
drawn, with however many words refused, lie in the ranges declared for them and pass the constructors;
the instance accepted for them is the drawn one, and it is legal. Operands are accepted exactly when
they are of the kinds of a layout other than a fence, and all that are accepted can be drawn. -/
theorem draw_legal_onto (e : Entry) :
    (∀ (σ : Type) [WordStream σ] (looks : Nat) (s s' : σ) (u : Filling.Unchecked),
      Filling.Drawn looks e.shape.layout s u s' →
        u.InRange ∧ ∃ i : Instance, u.check = some i.filling ∧ ofFilling e i.filling = .ok i ∧
          i.filling.Legal e.shape.layout ∧
          (looks ≤ drawPatience → (draw e).run s = (i, s'))) ∧
    (∀ (σ : Type) [WordStream σ] (s : σ),
      ofFilling e ((draw e).run s).1.filling = .ok ((draw e).run s).1 ∧
        ((draw e).run s).1.filling.Legal e.shape.layout) ∧
    (∀ values : List Operand,
      (∃ i, ofFilling e (.operands values) = .ok i) ↔
        e.shape.layout ≠ .fence ∧ values.map Operand.slot = e.shape.layout.operandSlots) ∧
    (∀ (values : List Operand) (i : Instance), ofFilling e (.operands values) = .ok i →
      ∃ s s' : Stream' UInt32,
        Filling.Drawn 1 e.shape.layout s (.operands (values.map Operand.parts)) s' ∧
          (draw e).run s = (i, s')) := by
  refine ⟨?_, ?_, ?_, ?_⟩
  · intro σ _ looks s s' u drawn
    obtain ⟨inRange, f, checked, legal, run⟩ := drawn.legal
    refine ⟨inRange, ⟨e, f, legal.accepts⟩, checked, ofFilling_of_accepts _, legal, ?_⟩
    intro enough
    exact run_draw_of_run (run enough) legal.accepts
  · intro σ _ s
    exact ⟨ofFilling_of_accepts _, legal_draw _ s⟩
  · intro values
    constructor
    · rintro ⟨i, accepted⟩
      obtain ⟨fits, rfl⟩ := accepts_of_ofFilling accepted
      exact (Filling.accepts_operands_iff _ _).mp fits
    · intro kinds
      exact ⟨_, ofFilling_of_accepts ((Filling.accepts_operands_iff _ _).mpr kinds)⟩
  · intro values i accepted
    obtain ⟨fits, rfl⟩ := accepts_of_ofFilling accepted
    obtain ⟨s, s', drawn⟩ := exists_drawn_operands fits
    obtain ⟨_, f, checked, _, run⟩ := drawn.legal
    -- the numbers of operands are checked back to the operands
    rw [Filling.check_map_parts] at checked
    obtain rfl := Option.some.inj checked
    exact ⟨s, s', drawn, run_draw_of_run (run (by decide)) fits⟩

/-- A load of a floating-point register. -/
def floatLoad : Entry :=
  ⟨⟨"flw", by decide⟩, .ofSlots [.float, .address], by decide⟩

/-- The last register, the first base and the least displacement. -/
def extremeOperands : List Operand :=
  [.register ⟨.float, 31, by decide, by decide⟩,
   .address ⟨1, -2048, by decide, by decide, by decide, by decide⟩]

/-- The ends of the ranges are accepted and drawn, and pass the constructors. -/
theorem draw_legal_onto_extremes :
    ∃ (i : Instance) (s s' : Stream' UInt32), i.filling = .operands extremeOperands ∧
      ofFilling floatLoad i.filling = .ok i ∧
      Filling.Drawn 1 floatLoad.shape.layout s
        (.operands [.register .float 31, .address 1 (-2048)]) s' ∧
      (draw floatLoad).run s = (i, s') := by
  obtain ⟨legal, _, accepted, drawn⟩ := draw_legal_onto floatLoad
  obtain ⟨i, isOk⟩ := (accepted extremeOperands).mpr ⟨by decide, rfl⟩
  obtain ⟨s, s', numbers, run⟩ := drawn extremeOperands i isOk
  obtain ⟨_, j, checked, ok, _, same⟩ := legal _ 1 s s' _ numbers
  have eq : i = j := congrArg Prod.fst (run.symm.trans (same (by decide)))
  subst eq
  have filling : some (Filling.operands extremeOperands) = some i.filling :=
    (Filling.check_map_parts extremeOperands).symm.trans checked
  exact ⟨i, s, s', (Option.some.inj filling).symm, ok, numbers, run⟩

end Instance

end EncoderVectors
