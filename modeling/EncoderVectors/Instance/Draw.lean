import EncoderVectors.Instance.Basic
import EncoderVectors.Operand.Draw

/-!
# Drawing instances

An instance draws each of its operands once, in layout order; a fence draws its predecessor and then
its successor. What is drawn fits the layout whatever the stream yields, even where patience runs out
(`drawPatience`). Which instances are drawn by a sampler without that limit is `Filling.Drawn`, in
`EncoderVectors.Proofs.Instance.Drawn`, and for a whole run `Generator.DrawnAll`.
-/

set_option autoImplicit false

namespace EncoderVectors

variable {σ : Type} [WordStream σ]

/-- A drawn operand fills the slot it was drawn for. -/
theorem Operand.slot_draw (slot : Slot) (s : σ) : ((Operand.draw slot).run s).1.slot = slot := by
  cases slot <;> rfl

/-- Operands drawn for a list of slots fill these slots in order. -/
theorem Operand.slots_drawAll (slots : List Slot) (s : σ) :
    ((slots.mapM Operand.draw).run s).1.map Operand.slot = slots := by
  induction slots generalizing s with
  | nil => rfl
  | cons slot rest ih =>
      rw [List.mapM_cons]
      exact congr (congrArg List.cons (Operand.slot_draw slot s)) (ih _)

/-- Draws the values of a layout. -/
def Filling.draw (layout : Layout) : StateM σ Filling :=
  match layout with
  | .fence => return .barriers (← Barrier.draw) (← Barrier.draw)
  | .slots kinds => return .operands (← kinds.mapM Operand.draw)
  | .atomic kind _ =>
      return .operands (← (List.replicate kind.registers Slot.general).mapM Operand.draw)

/-- Drawn values fit the layout they were drawn for. -/
theorem Layout.accepts_draw (layout : Layout) (s : σ) :
    layout.Accepts ((Filling.draw layout).run s).1 := by
  cases layout with
  | slots kinds => exact Operand.slots_drawAll kinds s
  | atomic kind _ => exact Operand.slots_drawAll _ s
  | fence => trivial

/-- Draws one instance of an entry. -/
def Instance.draw (e : Entry) : StateM σ Instance := fun s =>
  let drawn := (Filling.draw e.shape.layout).run s
  (⟨e, drawn.1, e.shape.layout.accepts_draw s⟩, drawn.2)

end EncoderVectors
