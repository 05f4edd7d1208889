import EncoderVectors.Catalog.Basic

/-!
# Label reach

All emitted instructions lie in one body between the `back` and the `forth` label, so the distance
from a control transfer to its label grows with the number of instances. A transfer too far from its
label would be turned by the assembler into two instructions, and words and calls would no longer
pair up. The check walks the layout without emitting anything: positions follow from the number of
forms of each entry alone.
-/

set_option autoImplicit false

namespace EncoderVectors

/-- The bytes of one instruction word. -/
def wordBytes : Nat := 4

/-- A form that lies too far from its label. -/
structure Misfit where
  /-- The assembler name of the form. -/
  mnemonic : String
  /-- The distance to its label, in bytes. -/
  offset : Int
  /-- The offsets it could hold. -/
  reach : Reach
  deriving DecidableEq, Repr

namespace Transfer

/-- The first offset out of reach among the forms for `targets`, the first of which is at `pc`. -/
def misfit? (x : Transfer) (stop : Int) : List Target → Int → Option Int
  | [], _ => none
  | t :: rest, pc =>
      if x.reach.contains (t.offset stop pc) then x.misfit? stop rest (pc + wordBytes)
      else some (t.offset stop pc)

/-- The first offset out of reach among `count` instances in a row, the first of which is at `pc`. -/
def misfitAmong? (x : Transfer) (stop : Int) : Nat → Int → Option Int
  | 0, _ => none
  | count + 1, pc =>
      (x.misfit? stop Target.all pc).orElse fun _ =>
        x.misfitAmong? stop count (pc + Target.all.length * wordBytes)

end Transfer

namespace Catalog

/-- The first form out of reach among `entries` with `count` instances each, the first at `pc`. -/
def misfitFrom? (count : Nat) (stop : Int) : List Entry → Int → Option Misfit
  | [], _ => none
  | e :: rest, pc =>
      let next := pc + (e.forms * count : Nat) * wordBytes
      match e.shape.transfer with
      | none => misfitFrom? count stop rest next
      | some x =>
          match x.misfitAmong? stop count pc with
          | some offset => some ⟨e.assemblyName, offset, x.reach⟩
          | none => misfitFrom? count stop rest next

/-- The first form out of reach with `count` instances of each entry. -/
def misfit? (c : Catalog) (count : Nat) : Option Misfit :=
  misfitFrom? count (c.words count * wordBytes : Nat) c.entries 0

/-- Bisects between a count that fits and one that does not, down to the last that fits. -/
def bisect (fits : Nat → Bool) (low high : Nat) : Nat :=
  if high - low > 1 then
    let middle := low + (high - low) / 2
    if fits middle then bisect fits middle high else bisect fits low middle
  else low
termination_by high - low

/-- The greatest count below `failing` whose forms all reach their labels. -/
def greatestFitting (c : Catalog) (failing : Nat) : Nat :=
  bisect (fun count => (c.misfit? count).isNone) 0 failing

/-- A catalog whose labels cannot all be reached. -/
structure OutOfReach where
  /-- The first form that lies too far from its label. -/
  misfit : Misfit
  /-- The greatest number of instances that would fit. -/
  limit : Nat
  deriving DecidableEq, Repr

/-- All labels are reached with `count` instances of each entry. -/
def checkReach (c : Catalog) (count : Nat) : Except OutOfReach Unit :=
  match c.misfit? count with
  | none => .ok ()
  | some misfit => .error ⟨misfit, c.greatestFitting count⟩

end Catalog

end EncoderVectors
