import EncoderVectors.Emission.Generate

/-!
# Records

An emission as it is written down while a run goes on. There is one list of instructions, and beside it
two lists of positions in it: where each section stands, and where the forms of each instance that has
more than one. The positions are read off the length of the list before and after the instructions are
added, so they are right only as long as nothing else is added in between.
-/

set_option autoImplicit false

namespace EncoderVectors

/-- What of a list stands in a span; there is nothing to be had if the span runs backwards or past the
end. -/
def Span.slice? {α : Type} (s : Span) (l : List α) : Option (List α) :=
  if s.start ≤ s.stop ∧ s.stop ≤ l.length then some ((l.take s.stop).drop s.start) else none

/-- What a run has written down. -/
structure Record where
  /-- The seed that reproduces the run. -/
  seed : UInt64
  /-- All instructions in order. -/
  instructions : List Instruction := []
  /-- The family and the positions of each section. -/
  sections : List (Family × Span) := []
  /-- The positions of the forms of each instance that has more than one. -/
  expansions : List Span := []
  deriving DecidableEq, Repr

namespace Record

/-- Writes down the forms of an instance, and if there is more than one, where they stand. -/
def write (r : Record) (style : CallStyle) (family : Family) (i : Instance) : Record :=
  let forms := i.forms style
  let first := r.instructions.length
  let instructions := r.instructions ++
    forms.map fun f => ⟨family, i.entry.assemblyName, f.call, f.assembly, f.target⟩
  let expansions :=
    if 1 < forms.length then r.expansions ++ [⟨first, instructions.length⟩] else r.expansions
  { r with instructions := instructions, expansions := expansions }

/-- Writes down a section that began at `start` and ends where the instructions end. -/
def close (r : Record) (family : Family) (start : Nat) : Record :=
  { r with sections := r.sections ++ [(family, ⟨start, r.instructions.length⟩)] }

/-- The instructions of a section, looked up by its positions; none if there are no such positions. -/
def sectionInstructions (r : Record) (s : Family × Span) : List Instruction :=
  (s.2.slice? r.instructions).getD []

end Record

/-- The record of an emission whose sections are known. -/
def Emission.record (e : Emission) : Record :=
  ⟨e.seed, e.instructions, e.sectionSpans, e.expansions⟩

namespace Generator

/-- Draws an instance of an entry and writes it down, as often as asked. -/
def recordEntry (style : CallStyle) (family : Family) (e : Entry) :
    Nat → Record × Generator → Record × Generator
  | 0, state => state
  | count + 1, (r, g) =>
      let (i, g) := g.instantiate e
      recordEntry style family e count (r.write style family i, g)

/-- Goes through the entries of a group, and then writes its section down. -/
def recordGroup (style : CallStyle) (count : Nat) (state : Record × Generator) (group : Group) :
    Record × Generator :=
  let start := state.1.instructions.length
  let (r, g) := group.entries.foldl
    (fun state e => recordEntry style group.family e count state) state
  (r.close group.family start, g)

/-- Goes through the groups of a catalog; yields the record, and what is left of the generator. -/
def record (g : Generator) (style : CallStyle) (count : Nat) (c : Catalog) : Record × Generator :=
  c.groups.foldl (recordGroup style count) ({ seed := g.seed }, g)

end Generator

end EncoderVectors
