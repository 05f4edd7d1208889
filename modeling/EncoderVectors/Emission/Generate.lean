import EncoderVectors.Emission.Basic
import EncoderVectors.Instance.Draw
import EncoderVectors.Instance.Render
import EncoderVectors.Random.ChaCha

/-!
# Generating an emission

The catalog is emitted group by group, entry by entry, and each entry as often as asked. An instance
is drawn once and written once for each of its forms. The stream runs on from one draw to the next,
so what is emitted depends on the catalog, the count and the stream alone.
-/

set_option autoImplicit false

namespace EncoderVectors

/-- The block of an instance: an instruction for each of its forms. -/
def Instance.block (i : Instance) (style : CallStyle) (family : Family) : Block :=
  (i.forms style).map fun f => ⟨family, i.entry.assemblyName, f.call, f.assembly, f.target⟩

/-- The entries of a group in order of drawing: each as often as asked, before the next. -/
def Group.schedule (g : Group) (count : Nat) : List Entry :=
  g.entries.flatMap (List.replicate count)

section

variable {σ : Type} [WordStream σ]

/-- Draws an instance of an entry and writes it. -/
def Entry.emit (style : CallStyle) (family : Family) (e : Entry) : StateM σ Block := do
  let i ← Instance.draw e
  return i.block style family

/-- Emits a group. -/
def Group.emit (style : CallStyle) (count : Nat) (g : Group) : StateM σ Section := do
  let blocks ← (g.schedule count).mapM (Entry.emit style g.family)
  return ⟨g.family, blocks⟩

/-- Emits every group of a catalog. -/
def Catalog.emit (style : CallStyle) (count : Nat) (c : Catalog) : StateM σ (List Section) :=
  c.groups.mapM (Group.emit style count)

end

/-- The source of all draws of a run: a seed, and how far its keystream has been used. -/
structure Generator where
  /-- The seed the generator was made from. -/
  seed : UInt64
  /-- The rest of its keystream. -/
  stream : ChaCha.Keystream
  deriving DecidableEq, Repr

namespace Generator

/-- A fresh generator. -/
def ofSeed (seed : UInt64) : Generator :=
  ⟨seed, .ofSeed seed⟩

/-- Draws one instance of an entry, and what is left of the generator. -/
def instantiate (g : Generator) (e : Entry) : Instance × Generator :=
  let (i, stream) := (Instance.draw e).run g.stream
  (i, { g with stream := stream })

/-- Emits a catalog, and what is left of the generator. -/
def emit (g : Generator) (style : CallStyle) (count : Nat) (c : Catalog) : Emission × Generator :=
  let (sections, stream) := (c.emit style count).run g.stream
  (⟨g.seed, sections⟩, { g with stream := stream })

end Generator

end EncoderVectors
