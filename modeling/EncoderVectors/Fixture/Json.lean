import EncoderVectors.Fixture.Basic
import EncoderVectors.Json.Layout
import EncoderVectors.Word.Text

/-!
# Fixtures as JSON

The text form of a fixture: its seed as a number and its vectors as an array of objects. A vector
without a target has no `target` field.
-/

set_option autoImplicit false

namespace EncoderVectors

/-- The fields of a vector, in order. -/
def TestVector.jsonFields (v : TestVector) : List (String × String) :=
  [("family", Json.quote v.family.name), ("api", Json.quote v.call),
    ("assembly", Json.quote v.assembly), ("word", Json.quote (Word.literal v.word))] ++
    v.target.toList.map fun t => ("target", Json.quote t.name)

/-- The text form of a fixture. -/
def Fixture.toJson (f : Fixture) : String :=
  Json.object 0
    [("seed", Text.decimal f.seed.toNat),
      ("entries", Json.array 1 (f.vectors.map fun v => Json.object 2 v.jsonFields))]

end EncoderVectors
