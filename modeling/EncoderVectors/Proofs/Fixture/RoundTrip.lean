import EncoderVectors.Fixture.Json
import EncoderVectors.Proofs.Json.Printing
import EncoderVectors.Proofs.Json.Tree
import EncoderVectors.Proofs.Word.Array

/-!
# Reading a fixture back

The text of a fixture is JSON text, of one value only, and the fixture can be read off that value: the
seed from its number, every vector from the members of its object, and the word of a vector from its
literal. Calls and assembly lines may hold any characters. So no two fixtures have one text.

Main result: `Fixture.toJson_roundTrip`.
-/

set_option autoImplicit false

namespace EncoderVectors

open Json (Value)

/-! ## Words and names -/

/-- The word of a literal: `0x` and eight digits. -/
def Word.ofLiteral? (text : String) : Option UInt32 :=
  match text.toList with
  | '0' :: 'x' :: digits =>
      if digits.length = 8 && digits.all (Text.isDigitIn 16) then
        some (UInt32.ofNat (Text.ofDigits 16 digits))
      else none
  | _ => none

theorem Word.ofLiteral?_literal (w : UInt32) : Word.ofLiteral? (Word.literal w) = some w := by
  have text : (Word.literal w).toList = '0' :: 'x' ::
      (List.replicate (8 - (Nat.toDigits 16 w.toNat).length) '0' ++ Nat.toDigits 16 w.toNat) := by
    simp [Word.literal, Text.paddedHexDigits]
  have short : (Nat.toDigits 16 w.toNat).length ≤ 8 :=
    (Nat.length_toDigits_le_iff (by decide) (by decide)).mpr w.toNat_lt
  have digits : ∀ c ∈ List.replicate (8 - (Nat.toDigits 16 w.toNat).length) '0' ++
      Nat.toDigits 16 w.toNat, Text.isDigitIn 16 c = true := by
    intro c hc
    rcases List.mem_append.mp hc with hc | hc
    · rw [List.eq_of_mem_replicate hc]
      decide
    · exact Text.isDigitIn_of_mem_toDigits (by decide) (by decide) _ c hc
  have length : (List.replicate (8 - (Nat.toDigits 16 w.toNat).length) '0' ++
      Nat.toDigits 16 w.toNat).length = 8 := by
    rw [List.length_append, List.length_replicate, Nat.sub_add_cancel short]
  simp [Word.ofLiteral?, text, List.all_eq_true.mpr digits, length, Word.ofDigits_zeros,
    Text.ofDigits_toDigits]

/-- The family of exactly that name. -/
def Family.named? (text : String) : Option Family :=
  Family.all.find? fun f => f.name == text

theorem Family.named?_name (f : Family) : Family.named? f.name = some f := by
  cases f <;> decide

/-- The target of exactly that name. -/
def Target.named? (text : String) : Option Target :=
  Target.all.find? fun t => t.name == text

theorem Target.named?_name (t : Target) : Target.named? t.name = some t := by
  cases t <;> decide

/-! ## Vectors -/

namespace TestVector

/-- The members of the object of a vector. -/
def members (v : TestVector) : List (Option String × Value) :=
  [(some "family", .text (some v.family.name)), (some "api", .text (some v.call)),
    (some "assembly", .text (some v.assembly)), (some "word", .text (some (Word.literal v.word)))] ++
    v.target.toList.map fun t => (some "target", .text (some t.name))

/-- The target of a vector, which may be missing. -/
def target? (v : Value) : Option (Option Target) :=
  match v.member? "target" with
  | none => some none
  | some w => (w.text?.bind Target.named?).map some

/-- The vector of an object. -/
def ofValue? (v : Value) : Option TestVector := do
  let family ← ((← v.member? "family").text?).bind Family.named?
  let call ← (← v.member? "api").text?
  let assembly ← (← v.member? "assembly").text?
  let word ← ((← v.member? "word").text?).bind Word.ofLiteral?
  let target ← target? v
  return ⟨family, call, assembly, word, target⟩

theorem writes_object (level : Nat) (v : TestVector) :
    Json.Writes (Json.object level v.jsonFields) (.object v.members) := by
  apply Json.writes_object
  rw [jsonFields, members]
  have target : List.Forall₂ (fun (f : String × String) (m : Option String × Value) =>
      m.1 = some f.1 ∧ Json.Writes f.2 m.2)
      (v.target.toList.map fun t => ("target", Json.quote t.name))
      (v.target.toList.map fun t => (some "target", .text (some t.name))) := by
    rw [List.forall₂_map_left_iff, List.forall₂_map_right_iff, List.forall₂_same]
    intro t _
    exact ⟨rfl, Json.writes_quote _⟩
  exact .cons ⟨rfl, Json.writes_quote _⟩ (.cons ⟨rfl, Json.writes_quote _⟩
    (.cons ⟨rfl, Json.writes_quote _⟩ (.cons ⟨rfl, Json.writes_quote _⟩ target)))

theorem ofValue?_members (v : TestVector) : ofValue? (.object v.members) = some v := by
  obtain ⟨family, call, assembly, word, target⟩ := v
  -- only the target may be missing, and it stands behind the members that are always there
  have read : target? (.object (members ⟨family, call, assembly, word, target⟩)) = some target := by
    cases target with
    | none => rfl
    | some t =>
        have named := Target.named?_name t
        simp [target?, Value.member?, members, List.lookup_cons, Value.text?, named]
  have word_read := Word.ofLiteral?_literal word
  have family_read := Family.named?_name family
  rw [ofValue?, read]
  simp [Value.member?, members, List.lookup_cons, Value.text?, word_read, family_read]

end TestVector

/-! ## Fixtures -/

namespace Fixture

/-- The value that a fixture is written as. -/
def toValue (f : Fixture) : Value :=
  .object [(some "seed", .number ⟨false, Nat.toDigits 10 f.seed.toNat, none, none⟩),
    (some "entries", .array (f.vectors.map fun v => .object v.members))]

/-- The fixture of a value. -/
def ofValue? (v : Value) : Option Fixture := do
  let seed ← (← v.member? "seed").natural?
  let vectors ← (← v.member? "entries").list? TestVector.ofValue?
  return ⟨UInt64.ofNat seed, vectors⟩

theorem writes_toJson (f : Fixture) : Json.Writes f.toJson f.toValue := by
  apply Json.writes_object
  have entries : Json.Writes (Json.array 1 (f.vectors.map fun v => Json.object 2 v.jsonFields))
      (.array (f.vectors.map fun v => .object v.members)) := by
    apply Json.writes_array
    rw [List.forall₂_map_left_iff, List.forall₂_map_right_iff, List.forall₂_same]
    intro v _
    exact v.writes_object 2
  exact .cons ⟨rfl, Json.writes_decimal _⟩ (.cons ⟨rfl, entries⟩ .nil)

theorem mapM_ofValue? (vectors : List TestVector) :
    (vectors.map fun v => Value.object v.members).mapM TestVector.ofValue? = some vectors := by
  induction vectors with
  | nil => rfl
  | cons v vectors ih =>
      rw [List.map_cons, List.mapM_cons, TestVector.ofValue?_members, ih]
      rfl

theorem ofValue?_toValue (f : Fixture) : ofValue? f.toValue = some f := by
  have seed : (Value.number ⟨false, Nat.toDigits 10 f.seed.toNat, none, none⟩).natural? =
      some f.seed.toNat :=
    Json.natural?_eq_some_iff.mpr ⟨_, rfl, Nat.ofDigitChars_ten_toDigits, f.seed.toNat_lt⟩
  have vectors := mapM_ofValue? f.vectors
  simp [ofValue?, toValue, Value.member?, List.lookup_cons, seed, Value.list?, vectors]

/-- The text of a fixture is JSON text, its value is the only one it has, and the fixture is what is
read off that value. No two fixtures have one text. -/
theorem toJson_roundTrip :
    (∀ f : Fixture, (∃ v, Json.IsText v f.toJson) ∧
      ∀ v, Json.IsText v f.toJson → Json.parse f.toJson = .ok v ∧ ofValue? v = some f) ∧
    Function.Injective toJson := by
  have read : ∀ (f : Fixture) (v : Value), Json.IsText v f.toJson → ofValue? v = some f := by
    intro f v text
    rw [text.unique f.writes_toJson.isText]
    exact ofValue?_toValue f
  refine ⟨fun f => ⟨⟨f.toValue, f.writes_toJson.isText⟩, fun v text => ?_⟩, fun f g same => ?_⟩
  · exact ⟨Json.parse_eq_ok text, read f v text⟩
  · have first := read f f.toValue f.writes_toJson.isText
    have second := read g f.toValue (same ▸ f.writes_toJson.isText)
    exact Option.some.inj (first.symm.trans second)

end Fixture

end EncoderVectors
