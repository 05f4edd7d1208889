import Mathlib.Algebra.Ring.Nat
import EncoderVectors.Elf.Reader
import EncoderVectors.Elf.Writer
import EncoderVectors.Proofs.Text.Utf8

/-!
# How an object file is laid out

An object file that holds nothing but code has five parts: the file header, the code, the names of
sections, some zero bytes, and three section headers. Here each part is read where the file header, or
a section header, says that it stands.

Numbers are written in a fixed number of bytes, so they are read back modulo a power of 256
(`numberOf_bytesOf`). That matters for the place of a name, which has only four bytes.

Main results:

* `readHeader_object`, `readSections_object`: the headers are read as they were written;
* `name?_object`: a name is read from the names as they were written.
-/

set_option autoImplicit false

namespace EncoderVectors.Elf

/-! ## Numbers and slices -/

theorem numberOf_bytesOf (width n : Nat) : numberOf (bytesOf width n) = n % 256 ^ width := by
  induction width generalizing n with
  | zero => rw [bytesOf, numberOf, Nat.pow_zero, Nat.mod_one]
  | succ width ih =>
      have low : (UInt8.ofNat n).toNat = n % 256 := UInt8.toNat_ofNat'
      rw [bytesOf, numberOf, ih, low, Nat.pow_succ, Nat.mul_comm (256 ^ width), Nat.mod_mul]

section Read

variable {start size : Nat} {order : ByteOrder}

/-- A number is looked for behind what stands in front of it. -/
theorem read_append {before : List UInt8} (passed : before.length ≤ start) (rest : List UInt8) :
    Place.read ⟨start, size⟩ order (before ++ rest) =
      Place.read ⟨start - before.length, size⟩ order rest := by
  have gone : before.drop start = [] := List.drop_eq_nil_of_le passed
  simp only [Place.read, List.drop_append, gone, List.nil_append]

theorem read_bytesOf (width n : Nat) (rest : List UInt8) :
    Place.read ⟨0, width⟩ .little (bytesOf width n ++ rest) = n % 256 ^ width := by
  have bytes : ((bytesOf width n ++ rest).drop 0).take width = bytesOf width n := by
    rw [List.drop_zero, List.take_left' (length_bytesOf width n)]
  rw [Place.read, bytes, ByteOrder.number, numberOf_bytesOf]

end Read

/-- What stands between two other parts of an image is read back. -/
theorem slice?_append (before content after : List UInt8) :
    slice? (before ++ (content ++ after)) before.length content.length = some content := by
  rw [slice?, if_pos, List.drop_left, List.take_left]
  simp only [List.length_append]
  omega

/-! ## The parts -/

section Parts

variable (name : String) (code : List UInt8)

/-- Where the names start. -/
def namesStart : Nat :=
  64 + code.length

/-- Where the names end. -/
def namesStop : Nat :=
  namesStart code + (objectNames name).length

/-- Where the section headers start. -/
def tableStart : Nat :=
  roundUp8 (namesStop name code)

/-- The section headers. -/
def objectTable : List UInt8 :=
  List.replicate 64 0 ++ objectSection 1 1 6 64 code.length 4 ++
    objectSection (2 + (Text.utf8 name).length) 3 0 (namesStart code) (objectNames name).length 1

/-- The zero bytes before the section headers. -/
def padding : List UInt8 :=
  List.replicate (tableStart name code - namesStop name code) 0

theorem object_eq : object name code =
    objectHeader (tableStart name code) ++
      (code ++ (objectNames name ++ (padding name code ++ objectTable name code))) := by
  simp only [object, objectTable, padding, tableStart, namesStop, namesStart, List.append_assoc]

theorem length_objectHeader (start : Nat) : (objectHeader start).length = 64 := by
  simp only [objectHeader, objectIdent, List.length_append, length_bytesOf, List.length_cons,
    List.length_nil, List.length_replicate]

theorem length_objectSection (name kind flags start size alignment : Nat) :
    (objectSection name kind flags start size alignment).length = 64 := by
  simp only [objectSection, List.length_append, length_bytesOf]

theorem length_objectTable : (objectTable name code).length = 3 * 64 := by
  simp only [objectTable, List.length_append, List.length_replicate, length_objectSection]

theorem namesStop_le_tableStart : namesStop name code ≤ tableStart name code := by
  unfold tableStart roundUp8
  omega

/-- The parts before the section headers fill the file up to them. -/
theorem length_before_table :
    (objectHeader (tableStart name code) ++ (code ++ (objectNames name ++ padding name code))).length =
      tableStart name code := by
  have order := namesStop_le_tableStart name code
  simp only [List.length_append, length_objectHeader, padding, List.length_replicate]
  unfold namesStop namesStart at *
  omega

theorem length_object : (object name code).length = tableStart name code + 3 * 64 := by
  rw [← length_before_table, ← length_objectTable name code, ← List.length_append, object_eq]
  simp only [List.append_assoc]

end Parts

/-! ## Headers -/

/-- How the numbers of the object are stored. -/
def objectFormat : Format :=
  ⟨.bits64, .little⟩

section Headers

variable {name : String} {code : List UInt8}

/-- No place in the file is beyond what an offset can tell. -/
def Addressable (image : Image) : Prop :=
  image.length < offsetLimit

theorem Addressable.tableStart_lt (h : Addressable (object name code)) :
    tableStart name code < 2 ^ 64 := by
  have length := length_object name code
  unfold Addressable at h
  have limit : offsetLimit = 2 ^ 64 := rfl
  omega

/-- The header that is read from the object. -/
def headerOf (name : String) (code : List UInt8) : Header :=
  ⟨objectFormat, ⟨0, 0, 0⟩, ⟨tableStart name code, 64, 3⟩, 2⟩

theorem ofBytes_objectHeader (start : Nat) (rest : List UInt8) :
    Header.ofBytes objectFormat (objectHeader start ++ rest) =
      ⟨objectFormat, ⟨0, 0, 0⟩, ⟨start % 2 ^ 64, 64, 3⟩, 2⟩ := by
  have ident : objectIdent.length = 16 := rfl
  simp (disch := simp only [ident, length_bytesOf, Nat.reduceLeDiff, Nat.reduceSub]) only
    [Header.ofBytes, objectFormat, objectHeader, List.append_assoc, read_append, ident,
      length_bytesOf, Nat.reduceSub, read_bytesOf, Nat.reducePow, Nat.reduceMod]

theorem readHeader_object (h : Addressable (object name code)) :
    readHeader (object name code) = .ok (headerOf name code) := by
  have length := length_object name code
  have start : tableStart name code % 2 ^ 64 = tableStart name code :=
    Nat.mod_eq_of_lt h.tableStart_lt
  have width : width? (object name code) = some .bits64 := by
    rw [object_eq]
    rfl
  have order : order? (object name code) = some .little := by
    rw [object_eq]
    rfl
  have enough : ¬ (object name code).length < Width.bits64.headerSize := by
    simp only [Width.headerSize]
    omega
  rw [readHeader, if_neg (by simp only [identSize]; omega), width]
  dsimp only
  rw [if_neg enough, order]
  dsimp only
  rw [object_eq]
  refine congrArg Except.ok ((ofBytes_objectHeader _ _).trans ?_)
  rw [start, headerOf]

/-- The section headers that are read from the object. The place of the name of the names is the only
number that may not fit its bytes. -/
def sectionsOf (name : String) (code : List UInt8) : List SectionHeader :=
  [⟨0, .other 0, 0, 0, 0, 0⟩, ⟨1, .other 1, 64, code.length, 0, 0⟩,
    ⟨(2 + (Text.utf8 name).length) % 2 ^ 32, .strings, namesStart code, (objectNames name).length, 0, 0⟩]

theorem ofBytes_objectSection (name kind flags start size alignment : Nat) :
    SectionHeader.ofBytes objectFormat (objectSection name kind flags start size alignment) =
      ⟨name % 2 ^ 32, .ofCode (kind % 2 ^ 32), start % 2 ^ 64, size % 2 ^ 64, 0, 0⟩ := by
  simp (disch := simp only [length_bytesOf, Nat.reduceLeDiff, Nat.reduceSub]) only
    [SectionHeader.ofBytes, objectFormat, objectSection, List.append_assoc, read_append,
      length_bytesOf, Nat.reduceSub, read_bytesOf, Nat.reducePow, Nat.reduceMod]

/-- The first of some section headers is read, and then the others. -/
theorem sectionHeaders_append {first : List UInt8} (whole : first.length = 64) (count : Nat)
    (rest : List UInt8) :
    sectionHeaders objectFormat (count + 1) (first ++ rest) =
      .ofBytes objectFormat first :: sectionHeaders objectFormat count rest := by
  have size : objectFormat.width.sectionSize = first.length := whole.symm
  rw [sectionHeaders, size, List.take_left, List.drop_left]

theorem sectionHeaders_objectTable (h : Addressable (object name code)) :
    sectionHeaders objectFormat 3 (objectTable name code) = sectionsOf name code := by
  have below := h.tableStart_lt
  have order := namesStop_le_tableStart name code
  unfold namesStop namesStart at order
  have empty : SectionHeader.ofBytes objectFormat (List.replicate 64 0) =
      ⟨0, .other 0, 0, 0, 0, 0⟩ := rfl
  have codeSize : code.length % 2 ^ 64 = code.length := Nat.mod_eq_of_lt (by omega)
  have namesPlace : namesStart code % 2 ^ 64 = namesStart code := by
    unfold namesStart
    exact Nat.mod_eq_of_lt (by omega)
  have namesSize : (objectNames name).length % 2 ^ 64 = (objectNames name).length :=
    Nat.mod_eq_of_lt (by omega)
  rw [objectTable, List.append_assoc, sectionHeaders_append List.length_replicate,
    sectionHeaders_append (length_objectSection ..), ← List.append_nil (objectSection (2 + _) ..),
    sectionHeaders_append (length_objectSection ..), empty, ofBytes_objectSection,
    ofBytes_objectSection, sectionHeaders, sectionsOf, codeSize, namesPlace, namesSize]
  rfl

theorem readSections_object (h : Addressable (object name code)) :
    (headerOf name code).readSections (object name code) = .ok (sectionsOf name code) := by
  have placed : (headerOf name code).sections.start ≠ 0 := by
    have order := namesStop_le_tableStart name code
    unfold namesStop namesStart at order
    simp only [headerOf]
    omega
  have aligned : tableStart name code % 8 = 0 := Nat.mul_mod_left _ _
  have table : alignedSlice? (object name code) 8 (tableStart name code) (3 * 64) =
      some (objectTable name code) := by
    have found := slice?_append
      (objectHeader (tableStart name code) ++ (code ++ (objectNames name ++ padding name code)))
      (objectTable name code) []
    rw [length_before_table, length_objectTable] at found
    rw [alignedSlice?, if_pos aligned, object_eq]
    simpa only [List.append_assoc, List.append_nil] using found
  have count : (headerOf name code).sectionCount (object name code) = .ok 3 := rfl
  rw [Header.readSections, if_neg placed, count]
  simp only [bind, Except.bind, headerOf, objectFormat, Width.alignment, Width.sectionSize, table]
  exact congrArg Except.ok (sectionHeaders_objectTable h)

end Headers

/-! ## Names -/

/-- A name is what stands before a zero byte. -/
theorem NameTable.name?_append (front before text after back : List UInt8) (free : 0 ∉ text) :
    NameTable.name? ⟨front.length, front.length + (before ++ (text ++ 0 :: after)).length⟩
      (front ++ ((before ++ (text ++ 0 :: after)) ++ back)) before.length = some text := by
  have bytes : ((front ++ ((before ++ (text ++ 0 :: after)) ++ back)).drop
      (front.length + before.length)).take
        (front.length + (before ++ (text ++ 0 :: after)).length - (front.length + before.length)) =
      text ++ 0 :: after := by
    rw [← List.drop_drop, List.drop_left, List.append_assoc, List.drop_left, Nat.add_sub_add_left,
      List.length_append, Nat.add_sub_cancel_left, List.take_left]
  have marked : (text ++ 0 :: after).contains 0 = true := by simp
  have ends : (text ++ 0 :: after).takeWhile (· ≠ 0) = text := by
    rw [List.takeWhile_append_of_pos]
    · simp
    · intro b inside
      exact decide_eq_true fun zero => free (zero ▸ inside)
  rw [NameTable.name?, if_pos]
  · dsimp only
    rw [bytes, if_pos marked, ends]
  · simp only [List.length_append, List.length_cons]
    omega

section Names

variable {name : String}

/-- Where the names of the object are. -/
def namesOf (name : String) (code : List UInt8) : NameTable :=
  ⟨namesStart code, namesStop name code⟩

/-- A text in the names that a zero byte follows is the name at its place. -/
theorem name?_object (code before text after : List UInt8)
    (split : objectNames name = before ++ (text ++ 0 :: after)) (free : 0 ∉ text) :
    (namesOf name code).name? (object name code) before.length = some text := by
  have front : (objectHeader (tableStart name code) ++ code).length = namesStart code := by
    rw [List.length_append, length_objectHeader, namesStart]
  have found := NameTable.name?_append (objectHeader (tableStart name code) ++ code) before text after
    (padding name code ++ objectTable name code) free
  rw [front, ← split, List.append_assoc] at found
  rw [object_eq]
  exact found

end Names

end EncoderVectors.Elf
