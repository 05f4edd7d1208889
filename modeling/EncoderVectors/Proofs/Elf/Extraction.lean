import EncoderVectors.Proofs.Elf.Layout
import EncoderVectors.Proofs.Host.Actions
import EncoderVectors.Proofs.Word.Repacking

/-!
# Taking the code out of an object file

The code of an object file is the content of its first section named `.text`. In an object file that
holds one section besides that of the names, this section is found exactly when it has that name:
nothing else in the file can be taken for the name, not even when a name is so long that its place in
the names does not fit its four bytes (`exists_name_of_names`).

Main results:

* `readCode_object`: from a laid out object the code is read back, or there is none;
* `isInfix_of_readCode`: whatever is read from an image is a piece of it;
* `Host.readCode_exact`: both for the file at a path, and the words that come back.
-/

set_option autoImplicit false

namespace EncoderVectors.Elf

section Object

variable {name : String} {code : List UInt8}

/-! ## Checks before the code is looked up -/

theorem checkPrograms_object (image : Image) :
    (headerOf name code).checkPrograms image = .ok () :=
  rfl

theorem readNames_object (h : Addressable (object name code)) :
    (headerOf name code).readNames (object name code) (sectionsOf name code) =
      .ok (some (namesOf name code)) := by
  have below : ¬ offsetLimit ≤ namesStart code + (objectNames name).length := by
    have limit := h.tableStart_lt
    have order := namesStop_le_tableStart name code
    unfold namesStop at order
    have size : offsetLimit = 2 ^ 64 := rfl
    omega
  have filled : ¬ (sectionsOf name code).isEmpty = true := Bool.false_ne_true
  have index : (headerOf name code).namesSection (object name code) = .ok 2 := rfl
  have third : (sectionsOf name code)[2]? = some ⟨(2 + (Text.utf8 name).length) % 2 ^ 32, .strings,
      namesStart code, (objectNames name).length, 0, 0⟩ := rfl
  have stored : ¬ SectionKind.strings = .noBits := by decide
  rw [Header.readNames, if_neg filled, index]
  simp only [bind, Except.bind, Nat.reduceEqDiff, if_false, third, if_neg stored, if_neg below]
  rfl

theorem checkSymbols_object (image : Image) {kind : SectionKind}
    (symbols : kind = .symbols ∨ kind = .dynamicSymbols) :
    checkSymbols .bits64 image (sectionsOf name code) kind = .ok () := by
  rcases symbols with rfl | rfl
  · rfl
  · rfl

theorem checkRelocations_object : checkRelocations (sectionsOf name code) = .ok () :=
  rfl

/-! ## Names of the sections -/

theorem name?_zero : (namesOf name code).name? (object name code) 0 = some [] :=
  name?_object code [] [] _ rfl List.not_mem_nil

/-- From its second byte on, the names hold the name of the code section. -/
theorem name?_succ (free : 0 ∉ Text.utf8 name) {skipped : Nat}
    (within : skipped ≤ (Text.utf8 name).length) :
    (namesOf name code).name? (object name code) (skipped + 1) =
      some ((Text.utf8 name).drop skipped) := by
  have split : objectNames name =
      (0 :: (Text.utf8 name).take skipped) ++
        ((Text.utf8 name).drop skipped ++ 0 :: (Text.utf8 ".shstrtab" ++ [0])) := by
    rw [List.cons_append, ← List.append_assoc, List.take_append_drop]
    simp only [objectNames, List.append_assoc, List.cons_append, List.nil_append]
  have found := name?_object code _ _ _ split fun zero => free (List.mem_of_mem_drop zero)
  rwa [List.length_cons, List.length_take, Nat.min_eq_left within] at found

variable (code) in
/-- The name of the names is never that of the code, not even if its place was cut to four bytes and
so lies in the name of the code section: what follows there is too long. -/
theorem exists_name_of_names (free : 0 ∉ Text.utf8 name) :
    ∃ other, (namesOf name code).name? (object name code)
      ((2 + (Text.utf8 name).length) % 2 ^ 32) = some other ∧ other ≠ Text.utf8 codeName := by
  have whole := Nat.div_add_mod (2 + (Text.utf8 name).length) (2 ^ 32)
  have below := Nat.mod_lt (2 + (Text.utf8 name).length) (Nat.two_pow_pos 32)
  generalize (2 + (Text.utf8 name).length) % 2 ^ 32 = place at whole below ⊢
  cases quotient : (2 + (Text.utf8 name).length) / 2 ^ 32 with
  | zero =>
      -- the place fits, and the name of the names stands there
      have split : objectNames name =
          (0 :: (Text.utf8 name ++ [0])) ++ (Text.utf8 ".shstrtab" ++ 0 :: []) := by
        simp only [objectNames, List.append_assoc, List.cons_append, List.nil_append]
      have found := name?_object code _ _ _ split (by decide)
      have length : (0 :: (Text.utf8 name ++ [0])).length = place := by
        rw [quotient] at whole
        simp only [List.length_cons, List.length_append, List.length_nil]
        omega
      rw [length] at found
      exact ⟨Text.utf8 ".shstrtab", found, by decide⟩
  | succ cut =>
      -- the place was cut, so it lies far before the end of the name of the code section
      rw [quotient] at whole
      cases place with
      | zero => exact ⟨[], name?_zero, by decide⟩
      | succ skipped =>
          refine ⟨_, name?_succ free (by omega), ?_⟩
          intro same
          have length := congrArg List.length same
          have five : (Text.utf8 codeName).length = 5 := by decide
          rw [List.length_drop, five] at length
          omega

variable (code) in
theorem findNamed?_object (free : 0 ∉ Text.utf8 name) :
    findNamed? (object name code) (some (namesOf name code)) (Text.utf8 codeName)
        (sectionsOf name code) =
      if name = codeName then some ⟨1, .other 1, 64, code.length, 0, 0⟩ else none := by
  have wanted {place : Nat} {found : List UInt8}
      (read : (namesOf name code).name? (object name code) place = some found) :
      (((some (namesOf name code)).bind fun t => t.name? (object name code) place) ==
        some (Text.utf8 codeName)) = true ↔ found = Text.utf8 codeName := by
    rw [Option.bind_some, read, beq_iff_eq, Option.some.injEq]
  have first := wanted name?_zero
  have second := wanted (name?_succ free (Nat.zero_le _))
  obtain ⟨other, read, differ⟩ := exists_name_of_names code free
  have third := wanted read
  have unnamed : [] ≠ Text.utf8 codeName := by decide
  -- the empty first section has no name, and the section of the names has another one
  rw [findNamed?, sectionsOf, List.find?_cons_of_neg]
  · split
    · next same =>
        rw [List.find?_cons_of_pos]
        exact second.mpr (congrArg Text.utf8 same)
    · next differs =>
        rw [List.find?_cons_of_neg, List.find?_cons_of_neg, List.find?_nil]
        · exact fun found => differ (third.mp found)
        · exact fun found => differs (Text.utf8_injective (second.mp found))
  · exact fun found => unnamed (first.mp found)

/-! ## The code -/

variable (name code) in
theorem slice?_object : slice? (object name code) 64 code.length = some code := by
  have found := slice?_append (objectHeader (tableStart name code)) code
    (objectNames name ++ (padding name code ++ objectTable name code))
  rwa [length_objectHeader, ← object_eq] at found

/-- The code of a laid out object is what was put into it, if it is named like code. -/
theorem readCode_object (free : '\x00' ∉ name.toList) (h : Addressable (object name code)) :
    readCode (object name code) = .ok (if name = codeName then some code else none) := by
  have width : (headerOf name code).format.width = .bits64 := rfl
  simp only [readCode, readHeader_object h, readSections_object h, readNames_object h, bind,
    Except.bind, checkPrograms_object, checkRelocations_object,
    findNamed?_object code (Text.zero_not_mem_utf8 free)]
  rw [width, checkSymbols_object _ (.inl rfl), checkSymbols_object _ (.inr rfl)]
  split_ifs
  · have content : SectionHeader.content? ⟨1, .other 1, 64, code.length, 0, 0⟩ (object name code) =
        some code := slice?_object name code
    dsimp only
    rw [content]
    rfl
  · rfl

end Object

/-! ## Any image -/

/-- Actions that may fail, one after the other. -/
theorem bind_eq_ok_iff {α β : Type} {x : Except Fault α} {f : α → Except Fault β} {b : β} :
    x >>= f = .ok b ↔ ∃ a, x = .ok a ∧ f a = .ok b := by
  cases x with
  | error fault =>
      constructor
      · intro ends
        cases ends
      · rintro ⟨a, ends, -⟩
        cases ends
  | ok a =>
      constructor
      · intro ends
        exact ⟨a, rfl, ends⟩
      · rintro ⟨a', ends, rest⟩
        cases ends
        exact rest

/-- Code that is read is the content of a section. -/
theorem exists_section_of_readCode {image code : List UInt8}
    (read : readCode image = .ok (some code)) :
    ∃ s : SectionHeader, s.content? image = some code := by
  simp only [readCode, bind_eq_ok_iff] at read
  obtain ⟨header, -, -, -, sections, -, names, -, -, -, -, -, -, -, found⟩ := read
  split at found
  · cases found
  · next s _ =>
      split at found
      · cases found
      · next content =>
          cases found
          exact ⟨s, content⟩

theorem isInfix_of_slice? {image part : List UInt8} {start size : Nat}
    (found : slice? image start size = some part) : part <:+: image := by
  unfold slice? at found
  split at found
  · cases found
    exact (List.take_prefix ..).isInfix.trans (List.drop_suffix ..).isInfix
  · cases found

/-- Whatever is read from an image stands in it, in one piece. -/
theorem isInfix_of_readCode {image code : List UInt8} (read : readCode image = .ok (some code)) :
    code <:+: image := by
  obtain ⟨s, content⟩ := exists_section_of_readCode read
  unfold SectionHeader.content? at content
  split at content
  · -- a section that is not stored has no content
    cases content
    exact List.nil_infix
  · exact isInfix_of_slice? content

end EncoderVectors.Elf

namespace EncoderVectors.Host

open Elf

section

variable {p : Path} {h h' : Host} {image code : List UInt8}

/-- Code is taken out of the file that stands at the path, and the host stays as it is. -/
theorem yields_readCode_iff :
    Yields (readCode p) h code h' ↔
      ∃ image, h.contentOf p = .ok image ∧ Elf.readCode image = .ok (some code) ∧ h' = h := by
  rw [readCode, yields_bind_iff]
  constructor
  · rintro ⟨image, middle, first, second⟩
    obtain ⟨file, rfl⟩ := yields_readFile_iff.mp first
    obtain ⟨found, middle, inside, last⟩ := yields_bind_iff.mp second
    obtain ⟨read, rfl⟩ := yields_liftFault_iff.mp inside
    cases found with
    | none => cases last
    | some found =>
        obtain ⟨rfl, rfl⟩ := yields_pure_iff.mp last
        exact ⟨image, file, read, rfl⟩
  · rintro ⟨image, file, read, rfl⟩
    refine ⟨image, _, yields_readFile_iff.mpr ⟨file, rfl⟩, ?_⟩
    rw [yields_bind_iff]
    exact ⟨some code, _, yields_liftFault_iff.mpr ⟨read, rfl⟩, yields_pure_iff.mpr ⟨rfl, rfl⟩⟩

theorem fails_readCode_of_none (file : h.contentOf p = .ok image)
    (read : Elf.readCode image = .ok none) : Fails (readCode p) h (.codeMissing p) h := by
  rw [readCode, fails_bind_iff]
  refine .inr ⟨image, h, yields_readFile_iff.mpr ⟨file, rfl⟩, ?_⟩
  rw [fails_bind_iff]
  exact .inr ⟨none, h, yields_liftFault_iff.mpr ⟨read, rfl⟩, rfl⟩

end

/-- Code is taken out of object files as it was put in. Wherever a laid out object stands, with a
section of any name and any code, the code is what is found there if the section is named like code;
otherwise the object is reported to have none. From every file, laid out or not, what is found is a
piece of the file. So the words that an object was laid out from come back.

Objects are `Addressable`: the eight bytes of an offset can tell every place in them. No memory holds
more bytes than that. -/
theorem readCode_exact :
    (∀ (name : String) (code : List UInt8) (p : Path) (h : Host), '\x00' ∉ name.toList →
      Addressable (object name code) → h.contentOf p = .ok (object name code) →
        (name = codeName → Yields (readCode p) h code h) ∧
        (name ≠ codeName → Fails (readCode p) h (.codeMissing p) h)) ∧
    (∀ (p : Path) (h h' : Host) (code : List UInt8), Yields (readCode p) h code h' →
      h' = h ∧ ∃ image, h.contentOf p = .ok image ∧ code <:+: image) ∧
    (∀ (words : List UInt32) (p : Path) (h : Host),
      Addressable (object codeName (Word.toCode words)) →
      h.contentOf p = .ok (object codeName (Word.toCode words)) →
        ∃ code, Yields (readCode p) h code h ∧ Word.ofCode code = .ok words) := by
  have taken {name : String} {code : List UInt8} {p : Path} {h : Host}
      (free : '\x00' ∉ name.toList) (short : Addressable (object name code))
      (file : h.contentOf p = .ok (object name code)) (same : name = codeName) :
      Yields (readCode p) h code h := by
    have read := readCode_object free short
    rw [if_pos same] at read
    exact yields_readCode_iff.mpr ⟨_, file, read, rfl⟩
  refine ⟨?_, ?_, ?_⟩
  · intro name code p h free short file
    refine ⟨taken free short file, ?_⟩
    intro differs
    have read := readCode_object free short
    rw [if_neg differs] at read
    exact fails_readCode_of_none file read
  · intro p h h' code ends
    obtain ⟨image, file, read, rfl⟩ := yields_readCode_iff.mp ends
    exact ⟨rfl, image, file, isInfix_of_readCode read⟩
  · intro words p h short file
    refine ⟨_, taken (by decide) short file rfl, ?_⟩
    exact Word.ofCode_eq_ok_iff_toCode.mpr rfl

/-- A host with two objects that hold the same bytes, only one of them as code. -/
def withObjects (code : List UInt8) : Host :=
  { disk := ⟨[(["code.o"], .file (object ".text" code)), (["data.o"], .file (object ".data" code))]⟩ }

/-- Control: the code of one object and none of the other, and a word that comes back. -/
theorem readCode_exact_objects :
    Yields (readCode ⟨"code.o"⟩) (withObjects [0x13, 0, 0, 0]) [0x13, 0, 0, 0]
        (withObjects [0x13, 0, 0, 0]) ∧
      Fails (readCode ⟨"data.o"⟩) (withObjects [0x13, 0, 0, 0]) (.codeMissing ⟨"data.o"⟩)
        (withObjects [0x13, 0, 0, 0]) ∧
      [0x13, 0, 0, 0] <:+: object ".text" [0x13, 0, 0, 0] ∧
      ∃ code, Yields (readCode ⟨"code.o"⟩) (withObjects (Word.toCode [0x13])) code
        (withObjects (Word.toCode [0x13])) ∧ Word.ofCode code = .ok [0x13] := by
  have short (name : String) (few : tableStart name [0x13, 0, 0, 0] + 3 * 64 < offsetLimit) :
      Addressable (object name [0x13, 0, 0, 0]) := by
    rwa [Addressable, length_object]
  obtain ⟨laid, found, words⟩ := readCode_exact
  have code := (laid ".text" [0x13, 0, 0, 0] ⟨"code.o"⟩ (withObjects [0x13, 0, 0, 0]) (by decide)
    (short _ (by decide)) rfl).1 rfl
  have data := (laid ".data" [0x13, 0, 0, 0] ⟨"data.o"⟩ (withObjects [0x13, 0, 0, 0]) (by decide)
    (short _ (by decide)) rfl).2 (by decide)
  refine ⟨code, data, ?_, words [0x13] ⟨"code.o"⟩ _ (short _ (by decide)) rfl⟩
  obtain ⟨-, image, file, inside⟩ := found _ _ _ _ code
  cases file
  exact inside

end EncoderVectors.Host
