import EncoderVectors.Emission.Listing
import EncoderVectors.Proofs.Emission.Source
import EncoderVectors.Proofs.Word.Array
import Mathlib.Data.List.Forall2

/-!
# Reading a listing back

A listing is read by its lines. Blank lines part it into paragraphs: the banner with the seed, the
labels, one paragraph for each section, and the label after the body, at which the sections end. The
words stand in the rows of the last array; a disassembly that is quoted before it may hold arrays of
its own. A line of a section is cut at its last mark, because the text in front of a call may hold
marks too.

All of this needs the text itself and nothing else, not even the text in front of calls. What is read
is what was emitted, whatever is quoted and whatever the words are (`Listing.read_listing`).
-/

set_option autoImplicit false

namespace EncoderVectors

/-! ## Cutting a line -/

namespace Text

/-- What stands before and after the last place of a mark. -/
def cutLast (mark : List Char) : List Char → Option (List Char × List Char)
  | [] => none
  | c :: cs =>
      match cutLast mark cs with
      | some (front, back) => some (c :: front, back)
      | none => ((c :: cs).dropPrefix? mark).map fun back => ([], back)

/-- The characters without the spaces at their end. -/
def dropSpaces (cs : List Char) : List Char :=
  (cs.reverse.dropWhile (· == ' ')).reverse

/-- The mark between a call and its assembly. -/
def pairMark : List Char := [' ', '/', '/', '\t']

/-- The call and the assembly on a line: the line is cut at its last mark, and the call stands behind
four spaces and before any number of them. -/
def readPair (line : String) : Option (String × String) := do
  let (front, assembly) ← cutLast pairMark line.toList
  let call ← expect "    " front
  return (String.ofList (dropSpaces call), String.ofList assembly)

theorem cutLast_eq_none {mark cs : List Char} {c : Char} (inside : c ∈ mark) (absent : c ∉ cs) :
    cutLast mark cs = none := by
  induction cs with
  | nil => rfl
  | cons d cs ih =>
      have later : cutLast mark cs = none := ih fun mem => absent (List.mem_cons_of_mem d mem)
      -- a mark that opened the text would bring its character along
      have here : (d :: cs).dropPrefix? mark = none := by
        rw [Option.eq_none_iff_forall_ne_some]
        intro back found
        obtain ⟨front, split, same⟩ := List.dropPrefix?_eq_some_iff.mp found
        rw [eq_of_beq same] at split
        exact absent (split ▸ List.mem_append_left back inside)
      rw [cutLast, later, here]
      rfl

/-- A place that is found stays the last one behind any text. -/
theorem cutLast_append {mark cs a b : List Char} (front : List Char)
    (found : cutLast mark cs = some (a, b)) : cutLast mark (front ++ cs) = some (front ++ a, b) := by
  induction front with
  | nil => exact found
  | cons c front ih => rw [List.cons_append, cutLast, ih]; rfl

/-- No mark is found where its first character does not stand. -/
theorem cutLast_cons_eq_none {m c : Char} {mark cs : List Char} (other : c ≠ m)
    (later : cutLast (m :: mark) cs = none) : cutLast (m :: mark) (c :: cs) = none := by
  have here : (c :: cs).dropPrefix? (m :: mark) = none := by simp [List.dropPrefix?, other]
  rw [cutLast, later, here]
  rfl

/-- Before a text without slashes, the mark between call and assembly is the last one. -/
theorem cutLast_pairMark {back : List Char} (absent : '/' ∉ back) :
    cutLast pairMark (pairMark ++ back) = some ([], back) := by
  -- the mark opens with a space, and none of its other characters is one
  have later : cutLast pairMark ('/' :: '/' :: '\t' :: back) = none := by
    have after : cutLast pairMark back = none := cutLast_eq_none (by decide) absent
    apply cutLast_cons_eq_none (by decide)
    apply cutLast_cons_eq_none (by decide)
    exact cutLast_cons_eq_none (by decide) after
  have here : (pairMark ++ back).dropPrefix? pairMark = some back :=
    List.dropPrefix?_append_of_beq back (beq_self_eq_true _)
  have text : pairMark ++ back = ' ' :: '/' :: '/' :: '\t' :: back := rfl
  rw [text] at here ⊢
  rw [cutLast, later, here]
  rfl

theorem dropSpaces_padded (front : List Char) {c : Char} (solid : c ≠ ' ') (n : Nat) :
    dropSpaces (front ++ [c] ++ List.replicate n ' ') = front ++ [c] := by
  have spaces : ∀ d ∈ List.replicate n ' ', (d == ' ') = true := by
    intro d mem
    rw [List.eq_of_mem_replicate mem]
    rfl
  have backwards : (front ++ [c] ++ List.replicate n ' ').reverse =
      List.replicate n ' ' ++ c :: front.reverse := by
    simp
  rw [dropSpaces, backwards, List.dropWhile_append_of_pos spaces,
    List.dropWhile_cons_of_neg (by simpa using solid)]
  simp

end Text

open Text

/-- A line that pairs a call with assembly is read back, however long the call is. -/
theorem Instruction.readPair_pairedLine {ins : Instruction} (whole : '/' ∉ ins.assembly.toList)
    {front : List Char} (ends : ins.call.toList = front ++ [';']) :
    readPair ins.pairedLine = some (ins.call, ins.assembly) := by
  have text : ins.pairedLine.toList =
      ("    ".toList ++ (ins.call.toList ++ List.replicate (callColumn - ins.call.length) ' ')) ++
        (pairMark ++ ins.assembly.toList) := by
    simp [pairedLine, padRight, pairMark]
  -- the assembly holds no slash, so marks in the call do not matter
  have cut := cutLast_append
    ("    ".toList ++ (ins.call.toList ++ List.replicate (callColumn - ins.call.length) ' '))
    (cutLast_pairMark whole)
  -- and the call ends in no space, so all spaces that are dropped are padding
  have call : dropSpaces (ins.call.toList ++ List.replicate (callColumn - ins.call.length) ' ') =
      ins.call.toList := by
    rw [ends]
    exact dropSpaces_padded front (by decide) _
  rw [List.append_nil, ← text] at cut
  simp only [readPair, cut, expect_append, call, Option.bind_eq_bind, Option.bind_some,
    String.ofList_toList]
  rfl

/-! ## Reading a listing -/

/-- What a listing says. -/
structure Listing where
  /-- The seed of the emission. -/
  seed : UInt64
  /-- The name of the family of each section, with the lines of the section. -/
  sections : List (String × List String)
  /-- The words of the array, row by row. -/
  rows : List (List UInt32)
  deriving DecidableEq, Repr

namespace Listing

/-- What the listing of an emission with words has to say. -/
def ofEmission (e : Emission) (words : List UInt32) : Listing where
  seed := e.seed
  sections := e.sections.map fun s => (s.family.name, s.instructions.map Instruction.pairedLine)
  rows := Word.fours words

/-- The lines that pair a call with assembly, in order. -/
def pairLines (l : Listing) : List String :=
  l.sections.flatMap Prod.snd

/-- The seed in the second line of a listing. -/
def readSeed (line : String) : Option UInt64 := do
  let digits ← expect "// Generated by asmtest (seed " line.toList
  let (n, rest) ← readNumeral 10 digits
  if rest = [')'] ∧ n < UInt64.size then some (UInt64.ofNat n) else none

/-- The sections among paragraphs: those that a title opens, up to the first that has none. -/
def readSections : List (List String) → List (String × List String)
  | (title :: lines) :: rest =>
      match expect "// " title.toList with
      | some name => (String.ofList name, lines) :: readSections rest
      | none => []
  | _ => []

/-- The line that announces an array of words. -/
def arrayHeader : String := "  static const unsigned int insns[] ="

/-- The line that ends an array of words. -/
def arrayEnd : String := "  \x7d;"

/-- The rows of the last array: the lines after its opening brace, up to the closing one. -/
def readRows (lines : List String) : Option (List (List UInt32)) :=
  let array := (lines.splitOn arrayHeader).getLastD []
  ((array.drop 1).takeWhile (· ≠ arrayEnd)).mapM fun row => Word.readInitializers row.toList

/-- Reads a listing. -/
def read (text : String) : Option Listing := do
  let lines := Text.lines text
  let seed ← readSeed (← lines[1]?)
  let rows ← readRows lines
  return ⟨seed, readSections ((lines.splitOn "").drop 2), rows⟩

/-! ## The seed and the sections -/

theorem readSeed_line (seed : UInt64) :
    readSeed ("// Generated by asmtest (seed " ++ decimal seed.toNat ++ ")") = some seed := by
  have text : ("// Generated by asmtest (seed " ++ decimal seed.toNat ++ ")").toList =
      "// Generated by asmtest (seed ".toList ++ ((decimal seed.toNat).toList ++ [')']) := by
    simp
  have number := readNumeral_decimal seed.toNat (closes_cons (c := ')') [] (by decide))
  simp only [readSeed, text, expect_append, number, Option.bind_eq_bind, Option.bind_some, true_and,
    if_pos seed.toNat_lt, UInt64.ofNat_toNat]

/-- The paragraph of a section. -/
def paragraph (s : Section) : List String :=
  ("// " ++ s.family.name) :: s.instructions.map Instruction.pairedLine

/-- The paragraphs of sections are read as sections, up to one that a line with an indentation
opens. -/
theorem readSections_paragraphs (sections : List Section) (text : String) (lines : List String)
    (rest : List (List String)) :
    readSections (sections.map paragraph ++ (("    " ++ text) :: lines) :: rest) =
      sections.map fun s => (s.family.name, s.instructions.map Instruction.pairedLine) := by
  induction sections with
  | nil =>
      have untitled : expect "// " ("    " ++ text).toList = none := by
        simp [expect, List.dropPrefix?]
      simp only [List.map_nil, List.nil_append, readSections, untitled]
  | cons s sections ih =>
      have titled : expect "// " ("// " ++ s.family.name).toList = some s.family.name.toList := by
        rw [String.toList_append]
        exact expect_append "// " s.family.name.toList
      simp only [List.map_cons, List.cons_append, paragraph, readSections, titled,
        String.ofList_toList]
      exact congrArg _ ih

/-- Paragraphs between blank lines are what a text is parted into, whatever follows them. -/
theorem splitOn_blank (first : List String) (paragraphs : List (List String)) (rest : List String)
    (whole : ∀ p ∈ first :: paragraphs, "" ∉ p) :
    (first ++ paragraphs.flatMap (fun p => "" :: p) ++ "" :: rest).splitOn "" =
      first :: paragraphs ++ rest.splitOn "" := by
  induction paragraphs generalizing first with
  | nil =>
      rw [List.flatMap_nil, List.append_nil, List.splitOn_append_cons_self,
        List.splitOn_eq_singleton (whole first (by simp))]
  | cons p paragraphs ih =>
      rw [List.forall_mem_cons] at whole
      have later : first ++ (p :: paragraphs).flatMap (fun p => "" :: p) ++ "" :: rest =
          first ++ "" :: (p ++ paragraphs.flatMap (fun p => "" :: p) ++ "" :: rest) := by
        simp
      rw [later, List.splitOn_append_cons_self, List.splitOn_eq_singleton whole.1, ih p whole.2]
      rfl

/-- A line that is not blank opens the first paragraph of what it stands in front of. -/
theorem exists_splitOn_cons {line : String} (solid : line ≠ "") (rest : List String) :
    ∃ more paragraphs, (line :: rest).splitOn "" = (line :: more) :: paragraphs := by
  obtain ⟨more, paragraphs, split⟩ := List.exists_cons_of_ne_nil (List.splitOn_ne_nil "" rest)
  refine ⟨more, paragraphs, ?_⟩
  rw [List.splitOn] at split ⊢
  rw [List.splitOnP_cons_eq_if_modifyHead, if_neg (by simpa using solid), split, List.modifyHead_cons]

/-! ## The rows of the array -/

/-- The lines of an array of words. -/
def arrayLines (words : List UInt32) : List String :=
  [arrayHeader, "  \x7b"] ++ (Word.fours words).map Word.arrayLine ++ [arrayEnd]

theorem toList_arrayLine (row : List UInt32) :
    (Word.arrayLine row).toList = ' ' :: ' ' :: ' ' :: ' ' :: (Word.lineText row).toList := by
  simp [Word.arrayLine, Word.lineText]

theorem readInitializers_arrayLine (row : List UInt32) :
    Word.readInitializers (Word.arrayLine row).toList = some row := by
  have line := Word.readInitializers_lineText row []
  rw [List.append_nil, Word.readInitializers_nil, Option.map_some, List.append_nil] at line
  have space : Word.isLayout ' ' = true := by decide
  rw [toList_arrayLine, Word.readInitializers_layout space, Word.readInitializers_layout space,
    Word.readInitializers_layout space, Word.readInitializers_layout space, line]

/-- A row is indented by four spaces, which tells it from the other lines of an array. -/
theorem arrayLine_ne {row : List UInt32} {line : String} (other : line.toList[2]? ≠ some ' ') :
    Word.arrayLine row ≠ line := by
  rintro rfl
  exact other (by simp [toList_arrayLine])

theorem newline_not_mem_arrayLine (row : List UInt32) : '\n' ∉ (Word.arrayLine row).toList := by
  have line : '\n' ∉ (Word.lineText row).toList :=
    Word.not_mem_lineText (by decide) (by decide) (by decide) (by decide) row
  simp [toList_arrayLine, line]

theorem mapM_arrayLine (rows : List (List UInt32)) :
    (rows.map Word.arrayLine).mapM (fun row => Word.readInitializers row.toList) = some rows := by
  have row : (fun line : String => Word.readInitializers line.toList) ∘ Word.arrayLine = pure :=
    funext readInitializers_arrayLine
  rw [List.mapM_map, row]
  exact (List.mapM_pure (f := id)).trans (congrArg some (List.map_id rows))

/-- The rows are read from the last array, whatever stands before it. -/
theorem readRows_arrayLines (before : List String) (words : List UInt32) (last : String)
    (other : last ≠ arrayHeader) :
    readRows (before ++ arrayLines words ++ [last]) = some (Word.fours words) := by
  let body := (Word.fours words).map Word.arrayLine
  have rows : ∀ line ∈ body, line ≠ arrayHeader ∧ line ≠ arrayEnd := by
    intro line mem
    obtain ⟨row, -, rfl⟩ := List.mem_map.mp mem
    exact ⟨arrayLine_ne (by decide), arrayLine_ne (by decide)⟩
  have text : before ++ arrayLines words ++ [last] =
      before ++ arrayHeader :: ("  \x7b" :: (body ++ [arrayEnd, last])) := by
    simp [arrayLines, body]
  -- no line after the header is one, so the array that is found is this one
  have absent : arrayHeader ∉ "  \x7b" :: (body ++ [arrayEnd, last]) := by
    simp only [List.mem_cons, List.mem_append, List.not_mem_nil, or_false, not_or]
    exact ⟨by decide, fun mem => (rows _ mem).1 rfl, by decide, other.symm⟩
  have array : ((before ++ arrayLines words ++ [last]).splitOn arrayHeader).getLastD [] =
      "  \x7b" :: (body ++ [arrayEnd, last]) := by
    rw [text, List.splitOn_append_cons_self, List.splitOn_eq_singleton absent]
    simp
  have inside : (body ++ [arrayEnd, last]).takeWhile (· ≠ arrayEnd) = body := by
    rw [List.takeWhile_append_of_pos fun line mem => by simpa using (rows line mem).2]
    simp
  rw [readRows, array, List.drop_succ_cons, List.drop_zero, inside]
  exact mapM_arrayLine (Word.fours words)

end Listing

/-! ## Emissions that can be read -/

/-- Calls stand on one line each and end in a semicolon, and assembly is written with the characters
of assembly lines. -/
structure Emission.Legible (e : Emission) : Prop where
  /-- No call holds a line feed. -/
  calls : ∀ ins ∈ e.instructions, '\n' ∉ ins.call.toList
  /-- Every call ends in a semicolon. -/
  ends : ∀ ins ∈ e.instructions, ∃ front, ins.call.toList = front ++ [';']
  /-- Assembly is plain. -/
  spelled : e.Spelled

/-- Emissions are legible where the texts in front of calls and of enumerated arguments hold no line
feed. -/
theorem Generator.legible_emit (g : Generator) {style : CallStyle} (whole : style.OneLine)
    (count : Nat) (c : Catalog) : (g.emit style count c).1.Legible := by
  have calls : ∀ ins ∈ (g.emit style count c).1.instructions,
      ∃ i : Instance, ins.call = i.call style ins.target := by
    intro ins mem
    obtain ⟨i, traced⟩ := exists_trace_of_mem_instructions mem
    obtain ⟨-, -, text, -⟩ := exists_form_of_mem_trace g style count c traced
    exact ⟨i, text⟩
  refine ⟨?_, ?_, spelled_emit g style count c⟩
  · intro ins mem
    obtain ⟨i, text⟩ := calls ins mem
    rw [text]
    exact i.newline_not_mem_call whole ins.target
  · intro ins mem
    obtain ⟨i, text⟩ := calls ins mem
    rw [text]
    exact i.exists_call_concat style ins.target

namespace Emission.Legible

variable {e : Emission}

theorem readPair_pairedLine (legible : e.Legible) {ins : Instruction} (h : ins ∈ e.instructions) :
    readPair ins.pairedLine = some (ins.call, ins.assembly) := by
  obtain ⟨front, ends⟩ := legible.ends ins h
  exact Instruction.readPair_pairedLine (legible.spelled.not_mem h (by decide)) ends

theorem newline_not_mem_pairedLine (legible : e.Legible) {ins : Instruction}
    (h : ins ∈ e.instructions) : '\n' ∉ ins.pairedLine.toList := by
  have call := legible.calls ins h
  have assembly : '\n' ∉ ins.assembly.toList := legible.spelled.not_mem h (by decide)
  simp [Instruction.pairedLine, padRight, call, assembly]

end Emission.Legible

/-! ## The lines of a listing -/

namespace Listing

/-- The paragraph with the seed. -/
def banner (e : Emission) : List String :=
  ["// BEGIN  Generated code -- do not edit",
    "// Generated by asmtest (seed " ++ decimal e.seed.toNat ++ ")"]

/-- The paragraph with the labels. -/
def labelLines (style : CallStyle) : List String :=
  ["    Label " ++ backLabel ++ ", " ++ forthLabel ++ ";", "    " ++ style.bind backLabel]

/-- The lines down to the label after the body. -/
def frontLines (e : Emission) (style : CallStyle) : List String :=
  banner e ++ (labelLines style :: e.sections.map paragraph).flatMap (fun p => "" :: p) ++
    ["", "    " ++ style.bind forthLabel]

/-- The lines of what is quoted. It may have any number of lines, with anything on them. -/
def quotedLines (disassembly : Option String) : List String :=
  Text.lines (unlines (disassembly.toList.flatMap disassemblyLines))

/-- The lines from the array on. -/
def backLines (words : List UInt32) : List String :=
  "" :: arrayLines words ++ ["// END  Generated code -- do not edit"]

variable {e : Emission} {style : CallStyle}

theorem listing_eq (e : Emission) (style : CallStyle) (words : List UInt32)
    (disassembly : Option String) :
    e.listing style words disassembly = unlines (frontLines e style) ++
      (unlines (disassembly.toList.flatMap disassemblyLines) ++ unlines (backLines words)) := by
  have sections : e.sections.flatMap Section.listingLines =
      (e.sections.map paragraph).flatMap (fun p => "" :: p) := by
    rw [List.flatMap_map]
    rfl
  simp [Emission.listing, Emission.listingLines, sections, frontLines, banner, labelLines, backLines,
    arrayLines, Word.array, unlines, arrayHeader, arrayEnd, String.append_assoc]

theorem newline_not_mem_frontLines (whole : style.OneLine) (legible : e.Legible) :
    ∀ line ∈ frontLines e style, '\n' ∉ line.toList := by
  have seed := (plain_decimal e.seed.toNat).not_mem (c := '\n') (by decide)
  have label (name : String) (one : '\n' ∉ name.toList) :
      '\n' ∉ ("    " ++ style.bind name).toList := by
    simp [CallStyle.bind, whole.1, one]
  have body : ∀ s ∈ e.sections, ∀ line ∈ paragraph s, '\n' ∉ line.toList := by
    intro s hs line mem
    rcases List.mem_cons.mp mem with rfl | mem
    · simpa using s.family.newline_not_mem_name
    · obtain ⟨ins, inside, rfl⟩ := List.mem_map.mp mem
      exact legible.newline_not_mem_pairedLine (List.mem_flatMap.mpr ⟨s, hs, inside⟩)
  intro line mem
  simp only [frontLines, banner, List.mem_append, List.mem_cons, List.mem_flatMap, List.mem_map,
    List.not_mem_nil, or_false] at mem
  rcases mem with ((rfl | rfl) | ⟨p, rfl | ⟨s, hs, rfl⟩, inside⟩) | rfl | rfl
  · decide
  · simp [seed]
  · rcases inside with rfl | inside
    · decide
    · rcases List.mem_cons.mp inside with rfl | inside
      · decide
      · rw [List.mem_singleton.mp inside]
        exact label backLabel (by decide)
  · rcases inside with rfl | inside
    · decide
    · exact body s hs line inside
  · decide
  · exact label forthLabel (by decide)

theorem newline_not_mem_backLines (words : List UInt32) :
    ∀ line ∈ backLines words, '\n' ∉ line.toList := by
  intro line mem
  simp only [backLines, arrayLines, List.mem_append, List.mem_cons, List.mem_map, List.not_mem_nil,
    or_false] at mem
  rcases mem with (rfl | ((rfl | rfl) | ⟨row, -, rfl⟩) | rfl) | rfl
  · decide
  · decide
  · decide
  · exact newline_not_mem_arrayLine row
  · decide
  · decide

/-- The lines of a listing, with the lines of what is quoted in between. -/
theorem lines_listing (whole : style.OneLine) (legible : e.Legible) (words : List UInt32)
    (disassembly : Option String) :
    Text.lines (e.listing style words disassembly) =
      frontLines e style ++ (quotedLines disassembly ++ backLines words) := by
  -- what is quoted may hold line feeds, so its lines are whatever they are
  rw [listing_eq, lines_unlines_append, lines_unlines_append,
    lines_unlines (newline_not_mem_frontLines whole legible),
    lines_unlines (newline_not_mem_backLines words), quotedLines]

/-! ## Reading -/

/-- The sections are read off the front of a listing, whatever follows it. -/
theorem readSections_frontLines (e : Emission) (style : CallStyle) (rest : List String) :
    readSections (((frontLines e style ++ rest).splitOn "").drop 2) =
      e.sections.map fun s => (s.family.name, s.instructions.map Instruction.pairedLine) := by
  have solid : "    " ++ style.bind forthLabel ≠ "" := by simp [CallStyle.bind]
  have text : frontLines e style ++ rest =
      banner e ++ (labelLines style :: e.sections.map paragraph).flatMap (fun p => "" :: p) ++
        "" :: (("    " ++ style.bind forthLabel) :: rest) := by
    simp [frontLines]
  have whole : ∀ s : Section, "" ∉ paragraph s := by
    intro s
    simp [paragraph, Instruction.pairedLine]
  -- what follows the label may add lines to its paragraph, but the label still opens it
  obtain ⟨more, others, split⟩ := exists_splitOn_cons solid rest
  rw [text, splitOn_blank, split]
  · exact readSections_paragraphs e.sections (style.bind forthLabel) more others
  · simp [whole, banner, labelLines, CallStyle.bind]

/-- A listing says what was emitted and which words belong to it. -/
theorem read_listing (whole : style.OneLine) (legible : e.Legible) (words : List UInt32)
    (disassembly : Option String) :
    read (e.listing style words disassembly) = some (ofEmission e words) := by
  have lines := lines_listing whole legible words disassembly
  -- the seed and the sections are in front of what is quoted, and the rows are behind it
  have seed : (Text.lines (e.listing style words disassembly))[1]? =
      some ("// Generated by asmtest (seed " ++ decimal e.seed.toNat ++ ")") := by
    rw [lines]
    rfl
  have rows : readRows (Text.lines (e.listing style words disassembly)) =
      some (Word.fours words) := by
    have array := readRows_arrayLines (frontLines e style ++ (quotedLines disassembly ++ [""])) words
      "// END  Generated code -- do not edit" (by decide)
    rw [lines, backLines]
    simpa using array
  have sections := readSections_frontLines e style (quotedLines disassembly ++ backLines words)
  rw [← lines] at sections
  simp only [read, seed, readSeed_line, rows, sections, Option.bind_eq_bind, Option.bind_some,
    Option.pure_def, ofEmission]

/-! ## What a listing tells -/

/-- The line is four spaces, the call with spaces up to fifty characters, the mark and the assembly;
and cutting it at its last mark gives call and assembly back. -/
structure Shows (line : String) (ins : Instruction) : Prop where
  /-- What stands on the line. No space follows a call that is as wide as the column or wider. -/
  text : ∃ spaces : Nat, ins.call.length + spaces = max 50 ins.call.length ∧
    line =
      "    " ++ (ins.call ++ String.ofList (List.replicate spaces ' ')) ++ " //\t" ++ ins.assembly
  /-- What is read off the line. -/
  pair : readPair line = some (ins.call, ins.assembly)

/-- Everything about an emission and its words is in a listing. -/
structure Tells (l : Listing) (e : Emission) (words : List UInt32) : Prop where
  /-- The seed. -/
  seed : l.seed = e.seed
  /-- The families of the sections in order, each with a line for every instruction. -/
  sections : List.Forall₂ (fun told s => told.1 = s.family.name ∧
    List.Forall₂ Shows told.2 s.instructions) l.sections e.sections
  /-- All calls and all assembly, in the order of the emission. -/
  pairs : l.pairLines.mapM readPair = some (e.instructions.map fun ins => (ins.call, ins.assembly))
  /-- The words, row after row. -/
  words : l.rows.flatten = words
  /-- Every row but the last has four words. -/
  fours : ∀ row ∈ l.rows.dropLast, row.length = 4
  /-- No row is empty or has more. -/
  few : ∀ row ∈ l.rows, 0 < row.length ∧ row.length ≤ 4

theorem shows_pairedLine (legible : e.Legible) {ins : Instruction} (h : ins ∈ e.instructions) :
    Shows ins.pairedLine ins := by
  refine ⟨⟨callColumn - ins.call.length, ?_, rfl⟩, legible.readPair_pairedLine h⟩
  rw [callColumn]
  omega

theorem mapM_readPair {instructions : List Instruction}
    (h : ∀ ins ∈ instructions, readPair ins.pairedLine = some (ins.call, ins.assembly)) :
    (instructions.map Instruction.pairedLine).mapM readPair =
      some (instructions.map fun ins => (ins.call, ins.assembly)) := by
  induction instructions with
  | nil => rfl
  | cons ins instructions ih =>
      rw [List.forall_mem_cons] at h
      rw [List.map_cons, List.mapM_cons, h.1, ih h.2]
      rfl

/-- The lines of all sections are the lines of all instructions. -/
theorem pairLines_ofEmission (e : Emission) (words : List UInt32) :
    (ofEmission e words).pairLines = e.instructions.map Instruction.pairedLine := by
  rw [pairLines, ofEmission, List.flatMap_map, Emission.instructions, List.map_flatMap]

theorem tells_ofEmission (legible : e.Legible) (words : List UInt32) :
    (ofEmission e words).Tells e words := by
  refine ⟨rfl, ?_, ?_, Word.flatten_fours words, ?_, ?_⟩
  · -- section by section, and in each line by line
    rw [ofEmission, List.forall₂_map_left_iff, List.forall₂_same]
    intro s hs
    refine ⟨rfl, ?_⟩
    rw [List.forall₂_map_left_iff, List.forall₂_same]
    intro ins inside
    exact shows_pairedLine legible (List.mem_flatMap.mpr ⟨s, hs, inside⟩)
  · rw [pairLines_ofEmission]
    exact mapM_readPair fun ins mem => legible.readPair_pairedLine mem
  · exact fun row mem => Word.length_of_mem_dropLast_fours mem
  · exact fun row mem => Word.length_of_mem_fours mem

end Listing

end EncoderVectors
