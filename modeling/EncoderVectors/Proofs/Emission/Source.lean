import EncoderVectors.Emission.Source
import EncoderVectors.Proofs.Emission.Layout
import EncoderVectors.Proofs.Notation.Characters
import EncoderVectors.Proofs.Text.Lines

/-!
# The assembly source line by line

The source of an emission has a line for each instruction, between the lines of the two labels and
under the comments that name the sections. No instruction holds anything that an assembler would take
for the end of a line, for a comment or for the end of a statement, so what an assembler finds in the
source are the instructions of the emission in order (`Generator.source_emit`).

The sections of the source are cut from the list of all instructions at the spans of the emission;
that these spans leave nothing out is `Emission.map_cut_sectionSpans`.
-/

set_option autoImplicit false

namespace EncoderVectors

/-! ## How an assembler reads a source -/

namespace Text

/-- The line is a comment as a whole. -/
def isComment (line : String) : Bool :=
  line.toList.head? == some '#'

/-- What stands after the tab of a line that opens with one. -/
def afterTab? (line : String) : Option String :=
  match line.toList with
  | '\t' :: rest => some (String.ofList rest)
  | _ => none

/-- The statements of a line: a comment ends the line, and semicolons separate statements. -/
def statements (line : String) : List (List Char) :=
  (line.toList.takeWhile (· ≠ '#')).splitOn ';'

/-- What of a statement is left after its label. -/
def afterLabel (statement : List Char) : List Char :=
  match statement.dropWhile (· ≠ ':') with
  | _ :: rest => rest
  | [] => statement

/-- The instruction of a statement: what is left after its label and its indentation, if anything
is. -/
def instruction? (statement : List Char) : Option String :=
  match (afterLabel statement).dropWhile (fun c => c == ' ' || c == '\t') with
  | [] => none
  | cs => some (String.ofList cs)

/-- The instructions of a line. -/
def lineInstructions (line : String) : List String :=
  (statements line).filterMap instruction?

/-- The instructions of a source, in the order in which they are assembled. -/
def assembled (source : String) : List String :=
  (lines source).flatMap lineInstructions

theorem lineInstructions_comment (text : String) : lineInstructions ("# " ++ text) = [] := by
  have opened : ("# " ++ text).toList.takeWhile (· ≠ '#') = [] := by simp
  rw [lineInstructions, statements, opened]
  rfl

/-- A plain text that opens with a letter, after a tab, is the one instruction of its line. -/
theorem lineInstructions_tab {text : String} (plain : Plain text) {first : Char} {rest : List Char}
    (opens : text.toList = first :: rest) (lower : first.isLower = true) :
    lineInstructions ("\t" ++ text) = [text] := by
  have indented : Plain ("\t" ++ text) := Plain.append (by decide) plain
  have chars : ("\t" ++ text).toList = '\t' :: text.toList := by simp
  have statement : statements ("\t" ++ text) = ['\t' :: text.toList] := by
    rw [statements, (span_no_mark (indented.not_mem (by decide))).1,
      List.splitOn_eq_singleton (indented.not_mem (by decide)), chars]
  -- there is no colon, so nothing is taken for a label
  have unlabelled : afterLabel ('\t' :: text.toList) = '\t' :: text.toList := by
    rw [← chars, afterLabel, (span_no_mark (indented.not_mem (by decide))).2]
  have letter : (first == ' ' || first == '\t') = false := by
    rw [Bool.or_eq_false_iff, beq_eq_false_iff_ne, beq_eq_false_iff_ne]
    constructor
    · rintro rfl
      exact absurd lower (by decide)
    · rintro rfl
      exact absurd lower (by decide)
  have found : instruction? ('\t' :: text.toList) = some text := by
    rw [instruction?, unlabelled, opens, List.dropWhile_cons_of_pos (by decide),
      List.dropWhile_cons_of_neg (by simp [letter])]
    exact congrArg some (String.toList_injective (by rw [String.toList_ofList, opens]))
  rw [lineInstructions, statement, List.filterMap_cons_some found, List.filterMap_nil]

end Text

open Text

/-! ## The lines of a section -/

theorem Family.newline_not_mem_name (f : Family) : '\n' ∉ f.name.toList := by
  cases f <;> decide

namespace Section

variable (s : Section)

theorem filter_sourceLines : s.sourceLines.filter isComment = ["# " ++ s.family.name] := by
  have none : (s.instructions.map fun i => "\t" ++ i.assembly).filter isComment = [] := by
    simp [List.filter_eq_nil_iff, isComment]
  rw [sourceLines, List.filter_cons_of_pos (by simp [isComment]), none]

theorem filterMap_sourceLines :
    s.sourceLines.filterMap afterTab? = s.instructions.map Instruction.assembly := by
  have comment : afterTab? ("# " ++ s.family.name) = none := by simp [afterTab?]
  have line : ∀ i : Instruction, afterTab? ("\t" ++ i.assembly) = some i.assembly := by
    intro i
    simp [afterTab?]
  rw [sourceLines, List.filterMap_cons_none comment, List.filterMap_map]
  simp [line]

theorem comment_or_tab {line : String} (h : line ∈ s.sourceLines) :
    isComment line = true ∨ (afterTab? line).isSome = true := by
  rcases List.mem_cons.mp h with rfl | h
  · exact Or.inl (by simp [isComment])
  · obtain ⟨i, -, rfl⟩ := List.mem_map.mp h
    exact Or.inr (by simp [afterTab?])

end Section

/-! ## The lines of an emission -/

namespace Emission

/-- The instructions are written with the characters of assembly lines, and open with a letter. -/
def Spelled (e : Emission) : Prop :=
  ∀ ins ∈ e.instructions, Plain ins.assembly ∧
    ∃ first rest, ins.assembly.toList = first :: rest ∧ first.isLower = true

/-- The lines between the labels: for each span of a section a comment with its family, and the
instructions that stand in the span. -/
def bodyLines (e : Emission) : List String :=
  e.sectionSpans.flatMap fun s =>
    ("# " ++ s.1.name) :: (s.2.cut e.instructions).map fun i => "\t" ++ i.assembly

/-- The source of an emission of a catalog is an image of it, one line for each instruction. -/
structure Transcribed (e : Emission) (c : Catalog) : Prop where
  /-- The body stands between the lines of the two labels. -/
  lines : Text.lines e.source = "back:" :: e.bodyLines ++ ["forth:"]
  /-- The comments of the body name the families of the groups, in order. -/
  comments : e.bodyLines.filter isComment = c.groups.map fun g => "# " ++ g.family.name
  /-- All other lines of the body open with a tab. -/
  others : ∀ line ∈ e.bodyLines, isComment line = true ∨ (afterTab? line).isSome = true
  /-- After the tabs stand the instructions, in order. -/
  tabbed : e.bodyLines.filterMap afterTab? = e.instructions.map Instruction.assembly
  /-- No instruction ends its line, starts a comment or ends a statement. -/
  whole : ∀ ins ∈ e.instructions, '\n' ∉ ins.assembly.toList ∧ '#' ∉ ins.assembly.toList ∧
    ';' ∉ ins.assembly.toList
  /-- What is assembled are the instructions, in order. -/
  assembled : Text.assembled e.source = e.instructions.map Instruction.assembly

/-- Cutting at the spans of the sections gives the sections back, each under its family. -/
theorem map_sectionSpans (e : Emission) :
    (e.sectionSpans.map fun s => (s.1, s.2.cut e.instructions)) =
      e.sections.map fun s => (s.family, s.instructions) := by
  rw [← List.zip_map', ← List.zip_map', ← e.map_cut_sectionSpans, ← e.families_sectionSpans]

theorem bodyLines_eq (e : Emission) : e.bodyLines = e.sections.flatMap Section.sourceLines := by
  have lines := congrArg (List.flatMap fun p : Family × List Instruction =>
    ("# " ++ p.1.name) :: p.2.map fun i => "\t" ++ i.assembly) e.map_sectionSpans
  rw [List.flatMap_map, List.flatMap_map] at lines
  exact lines

theorem sourceLines_eq (e : Emission) : e.sourceLines = "back:" :: e.bodyLines ++ ["forth:"] := by
  rw [bodyLines_eq]
  rfl

theorem tabbed_bodyLines (e : Emission) :
    e.bodyLines.filterMap afterTab? = e.instructions.map Instruction.assembly := by
  rw [bodyLines_eq, instructions, List.filterMap_flatMap, List.map_flatMap]
  simp only [Section.filterMap_sourceLines]

theorem comments_bodyLines (e : Emission) :
    e.bodyLines.filter isComment = e.sections.map fun s => "# " ++ s.family.name := by
  rw [bodyLines_eq, List.filter_flatMap]
  simp only [Section.filter_sourceLines]
  exact (List.map_eq_flatMap ..).symm

theorem comment_or_tab (e : Emission) {line : String} (h : line ∈ e.bodyLines) :
    isComment line = true ∨ (afterTab? line).isSome = true := by
  rw [bodyLines_eq] at h
  obtain ⟨s, -, inside⟩ := List.mem_flatMap.mp h
  exact s.comment_or_tab inside

namespace Spelled

variable {e : Emission}

theorem not_mem (spelled : e.Spelled) {ins : Instruction} (h : ins ∈ e.instructions) {c : Char}
    (other : isPlain c = false) : c ∉ ins.assembly.toList :=
  (spelled ins h).1.not_mem other

theorem newline_not_mem_bodyLines (spelled : e.Spelled) {line : String} (h : line ∈ e.bodyLines) :
    '\n' ∉ line.toList := by
  rw [bodyLines_eq] at h
  obtain ⟨s, hs, inside⟩ := List.mem_flatMap.mp h
  rcases List.mem_cons.mp inside with rfl | inside
  · simpa using s.family.newline_not_mem_name
  · obtain ⟨i, hi, rfl⟩ := List.mem_map.mp inside
    have emitted : i ∈ e.instructions := List.mem_flatMap.mpr ⟨s, hs, hi⟩
    simpa using spelled.not_mem emitted (by decide)

/-- The lines of the source are read back from its text. -/
theorem lines_source (spelled : e.Spelled) : Text.lines e.source = e.sourceLines := by
  apply lines_unlines
  intro line h
  rw [sourceLines_eq] at h
  rcases List.mem_append.mp h with h | h
  · rcases List.mem_cons.mp h with rfl | h
    · decide
    · exact spelled.newline_not_mem_bodyLines h
  · rw [List.mem_singleton.mp h]
    decide

/-- An assembler finds in the lines of a section its instructions. -/
theorem assembled_section (spelled : e.Spelled) {s : Section} (hs : s ∈ e.sections) :
    s.sourceLines.flatMap lineInstructions = s.instructions.map Instruction.assembly := by
  have line : ∀ i ∈ s.instructions, lineInstructions ("\t" ++ i.assembly) = [i.assembly] := by
    intro i hi
    obtain ⟨plain, first, rest, opens, lower⟩ := spelled i (List.mem_flatMap.mpr ⟨s, hs, hi⟩)
    exact lineInstructions_tab plain opens lower
  rw [Section.sourceLines, List.flatMap_cons, lineInstructions_comment, List.nil_append,
    List.flatMap_map, List.map_eq_flatMap]
  exact List.flatMap_congr line

/-- An assembler finds in the source the instructions of the emission. -/
theorem assembled_source (spelled : e.Spelled) :
    Text.assembled e.source = e.instructions.map Instruction.assembly := by
  have labels : lineInstructions "back:" = [] ∧ lineInstructions "forth:" = [] := by decide
  rw [Text.assembled, spelled.lines_source, sourceLines_eq, List.flatMap_append, List.flatMap_cons,
    List.flatMap_singleton, labels.1, labels.2, List.nil_append, List.append_nil, bodyLines_eq,
    List.flatMap_assoc, instructions, List.map_flatMap]
  exact List.flatMap_congr fun s hs => spelled.assembled_section hs

end Spelled

end Emission

namespace Generator

variable (g : Generator) (style : CallStyle) (count : Nat) (c : Catalog)

theorem spelled_emit : (g.emit style count c).1.Spelled := by
  intro ins h
  obtain ⟨i, traced⟩ := exists_trace_of_mem_instructions h
  obtain ⟨-, -, -, text⟩ := exists_form_of_mem_trace g style count c traced
  rw [text]
  exact ⟨i.plain_assembly ins.target, i.exists_first_assembly ins.target⟩

/-- The lines of a section do not depend on how its calls are spelled. -/
theorem sourceLines_drawn (other : CallStyle) (family : Family) (drawn : List (Family × Instance)) :
    Section.sourceLines ⟨family, drawn.map (blockOf other)⟩ =
      Section.sourceLines ⟨family, drawn.map (blockOf style)⟩ := by
  have lines (style : CallStyle) : (drawn.map (blockOf style)).flatten.map Instruction.assembly =
      drawn.flatMap fun d => d.2.entry.shape.targets.map d.2.assembly := by
    -- the style goes into the calls of a form only
    rw [← List.flatMap_def, List.map_flatMap]
    simp [blockOf, Instance.block, Instance.forms, Instance.form, Function.comp_def]
  have tabbed := congrArg (List.map fun text => "\t" ++ text) ((lines other).trans (lines style).symm)
  rw [List.map_map, List.map_map] at tabbed
  exact congrArg (("# " ++ family.name) :: ·) tabbed

theorem sourceLines_sectionsOf (other : CallStyle) (groups : List Group) :
    (sectionsOf other count groups g).map Section.sourceLines =
      (sectionsOf style count groups g).map Section.sourceLines := by
  -- what is drawn for a group, and the generator left for the next one, are the same in both styles
  induction groups generalizing g with
  | nil => rfl
  | cons group groups ih =>
      rw [sectionsOf, sectionsOf, List.map_cons, List.map_cons, ih, sourceLines_drawn style]

/-- The source of every emission is an image of it, one line for each instruction; and it is the same
however calls are spelled. -/
theorem source_emit :
    (g.emit style count c).1.Transcribed c ∧
      ∀ other, (g.emit other count c).1.source = (g.emit style count c).1.source := by
  have spelled := spelled_emit g style count c
  refine ⟨⟨?_, ?_, ?_, ?_, ?_, spelled.assembled_source⟩, ?_⟩
  · rw [spelled.lines_source, Emission.sourceLines_eq]
  · -- sections are emitted one for each group
    rw [Emission.comments_bodyLines, emit_fst]
    have families := congrArg (List.map fun f => "# " ++ f.name)
      (families_sectionsOf style count c.groups g)
    rwa [List.map_map, List.map_map] at families
  · exact fun line h => Emission.comment_or_tab _ h
  · exact Emission.tabbed_bodyLines _
  · intro ins h
    exact ⟨spelled.not_mem h (by decide), spelled.not_mem h (by decide),
      spelled.not_mem h (by decide)⟩
  · intro other
    rw [emit_fst, emit_fst, Emission.source, Emission.source, Emission.sourceLines,
      Emission.sourceLines, List.flatMap_def, List.flatMap_def, sourceLines_sectionsOf g style]

example : ((ofSeed 0).emit {} 1 jumpCatalog).1.source =
    "back:\n# AbsOp\n\tj\t.\n\tj\tforth\n\tj\tback\nforth:\n" := by
  decide +kernel

end Generator

end EncoderVectors
