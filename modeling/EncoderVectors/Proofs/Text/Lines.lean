import EncoderVectors.Text.Column

/-!
# Lines

The lines of a text are what stands between its line feeds; a line feed at the end of the text starts
no further line. Lines that hold no line feed are read back from the text that they make
(`lines_unlines`), and the lines of a text that follows them come after them (`lines_unlines_append`).
-/

set_option autoImplicit false

namespace EncoderVectors.Text

/-- The pieces without an empty one at the end. -/
def dropEmptyLast (pieces : List (List Char)) : List (List Char) :=
  if pieces.getLast? = some [] then pieces.dropLast else pieces

/-- The lines of a text. -/
def lines (text : String) : List String :=
  (dropEmptyLast (text.toList.splitOn '\n')).map String.ofList

theorem toList_unlines_cons (line : String) (rest : List String) :
    (unlines (line :: rest)).toList = line.toList ++ '\n' :: (unlines rest).toList := by
  simp [unlines]

/-- What stands between the line feeds: the lines, and nothing after the last line feed. -/
theorem splitOn_unlines {ls : List String} (whole : ∀ line ∈ ls, '\n' ∉ line.toList) :
    (unlines ls).toList.splitOn '\n' = ls.map String.toList ++ [[]] := by
  induction ls with
  | nil => rfl
  | cons line rest ih =>
      rw [List.forall_mem_cons] at whole
      rw [toList_unlines_cons, List.splitOn_append_cons_self, List.splitOn_eq_singleton whole.1,
        ih whole.2]
      rfl

/-- Lines without line feeds are the lines of the text that they make. -/
theorem lines_unlines {ls : List String} (whole : ∀ line ∈ ls, '\n' ∉ line.toList) :
    lines (unlines ls) = ls := by
  rw [lines, splitOn_unlines whole, dropEmptyLast, List.getLast?_concat, if_pos rfl,
    List.dropLast_concat, List.map_map]
  simp [Function.comp_def]

theorem dropEmptyLast_append {pieces more : List (List Char)} (some_piece : more ≠ []) :
    dropEmptyLast (pieces ++ more) = pieces ++ dropEmptyLast more := by
  have last : (pieces ++ more).getLast? = more.getLast? := by
    rw [List.getLast?_append, List.getLast?_eq_some_getLast some_piece, Option.some_or]
  unfold dropEmptyLast
  rw [last]
  split
  · exact List.dropLast_append_of_ne_nil some_piece
  · rfl

/-- Up to a line feed a text has the lines that it would have without what follows. -/
theorem lines_append_newline (text rest : String) :
    lines (text ++ "\n" ++ rest) = (text.toList.splitOn '\n').map String.ofList ++ lines rest := by
  have chars : (text ++ "\n" ++ rest).toList = text.toList ++ '\n' :: rest.toList := by simp
  rw [lines, chars, List.splitOn_append_cons_self,
    dropEmptyLast_append (List.splitOn_ne_nil _ _), List.map_append, ← lines]

/-- The lines of a text that follows whole lines come after the lines of these. -/
theorem lines_unlines_append (ls : List String) (rest : String) :
    lines (unlines ls ++ rest) = lines (unlines ls) ++ lines rest := by
  have opened (line : String) (more : List String) (tail : String) :
      unlines (line :: more) ++ tail = line ++ "\n" ++ (unlines more ++ tail) := by
    simp [unlines, String.append_assoc]
  induction ls with
  | nil => simp [unlines, lines, dropEmptyLast]
  | cons line more ih =>
      have alone := opened line more ""
      rw [String.append_empty, String.append_empty] at alone
      rw [opened, lines_append_newline, ih, alone, lines_append_newline, List.append_assoc]

end EncoderVectors.Text
