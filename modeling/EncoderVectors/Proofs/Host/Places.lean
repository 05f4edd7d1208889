import EncoderVectors.Proofs.Host.Footprint
import EncoderVectors.Proofs.Text.Numeral

/-!
# Where the files of a run lie

The files of a run have places of their own, whatever the output directory and the base name are
(`RunSettings.place_artifact_ne`). So has the file that an object copier makes beside the object: its
name is that of the object with another extension, except that an object named `..o` has its copy
where the directory lies (`RunSettings.place_binary_ne`).

A path is taken apart at its slashes. What stands before the last slash fixes a directory, and the
last piece is a step from there.
-/

set_option autoImplicit false

namespace EncoderVectors

/-- Nothing that stands between marks holds one. -/
theorem not_mem_of_mem_splitOn {mark : Char} {cs piece : List Char}
    (h : piece ∈ cs.splitOn mark) : mark ∉ piece := by
  -- a character goes into the first piece, unless it is the mark, which opens an empty one
  induction cs generalizing piece with
  | nil =>
      rw [List.splitOn_nil, List.mem_singleton] at h
      simp [h]
  | cons c cs ih =>
      rw [List.splitOn_cons_eq_if_modifyHead] at h
      split at h
      · rcases List.mem_cons.mp h with rfl | h
        · simp
        · exact ih h
      · rename_i other
        cases pieces : cs.splitOn mark with
        | nil => exact absurd pieces (List.splitOn_ne_nil _ _)
        | cons first rest =>
            rw [pieces, List.modifyHead_cons] at h
            rcases List.mem_cons.mp h with rfl | h
            · have whole := ih (pieces ▸ List.mem_cons_self : first ∈ cs.splitOn mark)
              intro inside
              rcases List.mem_cons.mp inside with same | inside
              · exact other (by simp [same])
              · exact whole inside
            · exact ih (pieces ▸ List.mem_cons_of_mem first h)

namespace Path

/-- The path with these pieces between its slashes. -/
def ofPieces (pieces : List (List Char)) : Path :=
  ⟨String.ofList (['/'].intercalate pieces)⟩

theorem eq_ofPieces (text : String) : (⟨text⟩ : Path) = ofPieces (text.toList.splitOn '/') := by
  rw [ofPieces, List.intercalate_splitOn, String.ofList_toList]

/-- The directory names among pieces. -/
def directoryNames (front : List (List Char)) : List String :=
  (front.map String.ofList).filter fun piece => !piece.isEmpty

/-- The directory that the pieces before the last one fix. -/
def parent (here : Location) (front : List (List Char)) : Location :=
  (directoryNames front).foldl Disk.step (if front.head? == some [] then [] else here)

section

variable {front : List (List Char)} {name : List Char}

theorem splitOn_ofPieces (before : ∀ piece ∈ front, '/' ∉ piece) (single : '/' ∉ name) :
    (ofPieces (front ++ [name])).text.toList.splitOn '/' = front ++ [name] := by
  rw [ofPieces, String.toList_ofList]
  apply List.splitOn_intercalate
  · intro piece h
    rcases List.mem_append.mp h with h | h
    · exact before piece h
    · rwa [List.mem_singleton.mp h]
  · simp

theorem names_ofPieces (before : ∀ piece ∈ front, '/' ∉ piece) (single : '/' ∉ name)
    (nonempty : name ≠ []) :
    (ofPieces (front ++ [name])).names = directoryNames front ++ [String.ofList name] := by
  rw [names, pieces, splitOn_ofPieces before single, List.map_append, List.filter_append]
  simp [directoryNames, nonempty]

/-- A path starts at the root when its first piece is empty. -/
theorem isAbsolute_ofPieces (before : ∀ piece ∈ front, '/' ∉ piece) (single : '/' ∉ name) :
    (ofPieces (front ++ [name])).isAbsolute = (front.head? == some []) := by
  have opens : ∀ piece : List Char, '/' ∉ piece → (piece.head? == some '/') = false := by
    intro piece absent
    cases piece with
    | nil => rfl
    | cons c cs =>
        rw [List.mem_cons, not_or] at absent
        simpa using Ne.symm absent.1
  rw [isAbsolute, ofPieces, String.toList_ofList]
  cases front with
  | nil =>
      rw [List.nil_append, List.intercalate_singleton]
      exact opens name single
  | cons first rest =>
      rw [List.cons_append, List.intercalate_cons_of_ne_nil (by simp), List.append_assoc]
      cases first with
      | nil => simp
      | cons c cs => simpa using opens (c :: cs) (before _ List.mem_cons_self)

/-- The last piece of a path is a step from its directory. -/
theorem place_ofPieces (here : Location) (before : ∀ piece ∈ front, '/' ∉ piece)
    (single : '/' ∉ name) (nonempty : name ≠ []) :
    Disk.place here (ofPieces (front ++ [name])) =
      Disk.step (parent here front) (String.ofList name) := by
  rw [Disk.place, names_ofPieces before single nonempty, List.foldl_append, Disk.start,
    isAbsolute_ofPieces before single]
  rfl

/-! ## Copies of objects -/

/-- The name that the copy of an object gets, from the name of the object up to its extension. -/
def binaryName (base : List Char) : List Char :=
  if base = ['.'] then "..".toList
  else (if base = [] then ".o".toList else base) ++ '.' :: "bin".toList

theorem stem_object (base : List Char) :
    stem (String.ofList (base ++ '.' :: "o".toList)) =
      if base = [] then ".o" else String.ofList base := by
  have rest : ((String.ofList (base ++ '.' :: "o".toList)).toList.reverse.dropWhile
      (· ≠ '.')).drop 1 = base.reverse := by
    simp
  rw [stem, rest]
  cases base with
  | nil => rfl  -- a name that opens with its only dot is all stem
  | cons c cs =>
      cases reversed : (c :: cs).reverse with
      | nil => simp at reversed
      | cons d ds =>
          dsimp only
          rw [← reversed, List.reverse_reverse, if_neg (by simp)]

theorem ofPieces_eq_intercalate (pieces : List (List Char)) :
    (⟨String.intercalate "/" (pieces.map String.ofList)⟩ : Path) = ofPieces pieces := by
  have chars : (String.intercalate "/" (pieces.map String.ofList)).toList =
      ['/'].intercalate pieces := by
    simp [String.toList_intercalate, Function.comp_def]
  rw [ofPieces, ← chars, String.ofList_toList]

/-- An object whose name is two dots and its extension is the one whose copy gets no extension. -/
theorem endsInDottedExtension_object (before : ∀ piece ∈ front, '/' ∉ piece) {base : List Char}
    (single : '/' ∉ base ++ '.' :: "o".toList) :
    (ofPieces (front ++ [base ++ '.' :: "o".toList])).endsInDottedExtension = true ↔
      base = ['.'] := by
  obtain ⟨dot, dots⟩ := isPlain_extension base isExtension_artifacts.object
  rw [endsInDottedExtension, pieces, splitOn_ofPieces before single, List.map_append,
    List.map_singleton, List.getLast?_concat]
  dsimp only
  rw [stem_object, bne_iff_ne.mpr dot, bne_iff_ne.mpr dots, Bool.true_and, Bool.true_and,
    beq_iff_eq]
  split
  · rename_i empty
    simp [empty]
  · constructor
    · intro same
      have chars := congrArg String.toList same
      rwa [String.toList_ofList] at chars
    · rintro rfl
      rfl

/-- The copy of an object lies where the object lies, under a name of its own. -/
theorem withExtension_object (before : ∀ piece ∈ front, '/' ∉ piece) {base : List Char}
    (single : '/' ∉ base ++ '.' :: "o".toList) :
    (ofPieces (front ++ [base ++ '.' :: "o".toList])).withExtension "bin" =
      ofPieces (front ++ [binaryName base]) := by
  obtain ⟨dot, dots⟩ := isPlain_extension base isExtension_artifacts.object
  have last : (ofPieces (front ++ [base ++ '.' :: "o".toList])).pieces.reverse.dropWhile
      (fun piece => piece.isEmpty || piece == ".") =
        String.ofList (base ++ '.' :: "o".toList) :: (front.map String.ofList).reverse := by
    rw [pieces, splitOn_ofPieces before single, List.map_append, List.map_singleton,
      List.reverse_concat, List.dropWhile_cons_of_neg]
    simpa using dot
  have joined : ∀ name : List Char,
      (⟨String.intercalate "/" (front.map String.ofList ++ [String.ofList name])⟩ : Path) =
        ofPieces (front ++ [name]) := by
    intro name
    rw [← ofPieces_eq_intercalate, List.map_append, List.map_singleton]
  rw [withExtension, last]
  dsimp only
  rw [if_neg dots, List.reverse_reverse, binaryName]
  by_cases two : base = ['.']
  · -- the stem is a dot, and an extension after it would be dropped again
    rw [if_pos ((endsInDottedExtension_object before single).mpr two), if_pos two]
    exact joined "..".toList
  · have named : (if base = [] then ".o" else String.ofList base) ++ "." ++ "bin" =
        String.ofList ((if base = [] then ".o".toList else base) ++ '.' :: "bin".toList) := by
      split
      · rfl
      · apply String.toList_injective
        simp
    rw [if_neg (fun dotted => two ((endsInDottedExtension_object before single).mp dotted)),
      if_neg two, stem_object, named]
    exact joined _

end

end Path

/-! ## The files of a run -/

namespace RunSettings

/-- The pieces of the paths of a run: only the last one depends on the extension. -/
theorem exists_pieces (s : RunSettings) :
    ∃ front base, (∀ piece ∈ front, '/' ∉ piece) ∧ '/' ∉ base ∧
      ∀ extension : String, '/' ∉ extension.toList →
        s.artifact extension = Path.ofPieces (front ++ [base ++ '.' :: extension.toList]) := by
  obtain ⟨front, base, split⟩ := exists_splitOn_append '/' s.stem.toList
  have pieces := split [] List.not_mem_nil
  rw [List.append_nil, List.append_nil] at pieces
  refine ⟨front, base, ?_, ?_, ?_⟩
  · intro piece h
    exact not_mem_of_mem_splitOn (pieces ▸ List.mem_append_left [base] h)
  · exact not_mem_of_mem_splitOn (pieces ▸ List.mem_concat_self)
  · intro extension absent
    have chars : (s.stem ++ "." ++ extension).toList = s.stem.toList ++ '.' :: extension.toList := by
      simp
    rw [artifact_eq, Path.eq_ofPieces, chars, split]
    simpa using absent

/-- The files of a run lie in one directory, each under its own name; there the copy of the object
lies too, or it lies where the directory does. -/
theorem exists_places (s : RunSettings) (here : Location) :
    ∃ parent base,
      (∀ extension, IsExtension extension → Disk.place here (s.artifact extension) =
        parent ++ [String.ofList (base ++ '.' :: extension.toList)]) ∧
      (Disk.place here ((s.artifact "o").withExtension "bin") = parent.dropLast ∨
        ∃ other, Disk.place here ((s.artifact "o").withExtension "bin") =
          parent ++ [String.ofList (other ++ '.' :: "bin".toList)]) := by
  obtain ⟨front, base, before, single, path⟩ := s.exists_pieces
  have stepped : ∀ (name : List Char) (extension : String), IsExtension extension →
      Disk.step (Path.parent here front) (String.ofList (name ++ '.' :: extension.toList)) =
        Path.parent here front ++ [String.ofList (name ++ '.' :: extension.toList)] := by
    intro name extension he
    obtain ⟨dot, dots⟩ := isPlain_extension name he
    rw [Disk.step, if_neg dot, if_neg dots]
  have whole : ∀ extension : String, '/' ∉ extension.toList →
      '/' ∉ base ++ '.' :: extension.toList := by
    intro extension absent
    simp [single, absent]
  refine ⟨Path.parent here front, base, ?_, ?_⟩
  · intro extension he
    rw [path extension he.2.2, Path.place_ofPieces here before (whole _ he.2.2) (by simp),
      stepped base extension he]
  · have object := isExtension_artifacts.object
    have slashless : '/' ∉ Path.binaryName base := by
      unfold Path.binaryName
      split
      · decide
      · split
        · decide
        · simp [single]
    rw [path "o" object.2.2, Path.withExtension_object before (whole _ object.2.2),
      Path.place_ofPieces here before slashless]
    · unfold Path.binaryName
      split
      · -- the name is two dots, a step up
        exact Or.inl rfl
      · exact Or.inr ⟨_, stepped _ "bin" (by simp [IsExtension])⟩
    · unfold Path.binaryName
      split <;> simp

/-- Names with different extensions are different. -/
theorem extension_eq_of_name_eq {a b : List Char} {x y : String} (hx : IsExtension x)
    (hy : IsExtension y) (same : a ++ '.' :: x.toList = b ++ '.' :: y.toList) : x = y := by
  have extension : ∀ (c : List Char) (z : String), IsExtension z →
      (c ++ '.' :: z.toList).reverse.takeWhile (· ≠ '.') = z.toList.reverse := by
    intro c z hz
    -- read backwards, an extension is what comes before the first dot
    have absent : '.' ∉ z.toList.reverse := by simpa using hz.2.1
    rw [List.reverse_append, List.reverse_cons, List.append_assoc, List.singleton_append,
      (Text.span_mark absent _).1]
  have reversed := extension a x hx
  rw [same, extension b y hy, List.reverse_inj] at reversed
  exact String.toList_injective reversed.symm

/-- The files of a run lie at different places. -/
theorem place_artifact_ne (s : RunSettings) (h : Host) {a b : String} (ha : IsExtension a)
    (hb : IsExtension b) (differ : a ≠ b) : h.place (s.artifact a) ≠ h.place (s.artifact b) := by
  obtain ⟨parent, base, places, -⟩ := s.exists_places h.directory
  intro same
  rw [Host.place, Host.place, places a ha, places b hb, List.append_cancel_left_eq,
    List.singleton_inj, String.ofList_inj] at same
  exact differ (extension_eq_of_name_eq ha hb same)

/-- The copy of the object lies at none of these places. -/
theorem place_binary_ne (s : RunSettings) (h : Host) {extension : String}
    (he : IsExtension extension) (differ : extension ≠ "bin") :
    h.place (s.artifact extension) ≠ h.place ((s.artifact "o").withExtension "bin") := by
  obtain ⟨parent, base, places, copied⟩ := s.exists_places h.directory
  intro same
  rw [Host.place, Host.place, places extension he] at same
  rcases copied with above | ⟨other, beside⟩
  · -- a place above the directory is shorter than one in it
    have lengths := congrArg List.length (same.trans above)
    rw [List.length_append, List.length_dropLast, List.length_singleton] at lengths
    omega
  · rw [beside, List.append_cancel_left_eq, List.singleton_inj, String.ofList_inj] at same
    exact differ (extension_eq_of_name_eq he (by simp [IsExtension]) same)

end RunSettings

end EncoderVectors
