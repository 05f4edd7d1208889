import EncoderVectors.Host.Disk
import EncoderVectors.Settings.Basic

/-!
# Reading what was written

A file that was written is read back from the same path (`Disk.read_write`), and writing a file leaves
the files beside it alone (`Disk.read_write_sibling`). Both rest on one fact: a walk only ever passes
through directories, so putting a file where there is no directory diverts no walk.

The files of a run lie beside one another, whatever the settings are: their paths differ in the
extension of the last name and nowhere else (`RunSettings.siblings_artifact`).
-/

set_option autoImplicit false

namespace EncoderVectors

namespace Disk

/-! ## Walks -/

/-- Where one name leads from a directory. -/
def step (here : Location) (name : String) : Location :=
  if name = "." then here else if name = ".." then here.dropLast else here ++ [name]

theorem walk_cons_of_directory {d : Disk} {here : Location} (h : d.find? here = some .directory)
    (name : String) (rest : List String) :
    d.walk here (name :: rest) = d.walk (step here name) rest := by
  rw [walk, h, step]
  dsimp only
  split
  · rfl
  · split
    · rfl
    · rfl

/-- A walk goes on from directories only. -/
theorem isDirectory_of_walk_cons {d : Disk} {here location : Location} {name : String}
    {rest : List String} (h : d.walk here (name :: rest) = .ok location) :
    d.find? here = some .directory := by
  rw [walk] at h
  cases found : d.find? here with
  | none =>
      rw [found] at h
      cases h
  | some node =>
      rw [found] at h
      cases node with
      | directory => rfl
      | file content => cases h
      | program program => cases h

theorem walk_append_iff {d : Disk} {here location : Location} {a b : List String} :
    d.walk here (a ++ b) = .ok location ↔
      ∃ middle, d.walk here a = .ok middle ∧ d.walk middle b = .ok location := by
  induction a generalizing here with
  | nil => simp [walk]
  | cons name a ih =>
      rw [List.cons_append]
      constructor
      · intro h
        have found := isDirectory_of_walk_cons h
        rw [walk_cons_of_directory found] at h ⊢
        exact ih.mp h
      · rintro ⟨middle, first, second⟩
        have found := isDirectory_of_walk_cons first
        rw [walk_cons_of_directory found] at first ⊢
        exact ih.mpr ⟨middle, first, second⟩

/-- A name that is followed as it is written. -/
def IsPlain (name : String) : Prop :=
  name ≠ "." ∧ name ≠ ".."

/-- A walk that ends in a plain name leads into a directory and there to that name. -/
theorem walk_concat_iff {d : Disk} {here location : Location} {names : List String} {name : String}
    (plain : IsPlain name) :
    d.walk here (names ++ [name]) = .ok location ↔
      ∃ directory, d.walk here names = .ok directory ∧ d.find? directory = some .directory ∧
        location = directory ++ [name] := by
  have leads : ∀ directory, step directory name = directory ++ [name] := by
    intro directory
    rw [step, if_neg plain.1, if_neg plain.2]
  rw [walk_append_iff]
  constructor
  · rintro ⟨directory, led, last⟩
    have found := isDirectory_of_walk_cons last
    rw [walk_cons_of_directory found, leads] at last
    exact ⟨directory, led, found, (Except.ok.inj last).symm⟩
  · rintro ⟨directory, led, found, rfl⟩
    refine ⟨directory, led, ?_⟩
    rw [walk_cons_of_directory found, leads]
    rfl

/-- Putting something where there is no directory diverts no walk. -/
theorem walk_put {d : Disk} {here location place : Location} {names : List String}
    (h : d.walk here names = .ok location) (vacant : d.find? place ≠ some .directory)
    (node : Node) : (d.put place node).walk here names = .ok location := by
  induction names generalizing here with
  | nil => exact h
  | cons name names ih =>
      have found := isDirectory_of_walk_cons h
      -- the walk goes on from here, so here is a directory and not the place
      have elsewhere : here ≠ place := by
        rintro rfl
        exact vacant found
      have still : (d.put place node).find? here = some .directory := by
        rw [find?_put_of_ne d node elsewhere, found]
      rw [walk_cons_of_directory found] at h
      rw [walk_cons_of_directory still]
      exact ih h

/-! ## Files -/

theorem write_eq_ok_iff {d d' : Disk} {here : Location} {p : Path} {content : List UInt8} :
    d.write here p content = .ok d' ↔
      p.text.isEmpty = false ∧ p.endsInSlash = false ∧
        ∃ location, d.walk (start here p) p.names = .ok location ∧
          d.find? location ≠ some .directory ∧ d' = d.put location (.file content) := by
  unfold write
  cases p.text.isEmpty with
  | true => simp
  | false =>
      cases d.walk (start here p) p.names with
      | error e => simp
      | ok location =>
          cases p.endsInSlash with
          | true => simp
          | false =>
              by_cases taken : d.find? location = some .directory
              · simp [taken]
              · simp [taken, eq_comm (a := d')]

/-- What the location of a path holds is what reading the path gives. -/
theorem read_of_walk {d : Disk} {here location : Location} {p : Path}
    (text : p.text.isEmpty = false) (slash : p.endsInSlash = false)
    (h : d.walk (start here p) p.names = .ok location) :
    d.read here p =
      match d.find? location with
      | none => .error .notFound
      | some .directory => .error .isDirectory
      | some (.file content) => .ok content
      | some (.program _) => .ok [] := by
  have located : d.locate here p = .ok location := by
    simp [locate, text, slash, h]
  rw [read, resolve, located]
  dsimp only
  cases d.find? location with
  | none => rfl
  | some node =>
      cases node with
      | directory => rfl
      | file content => rfl
      | program program => rfl

/-- A file that was written is read back. -/
theorem read_write {d d' : Disk} {here : Location} {p : Path} {content : List UInt8}
    (h : d.write here p content = .ok d') : d'.read here p = .ok content := by
  obtain ⟨text, slash, location, walked, vacant, rfl⟩ := write_eq_ok_iff.mp h
  -- the root is a directory, and no file was written over it
  have below : location ≠ [] := by
    rintro rfl
    exact vacant rfl
  rw [read_of_walk text slash (walk_put walked vacant _), find?_put_self d _ below]

end Disk

/-- Two paths that differ in their last names and nowhere else. -/
structure Path.Siblings (p q : Path) : Prop where
  /-- The names before the last ones are the same, and the last ones are plain and differ. -/
  names : ∃ directory a b, p.names = directory ++ [a] ∧ q.names = directory ++ [b] ∧ a ≠ b ∧
    Disk.IsPlain a ∧ Disk.IsPlain b
  /-- Both start from the root, or neither does. -/
  origin : p.isAbsolute = q.isAbsolute
  /-- Nothing trails the last name of the second path. -/
  slash : q.endsInSlash = false
  /-- The second path is not empty. -/
  text : q.text.isEmpty = false

namespace Disk

/-- Writing a file leaves the files beside it alone. -/
theorem read_write_sibling {d d' : Disk} {here : Location} {p q : Path} {content : List UInt8}
    (siblings : p.Siblings q) (h : d.write here p content = .ok d') :
    d'.read here q = d.read here q := by
  obtain ⟨directory, a, b, hp, hq, differ, plainA, plainB⟩ := siblings.names
  obtain ⟨-, -, location, walked, vacant, rfl⟩ := write_eq_ok_iff.mp h
  have origin : start here q = start here p := by
    rw [start, start, siblings.origin]
  rw [hp, walk_concat_iff plainA] at walked
  obtain ⟨parent, led, isDir, rfl⟩ := walked
  -- what was written shows that the common directory is there
  have walk : d.walk (start here q) q.names = .ok (parent ++ [b]) := by
    rw [origin, hq]
    exact (walk_concat_iff plainB).mpr ⟨parent, led, isDir, rfl⟩
  have elsewhere : parent ++ [b] ≠ parent ++ [a] := by
    intro same
    exact differ (by simpa using same.symm)
  rw [read_of_walk siblings.text siblings.slash walk,
    read_of_walk siblings.text siblings.slash (walk_put walk vacant _),
    find?_put_of_ne d _ elsewhere]

end Disk

/-! ## The files of a run -/

/-- Text without the mark only ever adds to the last piece. -/
theorem exists_splitOn_append (mark : Char) (cs : List Char) :
    ∃ front last, ∀ tail, mark ∉ tail → (cs ++ tail).splitOn mark = front ++ [last ++ tail] := by
  induction cs with
  | nil =>
      refine ⟨[], [], ?_⟩
      intro tail absent
      exact List.splitOn_eq_singleton absent
  | cons c cs ih =>
      obtain ⟨front, last, split⟩ := ih
      by_cases same : (c == mark) = true
      · refine ⟨[] :: front, last, ?_⟩
        intro tail absent
        rw [List.cons_append, List.splitOn_cons_eq_if_modifyHead, if_pos same, split tail absent]
        rfl
      · cases front with
        | nil =>
            refine ⟨[], c :: last, ?_⟩
            intro tail absent
            rw [List.cons_append, List.splitOn_cons_eq_if_modifyHead, if_neg same,
              split tail absent]
            rfl
        | cons first front =>
            refine ⟨(c :: first) :: front, last, ?_⟩
            intro tail absent
            rw [List.cons_append, List.splitOn_cons_eq_if_modifyHead, if_neg same,
              split tail absent]
            rfl

/-- An extension that leaves a name plain. -/
def IsExtension (extension : String) : Prop :=
  extension.toList ≠ [] ∧ '.' ∉ extension.toList ∧ '/' ∉ extension.toList

/-- The extensions of the files of a run. -/
structure ArtifactExtensions : Prop where
  /-- The source. -/
  source : IsExtension "s"
  /-- The object. -/
  object : IsExtension "o"
  /-- The listing. -/
  listing : IsExtension "txt"
  /-- The fixture. -/
  fixture : IsExtension "json"

theorem isExtension_artifacts : ArtifactExtensions := by
  constructor <;> simp [IsExtension]

/-- The names of a path with an extension: only the last one depends on the extension. -/
theorem Path.exists_names_extension (stem : String) :
    ∃ directory last, ∀ extension, IsExtension extension →
      (⟨stem ++ "." ++ extension⟩ : Path).names =
        directory ++ [String.ofList (last ++ '.' :: extension.toList)] := by
  obtain ⟨front, last, split⟩ := exists_splitOn_append '/' stem.toList
  refine ⟨(front.map String.ofList).filter fun piece => !piece.isEmpty, last, ?_⟩
  intro extension he
  have text : (stem ++ "." ++ extension).toList = stem.toList ++ '.' :: extension.toList := by
    simp
  have absent : '/' ∉ '.' :: extension.toList := by
    simpa using he.2.2
  rw [names, pieces, text, split _ absent, List.map_append, List.filter_append]
  simp

theorem isPlain_extension (last : List Char) {extension : String} (h : IsExtension extension) :
    Disk.IsPlain (String.ofList (last ++ '.' :: extension.toList)) := by
  -- the last character is one of the extension, so it is no dot
  have ending : ∀ name : String, name.toList.getLast? = some '.' →
      String.ofList (last ++ '.' :: extension.toList) ≠ name := by
    intro name dot same
    rw [← same, String.toList_ofList, List.getLast?_append, List.getLast?_cons] at dot
    have final : extension.toList.getLast? = some (extension.toList.getLast h.1) :=
      List.getLast?_eq_some_getLast h.1
    rw [final] at dot
    have mem := List.getLast_mem h.1
    have eq : extension.toList.getLast h.1 = '.' := by simpa using dot
    rw [eq] at mem
    exact h.2.1 mem
  exact ⟨ending "." (by decide), ending ".." (by decide)⟩

/-- Whether a path starts at the root does not depend on its extension. -/
theorem Path.isAbsolute_extension (stem extension : String) :
    (⟨stem ++ "." ++ extension⟩ : Path).isAbsolute = (⟨stem ++ "."⟩ : Path).isAbsolute := by
  unfold isAbsolute
  cases h : stem.toList with
  | nil => simp [h]
  | cons c cs => simp [h]

theorem Path.siblings_extension (stem : String) {a b : String} (ha : IsExtension a)
    (hb : IsExtension b) (differ : a ≠ b) :
    Siblings ⟨stem ++ "." ++ a⟩ ⟨stem ++ "." ++ b⟩ where
  names := by
    obtain ⟨directory, last, split⟩ := exists_names_extension stem
    refine ⟨directory, _, _, split a ha, split b hb, ?_, isPlain_extension last ha,
      isPlain_extension last hb⟩
    intro same
    have chars := congrArg String.toList same
    simp only [String.toList_ofList, List.append_cancel_left_eq, List.cons.injEq, true_and] at chars
    exact differ (String.toList_injective chars)
  origin := by rw [isAbsolute_extension, isAbsolute_extension]
  slash := by
    have final : b.toList.getLast? = some (b.toList.getLast hb.1) :=
      List.getLast?_eq_some_getLast hb.1
    have other : b.toList.getLast hb.1 ≠ '/' := by
      intro same
      have mem := List.getLast_mem hb.1
      rw [same] at mem
      exact hb.2.2 mem
    simp [endsInSlash, List.getLast?_append, List.getLast?_cons, final, other]
  text := by simp

namespace RunSettings

/-- What all files of a run are named, up to their extensions. -/
def stem (s : RunSettings) : String :=
  if (⟨s.baseName ++ "."⟩ : Path).isAbsolute then s.baseName
  else if s.outputDir.text.isEmpty || s.outputDir.endsInSlash then s.outputDir.text ++ s.baseName
  else s.outputDir.text ++ "/" ++ s.baseName

theorem artifact_eq (s : RunSettings) (extension : String) :
    s.artifact extension = ⟨s.stem ++ "." ++ extension⟩ := by
  rw [artifact, Path.join, Path.isAbsolute_extension, stem]
  split
  · rfl
  · split
    · simp only [String.append_assoc]
    · simp only [String.append_assoc]

/-- The files of a run lie beside one another. -/
theorem siblings_artifact (s : RunSettings) {a b : String} (ha : IsExtension a)
    (hb : IsExtension b) (differ : a ≠ b) : (s.artifact a).Siblings (s.artifact b) := by
  rw [artifact_eq, artifact_eq]
  exact Path.siblings_extension s.stem ha hb differ

end RunSettings

end EncoderVectors
