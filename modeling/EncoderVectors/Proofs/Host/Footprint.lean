import EncoderVectors.Proofs.Host.Actions

/-!
# What actions touch

An action touches some places when what is stored anywhere else stays as it is. Directories are not
counted among what is stored: new ones may be made, and none goes away. Footprints of actions one
after another add up, so the footprint of a run is read off its steps.

Paths name places. The place of a path is known without looking at a disk (`Disk.place`), and when the
path can be followed it leads there (`Disk.walk_eq_ok`). Making directories touches nothing
(`Host.touchesOnly_makeDirs`), writing a file touches its place (`Host.touchesOnly_writeFile`), and a
write that fails changes nothing at all (`Host.exists_fault_of_writeText`).
-/

set_option autoImplicit false

namespace EncoderVectors

/-- The content of what is stored; what a program consists of is left open. -/
def Node.content : Node → List UInt8
  | .file content => content
  | .directory | .program _ => []

namespace Disk

/-- What is stored at a location: a file or a program, but no directory. -/
def stored? (d : Disk) (location : Location) : Option Node :=
  (d.find? location).filter (· ≠ .directory)

/-- The second disk is made from the first by touching some places and by making directories. -/
structure TouchesOnly (places : List Location) (d d' : Disk) : Prop where
  /-- Directories stay. -/
  directories : ∀ location, d.find? location = some .directory →
    d'.find? location = some .directory
  /-- What is stored elsewhere stays, and nothing is added there. -/
  stored : ∀ location, location ∉ places → d'.stored? location = d.stored? location

namespace TouchesOnly

variable {places more : List Location} {d d' d'' : Disk}

theorem refl (places : List Location) (d : Disk) : TouchesOnly places d d :=
  ⟨fun _ h => h, fun _ _ => rfl⟩

theorem trans (first : TouchesOnly places d d') (second : TouchesOnly places d' d'') :
    TouchesOnly places d d'' where
  directories := by
    intro location found
    exact second.directories location (first.directories location found)
  stored := by
    intro location outside
    exact (second.stored location outside).trans (first.stored location outside)

theorem mono (h : TouchesOnly places d d') (wider : places ⊆ more) : TouchesOnly more d d' where
  directories := h.directories
  stored := by
    intro location outside
    exact h.stored location fun inside => outside (wider inside)

end TouchesOnly

theorem stored?_put_of_ne (d : Disk) {location other : Location} (node : Node)
    (h : other ≠ location) : (d.put location node).stored? other = d.stored? other := by
  rw [stored?, stored?, find?_put_of_ne d node h]

/-- Putting something where there is no directory touches that place. -/
theorem touchesOnly_put {d : Disk} {place : Location} (vacant : d.find? place ≠ some .directory)
    (node : Node) : TouchesOnly [place] d (d.put place node) where
  directories := by
    intro location found
    have elsewhere : location ≠ place := by
      rintro rfl
      exact vacant found
    rw [find?_put_of_ne d node elsewhere, found]
  stored := by
    intro location outside
    exact stored?_put_of_ne d node fun same => outside (List.mem_singleton.mpr same)

/-- A directory where there was nothing touches nothing. -/
theorem touchesOnly_put_directory {d : Disk} {place : Location} (vacant : d.find? place = none) :
    TouchesOnly [] d (d.put place .directory) where
  directories := (touchesOnly_put (by rw [vacant]; simp) .directory).directories
  stored := by
    intro location _
    by_cases same : location = place
    · -- there was nothing, and now there is a directory: neither is stored
      subst same
      have below : location ≠ [] := by
        rintro rfl
        cases vacant
      rw [stored?, stored?, find?_put_self d _ below, vacant]
      rfl
    · exact stored?_put_of_ne d _ same

/-! ## Making directories -/

theorem touchesOnly_makeDir {d d' : Disk} {here : Location} {names : List String}
    (h : d.makeDir here names = .ok d') : TouchesOnly [] d d' := by
  unfold makeDir at h
  split at h
  · cases h
  · rename_i location _
    split at h
    · cases h
    · rename_i vacant
      obtain rfl := Except.ok.inj h
      exact touchesOnly_put_directory (by simpa using vacant)

theorem touchesOnly_settleDir {d d' : Disk} {here : Location} {names : List String}
    (h : d.settleDir here names = .ok d') : TouchesOnly [] d d' := by
  unfold settleDir at h
  split at h
  · rename_i made
    obtain rfl := Except.ok.inj h
    exact touchesOnly_makeDir made
  · split at h
    · -- it could not be made because it is there already
      obtain rfl := Except.ok.inj h
      exact .refl [] d
    · cases h

theorem touchesOnly_attempt_settleDir (d : Disk) (here : Location) (names : List String) :
    TouchesOnly [] d (d.attempt (d.settleDir here names)).2 := by
  cases result : d.settleDir here names with
  | ok made => exact touchesOnly_settleDir result
  | error fault => exact .refl [] d

theorem touchesOnly_makeDirAfter {d : Disk} {here : Location} {names : List String}
    {makeParent : Disk → Except Fault Unit × Disk}
    (parent : ∀ d, TouchesOnly [] d (makeParent d).2) :
    TouchesOnly [] d (d.makeDirAfter here names makeParent).2 := by
  unfold makeDirAfter
  split
  · have made := parent d
    split
    · -- what was made of the parents before one failed is still there
      rename_i fault next result
      rwa [result] at made
    · rename_i next result
      rw [result] at made
      exact made.trans (touchesOnly_attempt_settleDir next here names)
  · exact touchesOnly_attempt_settleDir d here names

theorem touchesOnly_makeParents (here : Location) (names : List String) (d : Disk) :
    TouchesOnly [] d (makeParents here names d).2 := by
  induction names generalizing d with
  | nil => exact .refl [] d
  | cons name before ih => exact touchesOnly_makeDirAfter ih

/-- Making a directory and all that it lies in touches nothing, even if it fails halfway. -/
theorem touchesOnly_makeDirs (d : Disk) (here : Location) (p : Path) :
    TouchesOnly [] d (d.makeDirs here p).2 := by
  unfold makeDirs
  dsimp only
  split
  · exact .refl [] d
  · exact touchesOnly_makeDirAfter fun d => touchesOnly_makeParents _ _ d

/-! ## Places -/

/-- Where a path leads if it can be followed at all. -/
def place (here : Location) (p : Path) : Location :=
  p.names.foldl step (start here p)

theorem walk_eq_ok {d : Disk} {here location : Location} {names : List String}
    (h : d.walk here names = .ok location) : location = names.foldl step here := by
  induction names generalizing here with
  | nil => exact (Except.ok.inj h).symm
  | cons name names ih =>
      rw [walk_cons_of_directory (isDirectory_of_walk_cons h)] at h
      exact ih h

/-- A walk is not diverted as long as directories stay. -/
theorem TouchesOnly.walk {places : List Location} {d d' : Disk} (touched : TouchesOnly places d d')
    {here location : Location} {names : List String} (h : d.walk here names = .ok location) :
    d'.walk here names = .ok location := by
  induction names generalizing here with
  | nil => exact h
  | cons name names ih =>
      have found := isDirectory_of_walk_cons h
      rw [walk_cons_of_directory found] at h
      rw [walk_cons_of_directory (touched.directories here found)]
      exact ih h

theorem touchesOnly_write {d d' : Disk} {here : Location} {p : Path} {content : List UInt8}
    (h : d.write here p content = .ok d') : TouchesOnly [place here p] d d' := by
  obtain ⟨-, -, location, walked, vacant, rfl⟩ := write_eq_ok_iff.mp h
  rw [walk_eq_ok walked] at vacant ⊢
  exact touchesOnly_put vacant _

/-! ## Contents -/

theorem stored?_eq_some_iff {d : Disk} {location : Location} {node : Node} :
    d.stored? location = some node ↔ d.find? location = some node ∧ node ≠ .directory := by
  simp [stored?, Option.filter_eq_some_iff]

/-- A path can be read when it can be followed to something that is stored. -/
theorem read_eq_ok_iff {d : Disk} {here : Location} {p : Path} (text : p.text.isEmpty = false)
    (slash : p.endsInSlash = false) {content : List UInt8} :
    d.read here p = .ok content ↔
      d.walk (start here p) p.names = .ok (place here p) ∧
        ∃ node, d.stored? (place here p) = some node ∧ content = node.content := by
  constructor
  · intro h
    cases walked : d.walk (start here p) p.names with
    | error fault =>
        have located : d.locate here p = .error fault := by
          simp [locate, text, slash, walked]
        rw [read, resolve, located] at h
        cases h
    | ok location =>
        obtain rfl : location = place here p := walk_eq_ok walked
        refine ⟨rfl, ?_⟩
        rw [read_of_walk text slash walked] at h
        cases found : d.find? (place here p) with
        | none =>
            rw [found] at h
            cases h
        | some node =>
            rw [found] at h
            cases node with
            | directory => cases h  -- a directory is found, but not read
            | file bytes =>
                exact ⟨.file bytes, stored?_eq_some_iff.mpr ⟨found, by simp⟩,
                  (Except.ok.inj h).symm⟩
            | program program =>
                exact ⟨.program program, stored?_eq_some_iff.mpr ⟨found, by simp⟩,
                  (Except.ok.inj h).symm⟩
  · rintro ⟨walked, node, stored, rfl⟩
    obtain ⟨found, kind⟩ := stored?_eq_some_iff.mp stored
    rw [read_of_walk text slash walked, found]
    cases node with
    | directory => exact absurd rfl kind
    | file bytes => rfl
    | program program => rfl

end Disk

namespace Host

/-- The place of a path, seen from the working directory. -/
def place (h : Host) (p : Path) : Location :=
  Disk.place h.directory p

/-- What is stored at the place of a path. -/
def stored? (h : Host) (p : Path) : Option Node :=
  h.disk.stored? (h.place p)

/-- The second host is made from the first by touching the files of some paths and by making
directories. -/
structure TouchesOnly (paths : List Path) (h h' : Host) : Prop where
  /-- The working directory is the same. -/
  directory : h'.directory = h.directory
  /-- The disk is touched at the places of these paths only. -/
  disk : h.disk.TouchesOnly (paths.map h.place) h'.disk

/-- The file of a path is what it was. -/
structure Keeps (p : Path) (h h' : Host) : Prop where
  /-- The same is stored at its place, or still nothing. -/
  stored : h'.stored? p = h.stored? p
  /-- What could be read is still read. -/
  content : ∀ bytes, h.contentOf p = .ok bytes → h'.contentOf p = .ok bytes
  /-- Where there was no file, none can be read. -/
  absent : h.stored? p = none → ∀ bytes, h'.contentOf p ≠ .ok bytes

namespace TouchesOnly

variable {paths more : List Path} {h h' h'' : Host}

theorem refl (paths : List Path) (h : Host) : TouchesOnly paths h h :=
  ⟨rfl, .refl _ h.disk⟩

theorem place_eq (touched : TouchesOnly paths h h') : h'.place = h.place := by
  funext p
  rw [place, place, touched.directory]

theorem trans (first : TouchesOnly paths h h') (second : TouchesOnly paths h' h'') :
    TouchesOnly paths h h'' := by
  have disk := second.disk
  rw [first.place_eq] at disk
  exact ⟨second.directory.trans first.directory, first.disk.trans disk⟩

theorem mono (touched : TouchesOnly paths h h') (wider : paths ⊆ more) : TouchesOnly more h h' :=
  ⟨touched.directory, touched.disk.mono (List.map_subset h.place wider)⟩

theorem followed {a b whole : List Path} (first : TouchesOnly a h h')
    (second : TouchesOnly b h' h'') (ha : a ⊆ whole) (hb : b ⊆ whole) :
    TouchesOnly whole h h'' :=
  (first.mono ha).trans (second.mono hb)

/-- A file whose place is not touched is what it was. -/
theorem keeps (touched : TouchesOnly paths h h') {p : Path} (text : p.text.isEmpty = false)
    (slash : p.endsInSlash = false) (apart : ∀ q ∈ paths, h.place p ≠ h.place q) :
    Keeps p h h' := by
  have outside : h.place p ∉ paths.map h.place := by
    intro inside
    obtain ⟨q, hq, same⟩ := List.mem_map.mp inside
    exact apart q hq same.symm
  have stored : h'.stored? p = h.stored? p := by
    rw [stored?, stored?, touched.place_eq]
    exact touched.disk.stored _ outside
  refine ⟨stored, ?_, ?_⟩
  -- directories on the way are still there, so the path still leads to the place
  · intro bytes readable
    obtain ⟨walked, node, found, rfl⟩ := (Disk.read_eq_ok_iff text slash).mp readable
    rw [contentOf, touched.directory]
    refine (Disk.read_eq_ok_iff text slash).mpr ⟨touched.disk.walk walked, node, ?_, rfl⟩
    rw [← found]
    exact touched.disk.stored _ outside
  · intro vacant bytes readable
    obtain ⟨-, node, found, -⟩ := (Disk.read_eq_ok_iff text slash).mp readable
    have occupied : h'.stored? p = some node := found
    rw [stored, vacant] at occupied
    cases occupied

end TouchesOnly

/-! ## Actions -/

section

variable {α β : Type} {h h' : Host} {e : Error}

/-- A file that cannot be written is a fault of the disk, and leaves everything as it was. -/
theorem exists_fault_of_writeText {p : Path} {text : String}
    (fails : Fails (writeText p text) h e h') : ∃ fault, e = .disk fault ∧ h' = h := by
  rw [Fails, writeText, outcome_writeFile] at fails
  cases written : h.disk.write h.directory p (Text.utf8 text) with
  | ok disk =>
      rw [written] at fails
      cases fails
  | error fault =>
      rw [written] at fails
      obtain ⟨wrong, host⟩ := Prod.mk.inj fails
      exact ⟨fault, (Except.error.inj wrong).symm, host.symm⟩

/-- Writing a file touches its place, whether it can be written or not. -/
theorem touchesOnly_writeFile (p : Path) (content : List UInt8) (h : Host) :
    TouchesOnly [p] h (outcome (writeFile p content) h).2 := by
  rw [outcome_writeFile]
  cases written : h.disk.write h.directory p content with
  | ok disk => exact ⟨rfl, Disk.touchesOnly_write written⟩
  | error fault => exact .refl _ h

theorem log_writeFile (p : Path) (content : List UInt8) (h : Host) :
    (outcome (writeFile p content) h).2.log = h.log := by
  rw [outcome_writeFile]
  cases h.disk.write h.directory p content with
  | ok disk => rfl
  | error fault => rfl

theorem touchesOnly_writeText {p : Path} {text : String} {a : Unit}
    (ends : Yields (writeText p text) h a h') : TouchesOnly [p] h h' := by
  have touched := touchesOnly_writeFile p (Text.utf8 text) h
  rw [Yields, writeText] at ends
  rwa [ends] at touched

theorem log_writeText {p : Path} {text : String} {a : Unit}
    (ends : Yields (writeText p text) h a h') : h'.log = h.log := by
  have same := log_writeFile p (Text.utf8 text) h
  rw [Yields, writeText] at ends
  rwa [ends] at same

theorem outcome_makeDirs (p : Path) (h : Host) :
    outcome (makeDirs p) h = outcome (liftFault .disk (h.disk.makeDirs h.directory p).1)
      { h with disk := (h.disk.makeDirs h.directory p).2 } :=
  rfl

theorem outcome_liftFault_snd {ε : Type} (error : ε → Error) (result : Except ε α) (h : Host) :
    (outcome (liftFault error result) h).2 = h := by
  cases result with
  | ok a => rfl
  | error fault => rfl

/-- Making a directory and all that it lies in touches nothing, whether it ends well or not. -/
theorem touchesOnly_makeDirs (p : Path) (h : Host) :
    TouchesOnly [] h (outcome (makeDirs p) h).2 := by
  rw [outcome_makeDirs, outcome_liftFault_snd]
  exact ⟨rfl, Disk.touchesOnly_makeDirs h.disk h.directory p⟩

theorem log_makeDirs (p : Path) (h : Host) : (outcome (makeDirs p) h).2.log = h.log := by
  rw [outcome_makeDirs, outcome_liftFault_snd]

theorem exists_fault_of_makeDirs {p : Path} (fails : Fails (makeDirs p) h e h') :
    ∃ fault, e = .disk fault := by
  rw [Fails, outcome_makeDirs] at fails
  obtain ⟨fault, -, wrong, -⟩ := fails_liftFault_iff.mp fails
  exact ⟨fault, wrong⟩

end

end Host

end EncoderVectors
