import EncoderVectors.Proofs.Host.Footprint
import EncoderVectors.Toolchain.Binutils
import EncoderVectors.Toolchain.Recorded

/-!
# Tools that keep to the object

A toolchain is confined when its three actions touch nothing but the object and the copy that an
object copier makes beside it, however they end (`Toolchain.Confined`). Logging calls changes nothing
about that, and then each call shows in the log, before what is logged during the call.

Recorded tools are confined (`Recording.confined`), and so are three programs (`Binutils.confined`):
a program writes to the file named by its last argument, and that is the object or its copy. Programs
never report a label out of reach either (`Binutils.leavesLabels`).
-/

set_option autoImplicit false

namespace EncoderVectors

namespace Host

/-- Whatever happened happened to an object and its copy, and lines were added to the log. -/
structure WorksOn (object : Path) (h h' : Host) : Prop where
  /-- Only the object and its copy are touched. -/
  files : TouchesOnly [object, object.withExtension "bin"] h h'
  /-- The log only grows. -/
  log : ∃ own, h'.log = h.log ++ own

/-- However the action ends, it worked on the object only. -/
def KeepsTo {α : Type} (object : Path) (x : HostM α) : Prop :=
  ∀ h, WorksOn object h (outcome x h).2

/-- The action never reports a label out of reach. -/
def LeavesLabels {α : Type} (x : HostM α) : Prop :=
  ∀ h fault h', ¬ Fails x h (.reach fault) h'

/-- The log grew by calls in order, each followed by what was logged during the call. -/
def Logs (calls : List (List String)) (h h' : Host) : Prop :=
  ∃ own, own.length = calls.length ∧ h'.log = h.log ++ (List.zipWith List.cons calls own).flatten

section

variable {α β : Type} {object : Path} {h h' h'' : Host}

theorem WorksOn.refl (object : Path) (h : Host) : WorksOn object h h :=
  ⟨.refl _ h, [], by simp⟩

theorem WorksOn.trans (first : WorksOn object h h') (second : WorksOn object h' h'') :
    WorksOn object h h'' := by
  obtain ⟨own, log⟩ := first.log
  obtain ⟨own', log'⟩ := second.log
  refine ⟨first.files.trans second.files, own ++ own', ?_⟩
  rw [log', log, List.append_assoc]

/-- Work after a line in the log is work, and shows that line. -/
theorem WorksOn.of_note {line : List String}
    (works : WorksOn object { h with log := h.log ++ [line] } h') :
    WorksOn object h h' ∧ Logs [line] h h' := by
  obtain ⟨own, log⟩ := works.log
  have grown : h'.log = h.log ++ line :: own := by
    rw [log, List.append_assoc]
    rfl
  refine ⟨⟨⟨works.files.directory, works.files.disk⟩, line :: own, grown⟩, [own], rfl, ?_⟩
  rw [grown]
  simp

theorem logs_nil (same : h'.log = h.log) : Logs [] h h' :=
  ⟨[], rfl, by simp [same]⟩

theorem Logs.append {calls more : List (List String)} (first : Logs calls h h')
    (second : Logs more h' h'') : Logs (calls ++ more) h h'' := by
  obtain ⟨own, length, log⟩ := first
  obtain ⟨own', length', log'⟩ := second
  refine ⟨own ++ own', by simp [length, length'], ?_⟩
  rw [log', log, List.zipWith_append length.symm, List.flatten_append, List.append_assoc]

/-! ## Actions that keep to an object -/

/-- An action that leaves every host as it is keeps to any object. -/
theorem keepsTo_of_same {x : HostM α} (same : ∀ h, (outcome x h).2 = h) : KeepsTo object x := by
  intro h
  rw [same h]
  exact .refl object h

theorem keepsTo_pure (a : α) : KeepsTo object (pure a) :=
  keepsTo_of_same fun _ => rfl

theorem keepsTo_throw (e : Error) : KeepsTo object (throw e : HostM α) :=
  keepsTo_of_same fun _ => rfl

theorem keepsTo_readFile (p : Path) : KeepsTo object (readFile p) :=
  keepsTo_of_same fun h => outcome_liftFault_snd .disk (h.contentOf p) h

theorem KeepsTo.bind {x : HostM α} {f : α → HostM β} (first : KeepsTo object x)
    (second : ∀ a, KeepsTo object (f a)) : KeepsTo object (x >>= f) := by
  intro h
  have works := first h
  rw [outcome_bind]
  rcases ends : outcome x h with ⟨result, middle⟩
  rw [ends] at works
  cases result with
  | error e => exact works  -- the second action is not started
  | ok a => exact works.trans (second a middle)

theorem keepsTo_readCode (p : Path) : KeepsTo object (readCode p) := by
  refine (keepsTo_readFile p).bind fun image => ?_
  refine KeepsTo.bind (keepsTo_of_same (outcome_liftFault_snd .object _)) fun code => ?_
  cases code with
  | none => exact keepsTo_throw _
  | some code => exact keepsTo_pure code

theorem keepsTo_writeFile (content : List UInt8) : KeepsTo object (writeFile object content) := by
  intro h
  refine ⟨(touchesOnly_writeFile object content h).mono (by simp), [], ?_⟩
  rw [log_writeFile, List.append_nil]

theorem keepsTo_note (line : List String) : KeepsTo object (note line) := by
  intro h
  exact ⟨⟨rfl, .refl _ _⟩, [line], rfl⟩

theorem outcome_modify (change : Host → Host) (h : Host) :
    outcome (modify change : HostM Unit) h = (.ok (), change h) :=
  rfl

/-- What a program makes goes to the file named by its last argument. -/
theorem keepsTo_deliver (program : Program) {args : List String} {target : Path}
    (last : args.getLast? = some target.text)
    (own : target ∈ [object, object.withExtension "bin"]) :
    KeepsTo object (deliver program args) := by
  intro h
  rw [deliver, outcome_modify, last]
  cases program.product with
  | none => exact .refl object h
  | some content =>
      dsimp only
      cases written : h.disk.write h.directory target content with
      | error fault => exact .refl object h  -- what cannot be delivered is lost
      | ok disk =>
          have touched : TouchesOnly [target] h { h with disk := disk } :=
            ⟨rfl, Disk.touchesOnly_write written⟩
          exact ⟨touched.mono (by simpa using own), [], by simp⟩

theorem keepsTo_ending (program : Program) (tool : Path) :
    KeepsTo object (if !program.ending.isSuccess then
      throw (.toolFailed tool.text program.ending (Text.ofUtf8Lenient program.complaint)) >>=
        fun _ : Unit => pure program.output
      else pure program.output : HostM (List UInt8)) := by
  split
  · exact (keepsTo_throw _).bind fun _ => keepsTo_pure _
  · exact keepsTo_pure _

/-- A program that is run keeps to an object if its last argument does. -/
theorem keepsTo_runProgram (tool target : Path) {args : List String}
    (last : args.getLast? = some target.text)
    (own : target ∈ [object, object.withExtension "bin"]) :
    KeepsTo object (runProgram tool args) := by
  refine KeepsTo.bind (keepsTo_of_same fun _ => rfl) fun start => ?_
  split
  · exact keepsTo_throw _
  · rename_i program _
    dsimp only
    -- a program that is started is noted, delivers, and then ends well or not
    have started := (@keepsTo_note object (program.name :: args)).bind fun _ =>
      (keepsTo_deliver program last own).bind fun _ => keepsTo_ending program tool
    split
    · exact (keepsTo_throw _).bind fun _ => started
    · exact started

/-! ## Actions that leave labels alone -/

theorem leavesLabels_pure (a : α) : LeavesLabels (pure a) :=
  fun _ _ _ => not_fails_pure

theorem leavesLabels_throw {e : Error} (other : ∀ fault, e ≠ .reach fault) :
    LeavesLabels (throw e : HostM α) := by
  intro h fault h' fails
  exact other fault (Except.error.inj (Prod.mk.inj fails).1)

theorem leavesLabels_liftFault {ε : Type} {error : ε → Error}
    (other : ∀ wrong fault, error wrong ≠ .reach fault) (result : Except ε α) :
    LeavesLabels (liftFault error result) := by
  intro h fault h' fails
  obtain ⟨wrong, -, same, -⟩ := fails_liftFault_iff.mp fails
  exact other wrong fault same.symm

theorem LeavesLabels.bind {x : HostM α} {f : α → HostM β} (first : LeavesLabels x)
    (second : ∀ a, LeavesLabels (f a)) : LeavesLabels (x >>= f) := by
  intro h fault h' fails
  rcases fails_bind_iff.mp fails with atFirst | ⟨a, middle, -, atSecond⟩
  · exact first h fault h' atFirst
  · exact second a middle fault h' atSecond

theorem leavesLabels_get : LeavesLabels (get : HostM Host) := by
  intro h fault h' fails
  cases fails

theorem leavesLabels_modify (change : Host → Host) : LeavesLabels (modify change : HostM Unit) := by
  intro h fault h' fails
  cases fails

theorem leavesLabels_note (line : List String) : LeavesLabels (note line) :=
  leavesLabels_modify _

theorem leavesLabels_deliver (program : Program) (args : List String) :
    LeavesLabels (deliver program args) :=
  leavesLabels_modify _

theorem leavesLabels_readFile (p : Path) : LeavesLabels (readFile p) := by
  intro h
  exact leavesLabels_liftFault (by simp) (h.contentOf p) h

theorem leavesLabels_readCode (p : Path) : LeavesLabels (readCode p) := by
  refine (leavesLabels_readFile p).bind fun image => ?_
  refine (leavesLabels_liftFault (by simp) _).bind fun code => ?_
  cases code with
  | none => exact leavesLabels_throw (by simp)
  | some code => exact leavesLabels_pure code

theorem leavesLabels_ending (program : Program) (tool : Path) :
    LeavesLabels (if !program.ending.isSuccess then
      throw (.toolFailed tool.text program.ending (Text.ofUtf8Lenient program.complaint)) >>=
        fun _ : Unit => pure program.output
      else pure program.output : HostM (List UInt8)) := by
  split
  · exact (leavesLabels_throw (by simp)).bind fun _ => leavesLabels_pure _
  · exact leavesLabels_pure _

theorem leavesLabels_runProgram (tool : Path) (args : List String) :
    LeavesLabels (runProgram tool args) := by
  refine leavesLabels_get.bind fun start => ?_
  split
  · exact leavesLabels_throw (by simp)
  · rename_i program _
    dsimp only
    have started := (leavesLabels_note (program.name :: args)).bind fun _ =>
      (leavesLabels_deliver program args).bind fun _ => leavesLabels_ending program tool
    split
    · exact (leavesLabels_throw (by simp)).bind fun _ => started
    · exact started

end

end Host

open Host

/-! ## Toolchains -/

/-- Tools that keep to the object: whatever they do, and however they end, they touch nothing but the
object and its copy. -/
structure Toolchain.Confined (t : Toolchain) : Prop where
  /-- The assembler does. -/
  assemble : ∀ source object, KeepsTo object (t.assemble source object)
  /-- The disassembler does. -/
  disassemble : ∀ object, KeepsTo object (t.disassemble object)
  /-- Taking out the code does. -/
  extract : ∀ object, KeepsTo object (t.extract object)

/-- No tool reports a label out of reach. -/
structure Toolchain.LeavesLabels (t : Toolchain) : Prop where
  /-- The assembler does not. -/
  assemble : ∀ source object, Host.LeavesLabels (t.assemble source object)
  /-- The disassembler does not. -/
  disassemble : ∀ object, Host.LeavesLabels (t.disassemble object)
  /-- Taking out the code does not. -/
  extract : ∀ object, Host.LeavesLabels (t.extract object)

namespace Toolchain

variable {t : Toolchain}

/-- Tools whose calls are logged keep to the object as they did. -/
theorem Confined.logged (confined : t.Confined) : t.logged.Confined where
  assemble := by
    intro source object
    exact (keepsTo_note _).bind fun _ => confined.assemble source object
  disassemble := by
    intro object
    exact (keepsTo_note _).bind fun _ => confined.disassemble object
  extract := by
    intro object
    exact (keepsTo_note _).bind fun _ => confined.extract object

theorem LeavesLabels.logged (leaves : t.LeavesLabels) : t.logged.LeavesLabels where
  assemble := by
    intro source object
    exact (leavesLabels_note _).bind fun _ => leaves.assemble source object
  disassemble := by
    intro object
    exact (leavesLabels_note _).bind fun _ => leaves.disassemble object
  extract := by
    intro object
    exact (leavesLabels_note _).bind fun _ => leaves.extract object

theorem Confined.logs_assemble (confined : t.Confined) (source object : Path) (h : Host) :
    Logs [["assemble", source.text, object.text]] h
      (outcome (t.logged.assemble source object) h).2 :=
  (confined.assemble source object { h with log := h.log ++ [_] }).of_note.2

theorem Confined.logs_disassemble (confined : t.Confined) (object : Path) (h : Host) :
    Logs [["disassemble", object.text]] h (outcome (t.logged.disassemble object) h).2 :=
  (confined.disassemble object { h with log := h.log ++ [_] }).of_note.2

theorem Confined.logs_extract (confined : t.Confined) (object : Path) (h : Host) :
    Logs [["extract", object.text]] h (outcome (t.logged.extract object) h).2 :=
  (confined.extract object { h with log := h.log ++ [_] }).of_note.2

end Toolchain

theorem Recording.keepsTo_failWith (object : Path) (failure : Option Error) :
    KeepsTo object (failWith failure) := by
  cases failure with
  | none => exact keepsTo_pure ()
  | some error => exact keepsTo_throw error

/-- Recorded tools write nothing but the object. -/
theorem Recording.confined (rec : Recording) : rec.toolchain.Confined where
  assemble := by
    intro source object
    refine (keepsTo_failWith object _).bind fun _ => ?_
    cases rec.object with
    | none => exact keepsTo_pure ()
    | some content => exact keepsTo_writeFile content
  disassemble := by
    intro object
    exact (keepsTo_failWith object _).bind fun _ => keepsTo_pure _
  extract := by
    intro object
    refine (keepsTo_failWith object _).bind fun _ => ?_
    cases rec.code with
    | none => exact keepsTo_readCode object
    | some code => exact keepsTo_pure code

theorem Binutils.keepsTo_required (object : Path) (tool : Option Path) (name : String) :
    KeepsTo object (required tool name) := by
  cases tool with
  | none => exact keepsTo_throw _
  | some path => exact keepsTo_pure path

theorem Binutils.leavesLabels_required (tool : Option Path) (name : String) :
    Host.LeavesLabels (required tool name) := by
  cases tool with
  | none => exact leavesLabels_throw (by simp)
  | some path => exact leavesLabels_pure path

/-- Three programs write nothing but the object and its copy. -/
theorem Binutils.confined (b : Binutils) : b.toolchain.Confined where
  assemble := by
    intro source object
    have last : (b.assemblerArgs source object).getLast? = some object.text := by
      rw [assemblerArgs, List.getLast?_append]
      rfl
    exact (keepsTo_runProgram b.assembler object last (by simp)).bind fun _ => keepsTo_pure ()
  disassemble := by
    intro object
    -- the object stands last, though it is only read
    refine (keepsTo_required object _ _).bind fun objdump => ?_
    exact (keepsTo_runProgram objdump object rfl (by simp)).bind fun _ => keepsTo_pure _
  extract := by
    intro object
    dsimp only [toolchain]
    cases b.extraction with
    | elf => exact keepsTo_readCode object
    | objcopy =>
        refine (keepsTo_required object _ _).bind fun objcopy => ?_
        exact (keepsTo_runProgram objcopy (object.withExtension "bin") rfl (by simp)).bind fun _ =>
          keepsTo_readFile _

/-- Three programs never report a label out of reach. -/
theorem Binutils.leavesLabels (b : Binutils) : b.toolchain.LeavesLabels where
  assemble := by
    intro source object
    exact (leavesLabels_runProgram _ _).bind fun _ => leavesLabels_pure ()
  disassemble := by
    intro object
    refine (leavesLabels_required _ _).bind fun objdump => ?_
    exact (leavesLabels_runProgram _ _).bind fun _ => leavesLabels_pure _
  extract := by
    intro object
    dsimp only [toolchain]
    cases b.extraction with
    | elf => exact leavesLabels_readCode object
    | objcopy =>
        refine (leavesLabels_required _ _).bind fun objcopy => ?_
        exact (leavesLabels_runProgram _ _).bind fun _ => leavesLabels_readFile _

end EncoderVectors
