import EncoderVectors.Host.Basic
import EncoderVectors.Proofs.Host.Files

/-!
# How actions end

`Host.Yields x h a h'` says that the action `x`, started on the host `h`, ends well: it yields `a` and
leaves the host `h'`. Actions one after another end well exactly when each of them does, on the host
that the one before it leaves. `Host.Fails x h e h'` says that the action stops with the error `e` and
leaves `h'`. Of actions one after another, one fails after all before it ended well, and what it leaves
is what is left.
-/

set_option autoImplicit false

namespace EncoderVectors.Host

/-- How an action ends that is started on a host, and what it leaves. -/
def outcome {α : Type} (x : HostM α) (h : Host) : Except Error α × Host :=
  x.run.run h

/-- The action, started on `h`, yields `a` and leaves `h'`. -/
def Yields {α : Type} (x : HostM α) (h : Host) (a : α) (h' : Host) : Prop :=
  outcome x h = (.ok a, h')

/-- The action, started on `h`, stops with an error and leaves `h'`. -/
def Fails {α : Type} (x : HostM α) (h : Host) (e : Error) (h' : Host) : Prop :=
  outcome x h = (.error e, h')

/-- What a path leads to, seen from the working directory. -/
def contentOf (h : Host) (p : Path) : Except Disk.Fault (List UInt8) :=
  h.disk.read h.directory p

/-- A path leads to a file with that text. -/
def Holds (h : Host) (p : Path) (text : String) : Prop :=
  h.contentOf p = .ok (Text.utf8 text)

section

variable {α β : Type} {h h' : Host} {e : Error}

theorem outcome_bind (x : HostM α) (f : α → HostM β) (h : Host) :
    outcome (x >>= f) h =
      match outcome x h with
      | (.ok a, middle) => outcome (f a) middle
      | (.error e, middle) => (.error e, middle) := by
  change (match outcome x h with
    | (r, middle) => (ExceptT.bindCont f r).run middle) = _
  rcases outcome x h with ⟨r, middle⟩
  cases r with
  | ok a => rfl
  | error e => rfl

theorem outcome_writeFile (p : Path) (content : List UInt8) (h : Host) :
    outcome (writeFile p content) h =
      match h.disk.write h.directory p content with
      | .ok disk => (.ok (), { h with disk := disk })
      | .error fault => (.error (.disk fault), h) := by
  have start : outcome (get : HostM Host) h = (.ok h, h) := rfl
  rw [writeFile, outcome_bind, start]
  dsimp only
  rw [outcome_bind]
  cases h.disk.write h.directory p content with
  | ok disk => rfl
  | error fault => rfl

/-- Writing a file leaves what lies beside it alone, whether it can be written or not. -/
theorem contentOf_writeFile {p q : Path} (siblings : p.Siblings q) (content : List UInt8)
    (h : Host) : (outcome (writeFile p content) h).2.contentOf q = h.contentOf q := by
  rw [outcome_writeFile]
  cases written : h.disk.write h.directory p content with
  | ok disk => exact Disk.read_write_sibling siblings written
  | error fault => rfl

theorem yields_pure_iff {a b : α} : Yields (pure a) h b h' ↔ b = a ∧ h' = h := by
  constructor
  · intro ends
    obtain ⟨value, host⟩ := Prod.mk.inj ends
    exact ⟨(Except.ok.inj value).symm, host.symm⟩
  · rintro ⟨rfl, rfl⟩
    rfl

/-- Two actions one after the other. -/
theorem yields_bind_iff {x : HostM α} {f : α → HostM β} {b : β} :
    Yields (x >>= f) h b h' ↔ ∃ a middle, Yields x h a middle ∧ Yields (f a) middle b h' := by
  unfold Yields
  rw [outcome_bind]
  rcases outcome x h with ⟨r, middle⟩
  cases r with
  | error e => simp
  | ok a =>
      constructor
      · intro ends
        exact ⟨a, middle, rfl, ends⟩
      · rintro ⟨a', middle', first, second⟩
        cases first
        exact second

theorem yields_map_iff {x : HostM α} {f : α → β} {b : β} :
    Yields (f <$> x) h b h' ↔ ∃ a, Yields x h a h' ∧ b = f a := by
  have form : f <$> x = x >>= fun a => pure (f a) := rfl
  rw [form, yields_bind_iff]
  constructor
  · rintro ⟨a, middle, ends, last⟩
    obtain ⟨rfl, rfl⟩ := yields_pure_iff.mp last
    exact ⟨a, ends, rfl⟩
  · rintro ⟨a, ends, rfl⟩
    exact ⟨a, h', ends, rfl⟩

theorem yields_liftFault_iff {ε : Type} {error : ε → Error} {result : Except ε α} {a : α} :
    Yields (liftFault error result) h a h' ↔ result = .ok a ∧ h' = h := by
  cases result with
  | ok b =>
      rw [liftFault, yields_pure_iff, Except.ok.injEq, eq_comm]
  | error fault =>
      constructor
      · intro ends
        cases ends
      · rintro ⟨ends, -⟩
        cases ends

/-- A file is read as it stands on the disk, and nothing changes. -/
theorem yields_readFile_iff {p : Path} {content : List UInt8} :
    Yields (readFile p) h content h' ↔ h.contentOf p = .ok content ∧ h' = h := by
  have form : Yields (readFile p) h content h' ↔
      Yields (liftFault .disk (h.contentOf p)) h content h' := Iff.rfl
  rw [form, yields_liftFault_iff]

/-- Two actions one after the other fail in the first or in the second. -/
theorem fails_bind_iff {x : HostM α} {f : α → HostM β} :
    Fails (x >>= f) h e h' ↔
      Fails x h e h' ∨ ∃ a middle, Yields x h a middle ∧ Fails (f a) middle e h' := by
  unfold Fails Yields
  rw [outcome_bind]
  rcases outcome x h with ⟨r, middle⟩
  cases r with
  | error e' => simp
  | ok a =>
      constructor
      · intro fails
        exact Or.inr ⟨a, middle, rfl, fails⟩
      · rintro (first | ⟨a', middle', first, second⟩)
        · cases first
        · cases first
          exact second

theorem fails_of_outcome {x : HostM α} (error : (outcome x h).1 = .error e) :
    Fails x h e (outcome x h).2 :=
  Prod.ext error rfl

theorem not_fails_pure {a : α} : ¬ Fails (pure a) h e h' := by
  intro fails
  cases fails

theorem fails_map_iff {x : HostM α} {f : α → β} : Fails (f <$> x) h e h' ↔ Fails x h e h' := by
  have form : f <$> x = x >>= fun a => pure (f a) := rfl
  rw [form, fails_bind_iff]
  constructor
  · rintro (first | ⟨a, middle, -, last⟩)
    · exact first
    · exact absurd last not_fails_pure
  · exact Or.inl

theorem fails_liftFault_iff {ε : Type} {error : ε → Error} {result : Except ε α} :
    Fails (liftFault error result) h e h' ↔
      ∃ fault, result = .error fault ∧ e = error fault ∧ h' = h := by
  cases result with
  | ok a =>
      constructor
      · intro fails
        cases fails
      · rintro ⟨fault, ends, -⟩
        cases ends
  | error fault =>
      constructor
      · intro fails
        obtain ⟨wrong, host⟩ := Prod.mk.inj fails
        exact ⟨fault, rfl, (Except.error.inj wrong).symm, host.symm⟩
      · rintro ⟨fault', ends, rfl, rfl⟩
        obtain rfl := Except.error.inj ends
        rfl

/-- A text that was written is held. -/
theorem holds_of_writeText {p : Path} {text : String} (ends : Yields (writeText p text) h () h') :
    h'.Holds p text := by
  rw [Yields, writeText, outcome_writeFile] at ends
  cases written : h.disk.write h.directory p (Text.utf8 text) with
  | ok disk =>
      rw [written] at ends
      obtain ⟨-, rfl⟩ := Prod.mk.inj ends
      exact Disk.read_write written
  | error fault =>
      rw [written] at ends
      cases ends

/-- Writing a text leaves what lies beside it alone. -/
theorem contentOf_writeText {p q : Path} {text : String} (siblings : p.Siblings q)
    (ends : Yields (writeText p text) h () h') : h'.contentOf q = h.contentOf q := by
  have kept := contentOf_writeFile siblings (Text.utf8 text) h
  rw [Yields, writeText] at ends
  rwa [ends] at kept

end

end EncoderVectors.Host
