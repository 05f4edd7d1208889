import EncoderVectors.CommandLine.Parse
import Mathlib.Data.List.Induction
import Mathlib.Data.List.TakeWhile

/-!
# What a command line gives

A command line spells choices: switches with their values, in order. `Line` is the grammar, with a
rule for every form that an argument can have. Choices are acceptable if every value can be read and
if no switch that holds one value is given twice; `Flags.ofChoices` is what they say, switch by
switch.

Main result: `parse_eq_ok_iff`. The command lines that are accepted are those that spell acceptable
choices, and the flags are what the choices say.
-/

set_option autoImplicit false

namespace EncoderVectors.CommandLine

/-! ## Choices -/

/-- A switch that is given, with its value. A switch that takes no value has the empty one. -/
structure Choice where
  /-- The switch. -/
  switch : Switch
  /-- Its value. -/
  value : String
  deriving DecidableEq, Repr

/-- The values that are given for a switch, in order. -/
def valuesOf (switch : Switch) (l : List Choice) : List String :=
  l.filterMap fun c => if c.switch = switch then some c.value else none

theorem valuesOf_concat (switch : Switch) (l : List Choice) (c : Choice) :
    valuesOf switch (l ++ [c]) =
      if c.switch = switch then valuesOf switch l ++ [c.value] else valuesOf switch l := by
  rw [valuesOf, List.filterMap_append]
  by_cases same : c.switch = switch
  · simp only [if_pos same, List.filterMap_cons, List.filterMap_nil, valuesOf]
  · simp only [if_neg same, List.filterMap_cons, List.filterMap_nil, List.append_nil, valuesOf]

theorem mem_valuesOf_iff {switch : Switch} {l : List Choice} {value : String} :
    value ∈ valuesOf switch l ↔ ⟨switch, value⟩ ∈ l := by
  simp only [valuesOf, List.mem_filterMap]
  constructor
  · rintro ⟨⟨s, w⟩, member, given⟩
    obtain ⟨same, value⟩ := Option.ite_none_right_eq_some.mp given
    cases same
    cases value
    exact member
  · intro member
    exact ⟨_, member, if_pos rfl⟩

/-- The switch may be given more than once. -/
def Switch.repeatable : Switch → Bool
  | .family | .verbose => true
  | _ => false

namespace Choice

/-- The value can be read. The switches that ask for a text stop the reading. -/
def readable (c : Choice) : Bool :=
  match c.switch with
  | .settings | .outputDir => (Flags.readPath? c.value).isSome
  | .seed | .count => (Text.readWord64? c.value).isSome
  | .extraction => (Extraction.ofText c.value).toOption.isSome
  | .help | .version => false
  | _ => true

end Choice

/-- Choices that a command line may make. -/
structure Acceptable (l : List Choice) : Prop where
  /-- Every value can be read. -/
  readable : ∀ c ∈ l, c.readable = true
  /-- A switch that holds one value is given once. -/
  once : ∀ s : Switch, s.repeatable = false → (valuesOf s l).length ≤ 1

theorem acceptable_nil : Acceptable [] :=
  ⟨fun _ member => absurd member List.not_mem_nil, fun _ _ => Nat.zero_le 1⟩

/-- One more choice is acceptable if it can be read and if its switch was not given before, or may be
given again. -/
theorem acceptable_concat_iff {l : List Choice} {c : Choice} :
    Acceptable (l ++ [c]) ↔
      Acceptable l ∧ c.readable = true ∧ (c.switch.repeatable = false → valuesOf c.switch l = []) := by
  constructor
  · intro accepted
    refine ⟨⟨fun d member => ?_, fun s single => ?_⟩, ?_, fun single => ?_⟩
    · exact accepted.readable d (List.mem_append_left [c] member)
    · have few := accepted.once s single
      rw [valuesOf_concat] at few
      split at few
      · rw [List.length_append] at few
        exact Nat.le_of_add_right_le few
      · exact few
    · exact accepted.readable c (List.mem_append_right l List.mem_cons_self)
    · have few := accepted.once c.switch single
      rw [valuesOf_concat, if_pos rfl, List.length_append, List.length_singleton] at few
      exact List.eq_nil_of_length_eq_zero (by omega)
  · rintro ⟨accepted, readable, fresh⟩
    refine ⟨fun d member => ?_, fun s single => ?_⟩
    · obtain member | member := List.mem_append.mp member
      · exact accepted.readable d member
      · exact List.mem_singleton.mp member ▸ readable
    · rw [valuesOf_concat]
      split
      · next same =>
          subst same
          rw [fresh single]
          exact Nat.le_refl 1
      · exact accepted.once s single

/-! ## Giving a switch -/

namespace Flags

/-- What it takes to give a switch, and what the flags are then: a switch that holds one value had
none, its value can be read, and the flag that is its own has changed. -/
inductive Given (f : Flags) : Switch → String → Flags → Prop
  /-- The file with the settings. -/
  | settings {value : String} {a : Path} (fresh : f.settings = none)
      (read : readPath? value = some a) : Given f .settings value { f with settings := some a }
  /-- The seed. -/
  | seed {value : String} {a : UInt64} (fresh : f.seed = none)
      (read : Text.readWord64? value = some a) : Given f .seed value { f with seed := some a }
  /-- One more family. -/
  | family (value : String) : Given f .family value { f with families := f.families ++ [value] }
  /-- The number of instances. -/
  | count {value : String} {a : UInt64} (fresh : f.count = none)
      (read : Text.readWord64? value = some a) :
      Given f .count value { f with count := some a.toNat }
  /-- The text in front of every call. -/
  | callPrefix (value : String) (fresh : f.callPrefix = none) :
      Given f .callPrefix value { f with callPrefix := some value }
  /-- The directory that files are written to. -/
  | outputDir {value : String} {a : Path} (fresh : f.outputDir = none)
      (read : readPath? value = some a) : Given f .outputDir value { f with outputDir := some a }
  /-- The name that all files share. -/
  | baseName (value : String) (fresh : f.baseName = none) :
      Given f .baseName value { f with baseName := some value }
  /-- The text that the names of all tools start with. -/
  | crossPrefix (value : String) (fresh : f.crossPrefix = none) :
      Given f .crossPrefix value { f with crossPrefix := some value }
  /-- How the code is taken out of the object. -/
  | extraction {value : String} {a : Extraction} (fresh : f.extraction = none)
      (read : (Extraction.ofText value).toOption = some a) :
      Given f .extraction value { f with extraction := some a }
  /-- The disassembly is left out. -/
  | noDisassembly (value : String) (fresh : f.noDisassembly = false) :
      Given f .noDisassembly value { f with noDisassembly := true }
  /-- Calls are printed. -/
  | calls (value : String) (fresh : f.calls = false) :
      Given f .calls value { f with calls := true }
  /-- More is said about what is going on. -/
  | verbose (value : String) : Given f .verbose value f

/-- A flag that holds one value had none, and the value can be read. -/
theorem return_once_iff {α : Type} {given value : Option α} {g : Option α → Flags} {f : Flags} :
    (do return g (← once given value) : Except Stop Flags) = .ok f ↔
      given = none ∧ ∃ a, value = some a ∧ f = g (some a) := by
  cases given with
  | some b => exact ⟨nofun, nofun⟩
  | none =>
      cases value with
      | none => exact ⟨nofun, nofun⟩
      | some a =>
          constructor
          · intro h
            exact ⟨rfl, a, rfl, (Except.ok.inj h).symm⟩
          · rintro ⟨-, b, same, rfl⟩
            exact Option.some.inj same ▸ rfl

/-- A mark was not there before. -/
theorem return_mark_iff {given : Bool} {g : Bool → Flags} {f : Flags} :
    (do return g (← mark given) : Except Stop Flags) = .ok f ↔ given = false ∧ f = g true := by
  cases given with
  | true => exact ⟨nofun, nofun⟩
  | false =>
      constructor
      · intro h
        exact ⟨rfl, (Except.ok.inj h).symm⟩
      · rintro ⟨-, rfl⟩
        rfl

theorem given_of_give {f f' : Flags} {switch : Switch} {value : String}
    (h : f.give switch value = .ok f') : f.Given switch value f' := by
  cases switch with
  | family => exact Except.ok.inj h ▸ .family value
  | verbose => exact Except.ok.inj h ▸ .verbose value
  | help => cases h
  | version => cases h
  | noDisassembly =>
      obtain ⟨fresh, rfl⟩ := return_mark_iff.mp h
      exact .noDisassembly value fresh
  | calls =>
      obtain ⟨fresh, rfl⟩ := return_mark_iff.mp h
      exact .calls value fresh
  | settings =>
      obtain ⟨fresh, a, read, rfl⟩ := return_once_iff.mp h
      exact .settings fresh read
  | seed =>
      obtain ⟨fresh, a, read, rfl⟩ := return_once_iff.mp h
      exact .seed fresh read
  | outputDir =>
      obtain ⟨fresh, a, read, rfl⟩ := return_once_iff.mp h
      exact .outputDir fresh read
  | extraction =>
      obtain ⟨fresh, a, read, rfl⟩ := return_once_iff.mp h
      exact .extraction fresh read
  | count =>
      obtain ⟨fresh, n, read, rfl⟩ := return_once_iff.mp h
      obtain ⟨a, word, rfl⟩ := Option.map_eq_some_iff.mp read
      exact .count fresh word
  | callPrefix =>
      obtain ⟨fresh, _, ⟨⟩, rfl⟩ := return_once_iff.mp h
      exact .callPrefix value fresh
  | baseName =>
      obtain ⟨fresh, _, ⟨⟩, rfl⟩ := return_once_iff.mp h
      exact .baseName value fresh
  | crossPrefix =>
      obtain ⟨fresh, _, ⟨⟩, rfl⟩ := return_once_iff.mp h
      exact .crossPrefix value fresh

theorem Given.give {f f' : Flags} {switch : Switch} {value : String}
    (given : f.Given switch value f') : f.give switch value = .ok f' := by
  cases given with
  | family => rfl
  | verbose => rfl
  | noDisassembly value fresh | calls value fresh => exact return_mark_iff.mpr ⟨fresh, rfl⟩
  | count fresh read => exact return_once_iff.mpr ⟨fresh, _, congrArg _ read, rfl⟩
  | settings fresh read | seed fresh read | outputDir fresh read | extraction fresh read =>
      exact return_once_iff.mpr ⟨fresh, _, read, rfl⟩
  | callPrefix value fresh | baseName value fresh | crossPrefix value fresh =>
      exact return_once_iff.mpr ⟨fresh, _, rfl, rfl⟩

/-! ## The flags of choices -/

/-- What choices say, switch by switch. -/
def ofChoices (l : List Choice) : Flags where
  settings := (valuesOf .settings l).head?.bind readPath?
  seed := (valuesOf .seed l).head?.bind Text.readWord64?
  families := valuesOf .family l
  count := (valuesOf .count l).head?.bind fun value => (Text.readWord64? value).map UInt64.toNat
  callPrefix := (valuesOf .callPrefix l).head?
  outputDir := (valuesOf .outputDir l).head?.bind readPath?
  baseName := (valuesOf .baseName l).head?
  crossPrefix := (valuesOf .crossPrefix l).head?
  extraction := (valuesOf .extraction l).head?.bind fun value => (Extraction.ofText value).toOption
  noDisassembly := !(valuesOf .noDisassembly l).isEmpty
  calls := !(valuesOf .calls l).isEmpty

/-- The flags with choices given one after another. -/
def giveAll (f : Flags) (l : List Choice) : Except Stop Flags :=
  l.foldlM (fun f c => f.give c.switch c.value) f

theorem giveAll_cons (f : Flags) (c : Choice) (l : List Choice) :
    f.giveAll (c :: l) = f.give c.switch c.value >>= fun f => f.giveAll l :=
  List.foldlM_cons ..

theorem giveAll_append (f : Flags) (l l' : List Choice) :
    f.giveAll (l ++ l') = f.giveAll l >>= fun f => f.giveAll l' :=
  List.foldlM_append ..

theorem giveAll_singleton (f : Flags) (c : Choice) : f.giveAll [c] = f.give c.switch c.value :=
  bind_pure _

theorem giveAll_concat_eq_ok_iff {f f' : Flags} {l : List Choice} {c : Choice} :
    f.giveAll (l ++ [c]) = .ok f' ↔
      ∃ g, f.giveAll l = .ok g ∧ g.give c.switch c.value = .ok f' := by
  simp only [giveAll_append, giveAll_singleton]
  cases f.giveAll l with
  | error stop =>
      constructor
      · intro h
        cases h
      · rintro ⟨_, same, -⟩
        cases same
  | ok g =>
      constructor
      · intro h
        exact ⟨g, rfl, h⟩
      · rintro ⟨_, same, h⟩
        cases same
        exact h

/-- A value that was given can be read, so a flag without a value was not given. -/
theorem valuesOf_eq_nil {α : Type} {l : List Choice} (accepted : Acceptable l) {switch : Switch}
    {read : String → Option α}
    (readable : ∀ value, Choice.readable ⟨switch, value⟩ = (read value).isSome)
    (fresh : (valuesOf switch l).head?.bind read = none) : valuesOf switch l = [] := by
  cases given : valuesOf switch l with
  | nil => rfl
  | cons value rest =>
      have member : ⟨switch, value⟩ ∈ l := mem_valuesOf_iff.mp (given ▸ List.mem_cons_self)
      have can := accepted.readable _ member
      rw [given] at fresh
      rw [readable, show read value = none from fresh] at can
      cases can

/-- A switch that can be given after acceptable choices: the flags are those of one choice more. -/
theorem Given.eq_ofChoices {l : List Choice} (accepted : Acceptable l) {switch : Switch}
    {value : String} {f : Flags} (given : (ofChoices l).Given switch value f) :
    Acceptable (l ++ [⟨switch, value⟩]) ∧ f = ofChoices (l ++ [⟨switch, value⟩]) := by
  rw [acceptable_concat_iff]
  cases given with
  | settings fresh read | seed fresh read | outputDir fresh read | extraction fresh read =>
      have first := valuesOf_eq_nil accepted (fun _ => rfl) fresh
      exact ⟨⟨accepted, by simp [Choice.readable, read], fun _ => first⟩,
        by simp [ofChoices, valuesOf_concat, first, read]⟩
  | count fresh read =>
      have readable (value : String) : Choice.readable ⟨.count, value⟩ =
          ((Text.readWord64? value).map UInt64.toNat).isSome := Option.isSome_map.symm
      have first := valuesOf_eq_nil accepted readable fresh
      exact ⟨⟨accepted, by simp [Choice.readable, read], fun _ => first⟩,
        by simp [ofChoices, valuesOf_concat, first, read]⟩
  | callPrefix _ fresh | baseName _ fresh | crossPrefix _ fresh =>
      have first := List.head?_eq_none_iff.mp fresh
      exact ⟨⟨accepted, rfl, fun _ => first⟩, by simp [ofChoices, valuesOf_concat, first]⟩
  | noDisassembly _ fresh =>
      have first : valuesOf .noDisassembly l = [] := by simpa [ofChoices] using fresh
      exact ⟨⟨accepted, rfl, fun _ => first⟩, by simp [ofChoices, valuesOf_concat]⟩
  | calls _ fresh =>
      have first : valuesOf .calls l = [] := by simpa [ofChoices] using fresh
      exact ⟨⟨accepted, rfl, fun _ => first⟩, by simp [ofChoices, valuesOf_concat]⟩
  | family | verbose =>
      exact ⟨⟨accepted, rfl, nofun⟩, by simp [ofChoices, valuesOf_concat]⟩

/-- Acceptable choices can be given. -/
theorem exists_given {l : List Choice} {c : Choice} (accepted : Acceptable (l ++ [c])) :
    ∃ f, (ofChoices l).Given c.switch c.value f := by
  obtain ⟨switch, value⟩ := c
  obtain ⟨-, readable, first⟩ := acceptable_concat_iff.mp accepted
  cases switch with
  | settings =>
      obtain ⟨a, read⟩ := Option.isSome_iff_exists.mp readable
      exact ⟨_, .settings (by simp [ofChoices, first rfl]) read⟩
  | seed =>
      obtain ⟨a, read⟩ := Option.isSome_iff_exists.mp readable
      exact ⟨_, .seed (by simp [ofChoices, first rfl]) read⟩
  | family => exact ⟨_, .family value⟩
  | count =>
      obtain ⟨a, read⟩ := Option.isSome_iff_exists.mp readable
      exact ⟨_, .count (by simp [ofChoices, first rfl]) read⟩
  | callPrefix => exact ⟨_, .callPrefix value (by simp [ofChoices, first rfl])⟩
  | outputDir =>
      obtain ⟨a, read⟩ := Option.isSome_iff_exists.mp readable
      exact ⟨_, .outputDir (by simp [ofChoices, first rfl]) read⟩
  | baseName => exact ⟨_, .baseName value (by simp [ofChoices, first rfl])⟩
  | crossPrefix => exact ⟨_, .crossPrefix value (by simp [ofChoices, first rfl])⟩
  | extraction =>
      obtain ⟨a, read⟩ := Option.isSome_iff_exists.mp readable
      exact ⟨_, .extraction (by simp [ofChoices, first rfl]) read⟩
  | noDisassembly => exact ⟨_, .noDisassembly value (by simp [ofChoices, first rfl])⟩
  | calls => exact ⟨_, .calls value (by simp [ofChoices, first rfl])⟩
  | verbose => exact ⟨_, .verbose value⟩
  | help => cases readable
  | version => cases readable

theorem giveAll_eq_ok_iff {l : List Choice} {f : Flags} :
    ({} : Flags).giveAll l = .ok f ↔ Acceptable l ∧ f = ofChoices l := by
  induction l using List.reverseRecOn generalizing f with
  | nil =>
      constructor
      · intro h
        exact ⟨acceptable_nil, (Except.ok.inj h).symm⟩
      · rintro ⟨-, rfl⟩
        rfl
  | append_singleton l c ih =>      -- the last choice is given to the flags of those before it
      rw [giveAll_concat_eq_ok_iff]
      constructor
      · rintro ⟨g, before, last⟩
        obtain ⟨accepted, rfl⟩ := ih.mp before
        exact (given_of_give last).eq_ofChoices accepted
      · rintro ⟨accepted, rfl⟩
        have before := (acceptable_concat_iff.mp accepted).1
        obtain ⟨f, given⟩ := exists_given accepted
        obtain ⟨-, rfl⟩ := given.eq_ofChoices before
        exact ⟨ofChoices l, ih.mpr ⟨before, rfl⟩, given.give⟩

end Flags

/-! ## The grammar -/

/-- Letters behind one dash: the choices that they make, and the switch that waits for its value if
the last letter is that of one. -/
inductive Letters (sub : Option Subcommand) :
    List Char → List Choice → Option Switch → Prop
  /-- No more letters. -/
  | nil : Letters sub [] [] none
  /-- The letter of a switch that takes no value, before others. -/
  | mark {s : Switch} {letter : Char} {letters : List Char} {l : List Choice}
      {waiting : Option Switch} (offered : s ∈ Switch.offered sub) (short : s.short = some letter)
      (bare : s.takesValue = false) (rest : Letters sub letters l waiting) :
      Letters sub (letter :: letters) (⟨s, ""⟩ :: l) waiting
  /-- The value follows directly. -/
  | attached {s : Switch} {letter first : Char} {value : List Char}
      (offered : s ∈ Switch.offered sub) (short : s.short = some letter)
      (takes : s.takesValue = true) (plain : first ≠ '=') :
      Letters sub (letter :: first :: value) [⟨s, String.ofList (first :: value)⟩] none
  /-- The value follows an equals sign. -/
  | equals {s : Switch} {letter : Char} {value : List Char}
      (offered : s ∈ Switch.offered sub) (short : s.short = some letter)
      (takes : s.takesValue = true) :
      Letters sub (letter :: '=' :: value) [⟨s, String.ofList value⟩] none
  /-- The value is the next argument. -/
  | apart {s : Switch} {letter : Char} (offered : s ∈ Switch.offered sub)
      (short : s.short = some letter) (takes : s.takesValue = true) :
      Letters sub [letter] [] (some s)

/-- An argument with switches: the choices that it makes, and the switch that waits for its value. -/
inductive Spelling (sub : Option Subcommand) : String → List Choice → Option Switch → Prop
  /-- A long name, an equals sign and the value. -/
  | joined {s : Switch} (offered : s ∈ Switch.offered sub) (takes : s.takesValue = true)
      (value : String) : Spelling sub ("--" ++ s.long ++ "=" ++ value) [⟨s, value⟩] none
  /-- A long name; the value is the next argument. -/
  | apart {s : Switch} (offered : s ∈ Switch.offered sub) (takes : s.takesValue = true) :
      Spelling sub ("--" ++ s.long) [] (some s)
  /-- The long name of a switch that takes no value. -/
  | mark {s : Switch} (offered : s ∈ Switch.offered sub) (bare : s.takesValue = false) :
      Spelling sub ("--" ++ s.long) [⟨s, ""⟩] none
  /-- Letters behind one dash. -/
  | letters {letter : Char} {letters : List Char} {l : List Choice} {waiting : Option Switch}
      (spelled : Letters sub (letter :: letters) l waiting) :
      Spelling sub ("-" ++ String.ofList (letter :: letters)) l waiting

/-- Arguments that ask for a subcommand, after a part that has named it already or not, and the choices
that they make. -/
inductive Line (sub : Subcommand) : Option Subcommand → List String → List Choice → Prop
  /-- No more arguments. -/
  | done : Line sub (some sub) [] []
  /-- The end of all switches. -/
  | closed : Line sub (some sub) ["--"] []
  /-- The subcommand. -/
  | named {rest : List String} {l : List Choice} (line : Line sub (some sub) rest l) :
      Line sub none (sub.name :: rest) l
  /-- An argument after which no switch waits. -/
  | settled {now : Option Subcommand} {argument : String} {rest : List String}
      {first l : List Choice} (spelled : Spelling now argument first none)
      (line : Line sub now rest l) : Line sub now (argument :: rest) (first ++ l)
  /-- An argument after which a switch waits, and its value. -/
  | awaited {now : Option Subcommand} {argument value : String} {s : Switch} {rest : List String}
      {first l : List Choice} (spelled : Spelling now argument first (some s))
      (plain : isValue value = true) (line : Line sub now rest l) :
      Line sub now (argument :: value :: rest) (first ++ ⟨s, value⟩ :: l)

/-- Whatever switches a subcommand takes, choices of them can be spelled. -/
theorem exists_line_of_offered (sub : Subcommand) (l : List Choice)
    (offered : ∀ c ∈ l, c.switch ∈ Switch.offered (some sub))
    (bare : ∀ c ∈ l, c.switch.takesValue = false → c.value = "") :
    ∃ arguments, Line sub none arguments l := by
  have rest : ∃ arguments, Line sub (some sub) arguments l := by
    induction l with
    | nil => exact ⟨[], .done⟩
    | cons c l ih =>
        obtain ⟨s, value⟩ := c
        obtain ⟨arguments, line⟩ := ih (fun d member => offered d (.tail _ member))
          (fun d member => bare d (.tail _ member))
        have taken : s ∈ Switch.offered (some sub) := offered _ (.head _)
        cases takes : s.takesValue with
        | true => exact ⟨_, .settled (.joined taken takes value) line⟩
        | false =>
            obtain rfl : value = "" := bare _ (.head _) takes
            exact ⟨_, .settled (.mark taken takes) line⟩
  obtain ⟨arguments, line⟩ := rest
  exact ⟨_, .named line⟩

/-! ## Switches by name -/

namespace Switch

theorem long_injective : Function.Injective long := by
  intro s t same
  cases s <;> cases t <;> first | rfl | simp [long] at same

theorem eq_of_short {s t : Switch} {letter : Char} (left : s.short = some letter)
    (right : t.short = some letter) : s = t := by
  cases s <;> cases left <;> cases t <;> first | rfl | exact absurd right (by decide)

theorem find?_eq_some_iff {l : List Switch} {p : Switch → Bool} {s : Switch}
    (unique : ∀ t, p s = true → p t = true → s = t) :
    l.find? p = some s ↔ s ∈ l ∧ p s = true := by
  constructor
  · intro found
    exact ⟨List.mem_of_find?_eq_some found, List.find?_some found⟩
  · rintro ⟨member, holds⟩
    obtain ⟨t, found⟩ := Option.isSome_iff_exists.mp (List.find?_isSome.mpr ⟨s, member, holds⟩)
    rw [found, unique t holds (List.find?_some found)]

theorem ofLong?_eq_some_iff {sub : Option Subcommand} {name : String} {s : Switch} :
    ofLong? sub name = some s ↔ s ∈ offered sub ∧ s.long = name := by
  rw [ofLong?, find?_eq_some_iff, beq_iff_eq]
  intro t left right
  exact long_injective ((beq_iff_eq.mp left).trans (beq_iff_eq.mp right).symm)

theorem ofShort?_eq_some_iff {sub : Option Subcommand} {letter : Char} {s : Switch} :
    ofShort? sub letter = some s ↔ s ∈ offered sub ∧ s.short = some letter := by
  rw [ofShort?, find?_eq_some_iff, beq_iff_eq]
  intro t left right
  exact eq_of_short (beq_iff_eq.mp left) (beq_iff_eq.mp right)

theorem long_plain (s : Switch) : s.long.toList ≠ [] ∧ '=' ∉ s.long.toList := by
  cases s <;> decide

theorem short_ne_dash {s : Switch} {letter : Char} (short : s.short = some letter) :
    letter ≠ '-' := by
  cases s <;> cases short <;> decide

end Switch

theorem Subcommand.ofName?_eq_some_iff {word : String} {sub : Subcommand} :
    Subcommand.ofName? word = some sub ↔ sub.name = word := by
  constructor
  · intro found
    have same := List.find?_some found
    exact beq_iff_eq.mp same
  · rintro rfl
    cases sub <;> decide

/-! ## The forms of arguments -/

namespace Argument

theorem ofText_of_dashes {text : String} {c : Char} {body : List Char}
    (chars : text.toList = '-' :: '-' :: c :: body) : ofText text = ofLong (c :: body) := by
  rw [ofText, chars]
  rfl

theorem ofText_of_dash {text : String} {letter : Char} {letters : List Char}
    (chars : text.toList = '-' :: letter :: letters) (plain : letter ≠ '-') :
    ofText text = .letters (letter :: letters) := by
  rw [ofText, chars]
  split
  · next same =>
      cases same
      exact absurd rfl plain
  · next same =>
      cases same
      exact absurd rfl plain
  · next same => cases same; rfl
  · next other => exact absurd rfl (other _ _)

theorem ofLong_name {name : List Char} (plain : '=' ∉ name) :
    ofLong name = .long (String.ofList name) none := by
  have all : ∀ c ∈ name, decide (c ≠ '=') = true := fun c member =>
    decide_eq_true fun same => plain (same ▸ member)
  simp only [ofLong, List.takeWhile_eq_self_iff.mpr all, List.dropWhile_eq_nil_iff.mpr all]

theorem ofLong_joined {name value : List Char} (plain : '=' ∉ name) :
    ofLong (name ++ '=' :: value) = .long (String.ofList name) (some (String.ofList value)) := by
  have all : ∀ c ∈ name, decide (c ≠ '=') = true := fun c member =>
    decide_eq_true fun same => plain (same ▸ member)
  have front : (name ++ '=' :: value).takeWhile (· ≠ '=') = name := by
    rw [List.takeWhile_append_of_pos all]
    simp
  have back : (name ++ '=' :: value).dropWhile (· ≠ '=') = '=' :: value := by
    rw [List.dropWhile_append_of_pos all]
    simp
  simp only [ofLong, front, back]

theorem ofText_long (s : Switch) : ofText ("--" ++ s.long) = .long s.long none := by
  obtain ⟨some, plain⟩ := s.long_plain
  obtain ⟨c, rest, name⟩ := List.exists_cons_of_ne_nil some
  have chars : ("--" ++ s.long).toList = '-' :: '-' :: c :: rest := by simp [name]
  rw [ofText_of_dashes chars, ← name, ofLong_name plain, String.ofList_toList]

theorem ofText_joined (s : Switch) (value : String) :
    ofText ("--" ++ s.long ++ "=" ++ value) = .long s.long (some value) := by
  obtain ⟨some, plain⟩ := s.long_plain
  obtain ⟨c, rest, name⟩ := List.exists_cons_of_ne_nil some
  have chars : ("--" ++ s.long ++ "=" ++ value).toList =
      '-' :: '-' :: c :: (rest ++ '=' :: value.toList) := by simp [name]
  rw [ofText_of_dashes chars, ← List.cons_append, ← name, ofLong_joined plain,
    String.ofList_toList, String.ofList_toList]

theorem ofText_letters {letter : Char} (plain : letter ≠ '-') (letters : List Char) :
    ofText ("-" ++ String.ofList (letter :: letters)) = .letters (letter :: letters) :=
  ofText_of_dash (by simp) plain

/-- What a text is that has the form of an argument. -/
inductive Form : String → Argument → Prop
  /-- Two dashes. -/
  | separator : Form "--" .separator
  /-- A long name. -/
  | long (name : String) : Form ("--" ++ name) (.long name none)
  /-- A long name, an equals sign and a value. -/
  | joined (name value : String) : Form ("--" ++ name ++ "=" ++ value) (.long name (some value))
  /-- One dash and some letters. -/
  | letters (letter : Char) (letters : List Char) :
      Form ("-" ++ String.ofList (letter :: letters)) (.letters (letter :: letters))
  /-- Anything else. -/
  | word (text : String) : Form text (.word text)

theorem form_ofLong (body : List Char) : Form ("--" ++ String.ofList body) (ofLong body) := by
  -- the first equals sign ends the name; any after it belong to the value
  by_cases member : '=' ∈ body
  · obtain ⟨name, value, rfl, plain⟩ := List.eq_append_cons_of_mem member
    rw [ofLong_joined plain]
    have text : "--" ++ String.ofList (name ++ '=' :: value) =
        "--" ++ String.ofList name ++ "=" ++ String.ofList value :=
      String.toList_injective (by simp)
    rw [text]
    exact .joined _ _
  · rw [ofLong_name member]
    exact .long _

theorem form_ofText (text : String) : Form text (ofText text) := by
  obtain ⟨chars, rfl⟩ : ∃ chars, text = String.ofList chars := ⟨_, String.ofList_toList.symm⟩
  rw [ofText, String.toList_ofList]
  split
  · exact .separator
  · next body _ =>
      have text : String.ofList ('-' :: '-' :: body) = "--" ++ String.ofList body :=
        String.toList_injective (by simp)
      rw [text]
      exact form_ofLong body
  · next letter more _ _ =>
      have text : String.ofList ('-' :: letter :: more) = "-" ++ String.ofList (letter :: more) :=
        String.toList_injective (by simp)
      rw [text]
      exact .letters letter more
  · exact .word _

end Argument

/-! ## Reading what is spelled -/

/-- How far things are after choices, when a switch waits for its value or none does. -/
def Progress.after (sub : Option Subcommand) (waiting : Option Switch) (f : Flags) : Progress :=
  match waiting with
  | none => .settled sub f
  | some s => .awaiting s f

section

variable {sub : Option Subcommand} {l : List Choice} {waiting : Option Switch} {f : Flags}

/-- One choice, after which no switch waits. -/
theorem settle_eq (s : Switch) (value : String) :
    settle sub f s value = (f.giveAll [⟨s, value⟩]).map (Progress.after sub none) := by
  rw [Flags.giveAll_singleton]
  rfl

theorem Letters.read {letters : List Char} (spelled : Letters sub letters l waiting) (f : Flags) :
    readLetters sub f letters = (f.giveAll l).map (Progress.after sub waiting) := by
  induction spelled generalizing f with
  | nil => rfl
  | @mark s letter letters l waiting offered short bare rest ih =>
      simp only [readLetters, Switch.ofShort?_eq_some_iff.mpr ⟨offered, short⟩, bare,
        Flags.giveAll_cons]
      -- the letters after it are read with the flags that this one leaves
      cases f.give s "" with
      | error stop => rfl
      | ok next => exact ih next
  | attached offered short takes plain =>
      simp only [readLetters, Switch.ofShort?_eq_some_iff.mpr ⟨offered, short⟩, takes, if_true]
      split
      · next same => cases same
      · next same =>
          cases same
          exact absurd rfl plain
      · exact settle_eq _ _
  | equals offered short takes =>
      simp only [readLetters, Switch.ofShort?_eq_some_iff.mpr ⟨offered, short⟩, takes, if_true]
      exact settle_eq _ _
  | apart offered short takes =>
      simp only [readLetters, Switch.ofShort?_eq_some_iff.mpr ⟨offered, short⟩, takes]
      rfl

theorem readArgument_separator : readArgument sub f "--" [] = .ok (.settled sub f) :=
  rfl

theorem readArgument_name (sub : Subcommand) (rest : List String) :
    readArgument none f sub.name rest = .ok (.settled (some sub) f) := by
  have plain : Argument.ofText sub.name = .word sub.name := by cases sub <;> decide
  simp only [readArgument, plain, readWord, Subcommand.ofName?_eq_some_iff.mpr rfl]

theorem Letters.ne_dash {letter : Char} {letters : List Char}
    (spelled : Letters sub (letter :: letters) l waiting) : letter ≠ '-' := by
  cases spelled with
  | mark _ short => exact Switch.short_ne_dash short
  | attached _ short => exact Switch.short_ne_dash short
  | equals _ short => exact Switch.short_ne_dash short
  | apart _ short => exact Switch.short_ne_dash short

theorem exists_letters {letters : List Char} {p : Progress}
    (read : readLetters sub f letters = .ok p) : ∃ l waiting, Letters sub letters l waiting := by
  induction letters generalizing f with
  | nil => exact ⟨_, _, .nil⟩
  | cons letter letters ih =>
      rw [readLetters] at read
      cases found : Switch.ofShort? sub letter with
      | none => rw [found] at read; cases read
      | some s =>
          obtain ⟨offered, short⟩ := Switch.ofShort?_eq_some_iff.mp found
          rw [found] at read
          cases takes : s.takesValue with
          | true =>
              cases letters with
              | nil => exact ⟨_, _, .apart offered short takes⟩
              | cons first value =>
                  by_cases plain : first = '='
                  · subst plain
                    exact ⟨_, _, .equals offered short takes⟩
                  · exact ⟨_, _, .attached offered short takes plain⟩
          | false =>
              simp only [takes, Bool.false_eq_true, if_false] at read
              cases given : f.give s "" with
              | error stop => rw [given] at read; cases read
              | ok next =>
                  rw [given] at read
                  obtain ⟨l, waiting, rest⟩ := ih read
                  exact ⟨_, _, .mark offered short takes rest⟩

theorem Spelling.read {argument : String} (spelled : Spelling sub argument l waiting) (f : Flags)
    (rest : List String) :
    readArgument sub f argument rest = (f.giveAll l).map (Progress.after sub waiting) := by
  cases spelled with
  | @joined s offered takes value =>
      rw [readArgument, Argument.ofText_joined]
      simp only [readLong, Switch.ofLong?_eq_some_iff.mpr ⟨offered, rfl⟩, takes]
      exact settle_eq _ _
  | @apart s offered takes =>
      rw [readArgument, Argument.ofText_long]
      simp only [readLong, Switch.ofLong?_eq_some_iff.mpr ⟨offered, rfl⟩, takes]
      rfl
  | @mark s offered bare =>
      rw [readArgument, Argument.ofText_long]
      simp only [readLong, Switch.ofLong?_eq_some_iff.mpr ⟨offered, rfl⟩, bare]
      exact settle_eq _ _
  | letters spelled =>
      rw [readArgument, Argument.ofText_letters spelled.ne_dash]
      exact spelled.read f

theorem Spelling.exists_after {argument : String} {rest : List String} {p : Progress}
    (spelled : Spelling sub argument l waiting)
    (read : readArgument sub f argument rest = .ok p) : ∃ g, p = .after sub waiting g := by
  rw [spelled.read] at read
  cases all : f.giveAll l with
  | error stop => rw [all] at read; cases read
  | ok g =>
      rw [all] at read
      exact ⟨g, (Except.ok.inj read).symm⟩

/-- An argument that is read is the end of all switches, a subcommand, or one with switches. -/
theorem readArgument_cases {argument : String} {rest : List String} {p : Progress}
    (read : readArgument sub f argument rest = .ok p) :
    (argument = "--" ∧ rest = []) ∨ (sub = none ∧ ∃ s : Subcommand, s.name = argument) ∨
      ∃ l waiting, Spelling sub argument l waiting := by
  rw [readArgument] at read
  have form := Argument.form_ofText argument
  generalize Argument.ofText argument = a at form read
  cases form with
  | separator =>
      cases rest with
      | nil => exact .inl ⟨rfl, rfl⟩
      | cons _ _ => cases read
  | long name =>
      simp only [readLong] at read
      split at read
      · cases read
      · next s found =>
          obtain ⟨offered, rfl⟩ := Switch.ofLong?_eq_some_iff.mp found
          cases takes : s.takesValue with
          | true => exact .inr (.inr ⟨_, _, .apart offered takes⟩)
          | false => exact .inr (.inr ⟨_, _, .mark offered takes⟩)
  | joined name value =>
      simp only [readLong] at read
      split at read
      · cases read
      · next s found =>
          obtain ⟨offered, rfl⟩ := Switch.ofLong?_eq_some_iff.mp found
          cases takes : s.takesValue with
          | true => exact .inr (.inr ⟨_, _, .joined offered takes value⟩)
          | false =>
              rw [takes] at read
              cases read
  | letters =>
      obtain ⟨l, waiting, spelled⟩ := exists_letters read
      exact .inr (.inr ⟨l, waiting, .letters spelled⟩)
  | word =>
      simp only [readWord] at read
      split at read
      · cases read
      · next s found => exact .inr (.inl ⟨rfl, s, Subcommand.ofName?_eq_some_iff.mp found⟩)
      · cases read

end

/-! ## Command lines -/

theorem Line.read {sub : Subcommand} {now : Option Subcommand} {arguments : List String}
    {l : List Choice} (line : Line sub now arguments l) (f : Flags) :
    parseFrom now f arguments = (f.giveAll l).map (sub, ·) := by
  induction line generalizing f with
  | done => rfl
  | closed => rfl
  | named line ih =>
      rw [parseFrom, readArgument_name]
      exact ih f
  | @settled now argument rest first l spelled line ih =>
      rw [parseFrom, spelled.read, Flags.giveAll_append]
      cases f.giveAll first with
      | error stop => rfl
      | ok g => exact ih g
  | @awaited now argument value s rest first l spelled plain line ih =>
      rw [parseFrom, spelled.read, Flags.giveAll_append]
      cases f.giveAll first with
      | error stop => rfl
      | ok g =>
          have next : g.giveAll (⟨s, value⟩ :: l) =
              g.give s value >>= fun f => f.giveAll l := Flags.giveAll_cons ..
          change (if isValue value then _ else _) = Except.map _ (g.giveAll (⟨s, value⟩ :: l))
          rw [if_pos plain, next]
          cases g.give s value with
          | error stop => rfl
          | ok f => exact ih f

theorem Line.eq_sub {sub s : Subcommand} {arguments : List String} {l : List Choice}
    (line : Line sub (some s) arguments l) : s = sub := by
  -- once the subcommand is known it stays so
  generalize known : some s = now at line
  induction line with
  | done => exact Option.some.inj known
  | closed => exact Option.some.inj known
  | named => cases known
  | settled _ _ ih => exact ih known
  | awaited _ _ _ ih => exact ih known

theorem exists_line {sub : Subcommand} {now : Option Subcommand} {f f' : Flags}
    {arguments : List String} (read : parseFrom now f arguments = .ok (sub, f')) :
    ∃ l, Line sub now arguments l := by
  fun_induction parseFrom now f arguments with
  | case1 now f =>
      cases read
      exact ⟨_, .done⟩
  -- no switch waits after the argument
  | case4 now f argument rest known g step ih =>
      obtain ⟨l, line⟩ := ih read
      obtain ⟨rfl, rfl⟩ | ⟨rfl, s, rfl⟩ | ⟨first, waiting, spelled⟩ := readArgument_cases step
      · rw [readArgument_separator] at step
        cases step
        cases line
        exact ⟨_, .closed⟩
      · rw [readArgument_name] at step
        cases step
        cases line.eq_sub
        exact ⟨_, .named line⟩
      · obtain ⟨_, same⟩ := spelled.exists_after step
        cases waiting with
        | some s => cases same
        | none =>
            cases same
            exact ⟨_, .settled spelled line⟩
  -- the switch that waits takes the next argument as its value
  | case7 now f argument s g value rest plain next given step ih =>
      obtain ⟨l, line⟩ := ih read
      obtain ⟨-, none⟩ | ⟨rfl, _, rfl⟩ | ⟨first, waiting, spelled⟩ := readArgument_cases step
      · cases none
      · rw [readArgument_name] at step
        cases step
      · obtain ⟨_, same⟩ := spelled.exists_after step
        cases waiting with
        | none => cases same
        | some s =>
            cases same
            exact ⟨_, .awaited spelled plain line⟩
  -- everywhere else the reading stops
  | case2 | case3 | case5 | case6 | case8 => cases read

/-- The command lines that are accepted are those that spell acceptable choices, and the flags are what
the choices say. -/
theorem parse_eq_ok_iff {arguments : List String} {sub : Subcommand} {f : Flags} :
    parse arguments = .ok (sub, f) ↔
      ∃ l, Line sub none arguments l ∧ Acceptable l ∧ f = Flags.ofChoices l := by
  constructor
  · intro read
    obtain ⟨l, line⟩ := exists_line read
    refine ⟨l, line, Flags.giveAll_eq_ok_iff.mp ?_⟩
    rw [parse, line.read] at read
    cases all : ({} : Flags).giveAll l with
    | error stop => rw [all] at read; cases read
    | ok g =>
        rw [all] at read
        cases read
        rfl
  · rintro ⟨l, line, said⟩
    rw [parse, line.read, Flags.giveAll_eq_ok_iff.mpr said]
    rfl

end EncoderVectors.CommandLine
