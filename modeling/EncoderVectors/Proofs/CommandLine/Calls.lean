import EncoderVectors.CommandLine.Report
import EncoderVectors.Proofs.Emission.Listing
import EncoderVectors.Proofs.Host.Actions

/-!
# Calls on the command line

A command line can ask for the calls of an emission. What it prints then is the seed and the lines
that pair a call with assembly, and these are the lines of the sections of every listing of the
emission (`Listing.loses_nothing`). Printed lines and lines of listings are laid out each by its own
rule and in its own column; that the two agree is `printedLine_eq_pairedLine`.
-/

set_option autoImplicit false

namespace EncoderVectors

open Text

namespace CommandLine

/-- Calls are printed in the column that listings have them in. -/
theorem printedLine_eq_pairedLine : printedLine = Instruction.pairedLine := by
  have column : printedColumn = callColumn := by decide
  funext ins
  rw [printedLine, column, Instruction.pairedLine]

variable {arguments : List String} {sub : Subcommand} {flags : Flags} {host host' : Host}

/-- A subcommand that ends well prints its text. -/
theorem execute_of_yields {fresh : UInt64} {text : String}
    (parsed : parse arguments = .ok (sub, flags))
    (ends : Host.Yields (perform fresh sub flags) host text host') :
    (execute fresh arguments).run host = (.printed text, host') := by
  have ran : (perform fresh sub flags).run.run host = (.ok text, host') := ends
  simp only [execute, parsed, StateT.run_bind, ran]
  rfl

/-- A command line that asks for calls prints those of the emission. -/
theorem execute_calls {settings : Settings} {catalog : Catalog}
    (parsed : parse arguments = .ok (.generate, flags)) (calls : flags.calls = true)
    (effective : Host.Yields flags.effective host settings host')
    (selected : settings.catalog = .ok catalog) (fresh : UInt64) :
    (execute fresh arguments).run host =
      (.printed (unlines (callLines (settings.emit fresh catalog))), host') := by
  apply execute_of_yields parsed
  refine Host.yields_bind_iff.mpr ⟨settings, host', effective, ?_⟩
  refine Host.yields_bind_iff.mpr ⟨catalog, host', ?_, ?_⟩
  · exact Host.yields_liftFault_iff.mpr ⟨selected, rfl⟩
  · exact Host.yields_pure_iff.mpr ⟨(if_pos calls).symm, rfl⟩

end CommandLine

open CommandLine

/-- A listing loses nothing. From its text alone one reads the seed, the sections, every call with
its assembly and the words, whatever the words are and whatever disassembly is quoted. The command line
that asks for calls prints the seed and then exactly the lines that are read off a listing of the same
emission. -/
theorem Listing.loses_nothing :
    (∀ (g : Generator) (style : CallStyle) (count : Nat) (c : Catalog) (words : List UInt32)
      (disassembly : Option String), style.OneLine →
      ∃ l, read ((g.emit style count c).1.listing style words disassembly) = some l ∧
        l.Tells (g.emit style count c).1 words) ∧
    ∀ (fresh : UInt64) (arguments : List String) (flags : Flags) (host host' : Host)
      (settings : Settings) (catalog : Catalog),
      parse arguments = .ok (.generate, flags) → flags.calls = true →
      Host.Yields flags.effective host settings host' → settings.catalog = .ok catalog →
      settings.style.OneLine → ∀ (words : List UInt32) (disassembly : Option String),
      ∃ l, read ((settings.emit fresh catalog).listing settings.style words disassembly) = some l ∧
        (execute fresh arguments).run host =
          (.printed (unlines (("// seed " ++ decimal l.seed.toNat) :: l.pairLines)), host') := by
  constructor
  · intro g style count c words disassembly whole
    have legible := g.legible_emit whole count c
    exact ⟨ofEmission (g.emit style count c).1 words, read_listing whole legible words disassembly,
      tells_ofEmission legible words⟩
  · intro fresh arguments flags host host' settings catalog parsed calls effective selected whole
      words disassembly
    have legible : (settings.emit fresh catalog).Legible :=
      Generator.legible_emit _ whole settings.run.instances catalog
    refine ⟨ofEmission (settings.emit fresh catalog) words,
      read_listing whole legible words disassembly, ?_⟩
    -- both sides are the lines of all instructions, written by the two rules
    rw [execute_calls parsed calls effective selected, callLines, printedLine_eq_pairedLine,
      pairLines_ofEmission, ofEmission]

/-- Control: the text in front of calls holds a mark itself, and the disassembly an array of words.
Three jumps and five words are told all the same, and a command line that asks for the calls of one
family prints what a listing of them says. -/
theorem Listing.loses_nothing_marked :
    let style : CallStyle := { callPrefix := "a //\tb " }
    let e := ((Generator.ofSeed 7).emit style 1 jumpCatalog).1
    let quoted := "j .\n\n" ++ Word.array [6, 7] ++ "\n"
    let flags : Flags := { families := ["Op"], calls := true }
    let settings := flags.applyTo {}
    style.OneLine ∧
      (∃ l, read (e.listing style [1, 2, 3, 4, 5] (some quoted)) = some l ∧
        l.Tells e [1, 2, 3, 4, 5]) ∧
      parse ["generate", "--api", "--family=Op"] = .ok (.generate, flags) ∧
      ∃ catalog l, settings.catalog = .ok catalog ∧
        read ((settings.emit 9 catalog).listing settings.style [] none) = some l ∧
        (execute 9 ["generate", "--api", "--family=Op"]).run {} =
          (.printed (unlines (("// seed " ++ decimal l.seed.toNat) :: l.pairLines)), {}) := by
  intro style e quoted flags settings
  have whole : style.OneLine := ⟨by decide, by decide⟩
  have parsed : parse ["generate", "--api", "--family=Op"] = .ok (.generate, flags) := by
    decide +kernel
  have selected : settings.catalog = .ok (Catalog.rv64g.restrict [.op]) := by decide +kernel
  have effective : Host.Yields flags.effective {} settings {} := rfl
  obtain ⟨told, printed⟩ := loses_nothing
  obtain ⟨l, found, prints⟩ := printed 9 _ flags {} {} settings _ parsed rfl effective selected
    ⟨by decide, by decide⟩ [] none
  exact ⟨whole, told _ style 1 jumpCatalog _ _ whole, parsed, _, l, selected, found, prints⟩

end EncoderVectors
