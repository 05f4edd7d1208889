import EncoderVectors.Atomic
import EncoderVectors.Barrier
import EncoderVectors.CallStyle
import EncoderVectors.Catalog.Basic
import EncoderVectors.Catalog.Entry
import EncoderVectors.Catalog.Family
import EncoderVectors.Catalog.Reach
import EncoderVectors.Catalog.Rv64g
import EncoderVectors.Catalog.Select
import EncoderVectors.CommandLine.Flags
import EncoderVectors.CommandLine.Parse
import EncoderVectors.CommandLine.Report
import EncoderVectors.CommandLine.Switch
import EncoderVectors.Decimal.Shortest
import EncoderVectors.Decimal.Text
import EncoderVectors.Dialect
import EncoderVectors.Elf.Fault
import EncoderVectors.Elf.Format
import EncoderVectors.Elf.Number
import EncoderVectors.Elf.Reader
import EncoderVectors.Elf.Writer
import EncoderVectors.Emission.Basic
import EncoderVectors.Emission.Generate
import EncoderVectors.Emission.Listing
import EncoderVectors.Emission.Record
import EncoderVectors.Emission.Source
import EncoderVectors.Error
import EncoderVectors.Fixture.Basic
import EncoderVectors.Fixture.Json
import EncoderVectors.Host.Basic
import EncoderVectors.Host.Disk
import EncoderVectors.Host.Path
import EncoderVectors.Host.Program
import EncoderVectors.Instance.Basic
import EncoderVectors.Instance.Draw
import EncoderVectors.Instance.Render
import EncoderVectors.Json.Layout
import EncoderVectors.Json.Number
import EncoderVectors.Json.Reader
import EncoderVectors.Json.Text
import EncoderVectors.Label
import EncoderVectors.Main
import EncoderVectors.Mnemonic
import EncoderVectors.Operand.Address
import EncoderVectors.Operand.Basic
import EncoderVectors.Operand.Draw
import EncoderVectors.Operand.Immediate
import EncoderVectors.Operand.Register
import EncoderVectors.Proofs.Text.Numeral
import EncoderVectors.Proofs.Text.Token
import EncoderVectors.Random.ChaCha
import EncoderVectors.Random.Uniform
import EncoderVectors.Random.WordStream
import EncoderVectors.Rounding
import EncoderVectors.Run
import EncoderVectors.Settings.Basic
import EncoderVectors.Settings.Load
import EncoderVectors.Settings.Reader
import EncoderVectors.Shape
import EncoderVectors.Text.Blank
import EncoderVectors.Text.Column
import EncoderVectors.Text.Letter
import EncoderVectors.Text.Numeral
import EncoderVectors.Text.Quoted
import EncoderVectors.Text.Unseen
import EncoderVectors.Text.Utf8
import EncoderVectors.Toolchain.Basic
import EncoderVectors.Toolchain.Binutils
import EncoderVectors.Toolchain.Recorded
import EncoderVectors.Word.Bytes
import EncoderVectors.Word.Fields
import EncoderVectors.Word.Text
import EncoderVectors.Proofs.Notation.Operand
import EncoderVectors.Proofs.Notation.Name
import EncoderVectors.Proofs.Notation.Reading
import EncoderVectors.Proofs.Notation.Agreement
import EncoderVectors.Proofs.Emission.Layout
import EncoderVectors.Proofs.Emission.LabelReach
import EncoderVectors.Proofs.Host.Actions
import EncoderVectors.Proofs.Word.Array
import EncoderVectors.Proofs.Word.Bytes
import EncoderVectors.Proofs.Fixture.Pairing
import EncoderVectors.Proofs.Fixture.Exactness
import EncoderVectors.Proofs.Run.Success
import EncoderVectors.Proofs.Catalog.Names
import EncoderVectors.Proofs.Notation.Correspondence
import EncoderVectors.Proofs.Notation.Characters
import EncoderVectors.Proofs.Text.Lines
import EncoderVectors.Proofs.Emission.Source
import EncoderVectors.Proofs.Host.Footprint
import EncoderVectors.Proofs.Host.Places
import EncoderVectors.Proofs.Run.Failure
import EncoderVectors.Proofs.Emission.Composition
import EncoderVectors.Proofs.Emission.Recording
import EncoderVectors.Proofs.Emission.Indifference
import EncoderVectors.Proofs.Fixture.RoundTrip
import EncoderVectors.Proofs.CommandLine.Options
import EncoderVectors.Proofs.CommandLine.Layers
import EncoderVectors.Proofs.Catalog.Threshold
import EncoderVectors.Proofs.Instance.Drawn
import EncoderVectors.Proofs.Word.TargetFree
import EncoderVectors.Proofs.Random.Rejection
import EncoderVectors.Proofs.Run.Stale
import EncoderVectors.Proofs.Word.Repacking
import EncoderVectors.Proofs.Catalog.Narrowing
import EncoderVectors.Proofs.Notation.LabelToken
import EncoderVectors.Proofs.Emission.Listing
import EncoderVectors.Proofs.CommandLine.Calls
import EncoderVectors.Proofs.Mnemonic.Grammar
import EncoderVectors.Proofs.Catalog.Selection
import EncoderVectors.Proofs.Elf.Layout
import EncoderVectors.Proofs.Random.Evenness
import EncoderVectors.Proofs.Elf.Extraction
import EncoderVectors.Proofs.Machine.Arithmetic
import EncoderVectors.Proofs.Catalog.Overflow
