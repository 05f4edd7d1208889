import EncoderVectors.Instance.Basic
import EncoderVectors.CallStyle

/-!
# Writing instances

An instance is written in both dialects from the same values. The label of a control transfer is not
part of the instance: one instance is written once for each of its targets.
-/

set_option autoImplicit false

namespace EncoderVectors

/-- One way an instance is emitted: its target, if it has one, and its two texts. -/
structure Form where
  /-- The target of a control transfer. -/
  target : Option Target
  /-- The encoder call, with its closing semicolon. -/
  call : String
  /-- The assembly line, without indentation. -/
  assembly : String
  deriving DecidableEq, Repr

namespace Instance

/-- The arguments of the encoder call: operands, then the target, then the enumerated argument. -/
def callArguments (i : Instance) (style : CallStyle) (target : Option Target) : List String :=
  match i.filling with
  | .barriers predecessor successor =>
      [Text.decimal predecessor.bits ++ "u", Text.decimal successor.bits ++ "u"]
  | .operands values =>
      let written := values.map fun o => o.render .call
      match i.entry.shape.layout with
      | .slots _ =>
          written ++ target.toList.map (fun t => t.callToken style.callPrefix) ++
            i.entry.shape.rounding.toList.map fun r => style.enumScope ++ r.mode.name
      | .atomic _ ordering => written ++ [style.enumScope ++ ordering.suffix]
      | .fence => written

/-- The encoder call. -/
def call (i : Instance) (style : CallStyle) (target : Option Target) : String :=
  style.callPrefix ++ i.entry.callName ++ "(" ++
    String.intercalate ", " (i.callArguments style target) ++ ");"

/-- The operands of the assembly line: the target follows the operands, and a mode that is spelled
follows both. -/
def assemblyOperands (i : Instance) (target : Option Target) : List String :=
  match i.filling with
  | .barriers predecessor successor => [predecessor.name, successor.name]
  | .operands values =>
      let written := values.map fun o => o.render .assembly
      match i.entry.shape.layout with
      | .slots _ =>
          written ++ target.toList.map Target.assemblyToken ++
            (i.entry.shape.rounding.toList.filter Rounding.isSpelled).map fun r => r.mode.name
      | .atomic kind _ => kind.assemblyOrder written
      | .fence => written

/-- The assembly line: the name, and after a tab the operands if there are any. -/
def assembly (i : Instance) (target : Option Target) : String :=
  match i.assemblyOperands target with
  | [] => i.entry.assemblyName
  | operands => i.entry.assemblyName ++ "\t" ++ String.intercalate ", " operands

/-- The form of an instance for one target, or for none. -/
def form (i : Instance) (style : CallStyle) (target : Option Target) : Form :=
  ⟨target, i.call style target, i.assembly target⟩

/-- All forms the instance is emitted in. -/
def forms (i : Instance) (style : CallStyle) : List Form :=
  i.entry.shape.targets.map (i.form style)

end Instance

end EncoderVectors
