import EncoderVectors.CommandLine.Flags

/-!
# Reading a command line

The arguments are read from left to right: switches of the program itself, a subcommand, and its
switches. A switch is `--name`, `--name=value` or `--name value`; letters may be joined behind one
dash, and the value of the last one may follow directly, after an equals sign, or as the next
argument. A value on its own must not start with a dash, unless it is only a dash.
-/

set_option autoImplicit false

namespace EncoderVectors.CommandLine

/-- The form of an argument. -/
inductive Argument where
  /-- The end of all switches. -/
  | separator
  /-- A long name, and what follows its equals sign. -/
  | long (name : String) (value : Option String)
  /-- Letters behind one dash. -/
  | letters (letters : List Char)
  /-- Anything else. -/
  | word (text : String)
  deriving DecidableEq, Repr

namespace Argument

/-- A long name with what follows its equals sign. -/
def ofLong (body : List Char) : Argument :=
  let name := String.ofList (body.takeWhile (· ≠ '='))
  match body.dropWhile (· ≠ '=') with
  | [] => .long name none
  | _ :: value => .long name (some (String.ofList value))

/-- The form of an argument. -/
def ofText (text : String) : Argument :=
  match text.toList with
  | ['-', '-'] => .separator
  | '-' :: '-' :: body => ofLong body
  | '-' :: letter :: more => .letters (letter :: more)
  | _ => .word text

end Argument

/-- The argument can be the value of the switch before it. -/
def isValue (text : String) : Bool :=
  match text.toList with
  | '-' :: _ :: _ => false
  | _ => true

/-- How far things are after an argument. -/
inductive Progress where
  /-- The argument is done with; the subcommand may be known by now. -/
  | settled (sub : Option Subcommand) (flags : Flags)
  /-- The next argument is the value of a switch. -/
  | awaiting (switch : Switch) (flags : Flags)
  deriving DecidableEq, Repr

/-- A switch with its value, or with none if it takes none. -/
def settle (sub : Option Subcommand) (f : Flags) (switch : Switch) (value : String) :
    Except Stop Progress :=
  (f.give switch value).map (.settled sub)

/-- Reads a switch by its long name. -/
def readLong (sub : Option Subcommand) (f : Flags) (name : String) (value : Option String) :
    Except Stop Progress :=
  match Switch.ofLong? sub name with
  | none => .error .usage
  | some switch =>
      match switch.takesValue, value with
      | true, some text => settle sub f switch text
      | true, none => .ok (.awaiting switch f)
      | false, some _ => .error .usage
      | false, none => settle sub f switch ""

/-- Reads letters behind one dash. -/
def readLetters (sub : Option Subcommand) (f : Flags) : List Char → Except Stop Progress
  | [] => .ok (.settled sub f)
  | letter :: rest =>
      match Switch.ofShort? sub letter with
      | none => .error .usage
      | some switch =>
          if switch.takesValue then
            match rest with
            | [] => .ok (.awaiting switch f)
            | '=' :: value => settle sub f switch (String.ofList value)
            | value => settle sub f switch (String.ofList value)
          else
            match f.give switch "" with
            | .error stop => .error stop
            | .ok next => readLetters sub next rest

/-- The word that asks for an explanation. -/
def helpWord : String := "help"

/-- What comes of asking for an explanation of `topics`: at most one, and one that exists. -/
def explain : List String → Stop
  | [] => .help
  | [topic] => if topic = helpWord || (Subcommand.ofName? topic).isSome then .help else .usage
  | _ => .usage

/-- Reads a word, which can only be the subcommand. -/
def readWord (sub : Option Subcommand) (f : Flags) (word : String) (rest : List String) :
    Except Stop Progress :=
  match sub, Subcommand.ofName? word with
  | some _, _ => .error .usage
  | none, some named => .ok (.settled (some named) f)
  | none, none => .error (if word = helpWord then explain rest else .usage)

/-- Reads an argument; `rest` is what comes after it. Nothing may follow the end of all switches. -/
def readArgument (sub : Option Subcommand) (f : Flags) (argument : String) (rest : List String) :
    Except Stop Progress :=
  match Argument.ofText argument with
  | .separator => if rest.isEmpty then .ok (.settled sub f) else .error .usage
  | .long name value => readLong sub f name value
  | .letters letters => readLetters sub f letters
  | .word word => readWord sub f word rest

/-- Reads arguments after a subcommand, or before any. -/
def parseFrom : Option Subcommand → Flags → List String → Except Stop (Subcommand × Flags)
  | some sub, f, [] => .ok (sub, f)
  | none, _, [] => .error .usage
  | sub, f, argument :: rest =>
      match readArgument sub f argument rest with
      | .error stop => .error stop
      | .ok (.settled sub f) => parseFrom sub f rest
      | .ok (.awaiting switch f) =>
          match rest with
          | [] => .error .usage
          | value :: rest =>
              if isValue value then
                match f.give switch value with
                | .error stop => .error stop
                | .ok f => parseFrom sub f rest
              else .error .usage

/-- Reads a command line. -/
def parse (arguments : List String) : Except Stop (Subcommand × Flags) :=
  parseFrom none {} arguments

end EncoderVectors.CommandLine
