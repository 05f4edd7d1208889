import EncoderVectors.Text.Numeral

/-!
# Programs

A program that can be run is described by what it does when it is: what it prints, what it writes to
the file named by its last argument, and how it ends.
-/

set_option autoImplicit false

namespace EncoderVectors

/-- How a process ended. -/
inductive Ending where
  /-- It exited with a code. -/
  | exit (code : Nat)
  /-- A signal killed it, and may have left a core dump. -/
  | signal (number : Nat) (core : Bool)
  deriving DecidableEq, Repr

namespace Ending

/-- The ending that a wait status stands for: the low seven bits are the signal and the next one tells
of a core dump; without a signal the byte above is the exit code. -/
def ofWaitStatus (status : Nat) : Ending :=
  if status % 128 = 0 then .exit (status / 256 % 256)
  else .signal (status % 128) (status / 128 % 2 = 1)

/-- The process ended well. -/
def isSuccess (e : Ending) : Bool :=
  e = .exit 0

/-- The names of the signals, from the first on. -/
def signalNames : List String :=
  ["SIGHUP", "SIGINT", "SIGQUIT", "SIGILL", "SIGTRAP", "SIGABRT", "SIGBUS", "SIGFPE", "SIGKILL",
    "SIGUSR1", "SIGSEGV", "SIGUSR2", "SIGPIPE", "SIGALRM", "SIGTERM", "SIGSTKFLT", "SIGCHLD",
    "SIGCONT", "SIGSTOP", "SIGTSTP", "SIGTTIN", "SIGTTOU", "SIGURG", "SIGXCPU", "SIGXFSZ",
    "SIGVTALRM", "SIGPROF", "SIGWINCH", "SIGIO", "SIGPWR", "SIGSYS"]

/-- The name of a signal in brackets, if it has one. -/
def signalLabel (number : Nat) : String :=
  match (if number = 0 then none else signalNames[number - 1]?) with
  | some name => " (" ++ name ++ ")"
  | none => ""

/-- The wording of an ending. -/
def label : Ending → String
  | .exit code => "exit status: " ++ Text.decimal code
  | .signal number core =>
      "signal: " ++ Text.decimal number ++ signalLabel number ++
        (if core then " (core dumped)" else "")

end Ending

/-- A program, described by what it does when it is run. -/
structure Program where
  /-- The name it goes by in the log. -/
  name : String
  /-- It can be started at all. -/
  startable : Bool := true
  /-- What it prints. -/
  output : List UInt8 := []
  /-- What it complains about. -/
  complaint : List UInt8 := []
  /-- What it writes to the file named by its last argument. -/
  product : Option (List UInt8) := none
  /-- How it ends. -/
  ending : Ending := .exit 0
  deriving DecidableEq, Repr

end EncoderVectors
