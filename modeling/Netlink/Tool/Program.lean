import Netlink.Tool.Run

/-! # The program

The program reads its command line, carries out the command, and ends with a code: zero for success
and for help that was asked for, two for a command line it does not take and for a failure after
which nothing could be trusted, and one for every other failure. -/

namespace Netlink.Tool

/-- What was asked for was not a command but a text about the program. -/
def Refusal.isAnswer (r : Refusal) : Bool := r = .help || r = .version

/-- The code that the program ends with when it does not take its command line. -/
def Refusal.exitCode (r : Refusal) : Nat := if r.isAnswer then 0 else 2

/-- The code that the program ends with when the command was carried out, or failed. -/
def exitCode : Except Error Unit → Nat
  | .ok () => 0
  | .error e => if e.isFatal then 2 else 1

/-- What the program leaves behind. -/
structure Exit where
  code : Nat
  output : Bytes := []
  /-- What was reported on the way and is worth a word. -/
  warnings : List String := []
  /-- What is said about a failure. -/
  complaint : Option String := none
  /-- The file that was written, and what was written to it. -/
  file : Option (String × Bytes) := none
  deriving DecidableEq, Repr

def complaint (e : Error) : String := "Error: " ++ e.message

/-- A report on a line of its own, if it is an error or a warning. -/
def warning? (e : Event) : Option String :=
  let line (label : String) : String :=
    String.intercalate " " (label :: e.message :: e.fields.map fun (name, v) => s!"{name}={v.written}")
  match e.level with
  | .error => some (line "ERROR")
  | .warn => some (line "WARN")
  | .debug | .trace => none

/-- What is said about a command line that is not taken, or when help is asked for. -/
def usage : String :=
  "Usage: ip [--json] [--pretty] [--rcvbuf BYTES]\n"
    ++ "  link [show [DEV] [--up] | del DEV | set DEV [--up | --down] [--mtu N]\n"
    ++ "    | save [FILE] | showdump [FILE]]\n"
    ++ "  monitor [--all-nsid] [link | address | route | neigh | nsid | all]...\n"

def Outcome.exit {σ : Type} (o : Outcome σ) : Exit where
  code := exitCode o.result
  output := o.output
  warnings := o.log.filterMap warning?
  complaint := match o.result with
    | .ok () => none
    | .error e => some (Tool.complaint e)
  file := o.file

def Invocation.run {σ : Type} [Transport σ] (s : Surroundings σ) (i : Invocation) : Outcome σ :=
  i.command.run s i.style i.config

def program {σ : Type} [Transport σ] (s : Surroundings σ) (words : List String) : Exit :=
  match Invocation.read words with
  | .error r => { code := r.exitCode }
  | .ok i => (i.run s).exit

end Netlink.Tool
