import Netlink.Socket.Basic
import Netlink.Tool.Program

/-! # The command line

Files and streams are read before a command runs and written after it, so that everything between is
a function of what was read. There is no way to open a socket from here: a command that needs one is
told that the address family is not supported. -/

namespace Netlink.Tool.Terminal

/-- The number of a failed system call, which may come negated. -/
def osNumber (code : UInt32) : Int := code.toInt32.toInt.natAbs

/-- The failure that a failed operation on a file or a stream stands for. -/
def fileError : IO.Error → Error
  | .noFileOrDirectory _ code _ | .alreadyExists _ code _ | .otherError code _
  | .resourceBusy code _ | .resourceVanished code _ | .unsupportedOperation code _
  | .hardwareFault code _ | .unsatisfiedConstraints code _ | .illegalOperation code _
  | .protocolError code _ | .timeExpired code _ | .interrupted _ code _
  | .invalidArgument _ code _ | .permissionDenied _ code _ | .resourceExhausted _ code _
  | .inappropriateType _ code _ | .noSuchThing _ code _ => .io (.os (osNumber code))
  | .unexpectedEof | .userError _ => .io .invalidInput

def attempted {α : Type} (operation : IO α) : IO (Except Error α) := do
  match ← operation.toBaseIO with
  | .ok a => return .ok a
  | .error e => return .error (fileError e)

partial def readAll (input : IO.FS.Stream) (before : ByteArray) : IO ByteArray := do
  let chunk ← input.read 65536
  if chunk.isEmpty then return before
  readAll input (before ++ chunk)

/-- A host on which no socket can be opened. -/
def bareHost : Host where
  setupFault _ call := if call = .socket then some Errno.familyNotSupported else none

/-- Opens a connection, as far as that is possible. -/
def openConnection (config : Config) : Except Error (Connection Socket) :=
  (Connection.connect .route config 0 bareHost).1

def prepare (use : Command.FileUse) : IO (Surroundings Socket) := do
  let around : Surroundings Socket := {
    connect := openConnection
    contents := fun _ => .ok []
    create := fun _ => .ok () }
  match use with
  | .nothing => return around
  | .input =>
    let bytes ← readAll (← IO.getStdin) ByteArray.empty
    return { around with input := bytes.toList }
  | .contents path =>
    let outcome ← attempted (IO.FS.readBinFile path)
    return { around with contents := fun _ => outcome.map ByteArray.toList }
  | .created path =>
    let outcome ← attempted (IO.FS.writeBinFile path ByteArray.empty)
    return { around with create := fun _ => outcome }

/-- Writes out what the program leaves behind, and ends with its code. -/
def leave (exit : Exit) : IO UInt32 := do
  let output ← IO.getStdout
  output.write (ByteArray.mk exit.output.toArray)
  output.flush
  if let some (path, bytes) := exit.file then
    IO.FS.writeBinFile path (ByteArray.mk bytes.toArray)
  for line in exit.warnings do IO.eprintln line
  if let some line := exit.complaint then IO.eprintln line
  return UInt32.ofNat exit.code

def run (args : List String) : IO UInt32 := do
  match Invocation.read args with
  | .error refusal =>
    if refusal.isAnswer then IO.print usage else IO.eprint usage
    return UInt32.ofNat refusal.exitCode
  | .ok invocation =>
    let around ← prepare invocation.command.fileUse
    leave (program around args)

end Netlink.Tool.Terminal

def main (args : List String) : IO UInt32 := Netlink.Tool.Terminal.run args
