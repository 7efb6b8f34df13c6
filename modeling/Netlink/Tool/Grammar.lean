/-! # Reading a command line

A command line is read word by word against the description of a command: its options, its operands
and its subcommands, each of which is a command again. A word that names a subcommand hands the rest
of the line to it; a word that begins with a dash is an option, unless it follows the word of two
dashes or is a dash alone; any other word is the value that an option is waiting for, or else an
operand.

The value of an option is looked at when the next option or operand begins or the line ends, and
not before. A word that is not understood at all is therefore refused ahead of a bad value that
precedes it. When the line ends, the innermost command is checked first. -/

namespace Netlink.Tool

/-- Why a command line is refused, or what is asked for instead of a command. -/
inductive Refusal where
  | unknownArgument
  | invalidSubcommand
  | missingSubcommand
  | missingRequiredArgument
  /-- Options that exclude each other, or an option given twice. -/
  | argumentConflict
  /-- A value that is missing, or that is not one of those allowed. -/
  | invalidValue
  /-- A value that cannot be read. -/
  | valueValidation
  /-- A value for an option that takes none. -/
  | tooManyValues
  | help
  /-- Nothing at all where something is needed, for which help is shown. -/
  | helpOnMissing
  | version
  deriving DecidableEq, Repr

/-- What a value has to be. -/
inductive ValueKind where
  | text
  /-- The name of a file, which is not empty. -/
  | path
  /-- A number from zero up to a bound, which may have a sign. -/
  | integer (bound : Nat)
  /-- A number from zero up to a bound, which may have a plus sign. -/
  | natural (bound : Nat)
  | oneOf (names : List String)
  deriving DecidableEq, Repr

/-- An option, known by its long name. -/
structure OptionSpec where
  name : String
  short : Option Char := none
  /-- What its value has to be, if it takes one. -/
  value : Option ValueKind := none
  deriving DecidableEq, Repr

/-- A word that is not an option. -/
structure OperandSpec where
  name : String
  kind : ValueKind := .text
  required : Bool := false
  /-- All further operands are of this kind too. -/
  repeated : Bool := false
  deriving DecidableEq, Repr

structure CommandSpec where
  /-- The name of the command, and others that it is known by. -/
  names : List String
  options : List OptionSpec := []
  operands : List OperandSpec := []
  /-- Options of which at most one may be given. -/
  conflicts : List (String × String) := []
  subcommands : List CommandSpec := []
  /-- The command is not complete without a subcommand. -/
  needsSubcommand : Bool := false
  /-- The command shows its version. -/
  hasVersion : Bool := false

namespace CommandSpec

def name (c : CommandSpec) : String := c.names.headD ""

def subcommand? (c : CommandSpec) (word : String) : Option CommandSpec :=
  c.subcommands.find? (·.names.contains word)

/-- The word asks for help about a command. It is a subcommand of every command that has any. -/
def asksHelp (c : CommandSpec) (word : String) : Bool :=
  word = "help" && !c.subcommands.isEmpty

def isSubcommand (c : CommandSpec) (word : String) : Bool :=
  (c.subcommand? word).isSome || c.asksHelp word

end CommandSpec

/-! ## Values -/

def readInteger (s : String) : Option Int :=
  let digits (cs : List Char) : Option Nat :=
    if cs.isEmpty || !cs.all Char.isDigit then none
    else some (cs.foldl (fun n c => n * 10 + (c.toNat - 48)) 0)
  match s.toList with
  | '-' :: cs => (digits cs).map fun n => -n
  | '+' :: cs => (digits cs).map Int.ofNat
  | cs => (digits cs).map Int.ofNat

/-- A value is what it has to be. -/
def ValueKind.check (kind : ValueKind) (value : String) : Except Refusal Unit :=
  match kind with
  | .text => .ok ()
  | .path => if value.isEmpty then .error .invalidValue else .ok ()
  | .integer bound =>
    match readInteger value with
    | some n => if 0 ≤ n ∧ n ≤ bound then .ok () else .error .valueValidation
    | none => .error .valueValidation
  | .natural bound =>
    match readInteger value with
    | some n =>
      if 0 ≤ n ∧ n ≤ bound ∧ value.front ≠ '-' then .ok () else .error .valueValidation
    | none => .error .valueValidation
  | .oneOf names => if names.contains value then .ok () else .error .invalidValue

/-! ## Reading -/

structure Matches where
  /-- The options that were given, with the value of those that take one. -/
  options : List (String × Option String) := []
  operands : List (String × String) := []
  deriving DecidableEq, Repr

namespace Matches

def has (m : Matches) (option : String) : Bool := m.options.any (·.1 = option)

def value? (m : Matches) (option : String) : Option String := (m.options.lookup option).join

def operand? (m : Matches) (name : String) : Option String := m.operands.lookup name

def operandsOf (m : Matches) (name : String) : List String :=
  (m.operands.filter (·.1 = name)).map (·.2)

end Matches

/-- A value that has not been looked at yet. -/
inductive Pending where
  /-- The value of an option, or its absence. -/
  | option (spec : OptionSpec) (value : Option String)
  /-- Operands that belong together. -/
  | operands (spec : OperandSpec) (values : List String)
  deriving Repr

/-- How far a command has been read. -/
structure Level where
  spec : CommandSpec
  found : Matches := {}
  pending : Option Pending := none
  /-- Operands of which there can be no more. -/
  passed : Nat := 0
  /-- The latest word was an operand of which there can be more. -/
  inOperands : Bool := false

namespace Level

/-- An option of this command is waiting for its value. -/
def awaitsValue (l : Level) : Bool :=
  match l.pending with
  | some (.option _ none) => true
  | _ => false

/-- Notes an option. Giving it twice is a conflict. -/
def note (l : Level) (o : OptionSpec) (value : Option String) : Except Refusal Level :=
  if l.found.has o.name then .error .argumentConflict
  else do
    match o.value, value with
    | some kind, some v => kind.check v
    | _, _ => pure ()
    return { l with found := { l.found with options := l.found.options ++ [(o.name, value)] } }

/-- Looks at the value that has not been looked at yet. -/
def settle (l : Level) : Except Refusal Level :=
  match l.pending with
  | none => .ok l
  | some (.option _ none) => .error .invalidValue
  | some (.option o (some v)) => Level.note { l with pending := none } o (some v)
  | some (.operands spec values) => do
    values.forM spec.kind.check
    let operands := l.found.operands ++ values.map (spec.name, ·)
    return { l with pending := none, found := { l.found with operands } }

/-- An option begins, perhaps with a value attached to it. -/
def option (l : Level) (o : OptionSpec) (attached : Option String) : Except Refusal Level := do
  match o.value, attached with
  | some _, some v => (← l.settle).note o (some v)
  | some _, none => return { (← l.settle) with pending := some (.option o none) }
  | none, none => (← l.settle).note o none
  | none, some _ => .error .tooManyValues

/-- Help or the version is asked for. -/
def ask (l : Level) (answer : Refusal) (attached : Option String) : Except Refusal Level :=
  if attached.isSome then .error .tooManyValues
  else do
    let _ ← l.settle
    .error answer

/-- A long option, with what follows the equals sign. -/
def long (l : Level) (name : String) (attached : Option String) : Except Refusal Level :=
  match l.spec.options.find? (·.name = name) with
  | some o => l.option o attached
  | none =>
    if name = "help" then l.ask .help attached
    else if name = "version" && l.spec.hasVersion then l.ask .version attached
    else .error .unknownArgument

/-- A group of short options. What follows one that takes a value is its value. -/
def shorts (l : Level) : List Char → Except Refusal Level
  | [] => .ok l
  | c :: cs =>
    match l.spec.options.find? (·.short = some c) with
    | some o =>
      if o.value.isSome then
        let value := match cs with
          | '=' :: rest => rest
          | rest => rest
        l.option o (if cs.isEmpty then none else some (String.ofList value))
      else do (← l.option o none).shorts cs
    | none =>
      if c = 'h' then l.ask .help none
      else if c = 'V' && l.spec.hasVersion then l.ask .version none
      else .error .unknownArgument

/-- A word that is an operand. -/
def operand (l : Level) (word : String) : Option (Except Refusal Level) :=
  match l.spec.operands[l.passed]? with
  | none => none
  | some spec =>
    some <|
      if spec.repeated then
        match l.pending with
        | some (.operands spec' values) =>
          if spec' = spec then
            .ok { l with pending := some (.operands spec (values ++ [word])), inOperands := true }
          else do
            let l ← l.settle
            return { l with pending := some (.operands spec [word]), inOperands := true }
        | _ => do
          let l ← l.settle
          return { l with pending := some (.operands spec [word]), inOperands := true }
      else do
        let l ← l.settle
        return {
          l with
          pending := some (.operands spec [word])
          passed := l.passed + 1
          inOperands := false }

/-- A word that can be nothing here. Where nothing but a subcommand could follow, it was meant for
one, unless it is the name of one behind the word of two dashes. -/
def unexpected (l : Level) (word : String) (literal : Bool) : Refusal :=
  if literal && l.spec.isSubcommand word then .unknownArgument
  else if !l.spec.subcommands.isEmpty && l.spec.operands.isEmpty then .invalidSubcommand
  else .unknownArgument

/-- Checks a command that has been read to the end. -/
def finish (l : Level) (hasSubcommand : Bool) : Except Refusal Matches := do
  let l ← l.settle
  let given := !l.found.options.isEmpty || !l.found.operands.isEmpty
  if l.spec.needsSubcommand && !hasSubcommand then
    throw (if given then .missingSubcommand else .helpOnMissing)
  if l.spec.conflicts.any fun (a, b) => l.found.has a && l.found.has b then
    throw .argumentConflict
  if l.spec.operands.any fun o => o.required && (l.found.operand? o.name).isNone then
    throw .missingRequiredArgument
  return l.found

end Level

/-- Follows the names of subcommands that help is asked about. -/
def helpAbout (c : CommandSpec) : List String → Refusal
  | [] => .help
  | word :: words =>
    match c.subcommand? word with
    | some sub => helpAbout sub words
    | none => if c.isSubcommand word && words.isEmpty then .help else .invalidSubcommand

/-- A word that begins an option: its long name and what follows an equals sign, or its letters. -/
inductive OptionWord where
  | long (name : String) (attached : Option String)
  | short (letters : List Char)
  deriving DecidableEq, Repr

/-- Two dashes or one begin an option if something follows. -/
def OptionWord.of? (word : String) : Option OptionWord :=
  match word.toList with
  | '-' :: '-' :: c :: cs =>
    let text := c :: cs
    let name := text.takeWhile (· ≠ '=')
    let rest := text.dropWhile (· ≠ '=')
    some (.long (String.ofList name) (if rest.isEmpty then none else some (String.ofList rest.tail)))
  | ['-', '-'] => none
  | '-' :: c :: cs => some (.short (c :: cs))
  | _ => none

/-- What has been read of a command and of its subcommands, outermost first. -/
abbrev Reading := List (String × Matches)

/-- Reads words for a command. `literal` says that the word of two dashes has been met, after which
every word is an operand. -/
def CommandSpec.readWords (l : Level) (literal : Bool) : List String → Except Refusal Reading
  | [] => do return [(l.spec.name, ← l.finish false)]
  | word :: words =>
    let operand : Except Refusal Reading :=
      match l.operand word with
      | none => .error (l.unexpected word literal)
      | some next => do readWords (← next) literal words
    if literal then operand
    else
      let sub := if l.awaitsValue || l.inOperands then none else l.spec.subcommand? word
      match sub with
      | some sub => do
        let inner ← readWords { spec := sub } false words
        return (l.spec.name, ← l.finish true) :: inner
      | none =>
        if l.spec.asksHelp word && !l.awaitsValue then .error (helpAbout l.spec words)
        else if word = "--" then readWords l true words
        else match OptionWord.of? word with
          | some (.long name attached) => do
            readWords { (← l.long name attached) with inOperands := false } false words
          | some (.short letters) => do
            readWords { (← l.shorts letters) with inOperands := false } false words
          | none =>
            match l.pending with
            | some (.option o none) =>
              readWords { l with pending := some (.option o (some word)) } false words
            | _ => operand

def CommandSpec.read (c : CommandSpec) (words : List String) : Except Refusal Reading :=
  readWords { spec := c } false words

end Netlink.Tool
