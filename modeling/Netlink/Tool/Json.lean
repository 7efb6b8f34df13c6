/-! # Writing JSON

A value is written either on one line without blanks, or over several lines, each member of an array
or an object on a line of its own, two blanks further in than what holds it. In a text, a quote, a
backslash and the control characters are written as escapes, and every other character as
itself. -/

namespace Netlink.Tool

/-- A value with the members of its objects in the order in which they are written. -/
inductive Json where
  | null
  | number (value : Int)
  | text (value : String)
  | array (items : List Json)
  | object (members : List (String × Json))

namespace Json

def option {α : Type} (write : α → Json) : Option α → Json
  | none => .null
  | some a => write a

/-- An object with its members in ascending order of name. -/
def sorted (members : List (String × Json)) : Json :=
  .object (members.mergeSort fun a b => decide (a.1 ≤ b.1))

def hexDigit (n : Nat) : Char := Char.ofNat (if n < 10 then 48 + n else 87 + n)

/-- A character inside a quoted text. -/
def escaped (c : Char) : List Char :=
  match c with
  | '"' => ['\\', '"']
  | '\\' => ['\\', '\\']
  | '\x08' => ['\\', 'b']
  | '\x0c' => ['\\', 'f']
  | '\n' => ['\\', 'n']
  | '\r' => ['\\', 'r']
  | '\t' => ['\\', 't']
  | c =>
    if c.toNat < 32 then ['\\', 'u', '0', '0', hexDigit (c.toNat / 16), hexDigit (c.toNat % 16)]
    else [c]

def quoted (s : String) : String := "\"" ++ String.ofList (s.toList.flatMap escaped) ++ "\""

/-- How members are set apart. -/
structure Layout where
  /-- What stands before a member so many levels deep, or before the closing bracket. -/
  before : Nat → String
  /-- What stands between a name and its value. -/
  colon : String

/-- All on one line. -/
def Layout.compact : Layout := ⟨fun _ => "", ":"⟩

/-- Each member on a line of its own. -/
def Layout.pretty : Layout :=
  ⟨fun depth => "\n" ++ String.ofList (List.replicate (2 * depth) ' '), ": "⟩

/-- Members between brackets; brackets around nothing stay together. -/
def bracketed (l : Layout) (depth : Nat) (left right : String) (members : List String) : String :=
  match members with
  | [] => left ++ right
  | _ =>
    let lead := l.before (depth + 1)
    left ++ String.intercalate "," (members.map (lead ++ ·)) ++ l.before depth ++ right

mutual

/-- A value as it is written so many levels deep. -/
def render (l : Layout) (depth : Nat) : Json → String
  | .null => "null"
  | .number n => toString n
  | .text s => quoted s
  | .array items => bracketed l depth "[" "]" (renderItems l (depth + 1) items)
  | .object members => bracketed l depth "\x7b" "\x7d" (renderMembers l (depth + 1) members)

def renderItems (l : Layout) (depth : Nat) : List Json → List String
  | [] => []
  | j :: js => render l depth j :: renderItems l depth js

def renderMembers (l : Layout) (depth : Nat) : List (String × Json) → List String
  | [] => []
  | (name, j) :: rest =>
    (quoted name ++ l.colon ++ render l depth j) :: renderMembers l depth rest

end

/-- A value on a line, or over lines, of its own. -/
def document (pretty : Bool) (j : Json) : String :=
  render (if pretty then .pretty else .compact) 0 j ++ "\n"

end Json
end Netlink.Tool
