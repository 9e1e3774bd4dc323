import Statechart.Json.Value
import Statechart.Text.Decimal

namespace Statechart.Json

inductive Layout where
  | compact
  | indented
deriving DecidableEq

def Layout.line : Layout → Nat → List Char
  | compact, _ => []
  | indented, depth => '\n' :: List.replicate (2 * depth) ' '

def Layout.colon : Layout → List Char
  | compact => [':']
  | indented => [':', ' ']

def hexDigit (n : Nat) : Char := Nat.digitChar n

def escape (c : Char) : List Char :=
  match c with
  | '"' => ['\\', '"']
  | '\\' => ['\\', '\\']
  | '\x08' => ['\\', 'b']
  | '\x0c' => ['\\', 'f']
  | '\n' => ['\\', 'n']
  | '\r' => ['\\', 'r']
  | '\t' => ['\\', 't']
  | c =>
    if c.toNat < 0x20 then ['\\', 'u', '0', '0', hexDigit (c.toNat / 16), hexDigit (c.toNat % 16)] else [c]

def writeText (s : String) : List Char := '"' :: s.toList.flatMap escape ++ ['"']

def writeText? : Option String → List Char
  | some s => writeText s
  | none => ['"', '\\', 'u', 'd', '8', '0', '0', '"']

mutual

def write (layout : Layout) (depth : Nat) : Value → List Char
  | .null => "null".toList
  | .bool true => "true".toList
  | .bool false => "false".toList
  | .integer n => Text.decimal n
  | .decimal => "0.0".toList
  | .text content? => writeText? content?
  | .array [] => ['[', ']']
  | .array (element :: elements) =>
    '[' :: layout.line (depth + 1) ++ write layout (depth + 1) element ++
      writeElements layout (depth + 1) elements ++ layout.line depth ++ [']']
  | .object [] => ['\x7b', '\x7d']
  | .object ((name?, value) :: members) =>
    '\x7b' :: layout.line (depth + 1) ++ writeText? name? ++ layout.colon ++ write layout (depth + 1) value ++
      writeMembers layout (depth + 1) members ++ layout.line depth ++ ['\x7d']

def writeElements (layout : Layout) (depth : Nat) : List Value → List Char
  | [] => []
  | element :: elements =>
    ',' :: layout.line depth ++ write layout depth element ++ writeElements layout depth elements

def writeMembers (layout : Layout) (depth : Nat) : List (Option String × Value) → List Char
  | [] => []
  | (name?, value) :: members =>
    ',' :: layout.line depth ++ writeText? name? ++ layout.colon ++ write layout depth value ++
      writeMembers layout depth members

end

def compact (value : Value) : String := String.ofList (write .compact 0 value)

def pretty (value : Value) : String := String.ofList (write .indented 0 value)

end Statechart.Json
