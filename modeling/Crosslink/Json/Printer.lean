import Crosslink.Json.Basic
import Crosslink.Text.Basic

/-!
# Printing JSON

The readable form: two spaces for every level, each item and each field on
a line of its own, an empty array or object in one piece. In texts only
quotes, backslashes and control characters are escaped.
-/

namespace Crosslink.Json

/-- The hexadecimal digit of a number below 16. -/
def hexDigit (n : Nat) : Char :=
  "0123456789abcdef".toList.getD n '0'

/-- A character inside a text. -/
def escapeChar (c : Char) : List Char :=
  if c = '"' then ['\\', '"']
  else if c = '\\' then ['\\', '\\']
  else if c = '\n' then ['\\', 'n']
  else if c = '\r' then ['\\', 'r']
  else if c = '\t' then ['\\', 't']
  else if c = '\x08' then ['\\', 'b']
  else if c = '\x0c' then ['\\', 'f']
  else if c.toNat < 0x20 then
    ['\\', 'u', '0', '0', hexDigit (c.toNat / 16), hexDigit (c.toNat % 16)]
  else [c]

def quote (text : String) : String :=
  "\"" ++ String.ofList (text.toList.flatMap escapeChar) ++ "\""

def lineBreak (level : Nat) : String :=
  String.ofList ('\n' :: List.replicate (2 * level) ' ')

def bracketed (level : Nat) (opening closing : String)
    (items : List String) : String :=
  if items.isEmpty then opening ++ closing
  else
    opening ++ lineBreak (level + 1)
      ++ ("," ++ lineBreak (level + 1)).intercalate items
      ++ lineBreak level ++ closing

mutual

def print (level : Nat) : Json → String
  | .null => "null"
  | .bool true => "true"
  | .bool false => "false"
  | .integer value => toString value
  | .decimal digits => digits
  | .text value => quote value
  | .array items => bracketed level "[" "]" (printItems (level + 1) items)
  | .object fields =>
    bracketed level "\x7b" "\x7d" (printFields (level + 1) fields)

def printItems (level : Nat) : List Json → List String
  | [] => []
  | item :: items => item.print level :: printItems level items

def printFields (level : Nat) : List (String × Json) → List String
  | [] => []
  | (name, value) :: fields =>
    (quote name ++ ": " ++ value.print level) :: printFields level fields

end

/-- The readable form of a value. -/
def toText (j : Json) : String := j.print 0

end Crosslink.Json
