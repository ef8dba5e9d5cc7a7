import KotlinMetadata.Json.Basic

/-!
# Printed JSON

Every value of an array and every member of an object stands on a line of its
own, two spaces deeper than the brackets around it; empty brackets stay on one
line.  In strings, only quotes, backslashes and control characters are
escaped.
-/

namespace KotlinMetadata.Json

/-- A lower-case hexadecimal digit. -/
def hexDigit (n : Nat) : Char :=
  Nat.digitChar (n % 16)

/-- A character inside a string. -/
def escapeChar (c : Char) : List Char :=
  if c = '"' then ['\\', '"']
  else if c = '\\' then ['\\', '\\']
  else if c = '\x08' then ['\\', 'b']
  else if c = '\x0c' then ['\\', 'f']
  else if c = '\n' then ['\\', 'n']
  else if c = '\r' then ['\\', 'r']
  else if c = '\t' then ['\\', 't']
  else if c.toNat < 32 then
    ['\\', 'u', '0', '0', hexDigit (c.toNat / 16), hexDigit c.toNat]
  else [c]

/-- A string in quotes. -/
def quote (text : String) : String :=
  String.ofList ('"' :: text.toList.flatMap escapeChar ++ ['"'])

/-- A line feed and the indentation of a depth. -/
def newline (depth : Nat) : String :=
  String.ofList ('\n' :: List.replicate (2 * depth) ' ')

/-- Printed items between brackets. -/
def bracket (depth : Nat) (opening closing : String) (items : List String) : String :=
  if items.isEmpty then opening ++ closing
  else
    opening ++ newline (depth + 1) ++
      String.intercalate ("," ++ newline (depth + 1)) items ++ newline depth ++ closing

mutual

/-- A value printed inside brackets of a given depth. -/
def printAt (depth : Nat) : Json → String
  | null => "null"
  | bool true => "true"
  | bool false => "false"
  | number literal => literal
  | string value => quote value
  | broken => "null"
  | array values => bracket depth "[" "]" (printEach (depth + 1) values)
  | object members => bracket depth "\x7b" "\x7d" (printMembers (depth + 1) members)

/-- The values of an array, printed. -/
def printEach (depth : Nat) : List Json → List String
  | [] => []
  | value :: rest => printAt depth value :: printEach depth rest

/-- The members of an object, printed. -/
def printMembers (depth : Nat) : List (String × Json) → List String
  | [] => []
  | (name, value) :: rest =>
      (quote name ++ ": " ++ printAt depth value) :: printMembers depth rest

end

/-- A printed value. -/
def print (value : Json) : String :=
  value.printAt 0

end KotlinMetadata.Json
