import KotlinMetadata.Json.Basic
import KotlinMetadata.Text.Digits

/-!
# Reading JSON

Parsers take the characters ahead and give what they read together with the
characters after it.  A text holds one value, with blanks around its tokens and
nothing else: no comments, no commas before a closing bracket, no control
characters in strings.
-/

namespace KotlinMetadata.Json

open Text

/-- A parser: what it reads and what is left. -/
abbrev Parser (α : Type) := List Char → Option (α × List Char)

/-- Whether a character may stand between tokens. -/
def isSpace (c : Char) : Bool :=
  c = ' ' || c = '\n' || c = '\r' || c = '\t'

/-- The characters after those between tokens. -/
def skipSpace (chars : List Char) : List Char :=
  chars.dropWhile isSpace

/-- The character that a letter after a backslash stands for. -/
def escape? (c : Char) : Option Char :=
  if c = '"' || c = '\\' || c = '/' then some c
  else if c = 'b' then some '\x08'
  else if c = 'f' then some '\x0c'
  else if c = 'n' then some '\n'
  else if c = 'r' then some '\r'
  else if c = 't' then some '\t'
  else none

/-- The codes of a string up to its quote: one for a character, one for an escape of four
hexadecimal digits.  What was read is given in reverse. -/
def stringCodes (done : List Nat) : Parser (List Nat)
  | '"' :: rest => some (done.reverse, rest)
  | '\\' :: 'u' :: a :: b :: c :: d :: rest => do
      stringCodes ((← number? 16 [a, b, c, d]) :: done) rest
  | '\\' :: c :: rest => do stringCodes ((← escape? c).toNat :: done) rest
  | c :: rest => if c = '\\' || c.toNat < 32 then none else stringCodes (c.toNat :: done) rest
  | [] => none

/-- Whether a code is the first half of a surrogate pair. -/
def isHighSurrogate (code : Nat) : Bool :=
  0xD800 ≤ code && code < 0xDC00

/-- Whether a code is the second half of a surrogate pair. -/
def isLowSurrogate (code : Nat) : Bool :=
  0xDC00 ≤ code && code < 0xE000

/-- The characters that codes spell; none if a surrogate has no partner. -/
def joinCodes? : List Nat → Option (List Char)
  | [] => some []
  | high :: low :: rest =>
      if isHighSurrogate high then
        if isLowSurrogate low then
          (Char.ofNat (0x10000 + 1024 * (high - 0xD800) + (low - 0xDC00)) :: ·) <$> joinCodes? rest
        else none
      else if isLowSurrogate high then none
      else (Char.ofNat high :: ·) <$> joinCodes? (low :: rest)
  | [code] =>
      if isHighSurrogate code || isLowSurrogate code then none else some [Char.ofNat code]

/-- The text that codes spell. -/
def textOfCodes? (codes : List Nat) : Option String :=
  String.ofList <$> joinCodes? codes

/-- One digit or more. -/
def digits : Parser (List Char) := fun chars =>
  match chars.takeWhile isDigit with
  | [] => none
  | read => some (read, chars.dropWhile isDigit)

/-- The part of a number before its point. -/
def whole : Parser (List Char)
  | '0' :: rest => some (['0'], rest)
  | chars => digits chars

/-- A point with digits, if one comes first. -/
def fraction : Parser (List Char)
  | '.' :: rest => do
      let (read, rest) ← digits rest
      return ('.' :: read, rest)
  | chars => some ([], chars)

/-- The sign of an exponent, if one comes first. -/
def exponentSign : List Char → List Char × List Char
  | '+' :: rest => (['+'], rest)
  | '-' :: rest => (['-'], rest)
  | chars => ([], chars)

/-- An exponent, if one comes first. -/
def exponent : Parser (List Char)
  | [] => some ([], [])
  | c :: rest =>
      if c = 'e' || c = 'E' then do
        let (sign, rest) := exponentSign rest
        let (read, rest) ← digits rest
        return (c :: sign ++ read, rest)
      else some ([], c :: rest)

/-- A number without a sign. -/
def magnitude : Parser (List Char) := fun chars => do
  let (first, rest) ← whole chars
  let (second, rest) ← fraction rest
  let (third, rest) ← exponent rest
  return (first ++ second ++ third, rest)

/-- A value that has no brackets. -/
def scalar : Parser Json
  | 'n' :: 'u' :: 'l' :: 'l' :: rest => some (null, rest)
  | 't' :: 'r' :: 'u' :: 'e' :: rest => some (bool true, rest)
  | 'f' :: 'a' :: 'l' :: 's' :: 'e' :: rest => some (bool false, rest)
  | '"' :: rest => do
      let (codes, rest) ← stringCodes [] rest
      return ((textOfCodes? codes).elim broken string, rest)
  | '-' :: rest => do
      let (read, rest) ← magnitude rest
      return (number (String.ofList ('-' :: read)), rest)
  | chars => do
      let (read, rest) ← magnitude chars
      return (number (String.ofList read), rest)

/-- The values of an array up to its bracket, given fuel for as many values. -/
def elements (value : Parser Json) : Nat → Parser (List Json)
  | 0, _ => none
  | more + 1, chars => do
      let (first, rest) ← value (skipSpace chars)
      match skipSpace rest with
      | ',' :: rest => do
          let (others, rest) ← elements value more rest
          return (first :: others, rest)
      | ']' :: rest => return ([first], rest)
      | _ => none

/-- A member of an object, its name as codes. -/
def member (value : Parser Json) : Parser (List Nat × Json) := fun chars => do
  let '"' :: rest := skipSpace chars | none
  let (codes, rest) ← stringCodes [] rest
  let ':' :: rest := skipSpace rest | none
  let (value, rest) ← value (skipSpace rest)
  return ((codes, value), rest)

/-- The members of an object up to its brace, given fuel for as many members. -/
def members (value : Parser Json) : Nat → Parser (List (List Nat × Json))
  | 0, _ => none
  | more + 1, chars => do
      let (first, rest) ← member value chars
      match skipSpace rest with
      | ',' :: rest => do
          let (others, rest) ← members value more rest
          return (first :: others, rest)
      | '\x7d' :: rest => return ([first], rest)
      | _ => none

/-- A member with its name spelled. -/
def spellMember? (entry : List Nat × Json) : Option (String × Json) :=
  (textOfCodes? entry.1).map fun name => (name, entry.2)

/-- The object with members whose names are given as codes. -/
def ofMembers (entries : List (List Nat × Json)) : Json :=
  (entries.mapM spellMember?).elim broken object

/-- A value, with brackets inside brackets to a depth at most. -/
def value : Nat → Parser Json
  | depth + 1, '[' :: rest =>
      match skipSpace rest with
      | ']' :: rest => some (array [], rest)
      | rest => do
          let (values, rest) ← elements (value depth) (rest.length + 1) rest
          return (array values, rest)
  | depth + 1, '\x7b' :: rest =>
      match skipSpace rest with
      | '\x7d' :: rest => some (object [], rest)
      | rest => do
          let (read, rest) ← members (value depth) (rest.length + 1) rest
          return (ofMembers read, rest)
  | _, chars => scalar chars

/-- The value that a text holds. -/
def parse? (text : String) : Option Json := do
  let chars := text.toList
  let (value, rest) ← value chars.length (skipSpace chars)
  if (skipSpace rest).isEmpty then some value else none

end KotlinMetadata.Json
