import KotlinMetadata.Decimal.Basic
import KotlinMetadata.Text.Digits
import KotlinMetadata.Toml.Basic

/-!
# Single values and keys of a document

Parsers take the characters ahead and give what they read together with the
characters after it.  Numbers, dates and words are read as whole tokens first,
since nothing that can follow a value continues a token.
-/

namespace KotlinMetadata.Toml

open Text

/-- A parser: what it reads and what is left. -/
abbrev Parser (α : Type) := List Char → Option (α × List Char)

/-- Blanks inside a line. -/
def isBlank (c : Char) : Bool :=
  c = ' ' || c = '\t'

/-- The characters after blanks. -/
def skipBlanks (chars : List Char) : List Char :=
  chars.dropWhile isBlank

/-- Whether a character may stand in comments and strings. -/
def isText (c : Char) : Bool :=
  c = '\t' || (32 ≤ c.toNat && c.toNat ≠ 127)

/-- The character that hexadecimal digits name, if there is one. -/
def namedChar? (digits : List Char) : Option Char := do
  let code ← number? 16 digits
  if h : code.isValidChar then some (Char.ofNatAux code h) else none

/-- The character that a letter after a backslash stands for. -/
def escape? (c : Char) : Option Char :=
  if c = 'b' then some '\x08'
  else if c = 't' then some '\t'
  else if c = 'n' then some '\n'
  else if c = 'f' then some '\x0c'
  else if c = 'r' then some '\r'
  else if c = '"' then some '"'
  else if c = '\\' then some '\\'
  else none

/-- The text of a string up to its double quote.  What was read is given in reverse. -/
def basicText (done : List Char) : Parser String
  | '"' :: rest => some (String.ofList done.reverse, rest)
  | '\\' :: 'u' :: a :: b :: c :: d :: rest => do
      basicText ((← namedChar? [a, b, c, d]) :: done) rest
  | '\\' :: 'U' :: a :: b :: c :: d :: e :: f :: g :: h :: rest => do
      basicText ((← namedChar? [a, b, c, d, e, f, g, h]) :: done) rest
  | '\\' :: c :: rest => do basicText ((← escape? c) :: done) rest
  | c :: rest => if isText c && c ≠ '\\' then basicText (c :: done) rest else none
  | [] => none

/-- The text of a string up to its single quote. -/
def literalText (done : List Char) : Parser String
  | '\'' :: rest => some (String.ofList done.reverse, rest)
  | c :: rest => if isText c then literalText (c :: done) rest else none
  | [] => none

/-- Whether blanks and a line end come next. -/
def endsLine (chars : List Char) : Bool :=
  match skipBlanks chars with
  | '\n' :: _ => true
  | '\r' :: '\n' :: _ => true
  | _ => false

/-- The text of a string of several lines up to its three double quotes.  While `skipping`, blanks
and line ends are passed over. -/
def basicLines (skipping : Bool) (done : List Char) : Parser String
  | '"' :: '"' :: '"' :: '"' :: '"' :: rest =>
      some (String.ofList ('"' :: '"' :: done).reverse, rest)
  | '"' :: '"' :: '"' :: '"' :: rest => some (String.ofList ('"' :: done).reverse, rest)
  | '"' :: '"' :: '"' :: rest => some (String.ofList done.reverse, rest)
  | '\\' :: 'u' :: a :: b :: c :: d :: rest => do
      basicLines false ((← namedChar? [a, b, c, d]) :: done) rest
  | '\\' :: 'U' :: a :: b :: c :: d :: e :: f :: g :: h :: rest => do
      basicLines false ((← namedChar? [a, b, c, d, e, f, g, h]) :: done) rest
  | '\\' :: c :: rest =>
      if endsLine (c :: rest) then
        if c = '\r' || c = '\n' || isBlank c then basicLines true done rest else none
      else do basicLines false ((← escape? c) :: done) rest
  | '\r' :: '\n' :: rest =>
      if skipping then basicLines true done rest else basicLines false ('\n' :: done) rest
  | c :: rest =>
      if skipping && (isBlank c || c = '\n') then basicLines true done rest
      else if isText c && c ≠ '\\' || c = '\n' then basicLines false (c :: done) rest
      else none
  | [] => none

/-- The text of a string of several lines up to its three single quotes. -/
def literalLines (done : List Char) : Parser String
  | '\'' :: '\'' :: '\'' :: '\'' :: '\'' :: rest =>
      some (String.ofList ('\'' :: '\'' :: done).reverse, rest)
  | '\'' :: '\'' :: '\'' :: '\'' :: rest => some (String.ofList ('\'' :: done).reverse, rest)
  | '\'' :: '\'' :: '\'' :: rest => some (String.ofList done.reverse, rest)
  | '\r' :: '\n' :: rest => literalLines ('\n' :: done) rest
  | c :: rest => if isText c || c = '\n' then literalLines (c :: done) rest else none
  | [] => none

/-- The characters after a line end, if one comes first. -/
def skipLineEnd : List Char → List Char
  | '\n' :: rest => rest
  | '\r' :: '\n' :: rest => rest
  | chars => chars

/-- A string of any form. -/
def stringText : Parser String
  | '"' :: '"' :: '"' :: rest => basicLines false [] (skipLineEnd rest)
  | '\'' :: '\'' :: '\'' :: rest => literalLines [] (skipLineEnd rest)
  | '"' :: rest => basicText [] rest
  | '\'' :: rest => literalText [] rest
  | _ => none

/-- Whether a character may stand in an unquoted key. -/
def isKeyChar (c : Char) : Bool :=
  isDigit c || 'a' ≤ c && c ≤ 'z' || 'A' ≤ c && c ≤ 'Z' || c = '_' || c = '-'

/-- One part of a key. -/
def keyPart : Parser String
  | '"' :: rest => basicText [] rest
  | '\'' :: rest => literalText [] rest
  | chars =>
      match chars.takeWhile isKeyChar with
      | [] => none
      | name => some (String.ofList name, chars.dropWhile isKeyChar)

/-- The parts of a key, joined by dots, of which there may be so many.  Blanks around them are
skipped. -/
def keyParts : Nat → Parser (List String)
  | 0, _ => none
  | more + 1, chars => do
      let (part, rest) ← keyPart (skipBlanks chars)
      match skipBlanks rest with
      | '.' :: rest => do
          let (parts, rest) ← keyParts more rest
          return (part :: parts, rest)
      | rest => return ([part], rest)

/-- How deep values may be nested, and how many parts a key may have. -/
def maxDepth : Nat := 79

/-- A key as the path to its last part and that part. -/
def key : Parser (List String × String) := fun chars => do
  let (parts, rest) ← keyParts maxDepth chars
  return ((parts.dropLast, ← parts.getLast?), rest)

/-- Digits of a base without the underscores between them; none if one stands elsewhere. -/
def plainDigits? (base : Nat) : List Char → Option (List Char)
  | [c] => do let _ ← digit? base c; return [c]
  | c :: '_' :: rest => do let _ ← digit? base c; return c :: (← plainDigits? base rest)
  | c :: rest => do let _ ← digit? base c; return c :: (← plainDigits? base rest)
  | [] => none

/-- A sign, if there is one, and what follows. -/
def splitSign : List Char → Option Char × List Char
  | '+' :: rest => (some '+', rest)
  | '-' :: rest => (some '-', rest)
  | chars => (none, chars)

/-- The digits of a decimal number, which begins with zero only if it is zero. -/
def decimal? (chars : List Char) : Option (List Char) := do
  let digits ← plainDigits? 10 chars
  if digits.head? = some '0' && 1 < digits.length then none else some digits

/-- The number that digits of a base spell, with underscores between them. -/
def magnitude? (base : Nat) (digits : List Char) : Option Int := do
  let n ← number? base (← plainDigits? base digits)
  return n

/-- The number that decimal digits with a sign spell. -/
def signed? (chars : List Char) : Option Int := do
  let (sign, chars) := splitSign chars
  let n ← number? 10 (← decimal? chars)
  return if sign = some '-' then -(n : Int) else n

/-- A whole number of 64 bits. -/
def integer? (token : List Char) : Option Int :=
  let value? := match token with
    | '0' :: 'x' :: digits => magnitude? 16 digits
    | '0' :: 'o' :: digits => magnitude? 8 digits
    | '0' :: 'b' :: digits => magnitude? 2 digits
    | _ => signed? token
  value?.filter fun value =>
    decide (-9223372036854775808 ≤ value) && decide (value ≤ 9223372036854775807)

/-- The size that digits of an exponent spell.  Past 65535 it grows no more. -/
def exponentSize (digits : List Nat) : Nat :=
  digits.foldl (fun size digit => if size < 65536 then 10 * size + digit else size) 0

/-- The exponent that characters spell behind its letter. -/
def exponent? : List Char → Option Int
  | c :: rest =>
      if c = 'e' || c = 'E' then do
        let (sign, chars) := splitSign rest
        let digits ← (← plainDigits? 10 chars).mapM (digit? 10)
        let size : Int := exponentSize digits
        return if sign = some '-' then -size else size
      else none
  | [] => none

/-- The number that characters with a point or an exponent spell. -/
def fractional? (chars : List Char) : Option Decimal := do
  let isPart := fun c => isDigit c || c = '_'
  let whole ← decimal? (chars.takeWhile isPart)
  match chars.dropWhile isPart with
  | '.' :: rest => do
      let fraction ← plainDigits? 10 (rest.takeWhile isPart)
      let after := rest.dropWhile isPart
      let exponent ← if after.isEmpty then some 0 else exponent? after
      return ⟨← number? 10 (whole ++ fraction), exponent - fraction.length⟩
  | rest => return ⟨← number? 10 whole, ← exponent? rest⟩

/-- Whether a token is a float.  Positive numbers have to be in the range of 64 bits; negative ones
below it count as negative infinity. -/
def isFloat (token : List Char) : Bool :=
  let (sign, chars) := splitSign token
  if chars = "inf".toList || chars = "nan".toList then true
  else (fractional? chars).any fun number => sign = some '-' || !number.overflows

/-- The two-digit number at the front. -/
def twoDigits? : Parser Nat
  | a :: b :: rest => do return (10 * (← digit? 10 a) + (← digit? 10 b), rest)
  | _ => none

/-- How many days a month has. -/
def daysOf (year month : Nat) : Nat :=
  if month = 2 then
    if year % 4 = 0 && (year % 100 ≠ 0 || year % 400 = 0) then 29 else 28
  else if month = 4 || month = 6 || month = 9 || month = 11 then 30
  else 31

/-- What follows a date at the front. -/
def afterDate? : List Char → Option (List Char)
  | a :: b :: c :: d :: '-' :: rest => do
      let year ← number? 10 [a, b, c, d]
      let (month, rest) ← twoDigits? rest
      let '-' :: rest := rest | none
      let (day, rest) ← twoDigits? rest
      if 1 ≤ month && month ≤ 12 && 1 ≤ day && day ≤ daysOf year month then some rest else none
  | _ => none

/-- What follows hours and minutes at the front. -/
def afterMinutes? (chars : List Char) : Option (List Char) := do
  let (hour, rest) ← twoDigits? chars
  let ':' :: rest := rest | none
  let (minute, rest) ← twoDigits? rest
  if hour ≤ 23 && minute ≤ 59 then some rest else none

/-- What follows a time of day at the front. -/
def afterTime? (chars : List Char) : Option (List Char) := do
  let ':' :: rest := ← afterMinutes? chars | none
  let (second, rest) ← twoDigits? rest
  if 60 < second then none
  else
    match rest with
    | '.' :: rest =>
        if (rest.takeWhile isDigit).isEmpty then none else some (rest.dropWhile isDigit)
    | rest => some rest

/-- Whether characters are nothing or the distance to universal time. -/
def isZone : List Char → Bool
  | [] => true
  | ['Z'] => true
  | ['z'] => true
  | '+' :: rest => afterMinutes? rest = some []
  | '-' :: rest => afterMinutes? rest = some []
  | _ => false

/-- Whether a token is a time, a date, or both. -/
def isMoment (token : List Char) : Bool :=
  match afterDate? token with
  | some [] => true
  | some (c :: rest) => (c = 'T' || c = 't' || c = ' ') && (afterTime? rest).any isZone
  | none => afterTime? token = some []

/-- Whether a character may stand in a token. -/
def isTokenChar (c : Char) : Bool :=
  isKeyChar c || c = '+' || c = '.' || c = ':'

/-- The token ahead.  A date may be followed by a blank and a time. -/
def token (chars : List Char) : List Char × List Char :=
  let first := chars.takeWhile isTokenChar
  let rest := chars.dropWhile isTokenChar
  match afterDate? first, rest with
  | some [], ' ' :: a :: b :: ':' :: _ =>
      if isDigit a && isDigit b then
        (first ++ ' ' :: rest.tail.takeWhile isTokenChar, rest.tail.dropWhile isTokenChar)
      else (first, rest)
  | _, _ => (first, rest)

/-- The value that a token spells. -/
def tokenValue? (token : List Char) : Option Toml :=
  if token = "true".toList then some (boolean true)
  else if token = "false".toList then some (boolean false)
  else
    match integer? token with
    | some value => some (integer value)
    | none =>
        if isFloat token then some float
        else if isMoment token then some moment
        else none

/-- A value without brackets. -/
def scalar (chars : List Char) : Option (Toml × List Char) :=
  if chars.head? = some '"' || chars.head? = some '\'' then do
    let (text, rest) ← stringText chars
    return (string text, rest)
  else do
    let (first, rest) := token chars
    return (← tokenValue? first, rest)

end KotlinMetadata.Toml
