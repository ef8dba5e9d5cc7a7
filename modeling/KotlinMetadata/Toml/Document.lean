import KotlinMetadata.Toml.Scalar

/-!
# Documents

A document is read line by line.  A header chooses the table that the lines
after it add to; before the first one that is the document itself.
-/

namespace KotlinMetadata.Toml

/-- The characters after a comment, if one comes first. -/
def skipComment : List Char → List Char
  | '#' :: rest => rest.dropWhile isText
  | chars => chars

/-- The characters after blanks, comments and line ends, possibly from inside a comment. -/
def skipLines (comment : Bool) : List Char → List Char
  | '\n' :: rest => skipLines false rest
  | '\r' :: '\n' :: rest => skipLines false rest
  | '#' :: rest => skipLines true rest
  | c :: rest =>
      if (if comment then isText c else isBlank c) then skipLines comment rest else c :: rest
  | [] => []

/-- The characters after anything that may stand between the values of an array. -/
def skipSpace (chars : List Char) : List Char :=
  skipLines false chars

/-- The values of an array up to its bracket, given fuel for as many values. -/
def arrayValues (value : Parser Toml) : Nat → Parser (List Toml)
  | 0, _ => none
  | more + 1, chars =>
      match skipSpace chars with
      | ']' :: rest => some ([], rest)
      | chars => do
          let (first, rest) ← value chars
          match skipSpace rest with
          | ',' :: rest => do
              let (others, rest) ← arrayValues value more rest
              return (first :: others, rest)
          | ']' :: rest => return ([first], rest)
          | _ => none

/-- A key with its value. -/
def pair (value : Parser Toml) : Parser ((List String × String) × Toml) := fun chars => do
  let (name, rest) ← key chars
  let '=' :: rest := rest | none
  let (value, rest) ← value (skipBlanks rest)
  return ((name, value), rest)

/-- The members of an inline table up to its brace, added to those before them, given fuel for as
many members. -/
def inlineMembers (value : Parser Toml) (members : Members) : Nat → Parser Members
  | 0, _ => none
  | more + 1, chars => do
      let (((path, name), value'), rest) ← pair value chars
      let members ← define path name value' members
      match skipBlanks rest with
      | ',' :: rest => inlineMembers value members more rest
      | '\x7d' :: rest => return (members, rest)
      | _ => none

/-- A value, with brackets inside brackets to a depth at most. -/
def value : Nat → Parser Toml
  | depth + 1, '[' :: rest => do
      let (values, rest) ← arrayValues (value depth) (rest.length + 1) rest
      return (array values, rest)
  | depth + 1, '\x7b' :: rest =>
      match skipBlanks rest with
      | '\x7d' :: rest => some (table .inline [], rest)
      | rest => do
          let (members, rest) ← inlineMembers (value depth) [] (rest.length + 1) rest
          return (table .inline members, rest)
  | _, chars => scalar chars

/-- A document so far, and the path of the table that lines now add to. -/
structure Draft where
  /-- What the document has. -/
  members : Members := []
  /-- The path in the last header. -/
  current : List String := []

/-- A header or a key with its value. -/
def statement (draft : Draft) : Parser Draft
  | '[' :: '[' :: rest => do
      let ((path, name), rest) ← key rest
      let ']' :: ']' :: rest := rest | none
      let members ← changeAt (openElement name) path draft.members
      return ({ members, current := path ++ [name] }, rest)
  | '[' :: rest => do
      let ((path, name), rest) ← key rest
      let ']' :: rest := rest | none
      let members ← changeAt (openTable name) path draft.members
      return ({ members, current := path ++ [name] }, rest)
  | chars => do
      let (((path, name), value), rest) ← pair (value maxDepth) chars
      let members ← changeAt (define path name value) draft.current draft.members
      return ({ draft with members }, rest)

/-- The characters after the end of the line, if nothing but a comment comes before it. -/
def endLine? (chars : List Char) : Option (List Char) :=
  match skipComment (skipBlanks chars) with
  | [] => some []
  | '\n' :: rest => some rest
  | '\r' :: '\n' :: rest => some rest
  | _ => none

/-- A draft with all that follows in it, given fuel for as many lines. -/
def statements (draft : Draft) : Nat → List Char → Option Draft
  | 0, _ => none
  | more + 1, chars =>
      match skipSpace chars with
      | [] => some draft
      | chars => do
          let (draft, rest) ← statement draft chars
          statements draft more (← endLine? rest)

/-- The characters of a text after the mark that may stand first in it. -/
def skipByteOrderMark : List Char → List Char
  | '\uFEFF' :: rest => rest
  | chars => chars

/-- The members of a document. -/
def read (text : String) : Option Members := do
  let chars := skipByteOrderMark text.toList
  let draft ← statements {} (chars.length + 1) chars
  return draft.members

end KotlinMetadata.Toml
