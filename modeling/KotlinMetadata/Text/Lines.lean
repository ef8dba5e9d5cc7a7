/-!
# Lines and columns

Text is cut into lines at line feeds and lines into columns at tabs.  A
carriage return right before a line feed belongs to the line's end; an empty
rest behind the last line feed is no line.
-/

namespace KotlinMetadata.Text

/-- The pieces of a text between separators.  There is one more piece than separators. -/
def split (separator : Char) : List Char → List (List Char)
  | [] => [[]]
  | c :: rest =>
      if c = separator then [] :: split separator rest
      else
        match split separator rest with
        | [] => [[c]]
        | first :: others => (c :: first) :: others

/-- There is always a piece. -/
theorem split_ne_nil (separator : Char) (chars : List Char) : split separator chars ≠ [] := by
  cases chars with
  | nil => simp [split]
  | cons c rest =>
      unfold split
      split
      · simp
      · split <;> simp

/-- A line without the carriage return at its end, if it has one. -/
def dropReturn (line : List Char) : List Char :=
  if line.getLast? = some '\r' then line.dropLast else line

/-- Pieces between line feeds as lines. -/
def linesOfPieces : List (List Char) → List (List Char)
  | [] => []
  | [last] => if last.isEmpty then [] else [last]
  | piece :: rest => dropReturn piece :: linesOfPieces rest

/-- The lines of a text. -/
def lines (text : List Char) : List (List Char) :=
  linesOfPieces (split '\n' text)

end KotlinMetadata.Text
