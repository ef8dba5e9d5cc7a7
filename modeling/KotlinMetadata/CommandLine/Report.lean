/-!
# Reports

What a run of the program prints, and how labels are coloured.
-/

namespace KotlinMetadata.CommandLine

/-- What a run of the program leaves behind. -/
structure Report where
  /-- The exit code. -/
  code : UInt8 := 0
  /-- What is printed. -/
  out : String := ""
  /-- What is printed for the user's eyes. -/
  err : String := ""
  deriving DecidableEq, Repr

/-- The surroundings that decide about colours. -/
structure Terminal where
  /-- Whether no colours are wanted. -/
  noColor : Bool := false
  /-- The kind of terminal, if it is known. -/
  kind? : Option String := none
  deriving DecidableEq, Repr

/-- Whether labels are coloured, given the colours asked for. -/
def Terminal.paints (terminal : Terminal) (color? : Option String) : Bool :=
  if terminal.noColor || color? = some "never" then false
  else if color? = some "always" then true
  else terminal.kind?.any (· ≠ "dumb")

/-- The colours of labels. -/
inductive Color where
  | green
  | yellow
  | cyan
  deriving DecidableEq, Repr

/-- The sequence that begins a colour. -/
def Color.start : Color → String
  | green => "\x1b[32m"
  | yellow => "\x1b[33m"
  | cyan => "\x1b[36m"

/-- A line with a label in front, which is bold and coloured if labels are painted. -/
def labelled (paints : Bool) (color : Color) (label text : String) : String :=
  let label :=
    if paints then "\x1b[0m\x1b[1m" ++ color.start ++ label ++ "\x1b[0m" else label
  label ++ " " ++ text ++ "\n"

end KotlinMetadata.CommandLine
