/-!
# Arguments

What the words after the program's name ask for.  Switches stand anywhere among
the other words, up to a lone double dash.  They have a long name, some a letter
too, and take one value, which follows in the same word or is the next one.
No switch may be repeated, except that the one for colours has a place in front
of the command as well as behind it.
-/

namespace KotlinMetadata.CommandLine

/-- What there is help about. -/
inductive Topic where
  | program
  | remap
  | inspect
  | help
  deriving DecidableEq, Repr

/-- The switches that take a value. -/
inductive Switch where
  | color
  | mappings
  | source
  | target
  | className
  | settings
  | output
  deriving DecidableEq, Repr

namespace Switch

/-- The long name. -/
def name : Switch → String
  | color => "color"
  | mappings => "mappings"
  | source => "from"
  | target => "to"
  | className => "class-name"
  | settings => "config"
  | output => "output"

/-- The letter. -/
def letter? : Switch → Option Char
  | mappings => some 'm'
  | settings => some 'c'
  | output => some 'o'
  | _ => none

/-- Whether the value is the path of a file, which is never empty. -/
def isPath : Switch → Bool
  | mappings | settings | output => true
  | _ => false

end Switch

/-- The switches that are known where a topic is read. -/
def Topic.switches : Topic → List Switch
  | .remap => [.color, .mappings, .source, .target, .className, .settings, .output]
  | .program | .inspect => [.color]
  | .help => []

/-- What a word means. -/
inductive Word where
  /-- No more switches follow. -/
  | separator
  /-- Something that is no switch. -/
  | plain
  | help
  | version
  | switch (name : Switch) (value? : Option String)
  | unknown
  deriving DecidableEq, Repr

/-- A switch with the value in its word, if any switch was found. -/
def Word.ofSwitch (found? : Option Switch) (value? : Option String) : Word :=
  (found?.map fun found => switch found value?).getD unknown

/-- The meaning of a word that begins with two dashes. -/
def Word.ofLong (topic : Topic) (name : String) (value? : Option String) : Word :=
  if name = "help" && value?.isNone then help
  else if name = "version" && value?.isNone && topic = .program then version
  else ofSwitch (topic.switches.find? fun known => known.name = name) value?

/-- The meaning of a word that begins with one dash and a letter. -/
def Word.ofLetter (topic : Topic) (letter : Char) (rest : List Char) : Word :=
  if letter = 'h' then help
  else if letter = 'V' && topic = .program then version
  else
    let value? := match rest with
      | [] => none
      | '=' :: value => some (String.ofList value)
      | value => some (String.ofList value)
    ofSwitch (topic.switches.find? fun known => known.letter? = some letter) value?

/-- The meaning of a word where a topic is read. -/
def Word.ofText (topic : Topic) (text : String) : Word :=
  match text.toList with
  | ['-', '-'] => separator
  | '-' :: '-' :: rest =>
      let value? := match rest.dropWhile (· ≠ '=') with
        | _ :: value => some (String.ofList value)
        | [] => none
      ofLong topic (String.ofList (rest.takeWhile (· ≠ '='))) value?
  | '-' :: letter :: rest => ofLetter topic letter rest
  | _ => plain

/-- What the classes of a header are to be renamed with. -/
structure RenameOptions where
  /-- The file with the header. -/
  header : String
  /-- The file with the new names. -/
  mappings : String
  /-- The namespace of the names in the header, where the settings' is not meant. -/
  source? : Option String := none
  /-- The namespace of the new names, where the settings' is not meant. -/
  target? : Option String := none
  /-- The name of the class that the header belongs to. -/
  className? : Option String := none
  /-- The file with the settings. -/
  settings? : Option String := none
  /-- The file to write the header to. -/
  output? : Option String := none
  deriving DecidableEq, Repr

/-- What to do with a header. -/
inductive Command where
  | remap (options : RenameOptions)
  | inspect (header : String)
  deriving DecidableEq, Repr

/-- What arguments ask for. -/
inductive Request where
  | run (command : Command) (color? : Option String)
  | help (topic : Topic)
  | version
  deriving DecidableEq, Repr

/-- The arguments read so far. -/
structure Seen where
  /-- The colours asked for in front of the command. -/
  outerColor? : Option String := none
  /-- The switches with their values. -/
  switches : List (Switch × String) := []
  /-- The word that is no switch. -/
  operand? : Option String := none

namespace Seen

/-- The value of a switch. -/
def value? (seen : Seen) (switch : Switch) : Option String :=
  seen.switches.lookup switch

/-- Adds a switch with its value. -/
def addSwitch? (seen : Seen) (switch : Switch) (value : String) : Option Seen :=
  if (seen.value? switch).isSome || (switch.isPath && value.isEmpty) then none
  else some { seen with switches := (switch, value) :: seen.switches }

/-- Adds a word that is no switch, of which there may be one. -/
def addOperand? (seen : Seen) (text : String) : Option Seen :=
  if seen.operand?.isSome || text.isEmpty then none else some { seen with operand? := some text }

/-- What the arguments ask for when none is left. -/
def request? (seen : Seen) (topic : Topic) : Option Request := do
  let header ← seen.operand?
  let color? := (seen.value? .color).or seen.outerColor?
  match topic with
  | .remap =>
      return .run
        (.remap {
          header
          mappings := ← seen.value? .mappings
          source? := seen.value? .source
          target? := seen.value? .target
          className? := seen.value? .className
          settings? := seen.value? .settings
          output? := seen.value? .output })
        color?
  | .inspect => return .run (.inspect header) color?
  | .program | .help => none

end Seen

/-- What the words after the command for help ask for. -/
def helpRequest? : List String → Option Request
  | [] => some (.help .program)
  | ["remap"] => some (.help .remap)
  | ["inspect"] => some (.help .inspect)
  | ["help"] => some (.help .help)
  | _ => none

/-- Whether a word can be the value of the switch in front of it. -/
def isValue (text : String) : Bool :=
  match text.toList with
  | '-' :: _ :: _ => false
  | _ => true

/-- What arguments ask for after those seen already; nothing if they make no sense. -/
def scan (topic : Topic) (seen : Seen) : List String → Option Request
  | [] => seen.request? topic
  | text :: rest =>
      match Word.ofText topic text with
      | .help => some (.help topic)
      | .version => some .version
      | .unknown => none
      | .separator =>
          if topic = .program then none
          else do (← rest.foldlM Seen.addOperand? seen).request? topic
      | .switch switch (some value) => do scan topic (← seen.addSwitch? switch value) rest
      | .switch switch none =>
          match rest with
          | value :: rest =>
              if isValue value then do scan topic (← seen.addSwitch? switch value) rest else none
          | [] => none
      | .plain =>
          if topic ≠ .program then do scan topic (← seen.addOperand? text) rest
          else if text = "remap" then scan .remap { outerColor? := seen.value? .color } rest
          else if text = "inspect" then scan .inspect { outerColor? := seen.value? .color } rest
          else if text = "help" then helpRequest? rest
          else none

/-- What the program's arguments ask for; nothing if they make no sense. -/
def Request.ofArguments? (arguments : List String) : Option Request :=
  scan .program {} arguments

end KotlinMetadata.CommandLine
