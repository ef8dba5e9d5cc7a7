import KotlinMetadata.CommandLine.Arguments

/-!
# Help

What the program says about itself and its commands.  The descriptions of
switches stand in one column.
-/

namespace KotlinMetadata.CommandLine

/-- The name and the version of the program. -/
def versionText : String := "kmremap 0.1.0\n"

/-- The kind of value that a switch takes, as it is shown. -/
def Switch.placeholder : Switch → String
  | color => "<COLOR>"
  | mappings => "<MAPPINGS>"
  | source => "<FROM>"
  | target => "<TO>"
  | className => "<CLASS_NAME>"
  | settings => "<CONFIG>"
  | output => "<OUTPUT>"

/-- What a switch is for. -/
def Switch.description : Switch → String
  | color => "Color output: auto, always, never"
  | mappings => "Tiny mapping file"
  | source => "Namespace to map from (defaults to the config)"
  | target => "Namespace to map to (defaults to the config)"
  | className => "Internal name of the class the header belongs to"
  | settings => "Config file"
  | output => "Output file (stdout if omitted)"

/-- Rows of two columns, two blanks in front of each. -/
def columns (rows : List (String × String)) : String :=
  let width := (rows.map fun row => row.1.length).foldl max 0
  String.join <| rows.map fun (left, right) =>
    "  " ++ left ++ String.ofList (List.replicate (width - left.length + 2) ' ') ++ right ++ "\n"

/-- A switch as it is shown. -/
def Switch.synopsis (switch : Switch) : String :=
  let letter := match switch.letter? with
    | some letter => String.ofList ['-', letter, ',', ' ']
    | none => "    "
  letter ++ "--" ++ switch.name ++ " " ++ switch.placeholder

/-- The rows about what is known where a topic is read. -/
def Topic.switchRows (topic : Topic) : List (String × String) :=
  (topic.switches.map fun switch => (switch.synopsis, switch.description))
    ++ [("-h, --help", "Print help")]

/-- What a command does. -/
def Topic.description : Topic → String
  | program => "Kotlin metadata remapper"
  | remap => "Remap a metadata header"
  | inspect => "Decode a metadata header and print it as JSON"
  | help => "Print this message or the help of the given subcommand(s)"

/-- How a command is called. -/
def Topic.usage : Topic → String
  | program => "kmremap [OPTIONS] <COMMAND>"
  | remap => "kmremap remap [OPTIONS] --mappings <MAPPINGS> <HEADER>"
  | inspect => "kmremap inspect [OPTIONS] <HEADER>"
  | help => "kmremap help [COMMAND]..."

/-- Rows under a title. -/
def titled (title : String) (rows : List (String × String)) : String :=
  "\n" ++ title ++ ":\n" ++ columns rows

/-- What follows the usage of a command. -/
def Topic.sections (topic : Topic) : String :=
  match topic with
  | program =>
      titled "Commands"
        [ ("remap", remap.description)
        , ("inspect", inspect.description)
        , ("help", help.description) ]
      ++ titled "Options" (topic.switchRows ++ [("-V, --version", "Print version")])
  | remap =>
      titled "Arguments" [("<HEADER>", "Header JSON file (`k`, `mv`, `d1`, `d2`, ...)")]
      ++ titled "Options" topic.switchRows
  | inspect =>
      titled "Arguments" [("<HEADER>", "Header JSON file")]
      ++ titled "Options" topic.switchRows
  | help => titled "Arguments" [("[COMMAND]...", "Print help for the subcommand(s)")]

/-- What the program says about a topic. -/
def Topic.text (topic : Topic) : String :=
  topic.description ++ "\n\nUsage: " ++ topic.usage ++ "\n" ++ topic.sections

end KotlinMetadata.CommandLine
