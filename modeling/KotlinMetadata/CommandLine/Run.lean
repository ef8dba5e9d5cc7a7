import KotlinMetadata.CommandLine.Help
import KotlinMetadata.CommandLine.Path
import KotlinMetadata.CommandLine.Report
import KotlinMetadata.Header.Json
import KotlinMetadata.Json.Float
import KotlinMetadata.Json.Parser
import KotlinMetadata.Json.Printer
import KotlinMetadata.Renamer
import KotlinMetadata.Settings.Document
import KotlinMetadata.Tiny

/-!
# Running the program

A run takes its files in a fixed order, settings, new names, header, and stops
at the first that is of no use.  Everything is computed before anything is
printed or written.
-/

namespace KotlinMetadata.CommandLine

/-- The texts of files by their paths, where they can be read. -/
abbrev Files := String → Option String

/-- Why a run fails. -/
inductive Failure where
  | settings (path : String)
  | mappings (path : String)
  | unreadable (path : String)
  | notAHeader (path : String)
  | undecodable
  | unwritable (path : String)
  | rename (fault : RenameError)
  deriving DecidableEq, Repr

/-- The failure in words. -/
def Failure.message : Failure → String
  | settings path => s!"Failed to load config {path}"
  | mappings path => s!"Failed to load mappings {path}"
  | unreadable path => s!"Failed to read {path}"
  | notAHeader path => s!"{path} is not a metadata header"
  | undecodable => "Failed to decode metadata"
  | unwritable path => s!"Failed to write {path}"
  | rename fault => fault.message

/-- The line about a failure. -/
def Failure.line (failure : Failure) : String :=
  "Error: " ++ failure.message ++ "\n"

/-- The header in a file. -/
def readHeader (files : Files) (path : String) : Except Failure Header :=
  match files path with
  | none => .error (.unreadable path)
  | some text =>
      match (Json.parse? text).bind Header.ofJson? with
      | none => .error (.notAHeader path)
      | some header => .ok header

/-- The settings in a file, or the defaults without one. -/
def readSettings (files : Files) : Option String → Except Failure Settings
  | none => .ok {}
  | some path =>
      match (files path).map Settings.read with
      | some (.ok settings) => .ok settings
      | _ => .error (.settings path)

/-- The new names in a file. -/
def readMappings (files : Files) (path source target : String) : Except Failure ClassMap :=
  match (files path).map fun text => Tiny.read text source target with
  | some (.ok classes) => .ok classes
  | _ => .error (.mappings path)

/-- The name of the class that a header belongs to. -/
def RenameOptions.classNameOrStem (options : RenameOptions) : String :=
  options.className?.getD ((stem? options.header).getD "<unknown>")

/-- The header that options ask for. -/
def RenameOptions.rename (options : RenameOptions) (files : Files) :
    Except Failure RenamedHeader := do
  let settings ← readSettings files options.settings?
  let classes ← readMappings files options.mappings
    (options.source?.getD settings.sourceNamespace) (options.target?.getD settings.targetNamespace)
  let header ← readHeader files options.header
  let renamer : Renamer := { names := classes.toRenaming, settings }
  (renamer.renameHeader options.classNameOrStem header).mapError .rename

/-- Why an annotation is passed through, in a word. -/
def reasonText : PassReason → String
  | .noElements => "Empty"
  | .notALambda => "NotALambda"
  | .noTree => "Opaque"

/-- The lines about what happened to a header. -/
def outcomeLines (paints : Bool) (renamed : RenamedHeader) : String :=
  let warnings := renamed.diagnostics.map fun diagnostic =>
    labelled paints .yellow "warning:" diagnostic.message
  let unchanged := match renamed.outcome with
    | .renamed => ""
    | .passedThrough reason => labelled paints .cyan "Unchanged" ("(" ++ reasonText reason ++ ")")
  String.join warnings ++ unchanged

/-- What is left to do when everything is computed. -/
inductive Plan where
  /-- To print. -/
  | print (report : Report)
  /-- To write a file, and to print how that went. -/
  | write (path content : String) (written failed : Report)
  deriving DecidableEq, Repr

/-- The plan after a failure. -/
def Failure.plan (failure : Failure) : Plan :=
  .print { code := 1, err := failure.line }

/-- The plan for renaming a header. -/
def remapPlan (paints : Bool) (files : Files) (options : RenameOptions) : Plan :=
  match options.rename files with
  | .error failure => failure.plan
  | .ok renamed =>
      let text := renamed.result.toJson.print ++ "\n"
      let lines := outcomeLines paints renamed
      match options.output? with
      | none => .print { out := text, err := lines }
      | some path =>
          .write path text
            { err := lines ++ labelled paints .green "Remapped" path }
            { code := 1, err := lines ++ (Failure.unwritable path).line }

/-- A decoded header as an object, its members in alphabetical order. -/
def inspection (header : Header) (metadata : Metadata) : Json :=
  (Json.object
    [ ("k", .int header.kind.toInt)
    , ("mv", .array (header.version.map fun number => .int number.toInt))
    , ("metadata", metadata.toJson Json.floats) ]).sortMembers

/-- The plan for an inspection. -/
def inspectPlan (files : Files) (path : String) : Plan :=
  match readHeader files path with
  | .error failure => failure.plan
  | .ok header =>
      match Metadata.read header with
      | .error _ => Failure.undecodable.plan
      | .ok metadata => .print { out := (inspection header metadata).print ++ "\n" }

/-- The plan for a request. -/
def Request.plan (request : Request) (terminal : Terminal) (files : Files) : Plan :=
  match request with
  | .run (.remap options) color? => remapPlan (terminal.paints color?) files options
  | .run (.inspect path) _ => inspectPlan files path
  | .help topic => .print { out := topic.text }
  | .version => .print { out := versionText }

/-- The plan for arguments without a sense. -/
def misuse : Plan :=
  .print { code := 2, err := "error: invalid arguments\n\nUsage: " ++ Topic.program.usage ++ "\n" }

/-- What the program does with its arguments. -/
def plan (terminal : Terminal) (files : Files) (arguments : List String) : Plan :=
  match Request.ofArguments? arguments with
  | none => misuse
  | some request => request.plan terminal files

/-- The files that a request may read. -/
def Request.paths : Request → List String
  | .run (.remap options) _ => options.settings?.toList ++ [options.mappings, options.header]
  | .run (.inspect path) _ => [path]
  | _ => []

end KotlinMetadata.CommandLine
