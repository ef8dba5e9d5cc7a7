import KotlinMetadata.Renamer

/-!
# Renaming in passing

A class file is walked as a sequence of events.  A stage stands between the
walk and whoever listens: it renames the metadata annotation as it goes by and
lets everything else through.  An annotation whose metadata cannot be read is
kept from the listener and changes nothing.
-/

namespace KotlinMetadata

/-- What a walk over a class file tells. -/
inductive ClassEvent where
  /-- A class begins; the name is internal. -/
  | begins (name : String)
  /-- The class has an annotation, which is visible at run time or not. -/
  | annotated (note : Annotation) (visible : Bool)
  /-- The class ends. -/
  | ends

/-- What has been told about a class. -/
structure ClassRecord where
  /-- Its internal name. -/
  name : Option String := none
  /-- Annotations visible at run time. -/
  visible : List Annotation := []
  /-- Annotations not visible at run time. -/
  invisible : List Annotation := []
  /-- Whether the class has ended. -/
  ended : Bool := false

namespace ClassRecord

/-- The record after one more event. -/
def add (record : ClassRecord) : ClassEvent → ClassRecord
  | .begins name => { record with name := some name }
  | .annotated note true => { record with visible := record.visible ++ [note] }
  | .annotated note false => { record with invisible := record.invisible ++ [note] }
  | .ends => { record with ended := true }

/-- Events that tell all that is recorded. -/
def events (record : ClassRecord) : List ClassEvent :=
  record.name.toList.map .begins ++
    record.visible.map (.annotated · true) ++
    record.invisible.map (.annotated · false) ++
    if record.ended then [.ends] else []

end ClassRecord

/-- A renamer in the middle of a walk. -/
structure Stage where
  renamer : Renamer
  /-- The class that began last. -/
  className : Option String := none
  /-- What there has been to report. -/
  diagnostics : List Diagnostic := []

namespace Stage

/-- How a class that has not begun is called. -/
def unknownClass : String := "<unknown>"

/-- Takes in an event: what is passed on, and the stage after it. -/
def take (stage : Stage) : ClassEvent → Except RenameError (ClassEvent × Stage)
  | .begins name => .ok (.begins name, { stage with className := some name })
  | .annotated note visible =>
      if stage.renamer.handles note.descriptor then do
        let renamed ← stage.renamer.rename (stage.className.getD unknownClass) note
        return (.annotated renamed.result visible,
          { stage with diagnostics := stage.diagnostics ++ renamed.diagnostics })
      else .ok (.annotated note visible, stage)
  | .ends => .ok (.ends, stage)

end Stage

/-- Stages in front of a record. -/
structure Pipeline where
  /-- The stages, the first to hear of an event in front. -/
  stages : List Stage
  record : ClassRecord := {}

namespace Pipeline

/-- Sends an event through stages.  The stages that passed it on keep what they learned, even if a
later one fails. -/
def sendThrough : List Stage → ClassEvent → List Stage × Except RenameError ClassEvent
  | [], event => ([], .ok event)
  | stage :: rest, event =>
      match stage.take event with
      | .error fault => (stage :: rest, .error fault)
      | .ok (event, stage) =>
          let (rest, result) := sendThrough rest event
          (stage :: rest, result)

/-- Sends an event to the record, through all stages. -/
def send (pipeline : Pipeline) (event : ClassEvent) : Pipeline × Except RenameError Unit :=
  match sendThrough pipeline.stages event with
  | (stages, .ok event) => ({ stages, record := pipeline.record.add event }, .ok ())
  | (stages, .error fault) => ({ pipeline with stages }, .error fault)

/-- Sends the events of a walk, whether they arrive or not. -/
def run (pipeline : Pipeline) (events : List ClassEvent) : Pipeline :=
  events.foldl (fun pipeline event => (pipeline.send event).1) pipeline

/-- Sends events until one fails. -/
def sendAll (pipeline : Pipeline) : List ClassEvent → Pipeline × Except RenameError Unit
  | [] => (pipeline, .ok ())
  | event :: rest =>
      match pipeline.send event with
      | (pipeline, .ok ()) => pipeline.sendAll rest
      | (pipeline, .error fault) => (pipeline, .error fault)

end Pipeline

end KotlinMetadata
