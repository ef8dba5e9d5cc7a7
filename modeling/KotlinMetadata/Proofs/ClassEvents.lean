import Mathlib.Data.List.Induction
import KotlinMetadata.ClassEvents
import KotlinMetadata.Proofs.Renamer

/-!
# Walks through a stage

A stage in front of a listener changes nothing but the metadata annotations of
a walk.  What the listener hears is what it would have heard of the renamed
walk, each annotation renamed under the class that began last before it; the
annotations that cannot be renamed are left out and leave no trace.
-/

namespace KotlinMetadata

namespace ClassEvent

/-- The class that begins with an event, if one does. -/
def begun? : ClassEvent → Option String
  | begins name => some name
  | annotated _ _ | ends => none

/-- The class that begins last in a walk. -/
def lastBegun? (events : List ClassEvent) : Option String :=
  (events.filterMap begun?).getLast?

theorem lastBegun?_append_singleton (events : List ClassEvent) (event : ClassEvent) :
    lastBegun? (events ++ [event]) = event.begun?.or (lastBegun? events) := by
  rw [lastBegun?, List.filterMap_append, List.getLast?_append]
  cases begins : event.begun? <;> simp [begins, lastBegun?]

end ClassEvent

namespace ClassRecord

theorem foldl_add_visible (record : ClassRecord) (notes : List Annotation) :
    (notes.map (ClassEvent.annotated · true)).foldl add record =
      { record with visible := record.visible ++ notes } := by
  induction notes generalizing record with
  | nil => simp
  | cons note rest ih => simp [ih, add]

theorem foldl_add_invisible (record : ClassRecord) (notes : List Annotation) :
    (notes.map (ClassEvent.annotated · false)).foldl add record =
      { record with invisible := record.invisible ++ notes } := by
  induction notes generalizing record with
  | nil => simp
  | cons note rest ih => simp [ih, add]

/-- The events of a record tell all of it. -/
theorem foldl_add_events (record : ClassRecord) : record.events.foldl add {} = record := by
  rcases record with ⟨name, visible, invisible, ended⟩
  simp only [events, List.foldl_append, foldl_add_visible, foldl_add_invisible]
  cases name <;> cases ended <;> rfl

end ClassRecord

/-- The stage after an event, given what there is to report about it. -/
def Stage.after (stage : Stage) (event : ClassEvent) (reports : List Diagnostic) : Stage :=
  { stage with
    className := event.begun?.or stage.className
    diagnostics := stage.diagnostics ++ reports }

namespace Renamer

open ClassEvent

variable (renamer : Renamer)

/-- An event of a walk over a class, with its annotation renamed if it is one of metadata, and what
there is to report; none if the annotation cannot be renamed. -/
def renamedEvent? (className : String) : ClassEvent → Option (ClassEvent × List Diagnostic)
  | .annotated note visible =>
      if note.descriptor = renamer.settings.descriptor then
        match renamer.rename className note with
        | .ok renamed => some (.annotated renamed.result visible, renamed.diagnostics)
        | .error _ => none
      else some (.annotated note visible, [])
  | .begins name => some (.begins name, [])
  | .ends => some (.ends, [])

/-- The events of a walk that can be renamed, each renamed under the class that began last before
it. -/
def renamedEvents (events : List ClassEvent) : List (ClassEvent × List Diagnostic) :=
  events.zipIdx.filterMap fun (event, index) =>
    renamer.renamedEvent? ((lastBegun? (events.take index)).getD "<unknown>") event

theorem renamedEvents_append_singleton (events : List ClassEvent) (event : ClassEvent) :
    renamer.renamedEvents (events ++ [event]) =
      renamer.renamedEvents events ++
        (renamer.renamedEvent? ((lastBegun? events).getD "<unknown>") event).toList := by
  rw [renamedEvents, List.zipIdx_append, List.filterMap_append]
  congr 1
  · -- What comes before an earlier event is the same in both walks.
    apply List.filterMap_congr
    rintro ⟨earlier, index⟩ mem
    have inside : index < events.length := by simpa using List.snd_lt_add_of_mem_zipIdx mem
    dsimp only
    rw [List.take_append_of_le_length (Nat.le_of_lt inside)]
  · cases renamed : renamer.renamedEvent? ((lastBegun? events).getD "<unknown>") event <;>
      simp [renamed]

/-- Nothing but an annotation is refused. -/
theorem begun?_eq_none_of_renamedEvent?_eq_none {className : String} {event : ClassEvent}
    (refused : renamer.renamedEvent? className event = none) : event.begun? = none := by
  cases event with
  | begins name => exact absurd refused nofun
  | annotated note visible => rfl
  | ends => rfl

/-- A stage that has taken in a walk. -/
def stageAfter (events : List ClassEvent) : Stage where
  renamer
  className := lastBegun? events
  diagnostics := (renamer.renamedEvents events).flatMap Prod.snd

variable {renamer} {events : List ClassEvent} {event : ClassEvent}

theorem stageAfter_append_singleton_of_renamed {passed : ClassEvent} {reports : List Diagnostic}
    (renamed : renamer.renamedEvent? ((lastBegun? events).getD "<unknown>") event =
      some (passed, reports)) :
    renamer.stageAfter (events ++ [event]) = (renamer.stageAfter events).after event reports := by
  simp [stageAfter, Stage.after, lastBegun?_append_singleton, renamedEvents_append_singleton,
    renamed]

theorem stageAfter_append_singleton_of_refused
    (refused : renamer.renamedEvent? ((lastBegun? events).getD "<unknown>") event = none) :
    renamer.stageAfter (events ++ [event]) = renamer.stageAfter events := by
  simp [stageAfter, lastBegun?_append_singleton, renamedEvents_append_singleton, refused,
    begun?_eq_none_of_renamedEvent?_eq_none renamer refused]

end Renamer

namespace Stage

open ClassEvent

variable {stage : Stage} {event : ClassEvent}

theorem take_of_handled {note : Annotation}
    (handled : note.descriptor = stage.renamer.settings.descriptor) (visible : Bool) :
    stage.take (.annotated note visible) =
      (stage.renamer.rename (stage.className.getD "<unknown>") note).map fun renamed =>
        (.annotated renamed.result visible,
          { stage with diagnostics := stage.diagnostics ++ renamed.diagnostics }) := by
  rw [take, Renamer.handles, if_pos (decide_eq_true handled)]
  rfl

theorem take_of_not_handled {note : Annotation}
    (other : note.descriptor ≠ stage.renamer.settings.descriptor) (visible : Bool) :
    stage.take (.annotated note visible) = .ok (.annotated note visible, stage) := by
  rw [take, Renamer.handles, if_neg (mt of_decide_eq_true other)]

/-- A stage passes on what can be renamed. -/
theorem take_eq_ok_iff {passed : ClassEvent} {next : Stage} :
    stage.take event = .ok (passed, next) ↔ ∃ reports,
      stage.renamer.renamedEvent? (stage.className.getD "<unknown>") event =
        some (passed, reports) ∧ stage.after event reports = next := by
  cases event with
  | begins name => simp [take, Renamer.renamedEvent?, after, begun?]
  | annotated note visible =>
    by_cases handled : note.descriptor = stage.renamer.settings.descriptor
    · rw [take_of_handled handled, Renamer.renamedEvent?, if_pos handled]
      cases stage.renamer.rename (stage.className.getD "<unknown>") note with
      | error fault => simp [Except.map]
      | ok renamed => simp [Except.map, after, begun?]
    · rw [take_of_not_handled handled, Renamer.renamedEvent?, if_neg handled]
      simp [after, begun?]
  | ends => simp [take, Renamer.renamedEvent?, after, begun?]

/-- A stage refuses an annotation of metadata that cannot be renamed, and nothing else. -/
theorem take_eq_error_iff {fault : RenameError} :
    stage.take event = .error fault ↔ ∃ note visible, event = .annotated note visible ∧
      note.descriptor = stage.renamer.settings.descriptor ∧
      stage.renamer.rename (stage.className.getD "<unknown>") note = .error fault := by
  cases event with
  | begins name => simp [take]
  | annotated note visible =>
    by_cases handled : note.descriptor = stage.renamer.settings.descriptor
    · rw [take_of_handled handled]
      cases renamed : stage.renamer.rename (stage.className.getD "<unknown>") note <;>
        simp [Except.map, handled, renamed]
    · rw [take_of_not_handled handled]
      simp [handled]
  | ends => simp [take]

theorem exists_take_eq_error
    (refused : stage.renamer.renamedEvent? (stage.className.getD "<unknown>") event = none) :
    ∃ fault, stage.take event = .error fault := by
  cases taken : stage.take event with
  | error fault => exact ⟨fault, rfl⟩
  | ok result =>
    obtain ⟨reports, renamed, -⟩ := take_eq_ok_iff.mp taken
    exact absurd (refused.symm.trans renamed) nofun

end Stage

namespace Pipeline

open ClassEvent

theorem run_append_singleton (pipeline : Pipeline) (events : List ClassEvent) (event : ClassEvent) :
    pipeline.run (events ++ [event]) = ((pipeline.run events).send event).1 := by
  rw [run, List.foldl_append]
  rfl

/-- A record that hears of everything at first hand. -/
theorem run_of_no_stages (record : ClassRecord) (events : List ClassEvent) :
    ({ stages := [], record } : Pipeline).run events =
      { stages := [], record := events.foldl ClassRecord.add record } := by
  induction events generalizing record with
  | nil => rfl
  | cons event rest ih => exact ih (record.add event)

section

variable {stage : Stage} {event : ClassEvent}

/-- What a stage passes on is recorded. -/
theorem send_of_take_eq_ok {passed : ClassEvent} {next : Stage}
    (taken : stage.take event = .ok (passed, next)) (record : ClassRecord) :
    ({ stages := [stage], record } : Pipeline).send event =
      ({ stages := [next], record := record.add passed }, .ok ()) := by
  simp only [send, sendThrough, taken]

/-- What a stage refuses has not been. -/
theorem send_of_take_eq_error {fault : RenameError} (taken : stage.take event = .error fault)
    (record : ClassRecord) :
    ({ stages := [stage], record } : Pipeline).send event =
      ({ stages := [stage], record }, .error fault) := by
  simp only [send, sendThrough, taken]

/-- Sending an event fails with the fault of the stage. -/
theorem send_snd_eq_error_iff {record : ClassRecord} {fault : RenameError} :
    (({ stages := [stage], record } : Pipeline).send event).2 = .error fault ↔
      stage.take event = .error fault := by
  cases taken : stage.take event with
  | ok result => simp [send_of_take_eq_ok taken]
  | error cause => simp [send_of_take_eq_error taken]

end

/-- What has been heard through a stage, and what the stage has learned. -/
theorem run_of_stage (renamer : Renamer) (record : ClassRecord) (events : List ClassEvent) :
    ({ stages := [{ renamer }], record } : Pipeline).run events =
      { stages := [renamer.stageAfter events]
        record := ((renamer.renamedEvents events).map Prod.fst).foldl ClassRecord.add record } := by
  -- From the back: the stage has taken in just the events that come before the last one.
  induction events using List.reverseRecOn with
  | nil => rfl
  | append_singleton events event ih =>
    rw [run_append_singleton, ih]
    cases renamed : renamer.renamedEvent? ((lastBegun? events).getD "<unknown>") event with
    | some result =>
      have taken : (renamer.stageAfter events).take event = .ok _ :=
        Stage.take_eq_ok_iff.mpr ⟨_, renamed, rfl⟩
      rw [send_of_take_eq_ok taken, renamer.stageAfter_append_singleton_of_renamed renamed,
        renamer.renamedEvents_append_singleton, renamed]
      simp
    | none =>
      obtain ⟨fault, taken⟩ :=
        (renamer.stageAfter events).exists_take_eq_error renamed
      rw [send_of_take_eq_error taken, renamer.stageAfter_append_singleton_of_refused renamed,
        renamer.renamedEvents_append_singleton, renamed, Option.toList_none, List.append_nil]

/-- What is replayed without a stage is recorded. -/
theorem sendAll_of_no_stages (record : ClassRecord) (events : List ClassEvent) :
    ({ stages := [], record } : Pipeline).sendAll events =
      ({ stages := [], record := events.foldl ClassRecord.add record }, .ok ()) := by
  induction events generalizing record with
  | nil => rfl
  | cons event rest ih => exact ih (record.add event)

/-- A stage renames the annotations of metadata in a walk, and makes no other difference.  The
record is that of the renamed walk, where each annotation is renamed under the class that began last
before it and those that cannot be renamed are missing; all that is reported belongs to a renamed
annotation.  An event fails if it is an annotation of metadata that cannot be renamed, and then
changes nothing.  A record replayed is the same record. -/
theorem run_stage (renamer : Renamer) (record : ClassRecord) (events : List ClassEvent) :
    ({ stages := [{ renamer }], record } : Pipeline).run events =
      { stages := [
          { renamer
            className := lastBegun? events
            diagnostics := (renamer.renamedEvents events).flatMap Prod.snd }]
        record := (({ stages := [], record } : Pipeline).run
          ((renamer.renamedEvents events).map Prod.fst)).record } ∧
    (∀ (stage : Stage) (event : ClassEvent) (fault : RenameError),
      ((({ stages := [stage], record } : Pipeline).send event).2 = .error fault ↔
        ∃ note visible, event = .annotated note visible ∧
          note.descriptor = stage.renamer.settings.descriptor ∧
          stage.renamer.rename (stage.className.getD "<unknown>") note = .error fault) ∧
      ((({ stages := [stage], record } : Pipeline).send event).2 = .error fault →
        (({ stages := [stage], record } : Pipeline).send event).1 =
          { stages := [stage], record })) ∧
    ({ stages := [] } : Pipeline).sendAll record.events = ({ stages := [], record }, .ok ()) := by
  refine ⟨?_, fun stage event fault => ⟨?_, ?_⟩, ?_⟩
  · rw [run_of_no_stages]
    exact run_of_stage renamer record events
  · rw [send_snd_eq_error_iff]
    exact Stage.take_eq_error_iff
  · intro failed
    rw [send_of_take_eq_error (send_snd_eq_error_iff.mp failed)]
  · rw [sendAll_of_no_stages, ClassRecord.foldl_add_events]

/-- The annotation of a class whose kind is no number. -/
def kindlessSample : Annotation where
  descriptor := metadataDescriptor
  elements := some [("k", .string "1")]

/-- An annotation that nothing is known about. -/
def otherSample : Annotation where
  descriptor := "La/Other;"

/-- A walk over a lambda, with an annotation before the lambda begins. -/
def walkSample : List ClassEvent :=
  [ .annotated kindlessSample true
  , .begins "a/Lambda"
  , .annotated Renamer.noteSample true
  , .annotated otherSample false
  , .ends ]

/-- One annotation is refused, one renamed, and one let through. -/
theorem run_stage_sample :
    let renamer : Renamer :=
      { names := .ofClassNames fun name => if name = "a/Old" then "b/New" else name }
    let begun : Pipeline := { stages := [{ renamer }] }
    (begun.send (.annotated kindlessSample true)).1 = begun ∧
    ∃ renamed, renamer.rename "a/Lambda" Renamer.noteSample = .ok renamed ∧
      begun.run walkSample =
        { stages := [{ renamer, className := some "a/Lambda", diagnostics := renamed.diagnostics }]
          record :=
            { name := some "a/Lambda"
              visible := [renamed.result]
              invisible := [otherSample]
              ended := true } } := by
  intro renamer begun
  obtain ⟨header, read, metadataRead⟩ : ∃ header,
      Header.ofElements? Renamer.noteSample.elements = .ok (some header) ∧
      Metadata.read header =
        .ok (.syntheticClass (Renamer.lambdaSample "a/Old" "()La/Old;")) :=
    ⟨_, rfl, by decide +kernel⟩
  obtain ⟨renamed, success, -⟩ :=
    renamer.exists_rename_of_read "a/Lambda" rfl read metadataRead rfl
  have refused : renamer.rename "<unknown>" kindlessSample =
      .error { className := "<unknown>", cause := .header ⟨.kind⟩ } := rfl
  have heard : renamer.renamedEvents walkSample =
      [ (.begins "a/Lambda", [])
      , (.annotated renamed.result true, renamed.diagnostics)
      , (.annotated otherSample false, [])
      , (.ends, []) ] := by
    have unread : kindlessSample.descriptor = renamer.settings.descriptor := rfl
    have noted : Renamer.noteSample.descriptor = renamer.settings.descriptor := rfl
    have other : ¬otherSample.descriptor = renamer.settings.descriptor := by decide
    simp [walkSample, Renamer.renamedEvents, Renamer.renamedEvent?, lastBegun?, begun?,
      List.findSome?_cons, unread, noted, other, refused, success]
  refine ⟨((run_stage renamer {} []).2.1 { renamer } _ _).2 rfl, renamed, success, ?_⟩
  rw [(run_stage renamer {} walkSample).1, heard]
  simp [run, send, sendThrough, ClassRecord.add, lastBegun?, walkSample, begun?,
    List.findSome?_cons]

end Pipeline

end KotlinMetadata
