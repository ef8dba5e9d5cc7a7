import KotlinMetadata.Proofs.Renamer

/-!
# What becomes of an annotation

Of a renamed annotation only the values of known elements may change, and of
these only the payload, its strings and the facade of a part of a multi-file
class.  The kind of the header tells whether there is anything to rename, and
for a class made by the compiler whether there is a payload; where there is
not, the annotation stays as it is, readable payload or not.
-/

namespace KotlinMetadata

/-! ## Headers without a tree -/

/-- The numbers of known kinds are 1 to 5. -/
theorem HeaderKind.known_or_outside (code : Int32) :
    code ∈ [1, 2, 3, 4, 5] ∨ code ∉ [1, 2, 3, 4, 5] ∧ (code < 1 ∨ 5 < code) := by
  simp [← Int32.toInt_inj, Int32.lt_iff_toInt_lt]
  omega

namespace Header

/-- A header is passed through if its number is 3 and it has no payload, or if its number is 4 or
that of no known kind. -/
theorem passReason?_eq (header : Header) : header.passReason? =
    if header.kind = 3 then if header.data = [] then some .notALambda else none
    else if header.kind = 4 ∨ header.kind < 1 ∨ 5 < header.kind then some .noTree else none := by
  rcases HeaderKind.known_or_outside header.kind with known | ⟨unknown, outside⟩
  · simp only [List.mem_cons, List.not_mem_nil, or_false] at known
    rcases known with kind | kind | kind | kind | kind <;>
      simp [passReason?, headerKind, HeaderKind.ofCode, kind]
  · simp only [List.mem_cons, List.not_mem_nil, or_false, not_or] at unknown
    simp [passReason?, headerKind, HeaderKind.ofCode, unknown, outside]

variable {header : Header}

theorem passReason?_eq_notALambda_iff :
    header.passReason? = some .notALambda ↔ header.kind = 3 ∧ header.data = [] := by
  rw [passReason?_eq]
  split_ifs <;> simp_all

theorem passReason?_eq_noTree_iff : header.passReason? = some .noTree ↔
    header.kind = 4 ∨ header.kind < 1 ∨ 5 < header.kind := by
  rw [passReason?_eq]
  split_ifs <;> simp_all

theorem passReason?_ne_noElements : header.passReason? ≠ some .noElements := by
  rw [passReason?_eq]
  split_ifs <;> simp

theorem passReason?_eq_none_iff : header.passReason? = none ↔
    header.kind ∈ [1, 2, 5] ∨ header.kind = 3 ∧ header.data ≠ [] := by
  rw [passReason?_eq]
  rcases HeaderKind.known_or_outside header.kind with known | ⟨unknown, outside⟩
  · simp only [List.mem_cons, List.not_mem_nil, or_false] at known
    rcases known with kind | kind | kind | kind | kind <;> simp [kind]
  · simp only [List.mem_cons, List.not_mem_nil, or_false, not_or] at unknown
    simp [unknown, outside]

end Header

theorem HeaderKind.eq_five_of_ofCode {code : Int32} (part : ofCode code = multiFilePart) :
    code = 5 := by
  unfold ofCode at part
  split_ifs at part with one two three four five
  exact five

/-! ## Frames -/

/-- Two annotations differ in the values of known elements at most. -/
structure Annotation.SameFrame (note result : Annotation) : Prop where
  descriptor : result.descriptor = note.descriptor
  elements : Option.Rel
    (List.Forall₂ fun before after =>
      after.1 = before.1 ∧ (HeaderKey.ofText? before.1 = none → after.2 = before.2))
    note.elements result.elements

theorem Annotation.SameFrame.refl (note : Annotation) : note.SameFrame note where
  descriptor := rfl
  elements := by
    cases note.elements with
    | none => exact .none
    | some elements => exact .some (List.forall₂_same.mpr fun _ _ => ⟨rfl, fun _ => rfl⟩)

/-- Writing over the elements of an annotation keeps its frame. -/
theorem Annotation.sameFrame_writeOver {note : Annotation} {elements : Elements}
    (given : note.elements = some elements) (header : Header) :
    note.SameFrame { note with elements := some (header.writeOver elements) } where
  descriptor := rfl
  elements := by
    rw [given]
    refine .some (List.forall₂_map_right_iff.mpr (List.forall₂_same.mpr fun element _ => ?_))
    exact ⟨rfl, fun unknown => by simp [unknown]⟩

namespace Header

/-- Two headers differ in their payload, its strings and the facade of a part at most. -/
structure SameFrame (before after : Header) : Prop where
  kind : after.kind = before.kind
  version : after.version = before.version
  packageName : after.packageName = before.packageName
  extraFlags : after.extraFlags = before.extraFlags
  extraText : before.kind ≠ 5 → after.extraText = before.extraText

theorem SameFrame.refl (header : Header) : header.SameFrame header :=
  ⟨rfl, rfl, rfl, rfl, fun _ => rfl⟩

variable {elements : Elements} {before after : Header} {metadata : Metadata}

/-- Elements that metadata is written over keep the frame of their header. -/
theorem sameFrame_of_writeOver (read : ofElements elements = .ok before)
    (written : ofElements ((metadata.write before).writeOver elements) = .ok after)
    (facade : before.kind ≠ 5 → metadata.facade? = none) : before.SameFrame after := by
  have kept : ∀ key, metadata.written? key = none → after.value? key = before.value? key := by
    intro key unwritten
    apply value?_of_kept read written
    rw [Metadata.value?_write, unwritten, Option.none_or]
  refine ⟨kind_of_value? (kept _ rfl), version_of_value? (kept _ rfl),
    packageName_of_value? (kept _ rfl), extraFlags_of_value? (kept _ rfl), fun other => ?_⟩
  apply extraText_of_value? (kept _ _)
  rw [Metadata.written?, facade other, Option.map_none]

end Header

/-- Only parts of a multi-file class have a facade. -/
theorem Metadata.facade?_eq_none_of_read {header : Header} {metadata : Metadata}
    (read : Metadata.read header = .ok metadata) (other : header.kind ≠ 5) :
    metadata.facade? = none := by
  have kind := (readPayload_of_read read).1
  cases metadata with
  | multiFilePart _ _ => exact absurd (HeaderKind.eq_five_of_ofCode kind) other
  | _ => rfl

/-! ## Outcomes -/

/-- The outcome is the one that the elements of an annotation and its header call for, and only a
renamed annotation may differ from the given one. -/
structure RenamedAnnotation.Expected (renamed : RenamedAnnotation) (note : Annotation)
    (header? : Option Header) : Prop where
  noElements : renamed.outcome = .passedThrough .noElements ↔
    note.elements = none ∨ note.elements = some []
  notALambda : renamed.outcome = .passedThrough .notALambda ↔
    ∃ header ∈ header?, header.kind = 3 ∧ header.data = []
  noTree : renamed.outcome = .passedThrough .noTree ↔
    ∃ header ∈ header?, header.kind = 4 ∨ header.kind < 1 ∨ 5 < header.kind
  rewritten : renamed.outcome = .renamed ↔
    ∃ header ∈ header?, header.kind ∈ [1, 2, 5] ∨ header.kind = 3 ∧ header.data ≠ []
  kept : renamed.outcome ≠ .renamed → renamed.result = note

namespace Renamer

variable {renamer : Renamer} {className : String} {note : Annotation} {renamed : RenamedAnnotation}

theorem Renames.sameFrame (renames : renamer.Renames className note renamed) :
    note.SameFrame renamed.result := by
  cases renames with
  | headerless => exact .refl note
  | passed => exact .refl note
  | renamed given => exact Annotation.sameFrame_writeOver given _

/-- A renamed annotation has a header if the given one has, and in the same frame. -/
theorem Renames.header_sameFrame (renames : renamer.Renames className note renamed) :
    ∃ before after, Header.ofElements? note.elements = .ok before ∧
      Header.ofElements? renamed.result.elements = .ok after ∧
      Option.Rel Header.SameFrame before after := by
  cases renames with
  | headerless read => exact ⟨none, none, read, read, .none⟩
  | @passed header _ read => exact ⟨some header, some header, read, read, .some (.refl header)⟩
  | @renamed elements before metadata given read metadataRead =>
      obtain ⟨elementsRead, after, written, afterRead⟩ :=
        Header.exists_ofElements?_writeOver read given ((metadata.map renamer.names).write before)
      refine ⟨some before, some after, read, afterRead, .some ?_⟩
      apply Header.sameFrame_of_writeOver elementsRead written
      intro other
      rw [Metadata.facade?_map, Metadata.facade?_eq_none_of_read metadataRead other,
        Option.map_none]

/-- The outcome that the header of an annotation calls for. -/
def expectedOutcome : Option Header → Outcome
  | none => .passedThrough .noElements
  | some header => header.passReason?.elim .renamed .passedThrough

theorem expectedOutcome_eq_passedThrough_iff {header? : Option Header} {reason : PassReason} :
    expectedOutcome header? = .passedThrough reason ↔
      (header? = none ∧ reason = .noElements) ∨
        ∃ header ∈ header?, header.passReason? = some reason := by
  cases header? with
  | none => simp [expectedOutcome, eq_comm]
  | some header => cases passes : header.passReason? <;> simp [expectedOutcome, passes]

theorem expectedOutcome_eq_renamed_iff {header? : Option Header} :
    expectedOutcome header? = .renamed ↔ ∃ header ∈ header?, header.passReason? = none := by
  cases header? with
  | none => simp [expectedOutcome]
  | some header => cases passes : header.passReason? <;> simp [expectedOutcome, passes]

theorem Renames.outcome_eq {header? : Option Header}
    (renames : renamer.Renames className note renamed)
    (read : Header.ofElements? note.elements = .ok header?) :
    renamed.outcome = expectedOutcome header? := by
  cases renames with
  | headerless read' =>
      obtain rfl : header? = none := Except.ok.inj (read.symm.trans read')
      rfl
  | passed read' passes =>
      obtain rfl : header? = some _ := Except.ok.inj (read.symm.trans read')
      rw [expectedOutcome, passes]
      rfl
  | renamed _ read' metadataRead hasTree =>
      obtain rfl : header? = some _ := Except.ok.inj (read.symm.trans read')
      have passes := isSome_passReason?_of_read metadataRead
      rw [hasTree, Bool.not_true, Option.isSome_eq_false_iff, Option.isNone_iff_eq_none] at passes
      rw [expectedOutcome, passes]
      rfl

theorem Renames.expected {header? : Option Header}
    (renames : renamer.Renames className note renamed)
    (read : Header.ofElements? note.elements = .ok header?) : renamed.Expected note header? := by
  have outcome := renames.outcome_eq read
  constructor
  case noElements =>
    rw [outcome, expectedOutcome_eq_passedThrough_iff, ← Header.ofElements?_eq_none_iff, read]
    simp [Header.passReason?_ne_noElements]
  case notALambda =>
    rw [outcome, expectedOutcome_eq_passedThrough_iff]
    simp [Header.passReason?_eq_notALambda_iff]
  case noTree =>
    rw [outcome, expectedOutcome_eq_passedThrough_iff]
    simp [Header.passReason?_eq_noTree_iff]
  case rewritten =>
    rw [outcome, expectedOutcome_eq_renamed_iff]
    simp only [Header.passReason?_eq_none_iff]
  case kept =>
    intro passed
    cases renames with
    | headerless => rfl
    | passed => rfl
    | renamed => exact absurd rfl passed

/-- A renaming of an annotation keeps descriptor, names and order of the elements, unknown elements,
and everything in the header but the payload and a facade.  It has the outcome that the header calls
for, and passes an annotation through whatever its payload is. -/
theorem rename_frame (renamer : Renamer) (className : String) (note : Annotation) :
    (∀ renamed, renamer.rename className note = .ok renamed →
      note.SameFrame renamed.result ∧
        ∃ before after, Header.ofElements? note.elements = .ok before ∧
          Header.ofElements? renamed.result.elements = .ok after ∧
          Option.Rel Header.SameFrame before after ∧ renamed.Expected note before) ∧
    ∀ before, Header.ofElements? note.elements = .ok before →
      (∀ header ∈ before,
        header.kind = 3 ∧ header.data = [] ∨ header.kind = 4 ∨
          header.kind < 1 ∨ 5 < header.kind) →
      ∃ renamed, renamer.rename className note = .ok renamed ∧ renamed.result = note := by
  constructor
  · intro renamed success
    have renames := rename_eq_ok_iff.mp success
    obtain ⟨before, after, read, afterRead, frame⟩ := renames.header_sameFrame
    exact ⟨renames.sameFrame, before, after, read, afterRead, frame, renames.expected read⟩
  · intro before read passes
    cases before with
    | none => exact ⟨_, rename_eq_ok_iff.mpr (.headerless read), rfl⟩
    | some header =>
        rcases passes header rfl with empty | treeless
        · have reason := Header.passReason?_eq_notALambda_iff.mpr empty
          exact ⟨_, rename_eq_ok_iff.mpr (.passed read reason), rfl⟩
        · have reason := Header.passReason?_eq_noTree_iff.mpr treeless
          exact ⟨_, rename_eq_ok_iff.mpr (.passed read reason), rfl⟩

/-- The annotation of a part of a multi-file class, with an unknown element and no version. -/
def partSample : Annotation where
  descriptor := metadataDescriptor
  elements := some
    [ ("bv", .ints [1, 0, 3])
    , ("k", .int 5)
    , ("d1", .strings ["\x00\x02\x0A\x00\xA8\x06\x00"])
    , ("d2", .strings ["main"])
    , ("xi", .int 48)
    , ("xs", .string "a/Facade") ]

/-- The annotation of a multi-file class whose parts are no payload. -/
def facadeSample : Annotation where
  descriptor := metadataDescriptor
  elements := some [("d1", .strings ["a/Part"]), ("k", .int 4)]

/-- A part whose facade is renamed keeps the rest, and the facade itself stays as it is. -/
theorem rename_frame_sample :
    let renamer : Renamer := { names := .ofClassNames fun name => "b/" ++ name }
    (∃ renamed after, renamer.rename "a/Part" partSample = .ok renamed ∧
      renamed.outcome = .renamed ∧ partSample.SameFrame renamed.result ∧
      Header.ofElements? renamed.result.elements = .ok (some after) ∧
      after.kind = 5 ∧ after.version = [] ∧ after.extraFlags = some 48) ∧
    ∃ renamed, renamer.rename "a/Facade" facadeSample = .ok renamed ∧
      renamed.result = facadeSample := by
  intro renamer
  constructor
  · let header : Header :=
      { kind := 5
        data := ["\x00\x02\x0A\x00\xA8\x06\x00"]
        strings := ["main"]
        extraText := some "a/Facade"
        extraFlags := some 48 }
    have read : Header.ofElements? partSample.elements = .ok (some header) := by decide
    have metadataRead : Metadata.read header =
        .ok (.multiFilePart (Payload.moduleSample []) "a/Facade") := by decide +kernel
    have success := renamer.rename_of_read "a/Part" rfl read metadataRead rfl
    obtain ⟨frame, before, after, beforeRead, afterRead, headers, expected⟩ :=
      (rename_frame renamer "a/Part" partSample).1 _ success
    obtain rfl : some header = before := Except.ok.inj (read.symm.trans beforeRead)
    rcases headers with ⟨same⟩
    exact ⟨_, _, success, rfl, frame, afterRead, same.kind, same.version, same.extraFlags⟩
  · have read : Header.ofElements? facadeSample.elements =
        .ok (some { kind := 4, data := ["a/Part"] }) := by decide
    exact (rename_frame renamer "a/Facade" facadeSample).2 _ read (by decide)

end Renamer

end KotlinMetadata
