import KotlinMetadata.Proofs.Header
import KotlinMetadata.Proofs.Packing
import KotlinMetadata.Proofs.Payload
import KotlinMetadata.Proofs.Renaming.References

/-!
# Metadata in headers

Of a header, its kind, its payload and its strings decide what is read, and for
a part of a multi-file class also its facade.  What is written into a header of
the right kind is read back.  A header that can be read has a payload, and if
it has no strings then there are no names in it.
-/

namespace KotlinMetadata.Metadata

open Wire

/-- The kind of header that metadata is read from. -/
def headerKind : Metadata → HeaderKind
  | classBody _ => .classBody
  | fileFacade _ => .fileFacade
  | syntheticClass _ => .syntheticClass
  | multiFileFacade _ => .multiFileFacade
  | multiFilePart _ _ => .multiFilePart
  | unknown code => .unknown code

/-- Metadata with the fields that its messages do not know sorted by number. -/
def sortUnknown : Metadata → Metadata
  | classBody body => classBody body.sortUnknown
  | fileFacade package => fileFacade package.sortUnknown
  | syntheticClass lambda => syntheticClass (lambda.map Tree.sortUnknown)
  | multiFileFacade parts => multiFileFacade parts
  | multiFilePart package facade => multiFilePart package.sortUnknown facade
  | unknown code => unknown code

/-- The tree of metadata is well-formed and not nested too deeply. -/
def WellFormed (metadata : Metadata) : Prop :=
  ∀ tree ∈ metadata.tree?, tree.2.WellFormed ∧ tree.2.height ≤ nestingLimit + 1

/-- There is a number for every name and a length for every part of the payload. -/
def Fits (metadata : Metadata) : Prop :=
  ∀ tree ∈ metadata.tree?, Payload.Fits tree.2

/-- Metadata that compares equal is equal. -/
theorem beq_iff_eq {metadata other : Metadata} : metadata.beq other = true ↔ metadata = other := by
  have trees : ∀ {kind : Kind} {a b : Message kind}, (a == b) = true ↔ a = b := Tree.beq_iff_eq
  cases metadata with
  | syntheticClass lambda =>
      cases other with
      | syntheticClass lambda' => cases lambda <;> cases lambda' <;> simp [beq, trees]
      | _ => cases lambda <;> simp [beq]
  | _ => cases other <;> simp [beq, trees]

instance : DecidableEq Metadata :=
  fun _ _ => decidable_of_iff _ beq_iff_eq

variable {header other : Header} {metadata : Metadata}

/-! ## What a header needs to be read -/

/-- What is read depends on the kind, the payload, the strings and perhaps the facade alone. -/
theorem read_congr (kind : header.kind = other.kind) (data : header.data = other.data)
    (strings : header.strings = other.strings)
    (facade : header.headerKind = .multiFilePart → header.extraText = other.extraText) :
    read header = read other := by
  have headerKind : header.headerKind = other.headerKind := congrArg HeaderKind.ofCode kind
  have payload : ∀ kind, readPayload kind header = readPayload kind other := fun _ => by
    rw [readPayload, readPayload, data, strings]
  unfold read
  rw [← headerKind]
  split
  · rw [payload]
  · rw [payload]
  · rw [payload, data]
  · rw [data]
  · rename_i part
    rw [payload, facade part]
  · rfl

/-- The tree of metadata was read from the payload of a header of its kind. -/
theorem readPayload_of_read (success : read header = .ok metadata) :
    header.headerKind = metadata.headerKind ∧
      ∀ tree ∈ metadata.tree?, readPayload tree.1 header = .ok tree.2 := by
  unfold read at success
  split at success
  · rename_i kind
    rcases map_eq_ok_iff.mp success with ⟨body, payload, rfl⟩
    exact ⟨kind, by simpa [tree?] using payload⟩
  · rename_i kind
    rcases map_eq_ok_iff.mp success with ⟨package, payload, rfl⟩
    exact ⟨kind, by simpa [tree?] using payload⟩
  · rename_i kind
    split at success
    · cases success
      exact ⟨kind, by simp [tree?]⟩
    · rcases map_eq_ok_iff.mp success with ⟨lambda, payload, rfl⟩
      exact ⟨kind, by simpa [tree?] using payload⟩
  · rename_i kind
    cases success
    exact ⟨kind, by simp [tree?]⟩
  · rename_i kind
    rcases bind_eq_ok_iff.mp success with ⟨package, payload, success⟩
    split at success
    · cases success
      exact ⟨kind, by simpa [tree?] using payload⟩
    · cases success
  · rename_i kind
    cases success
    exact ⟨kind, by simp [tree?]⟩

theorem extraText_of_read {package : Message .package} {facade : String}
    (success : read header = .ok (multiFilePart package facade)) :
    header.extraText = some facade := by
  have kind : header.headerKind = .multiFilePart := (readPayload_of_read success).1
  rw [read, kind] at success
  rcases bind_eq_ok_iff.mp success with ⟨_, _, success⟩
  split at success
  · rename_i found
    cases success
    exact found
  · cases success

section

variable {kind : Kind} {message : Message kind}

/-- A payload is found in packed strings. -/
theorem data_ne_nil_of_readPayload (success : readPayload kind header = .ok message) :
    header.data ≠ [] := by
  intro empty
  rw [readPayload, empty] at success
  cases success

theorem wellFormed_of_readPayload (success : readPayload kind header = .ok message) :
    message.WellFormed ∧ message.height ≤ nestingLimit + 1 := by
  rcases bind_eq_ok_iff.mp success with ⟨_, _, payload⟩
  exact Payload.wellFormed_of_toMessage payload

theorem names_eq_nil_of_readPayload (success : readPayload kind header = .ok message)
    (stringless : header.strings = []) : message.names = [] := by
  rcases bind_eq_ok_iff.mp success with ⟨_, _, payload⟩
  rw [stringless] at payload
  exact Payload.names_eq_nil_of_toMessage payload

/-- A message is read back from the header that it was written into. -/
theorem readPayload_writePayload (wellFormed : message.WellFormed)
    (height_le : message.height ≤ nestingLimit + 1) (fits : Payload.Fits message)
    (header : Header) :
    readPayload kind (writePayload message header) = .ok message.sortUnknown := by
  refine bind_eq_ok_iff.mpr ⟨_, Packing.unpack_pack _, ?_⟩
  exact Payload.toMessage_ofMessage_of_height_le wellFormed fits height_le

end

theorem wellFormed_of_read (success : read header = .ok metadata) : metadata.WellFormed :=
  fun tree mem => wellFormed_of_readPayload ((readPayload_of_read success).2 tree mem)

/-! ## Writing into a header -/

/-- What writing metadata gives a key, if anything. -/
def written? (metadata : Metadata) : HeaderKey → Option ElementValue
  | .data => metadata.tree?.map fun tree =>
      .strings (Packing.pack (Payload.ofMessage tree.2).bytes)
  | .strings => metadata.tree?.map fun tree => .strings (Payload.ofMessage tree.2).strings
  | .extraText => metadata.facade?.map .string
  | .kind | .version | .packageName | .extraFlags => none

/-- Writing metadata gives a key a value of its own or leaves it the one that it had. -/
theorem value?_write (metadata : Metadata) (header : Header) (key : HeaderKey) :
    (metadata.write header).value? key = (metadata.written? key).or (header.value? key) := by
  cases metadata with
  | syntheticClass lambda => cases lambda <;> cases key <;> rfl
  | _ => cases key <;> rfl

theorem kind_write (metadata : Metadata) (header : Header) :
    (metadata.write header).kind = header.kind :=
  Header.kind_of_value? (value?_write metadata header .kind)

/-- What is written is the payload of the tree, its bytes packed. -/
theorem payload_write {tree : (kind : Kind) × Message kind} (mem : tree ∈ metadata.tree?)
    (header : Header) :
    (metadata.write header).data = Packing.pack (Payload.ofMessage tree.2).bytes ∧
      (metadata.write header).strings = (Payload.ofMessage tree.2).strings := by
  have data : (metadata.write header).value? .data = some (.strings _) :=
    (value?_write metadata header .data).trans (by rw [written?, mem]; rfl)
  have strings : (metadata.write header).value? .strings = some (.strings _) :=
    (value?_write metadata header .strings).trans (by rw [written?, mem]; rfl)
  exact ⟨ElementValue.strings_inj (Option.some.inj data),
    ElementValue.strings_inj (Option.some.inj strings)⟩

/-- Strings are written for names only. -/
theorem strings_write (nameless : ∀ tree ∈ metadata.tree?, tree.2.names = [])
    (stringless : header.strings = []) : (metadata.write header).strings = [] := by
  cases treeless : metadata.tree? with
  | none =>
      have kept : (metadata.write header).value? .strings = header.value? .strings := by
        rw [value?_write, written?, treeless]
        rfl
      exact (Header.strings_of_value? kept).trans stringless
  | some tree =>
      rw [(payload_write treeless header).2]
      exact Payload.strings_ofMessage_of_names (nameless tree treeless)

/-- Metadata that has a tree is read back from a header of its kind that it was written into. -/
theorem read_write (hasTree : metadata.hasTree = true) (wellFormed : metadata.WellFormed)
    (fits : metadata.Fits) (kind : header.headerKind = metadata.headerKind) :
    read (metadata.write header) = .ok metadata.sortUnknown := by
  have payload : ∀ tree ∈ metadata.tree?,
      readPayload tree.1 (writePayload tree.2 header) = .ok tree.2.sortUnknown :=
    fun tree mem => readPayload_writePayload (wellFormed tree mem).1 (wellFormed tree mem).2
      (fits tree mem) header
  cases metadata with
  | classBody body =>
      have kind : (writePayload body header).headerKind = .classBody := kind
      rw [write, read, kind]
      exact map_eq_ok_iff.mpr ⟨_, payload ⟨_, body⟩ rfl, rfl⟩
  | fileFacade package =>
      have kind : (writePayload package header).headerKind = .fileFacade := kind
      rw [write, read, kind]
      exact map_eq_ok_iff.mpr ⟨_, payload ⟨_, package⟩ rfl, rfl⟩
  | syntheticClass lambda =>
      cases lambda with
      | none => cases hasTree
      | some lambda =>
          have kind : (writePayload lambda header).headerKind = .syntheticClass := kind
          have packed : ¬ (writePayload lambda header).data.isEmpty = true :=
            fun empty => Packing.pack_ne_nil _ (List.isEmpty_iff.mp empty)
          rw [write, read, kind]
          dsimp only
          rw [if_neg packed]
          exact map_eq_ok_iff.mpr ⟨_, payload ⟨_, lambda⟩ rfl, rfl⟩
  | multiFilePart package facade =>
      have kind : { writePayload package header with extraText := some facade }.headerKind =
          .multiFilePart := kind
      rw [write, read, kind]
      exact bind_eq_ok_iff.mpr ⟨_, payload ⟨_, package⟩ rfl, rfl⟩
  | multiFileFacade _ => cases hasTree
  | unknown _ => cases hasTree

/-! ## Renaming -/

section

variable (rename : Renaming) (metadata)

@[simp]
theorem hasTree_map : (metadata.map rename).hasTree = metadata.hasTree := by
  rw [← isSome_tree?, ← isSome_tree?, tree?_map, Option.isSome_map]

@[simp]
theorem headerKind_map : (metadata.map rename).headerKind = metadata.headerKind := by
  cases metadata <;> rfl

theorem WellFormed.map {metadata : Metadata} (wellFormed : metadata.WellFormed) :
    (metadata.map rename).WellFormed := by
  intro tree mem
  rw [tree?_map] at mem
  rcases Option.map_eq_some_iff.mp mem with ⟨old, oldMem, rfl⟩
  obtain ⟨good, height_le⟩ := wellFormed old oldMem
  exact ⟨(Tree.wellFormed_mapNames _ _).mpr good, by rwa [Tree.height_mapNames]⟩

end

end KotlinMetadata.Metadata
