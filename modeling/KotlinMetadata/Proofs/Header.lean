import KotlinMetadata.Header
import KotlinMetadata.Proofs.Faults

/-!
# Reading a header from elements

An element that is read gives its own key a value and leaves the other keys
alone, so in the end a key has the value of its last element, or the one of an
empty header.  Writing a header over elements never spoils their shapes, hence
what is written can be read again.
-/

namespace KotlinMetadata

namespace ElementValue

variable {value : ElementValue}

theorem int?_eq_some_iff {n : Int32} : value.int? = some n ↔ value = .int n := by
  cases value <;> simp [int?]

theorem string?_eq_some_iff {text : String} : value.string? = some text ↔ value = .string text := by
  cases value <;> simp [string?]

/-- All values of a list are read exactly if each is what one writes. -/
theorem mapM_eq_some_iff {α : Type} {read : ElementValue → Option α} {write : α → ElementValue}
    (reads : ∀ {value a}, read value = some a ↔ value = write a) {values : List ElementValue}
    {results : List α} : values.mapM read = some results ↔ values = results.map write := by
  induction values generalizing results with
  | nil => cases results <;> simp
  | cons value values ih =>
      simp only [List.mapM_cons, bind, Option.bind_eq_some_iff, pure, Option.some.injEq, reads]
      constructor
      · rintro ⟨first, rfl, rest, restRead, rfl⟩
        rw [ih.mp restRead, List.map_cons]
      · intro values_eq
        rcases List.map_eq_cons_iff.mp values_eq.symm with ⟨first, rest, rfl, rfl, rfl⟩
        exact ⟨first, rfl, rest, ih.mpr rfl, rfl⟩

theorem ints?_eq_some_iff {ns : List Int32} : value.ints? = some ns ↔ value = .ints ns := by
  cases value <;> simp [ints?, ints, mapM_eq_some_iff int?_eq_some_iff]

theorem strings?_eq_some_iff {texts : List String} :
    value.strings? = some texts ↔ value = .strings texts := by
  cases value <;> simp [strings?, strings, mapM_eq_some_iff string?_eq_some_iff]

theorem ints_inj {ns others : List Int32} (same : ints ns = ints others) : ns = others :=
  Option.some.inj ((ints?_eq_some_iff.mpr rfl).symm.trans (ints?_eq_some_iff.mpr same))

theorem strings_inj {texts others : List String} (same : strings texts = strings others) :
    texts = others :=
  Option.some.inj ((strings?_eq_some_iff.mpr rfl).symm.trans (strings?_eq_some_iff.mpr same))

end ElementValue

theorem HeaderKey.mem_all (key : HeaderKey) : key ∈ all := by
  cases key <;> decide

theorem HeaderKey.ofText?_eq_some_iff {text : String} {key : HeaderKey} :
    ofText? text = some key ↔ key.text = text := by
  constructor
  · intro found
    simpa using List.find?_some found
  · rintro rfl
    exact ofText?_text key

/-- Whether a value is of the shape that a key asks for. -/
def HeaderKey.fits (key : HeaderKey) (value : ElementValue) : Bool :=
  match key with
  | kind | extraFlags => value.int?.isSome
  | version => value.ints?.isSome
  | data | strings => value.strings?.isSome
  | extraText | packageName => value.string?.isSome

namespace Header

variable {header after : Header} {key : HeaderKey} {value : ElementValue}

theorem isSome_put? (header : Header) (value : ElementValue) (key : HeaderKey) :
    (header.put? value key).isSome = key.fits value := by
  cases key <;> simp [put?, HeaderKey.fits]

/-- Putting a value in sets its key and no other. -/
theorem value?_put? (put : header.put? value key = some after) (other : HeaderKey) :
    after.value? other = if other = key then some value else header.value? other := by
  cases key with
  | kind | extraFlags =>
      rcases Option.map_eq_some_iff.mp put with ⟨_, shape, rfl⟩
      rw [ElementValue.int?_eq_some_iff.mp shape]
      cases other <;> rfl
  | version =>
      rcases Option.map_eq_some_iff.mp put with ⟨_, shape, rfl⟩
      rw [ElementValue.ints?_eq_some_iff.mp shape]
      cases other <;> rfl
  | data | strings =>
      rcases Option.map_eq_some_iff.mp put with ⟨_, shape, rfl⟩
      rw [ElementValue.strings?_eq_some_iff.mp shape]
      cases other <;> rfl
  | extraText | packageName =>
      rcases Option.map_eq_some_iff.mp put with ⟨_, shape, rfl⟩
      rw [ElementValue.string?_eq_some_iff.mp shape]
      cases other <;> rfl

/-- The values of a header are of the shapes that their keys ask for. -/
theorem fits_of_value? (found : header.value? key = some value) : key.fits value = true := by
  cases key with
  | kind => cases found; rfl
  | version =>
      cases found
      exact Option.isSome_iff_exists.mpr ⟨_, ElementValue.ints?_eq_some_iff.mpr rfl⟩
  | data | strings =>
      cases found
      exact Option.isSome_iff_exists.mpr ⟨_, ElementValue.strings?_eq_some_iff.mpr rfl⟩
  | extraText | packageName | extraFlags =>
      rcases Option.map_eq_some_iff.mp found with ⟨_, _, rfl⟩
      rfl

/-- Elements whose values are of the shapes that their keys ask for. -/
def Shaped (elements : Elements) : Prop :=
  ∀ element ∈ elements, ∀ key, HeaderKey.ofText? element.1 = some key → key.fits element.2 = true

/-- The value of the last element with a given key. -/
def lastValue? (key : HeaderKey) : Elements → Option ElementValue
  | [] => none
  | (name, value) :: rest =>
      (lastValue? key rest).or (if HeaderKey.ofText? name = some key then some value else none)

theorem lastValue?_eq_none_iff {elements : Elements} :
    lastValue? key elements = none ↔ key.text ∉ elements.map Prod.fst := by
  induction elements with
  | nil => simp [lastValue?]
  | cons element rest ih =>
      rcases element with ⟨name, value⟩
      simp [lastValue?, ih, HeaderKey.ofText?_eq_some_iff, and_comm]

theorem putElement_eq_ok_iff {element : String × ElementValue} :
    header.putElement element = .ok after ↔
      (∀ key, HeaderKey.ofText? element.1 = some key → header.put? element.2 key = some after) ∧
        (HeaderKey.ofText? element.1 = none → after = header) := by
  rw [putElement]
  cases HeaderKey.ofText? element.1 with
  | none => simp [eq_comm]
  | some key =>
      cases put : header.put? element.2 key <;> simp [put]

theorem value?_putElement {element : String × ElementValue}
    (put : header.putElement element = .ok after) (key : HeaderKey) :
    after.value? key =
      (if HeaderKey.ofText? element.1 = some key then some element.2 else none).or
        (header.value? key) := by
  rcases putElement_eq_ok_iff.mp put with ⟨known, unknown⟩
  cases found : HeaderKey.ofText? element.1 with
  | none => simp [unknown found]
  | some other =>
      rw [value?_put? (known other found) key]
      by_cases same : key = other
      · simp [same]
      · simp [same, Ne.symm same]

theorem exists_putElement {element : String × ElementValue}
    (shaped : ∀ key, HeaderKey.ofText? element.1 = some key → key.fits element.2 = true)
    (header : Header) : ∃ after, header.putElement element = .ok after := by
  cases found : HeaderKey.ofText? element.1 with
  | none => exact ⟨header, putElement_eq_ok_iff.mpr (by simp [found])⟩
  | some key =>
      obtain ⟨after, put⟩ := Option.isSome_iff_exists.mp
        ((isSome_put? header element.2 key).trans (shaped key found))
      exact ⟨after, putElement_eq_ok_iff.mpr (by simp [found, put])⟩

/-- A key has the value of its last element, or the one that it had before. -/
theorem value?_foldlM {elements : Elements} (read : elements.foldlM putElement header = .ok after)
    (key : HeaderKey) :
    after.value? key = (lastValue? key elements).or (header.value? key) := by
  induction elements generalizing header with
  | nil =>
      cases read
      rfl
  | cons element rest ih =>
      rw [List.foldlM_cons] at read
      rcases bind_eq_ok_iff.mp read with ⟨middle, put, read⟩
      rw [ih read, value?_putElement put, lastValue?, Option.or_assoc]

theorem value?_of_ofElements {elements : Elements} (read : ofElements elements = .ok header)
    (key : HeaderKey) :
    header.value? key = (lastValue? key elements).or (({} : Header).value? key) :=
  value?_foldlM read key

theorem exists_foldlM {elements : Elements} (shaped : Shaped elements) (header : Header) :
    ∃ after, elements.foldlM putElement header = .ok after := by
  induction elements generalizing header with
  | nil => exact ⟨header, rfl⟩
  | cons element rest ih =>
      rcases List.forall_mem_cons.mp shaped with ⟨here, later⟩
      obtain ⟨middle, put⟩ := exists_putElement here header
      obtain ⟨after, read⟩ := ih later middle
      exact ⟨after, by rw [List.foldlM_cons, put]; exact read⟩

theorem shaped_of_foldlM {elements : Elements}
    (read : elements.foldlM putElement header = .ok after) : Shaped elements := by
  induction elements generalizing header with
  | nil => exact fun _ mem => nomatch mem
  | cons element rest ih =>
      rw [List.foldlM_cons] at read
      rcases bind_eq_ok_iff.mp read with ⟨middle, put, read⟩
      refine List.forall_mem_cons.mpr ⟨fun key found => ?_, ih read⟩
      rw [← isSome_put? header, (putElement_eq_ok_iff.mp put).1 key found]
      rfl

section

variable {elements : Elements}

/-- Elements can be read exactly if they have the shapes that their keys ask for. -/
theorem exists_ofElements_iff : (∃ header, ofElements elements = .ok header) ↔ Shaped elements :=
  ⟨fun ⟨_, read⟩ => shaped_of_foldlM read, fun shaped => exists_foldlM shaped {}⟩

/-! ## Writing over elements -/

/-- What a key has in an element that is written over. -/
theorem lastValue?_writeOver (header : Header) (key : HeaderKey) (elements : Elements) :
    lastValue? key (header.writeOver elements) =
      (lastValue? key elements).map fun value => (header.value? key).getD value := by
  induction elements with
  | nil => rfl
  | cons element rest ih =>
      rcases element with ⟨name, value⟩
      change (lastValue? key (header.writeOver rest)).or _ = _
      rw [ih, lastValue?, Option.map_or]
      congr 1
      by_cases found : HeaderKey.ofText? name = some key <;> simp [found]

/-- Writing over elements keeps their shapes. -/
theorem shaped_writeOver (header : Header) (shaped : Shaped elements) :
    Shaped (header.writeOver elements) := by
  intro element mem key found
  rcases List.mem_map.mp mem with ⟨⟨name, value⟩, oldMem, rfl⟩
  have found : HeaderKey.ofText? name = some key := found
  simp only [found, Option.bind_some]
  cases own : header.value? key with
  | none => exact shaped (name, value) oldMem key found
  | some new => exact fits_of_value? own

theorem exists_ofElements_writeOver {before : Header} (read : ofElements elements = .ok before)
    (header : Header) : ∃ after, ofElements (header.writeOver elements) = .ok after :=
  exists_ofElements_iff.mpr (shaped_writeOver header (exists_ofElements_iff.mp ⟨before, read⟩))

/-- Elements that are written over are read as the header that was written, in so far as there are
elements for it. -/
theorem value?_of_ofElements_writeOver
    (written : ofElements (header.writeOver elements) = .ok after) (key : HeaderKey) :
    after.value? key =
      ((lastValue? key elements).map fun value => (header.value? key).getD value).or
        (({} : Header).value? key) := by
  rw [value?_of_ofElements written, lastValue?_writeOver]

/-- A key that the written header has a value for comes back with it, as long as the value did not
change if there is no element for it. -/
theorem value?_eq_of_written {before : Header} (read : ofElements elements = .ok before)
    (written : ofElements (header.writeOver elements) = .ok after) (key : HeaderKey)
    (present : (header.value? key).isSome = true)
    (kept : lastValue? key elements = none → header.value? key = before.value? key) :
    after.value? key = header.value? key := by
  rw [value?_of_ofElements_writeOver written]
  cases last : lastValue? key elements with
  | none =>
      rw [kept last, value?_of_ofElements read, last]
      rfl
  | some value =>
      rcases Option.isSome_iff_exists.mp present with ⟨own, own_eq⟩
      rw [own_eq]
      rfl

/-- A key that is written with the value that it had comes back with it, or still without one. -/
theorem value?_of_kept {before : Header} (read : ofElements elements = .ok before)
    (written : ofElements (header.writeOver elements) = .ok after) {key : HeaderKey}
    (kept : header.value? key = before.value? key) : after.value? key = before.value? key := by
  rw [value?_of_ofElements_writeOver written, kept, value?_of_ofElements read]
  cases lastValue? key elements <;> rfl

/-! ## Elements of a header -/

theorem kind_of_value? (same : header.value? .kind = after.value? .kind) :
    header.kind = after.kind :=
  ElementValue.int.inj (Option.some.inj same)

theorem version_of_value? (same : header.value? .version = after.value? .version) :
    header.version = after.version :=
  ElementValue.ints_inj (Option.some.inj same)

theorem data_of_value? (same : header.value? .data = after.value? .data) :
    header.data = after.data :=
  ElementValue.strings_inj (Option.some.inj same)

theorem strings_of_value? (same : header.value? .strings = after.value? .strings) :
    header.strings = after.strings :=
  ElementValue.strings_inj (Option.some.inj same)

theorem extraText_of_value? (same : header.value? .extraText = after.value? .extraText) :
    header.extraText = after.extraText :=
  Option.map_injective (fun _ _ => ElementValue.string.inj) same

theorem packageName_of_value? (same : header.value? .packageName = after.value? .packageName) :
    header.packageName = after.packageName :=
  Option.map_injective (fun _ _ => ElementValue.string.inj) same

theorem extraFlags_of_value? (same : header.value? .extraFlags = after.value? .extraFlags) :
    header.extraFlags = after.extraFlags :=
  Option.map_injective (fun _ _ => ElementValue.int.inj) same

/-- A header is determined by the values of its keys. -/
theorem eq_of_value?_eq (same : ∀ key, header.value? key = after.value? key) : header = after := by
  have kind := kind_of_value? (same .kind)
  have version := version_of_value? (same .version)
  have data := data_of_value? (same .data)
  have strings := strings_of_value? (same .strings)
  have extraText := extraText_of_value? (same .extraText)
  have packageName := packageName_of_value? (same .packageName)
  have extraFlags := extraFlags_of_value? (same .extraFlags)
  cases header
  cases after
  congr

theorem mem_toElements {element : String × ElementValue} :
    element ∈ header.toElements ↔
      ∃ key value, header.value? key = some value ∧ (key.text, value) = element := by
  simp only [toElements, List.mem_filterMap, Option.map_eq_some_iff, HeaderKey.mem_all, true_and]

theorem lastValue?_toElements (header : Header) (key : HeaderKey) :
    lastValue? key header.toElements = header.value? key := by
  have some_keys : ∀ keys : List HeaderKey,
      lastValue? key (keys.filterMap fun key => (header.value? key).map fun value =>
        (key.text, value)) = if key ∈ keys then header.value? key else none := by
    intro keys
    induction keys with
    | nil => rfl
    | cons first rest ih =>
        rw [List.filterMap_cons]
        by_cases same : first = key
        · subst same
          cases own : header.value? first <;> by_cases later : first ∈ rest <;>
            simp [lastValue?, ih, own, later]
        · cases header.value? first <;> simp [lastValue?, ih, same, Ne.symm same]
  rw [toElements, some_keys, if_pos (HeaderKey.mem_all key)]

/-- The elements of a header are read as this header. -/
theorem ofElements_toElements (header : Header) : ofElements header.toElements = .ok header := by
  have shaped : Shaped header.toElements := by
    intro element mem key found
    rcases mem_toElements.mp mem with ⟨other, value, own, rfl⟩
    obtain rfl : other = key := by simpa using found
    exact fits_of_value? own
  obtain ⟨after, read⟩ := exists_ofElements_iff.mpr shaped
  rw [read]
  refine congrArg _ (eq_of_value?_eq fun key => ?_)
  rw [value?_of_ofElements read, lastValue?_toElements]
  cases key with
  | kind | version | data | strings => rfl
  | extraText | packageName | extraFlags => exact Option.or_none

/-- Written over the elements of another header with values for the same keys, a header comes out
as it is. -/
theorem writeOver_toElements_of_isSome
    (present : ∀ key, (after.value? key).isSome = (header.value? key).isSome) :
    after.writeOver header.toElements = after.toElements := by
  rw [writeOver, toElements, List.map_filterMap]
  apply List.filterMap_congr
  intro key _
  have present := present key
  cases old : header.value? key <;> cases new : after.value? key <;> simp_all

/-- Writing a header over its own elements changes nothing. -/
theorem writeOver_toElements (header : Header) :
    header.writeOver header.toElements = header.toElements :=
  writeOver_toElements_of_isSome fun _ => rfl

end

/-! ## Annotations -/

theorem ofElements?_eq_some_iff {elements : Option Elements} :
    ofElements? elements = .ok (some header) ↔
      ∃ given, elements = some given ∧ given ≠ [] ∧ ofElements given = .ok header := by
  match elements with
  | none => simp [ofElements?]
  | some [] => simp [ofElements?]
  | some (first :: rest) => simp [ofElements?, map_eq_ok_iff]

theorem ofElements?_eq_none_iff {elements : Option Elements} :
    ofElements? elements = .ok none ↔ elements = none ∨ elements = some [] := by
  match elements with
  | none => simp [ofElements?]
  | some [] => simp [ofElements?]
  | some (first :: rest) => simp [ofElements?, map_eq_ok_iff]

/-- The annotation of a header is read as this header. -/
theorem ofElements?_toElements (header : Header) :
    ofElements? (some header.toElements) = .ok (some header) :=
  ofElements?_eq_some_iff.mpr
    ⟨header.toElements, rfl, List.cons_ne_nil _ _, ofElements_toElements header⟩

/-- An annotation with a header has one after its elements are written over. -/
theorem exists_ofElements?_writeOver {given? : Option Elements} {elements : Elements}
    {before : Header} (read : ofElements? given? = .ok (some before))
    (given : given? = some elements) (header : Header) :
    ofElements elements = .ok before ∧ ∃ after,
      ofElements (header.writeOver elements) = .ok after ∧
      ofElements? (some (header.writeOver elements)) = .ok (some after) := by
  rcases ofElements?_eq_some_iff.mp read with ⟨_, same, nonempty, elementsRead⟩
  obtain rfl : elements = _ := Option.some.inj (given.symm.trans same)
  obtain ⟨after, written⟩ := exists_ofElements_writeOver elementsRead header
  refine ⟨elementsRead, after, written, ?_⟩
  exact ofElements?_eq_some_iff.mpr ⟨_, rfl, mt List.map_eq_nil_iff.mp nonempty, written⟩

end Header

end KotlinMetadata
