import KotlinMetadata.Proofs.Renaming.Descriptor
import Mathlib.Data.List.Basic

/-!
# Texts taken apart at their references

Every text, well-formed or not, comes apart in one way only into references
that end, the text in front of each, and a tail in which no reference ends.
Renaming gives these references other names and changes nothing outside of
them, so renaming twice is renaming once by both.
-/

namespace KotlinMetadata.Descriptor

/-- A text by its references: the text in front of each, its name, and the tail behind the last. -/
inductive Parts where
  | tail (text : String)
  | reference (before name : String) (rest : Parts)
  deriving DecidableEq, Repr

namespace Parts

/-- The characters of all parts in a row. -/
def chars : Parts → List Char
  | tail text => text.toList
  | reference before name rest => before.toList ++ 'L' :: (name.toList ++ ';' :: rest.chars)

/-- The text that has these parts. -/
def text (parts : Parts) : String :=
  String.ofList parts.chars

/-- The texts outside of all references. -/
def outside : Parts → List String
  | tail text => [text]
  | reference before _ rest => before :: rest.outside

/-- The parts with other names in the references. -/
def map (rename : String → String) : Parts → Parts
  | tail text => tail text
  | reference before name rest => reference before (rename name) (rest.map rename)

/-- The references are those that a scan meets: each begins at the first `L` behind the one before
it and ends at the next semicolon, and no `L` of the tail has a semicolon behind it. -/
def Scanned : Parts → Prop
  | tail text => ∀ before behind, text.toList = before ++ 'L' :: behind → ';' ∉ behind
  | reference before name rest => 'L' ∉ before.toList ∧ ';' ∉ name.toList ∧ rest.Scanned

/-- Other names leave the texts outside of references in their places. -/
theorem outside_map (rename : String → String) (parts : Parts) :
    (parts.map rename).outside = parts.outside := by
  induction parts with
  | tail text => rfl
  | reference before name rest ih => rw [map, outside, ih, outside]

/-- A list is cut at the first occurrence of a value in one way only. -/
theorem eq_of_append_cons_eq {c : Char} {front other rest otherRest : List Char}
    (absent : c ∉ front) (otherAbsent : c ∉ other)
    (same : front ++ c :: rest = other ++ c :: otherRest) : front = other ∧ rest = otherRest := by
  rcases List.append_eq_append_iff.mp same with ⟨more, rfl, later⟩ | ⟨more, rfl, later⟩
  all_goals
    cases more with
    | nil => simpa [eq_comm] using later
    | cons first others =>
        obtain ⟨rfl, _⟩ := List.cons.inj later
        simp at absent otherAbsent

/-- Where no semicolon is behind the first `L`, none is behind another. -/
theorem not_mem_of_first {front rest before behind : List Char} (plain : 'L' ∉ front)
    (endless : ';' ∉ rest) (same : front ++ 'L' :: rest = before ++ 'L' :: behind) :
    ';' ∉ behind := by
  rcases List.append_eq_append_iff.mp same with ⟨more, _, later⟩ | ⟨more, front_eq, earlier⟩
  · intro ends
    have mem : ';' ∈ 'L' :: rest := by simp [later, ends]
    exact endless (by simpa using mem)
  · cases more with
    | nil => exact (List.cons.inj earlier).2 ▸ endless
    | cons first others =>
        have opens : 'L' ∈ front := by simp [front_eq, ← (List.cons.inj earlier).1]
        exact absurd opens plain

/-- Every text can be taken apart. -/
theorem exists_scanned (descriptor : List Char) :
    ∃ parts : Parts, parts.Scanned ∧ parts.chars = descriptor := by
  by_cases opens : 'L' ∈ descriptor
  case neg =>
    refine ⟨tail (String.ofList descriptor), fun before behind same => ?_, String.toList_ofList⟩
    rw [String.toList_ofList] at same
    simp [same] at opens
  case pos =>
    obtain ⟨before, behind, rfl, plain⟩ := List.eq_append_cons_of_mem opens
    by_cases ends : ';' ∈ behind
    case neg =>
      -- The first reference does not end, and then none behind it does: all of the text is tail.
      refine ⟨tail (String.ofList _), fun other rest same => ?_, String.toList_ofList⟩
      rw [String.toList_ofList] at same
      exact not_mem_of_first plain ends same
    case pos =>
      obtain ⟨name, rest, rfl, endless⟩ := List.eq_append_cons_of_mem ends
      obtain ⟨parts, scanned, rest_eq⟩ := exists_scanned rest
      refine ⟨reference (String.ofList before) (String.ofList name) parts, ⟨?_, ?_, scanned⟩, ?_⟩
      · rwa [String.toList_ofList]
      · rwa [String.toList_ofList]
      · simp [chars, rest_eq]
termination_by descriptor.length

/-- A text can be taken apart in one way only. -/
theorem Scanned.eq_of_chars_eq {parts other : Parts} (scanned : parts.Scanned)
    (otherScanned : other.Scanned) (same : parts.chars = other.chars) : parts = other := by
  induction parts generalizing other with
  | tail text =>
      cases other with
      | tail otherText => exact congrArg tail (String.toList_inj.mp same)
      | reference before name rest =>
          -- The other text has a reference that ends where this one has its tail.
          exact absurd (by simp) (scanned _ _ same)
  | reference before name rest ih =>
      cases other with
      | tail text => exact absurd (by simp) (otherScanned _ _ same.symm)
      | reference otherBefore otherName otherRest =>
          obtain ⟨plain, endless, scanned⟩ := scanned
          obtain ⟨otherPlain, otherEndless, otherScanned⟩ := otherScanned
          obtain ⟨before_eq, behind_eq⟩ := eq_of_append_cons_eq plain otherPlain same
          obtain ⟨name_eq, rest_eq⟩ := eq_of_append_cons_eq endless otherEndless behind_eq
          rw [String.toList_inj.mp before_eq, String.toList_inj.mp name_eq,
            ih scanned otherScanned rest_eq]

/-- The scan gives the references other names. -/
theorem mapChars_chars (rename : String → String) {parts : Parts} (scanned : parts.Scanned) :
    mapChars (onChars rename) none parts.chars = (parts.map rename).chars := by
  induction parts with
  | tail text =>
      rw [map, chars]
      by_cases opens : 'L' ∈ text.toList
      case neg => simpa [mapChars] using mapChars_none_append opens []
      case pos =>
        obtain ⟨before, behind, text_eq, plain⟩ := List.eq_append_cons_of_mem opens
        rw [text_eq, mapChars_none_append plain, mapChars, if_pos rfl,
          mapChars_some_of_not_mem (scanned before behind text_eq)]
        rfl
  | reference before name rest ih =>
      obtain ⟨plain, endless, scanned⟩ := scanned
      rw [chars, map, chars, mapChars_none_append plain, mapChars_none_reference endless,
        ih scanned, onChars, String.ofList_toList]

theorem text_eq_iff {parts : Parts} {descriptor : String} :
    parts.text = descriptor ↔ parts.chars = descriptor.toList := by
  rw [text, ← String.toList_inj, String.toList_ofList]

theorem existsUnique_scanned (descriptor : String) :
    ∃! parts : Parts, parts.Scanned ∧ parts.text = descriptor := by
  obtain ⟨parts, scanned, parts_eq⟩ := exists_scanned descriptor.toList
  refine ⟨parts, ⟨scanned, text_eq_iff.mpr parts_eq⟩, ?_⟩
  rintro other ⟨otherScanned, other_eq⟩
  exact otherScanned.eq_of_chars_eq scanned ((text_eq_iff.mp other_eq).trans parts_eq.symm)

/-- A descriptor is renamed reference by reference. -/
theorem Scanned.mapClassNames_text {parts : Parts} (scanned : parts.Scanned)
    (rename : String → String) : mapClassNames rename parts.text = (parts.map rename).text := by
  rw [← String.toList_inj, toList_mapClassNames, text, text, String.toList_ofList,
    String.toList_ofList, mapChars_chars rename scanned]

end Parts

/-- Renaming a text twice is renaming it once by both, as long as the first new names end no
reference.  The text outside of its references, which can be told in one way only, stays as it is
and in its place. -/
theorem mapClassNames_by_parts (first second : String → String) (descriptor : String) :
    (KeepsOpen first → mapClassNames second (mapClassNames first descriptor) =
      mapClassNames (second ∘ first) descriptor) ∧
      (∃! parts : Parts, parts.Scanned ∧ parts.text = descriptor) ∧
      ∀ parts : Parts, parts.Scanned → parts.text = descriptor →
        mapClassNames first descriptor = (parts.map first).text ∧
          (parts.map first).outside = parts.outside := by
  refine ⟨fun keepsOpen => mapClassNames_mapClassNames keepsOpen second descriptor,
    Parts.existsUnique_scanned descriptor, ?_⟩
  rintro parts scanned rfl
  exact ⟨scanned.mapClassNames_text first, parts.outside_map first⟩

/-- The last reference does not end, and new names with an `L` open no further ones. -/
theorem mapClassNames_by_parts_sample :
    let first : String → String := fun name => name ++ "L"
    let second : String → String := fun name => if name = "a/BL" then "C" else name
    let parts : Parts := .reference "(" "a/B" (.reference "I[" "L" (.tail ")V;Lx"))
    KeepsOpen first ∧ parts.Scanned ∧ parts.text = "(La/B;I[LL;)V;Lx" ∧
      mapClassNames second (mapClassNames first parts.text) = "(LC;I[LLL;)V;Lx" ∧
      mapClassNames first parts.text = "(La/BL;I[LLL;)V;Lx" ∧
      (parts.map first).outside = ["(", "I[", ")V;Lx"] := by
  intro first second parts
  have keepsOpen : KeepsOpen first := by
    intro name endless
    simpa [first] using endless
  have scanned : parts.Scanned := by
    refine ⟨by decide, by decide, by decide, by decide, fun before behind same => ?_⟩
    have whole : [')', 'V', ';'] ++ 'L' :: ['x'] = before ++ 'L' :: behind := same
    exact Parts.not_mem_of_first (by decide) (by decide) whole
  obtain ⟨twice, _, once⟩ := mapClassNames_by_parts first second parts.text
  obtain ⟨renamed, outside⟩ := once parts scanned rfl
  refine ⟨keepsOpen, scanned, by decide, (twice keepsOpen).trans (by decide +kernel),
    renamed.trans (by decide), outside⟩

end KotlinMetadata.Descriptor
