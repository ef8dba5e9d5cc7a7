import KotlinMetadata.Renaming.Descriptor

/-!
# Descriptors renamed twice

New names without a semicolon end where they are put, so a second scan finds
the references that the first one found.  Renaming the references of a
descriptor twice is then renaming them once by the composition, whether the
descriptor is well-formed or not.
-/

namespace KotlinMetadata.Descriptor

/-- A renaming whose new names end no reference, as long as the old ones do not. -/
def KeepsOpen (rename : String → String) : Prop :=
  ∀ name, ';' ∉ name.toList → ';' ∉ (rename name).toList

section

variable {rename second : List Char → List Char}

/-- A reference that does not end is text. -/
theorem mapChars_some_of_not_mem {name chars : List Char} (endless : ';' ∉ chars) :
    mapChars rename (some name) chars = 'L' :: name.reverse ++ chars := by
  induction chars generalizing name with
  | nil => simp [mapChars]
  | cons c rest ih =>
      obtain ⟨other, endless⟩ := List.ne_and_not_mem_of_not_mem_cons endless
      simp [mapChars, Ne.symm other, ih endless]

/-- A reference ends at the first semicolon. -/
theorem mapChars_some_append {name chars : List Char} (endless : ';' ∉ chars) (rest : List Char) :
    mapChars rename (some name) (chars ++ ';' :: rest) =
      'L' :: rename (name.reverse ++ chars) ++ ';' :: mapChars rename none rest := by
  induction chars generalizing name with
  | nil => simp [mapChars]
  | cons c chars ih =>
      obtain ⟨other, endless⟩ := List.ne_and_not_mem_of_not_mem_cons endless
      simp [mapChars, Ne.symm other, ih endless]

theorem mapChars_none_cons {c : Char} (other : c ≠ 'L') (rest : List Char) :
    mapChars rename none (c :: rest) = c :: mapChars rename none rest :=
  if_neg other

/-- Text in front of a reference is copied. -/
theorem mapChars_none_append {chars : List Char} (plain : 'L' ∉ chars) (rest : List Char) :
    mapChars rename none (chars ++ rest) = chars ++ mapChars rename none rest := by
  induction chars with
  | nil => rfl
  | cons c chars ih =>
      obtain ⟨other, plain⟩ := List.ne_and_not_mem_of_not_mem_cons plain
      rw [List.cons_append, mapChars_none_cons (Ne.symm other), ih plain, List.cons_append]

/-- A reference that ends gets the new name. -/
theorem mapChars_none_reference {name : List Char} (endless : ';' ∉ name) (rest : List Char) :
    mapChars rename none ('L' :: (name ++ ';' :: rest)) =
      'L' :: (rename name ++ ';' :: mapChars rename none rest) := by
  simp [mapChars, mapChars_some_append endless]

/-- Outside a reference and inside one alike, a second scan starts outside all references. -/
theorem mapChars_mapChars (keepsOpen : ∀ name, ';' ∉ name → ';' ∉ rename name)
    {open? : Option (List Char)} (endless : ∀ name ∈ open?, ';' ∉ name) (chars : List Char) :
    mapChars second none (mapChars rename open? chars) =
      mapChars (fun name => second (rename name)) open? chars := by
  induction chars generalizing open? with
  | nil =>
      cases open? with
      | none => rfl
      | some name =>
          have endless : ';' ∉ name.reverse := by simpa using endless name rfl
          simp [mapChars, mapChars_some_of_not_mem endless]
  | cons c rest ih =>
      have outside : mapChars second none (mapChars rename none rest) =
          mapChars (fun name => second (rename name)) none rest := ih (by simp)
      cases open? with
      | none =>
          by_cases opens : c = 'L'
          · have inside : ∀ opened ∈ some [], ';' ∉ opened := by simp
            simp [mapChars, opens, ih inside]
          · simp [mapChars, opens, outside]
      | some name =>
          have nameEndless : ';' ∉ name.reverse := by simpa using endless name rfl
          by_cases ends : c = ';'
          · -- The new name has no semicolon, so the second scan stops where the first one did.
            have renamed := keepsOpen _ nameEndless
            simp [mapChars, ends, mapChars_some_append renamed, outside]
          · have longer : ∀ opened ∈ some (c :: name), ';' ∉ opened := by
              simpa [Ne.symm ends] using nameEndless
            simp [mapChars, ends, ih longer]

theorem mapChars_id (open? : Option (List Char)) (chars : List Char) :
    mapChars (fun name => name) open? chars =
      (open?.elim [] fun name => 'L' :: name.reverse) ++ chars := by
  induction chars generalizing open? with
  | nil => cases open? <;> simp [mapChars]
  | cons c rest ih =>
      cases open? with
      | none => by_cases opens : c = 'L' <;> simp [mapChars, opens, ih]
      | some name => by_cases ends : c = ';' <;> simp [mapChars, ends, ih]

end

/-- A renaming of names as the scan applies it. -/
def onChars (rename : String → String) (name : List Char) : List Char :=
  (rename (String.ofList name)).toList

theorem toList_mapClassNames (rename : String → String) (descriptor : String) :
    (mapClassNames rename descriptor).toList = mapChars (onChars rename) none descriptor.toList :=
  String.toList_ofList

/-- Renaming references twice is renaming them once by the composition. -/
theorem mapClassNames_mapClassNames {first : String → String} (keepsOpen : KeepsOpen first)
    (second : String → String) (descriptor : String) :
    mapClassNames second (mapClassNames first descriptor) =
      mapClassNames (second ∘ first) descriptor := by
  have endless : ∀ name : List Char, ';' ∉ name → ';' ∉ (first (String.ofList name)).toList :=
    fun name absent => keepsOpen _ (by rwa [String.toList_ofList])
  simp [mapClassNames, mapChars_mapChars endless]

/-- A descriptor whose references keep their names stays as it is. -/
@[simp]
theorem mapClassNames_id (descriptor : String) :
    mapClassNames (fun name => name) descriptor = descriptor := by
  simp [mapClassNames, mapChars_id]

end KotlinMetadata.Descriptor
