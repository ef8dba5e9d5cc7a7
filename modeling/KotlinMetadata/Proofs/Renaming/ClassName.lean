import KotlinMetadata.Proofs.Names.Lookup
import KotlinMetadata.Proofs.Renaming.Descriptor
import KotlinMetadata.Renaming.ClassName

/-!
# Names renamed twice

New names are tidy if they have neither dots nor semicolons and no dollar sign
in front.  The form that a tree gives to a tidy name has that name as its
internal name, local or not, so a second renaming sees exactly what the first
one made of a name.  From this follows what becomes of a name that is renamed
twice: nothing new if the renaming has settled, and what the composition makes
of it if no dollar sign shows.
-/

namespace KotlinMetadata

/-- A class name that can be told from its form in a tree and from its place in a descriptor. -/
structure TidyName (name : String) : Prop where
  noDot : '.' ∉ name.toList
  noSemicolon : ';' ∉ name.toList
  noDollarInFront : name.toList.head? ≠ some '$'

instance (name : String) : Decidable (TidyName name) :=
  decidable_of_iff ('.' ∉ name.toList ∧ ';' ∉ name.toList ∧ name.toList.head? ≠ some '$')
    ⟨fun ⟨noDot, noSemicolon, noDollarInFront⟩ => ⟨noDot, noSemicolon, noDollarInFront⟩,
      fun tidy => ⟨tidy.noDot, tidy.noSemicolon, tidy.noDollarInFront⟩⟩

/-- Every name that changes becomes a tidy one. -/
def Tidy (rename : String → String) : Prop :=
  ∀ name, rename name ≠ name → TidyName (rename name)

/-- A renaming of a few classes is tidy if their new names are. -/
theorem Tidy.of_listed {rename : String → String} {names : List String}
    (others : ∀ name ∉ names, rename name = name)
    (listed : ∀ name ∈ names, TidyName (rename name)) : Tidy rename :=
  fun name changed => listed name (by_contra fun new => changed (others name new))

theorem Tidy.keepsOpen {rename : String → String} (tidy : Tidy rename) :
    Descriptor.KeepsOpen rename := by
  intro name absent
  by_cases same : rename name = name
  · rwa [same]
  · exact (tidy name same).noSemicolon

theorem toList_internalName (name : String) :
    (internalName name).toList = replaceChar '.' '$' (splitLocal name.toList).2 :=
  String.toList_ofList

/-- What is not spelled with a dollar sign in front has no local mark. -/
theorem splitLocal_of_replaceChar {chars : List Char}
    (noDollarInFront : (replaceChar '.' '$' chars).head? ≠ some '$') :
    splitLocal chars = (false, chars) := by
  unfold splitLocal
  split
  · exact absurd rfl noDollarInFront
  · rfl

namespace Renaming

/-! ## Spelling a new name -/

theorem splitPackage_append (name : List Char) :
    (splitPackage name).1 ++ (splitPackage name).2 = name := by
  simp [splitPackage, ← List.reverse_append]

/-- What is not in a name is in neither part of it. -/
theorem not_mem_parts {c : Char} {name : List Char} (absent : c ∉ name) :
    c ∉ (splitPackage name).1 ∧ c ∉ (splitPackage name).2 := by
  rwa [← not_or, ← List.mem_append, splitPackage_append]

theorem replaceChar_cons (source target c : Char) (chars : List Char) :
    replaceChar source target (c :: chars) =
      (if c = source then target else c) :: replaceChar source target chars :=
  rfl

theorem replaceChar_append (source target : Char) (first second : List Char) :
    replaceChar source target (first ++ second) =
      replaceChar source target first ++ replaceChar source target second :=
  List.map_append

theorem replaceChar_of_not_mem {source target : Char} {chars : List Char}
    (absent : source ∉ chars) : replaceChar source target chars = chars := by
  refine (List.map_congr_left fun c mem => if_neg ?_).trans (List.map_id' chars)
  exact fun same => absent (same ▸ mem)

theorem not_mem_replaceChar {source target : Char} (other : source ≠ target) (chars : List Char) :
    source ∉ replaceChar source target chars := by
  intro mem
  rcases List.mem_map.mp mem with ⟨c, _, same⟩
  split at same
  · exact other same.symm
  · rename_i different
    exact different same

/-- Dots that stand for dollar signs are read as dollar signs. -/
theorem replaceChar_dotFirst {chars : List Char} (absent : '.' ∉ chars) (count : Nat) :
    replaceChar '.' '$' (dotFirst count chars) = chars := by
  induction chars generalizing count with
  | nil => cases count <;> rfl
  | cons c rest ih =>
      obtain ⟨other, absent⟩ := List.ne_and_not_mem_of_not_mem_cons absent
      cases count with
      | zero => exact replaceChar_of_not_mem (List.not_mem_cons_of_ne_of_not_mem other absent)
      | succ count =>
          rw [dotFirst]
          split
          · rename_i dollar
            rw [replaceChar_cons, if_pos rfl, ih absent, dollar]
          · rw [replaceChar_cons, if_neg (Ne.symm other), ih absent]

/-- The form of a new name in a tree has this name as its internal name. -/
theorem replaceChar_restore {mapped : List Char} (absent : '.' ∉ mapped) (bare : List Char) :
    replaceChar '.' '$' (restore bare mapped) = mapped := by
  rw [restore]
  split
  · obtain ⟨packageAbsent, simpleAbsent⟩ := not_mem_parts absent
    change replaceChar '.' '$' ((splitPackage mapped).1 ++ dotFirst _ (splitPackage mapped).2) = _
    rw [replaceChar_append, replaceChar_of_not_mem packageAbsent,
      replaceChar_dotFirst simpleAbsent, splitPackage_append]
  · exact replaceChar_replaceChar absent

/-! ## Names in trees -/

variable (rename : Renaming)

/-- The new form of a class name without its local mark. -/
def bareName (name : String) : List Char :=
  if rename.className (internalName name) = internalName name then (splitLocal name.toList).2
  else restore (splitLocal name.toList).2 (rename.className (internalName name)).toList

theorem toList_treeName (name : String) :
    (rename.treeName name).toList = if (splitLocal name.toList).1 then
      localMarker :: rename.bareName name else rename.bareName name :=
  String.toList_ofList

/-- Whether the new name of a class, if it has one, can be told from its form in a tree. -/
def Spellable (name : String) : Prop :=
  rename.className (internalName name) = internalName name ∨
    '.' ∉ (rename.className (internalName name)).toList ∧
      (rename.className (internalName name)).toList.head? ≠ some '$'

variable {rename}

theorem spellable_of_tidy (tidy : Tidy rename.className) (name : String) :
    rename.Spellable name := by
  by_cases same : rename.className (internalName name) = internalName name
  · exact .inl same
  · exact .inr ⟨(tidy _ same).noDot, (tidy _ same).noDollarInFront⟩

/-- Renaming keeps the local mark and adds none. -/
theorem splitLocal_treeName {name : String} (spellable : rename.Spellable name) :
    splitLocal (rename.treeName name).toList =
      ((splitLocal name.toList).1, rename.bareName name) := by
  rw [toList_treeName]
  cases isLocal : (splitLocal name.toList).1 with
  | true => rfl
  | false =>
      have chars := splitLocal_eq name.toList
      simp only [isLocal, Bool.false_eq_true, if_false] at chars ⊢
      rw [bareName]
      split
      · rw [← chars, ← isLocal]
        exact Prod.ext rfl chars.symm
      · rename_i changed
        -- A dot in front would stand for a dollar sign in front of the new name.
        obtain ⟨noDot, noDollarInFront⟩ := spellable.resolve_left changed
        apply splitLocal_of_replaceChar
        rwa [replaceChar_restore noDot]

/-- Trees spell a renamed class so that its internal name is the new name. -/
theorem internalName_treeName {name : String} (spellable : rename.Spellable name) :
    internalName (rename.treeName name) = rename.className (internalName name) := by
  rw [internalName, splitLocal_treeName spellable, bareName]
  dsimp only
  split
  · rename_i same
    exact same.symm
  · rename_i changed
    rw [replaceChar_restore (spellable.resolve_left changed).1, String.ofList_toList]

/-- A name that the renaming leaves alone comes back as it was. -/
theorem treeName_of_unchanged {name : String}
    (same : rename.className (internalName name) = internalName name) :
    rename.treeName name = name := by
  rw [← String.toList_inj, toList_treeName, bareName, if_pos same]
  exact (splitLocal_eq name.toList).symm

/-- A renaming that has settled on a name's new name leaves the renamed name alone. -/
theorem treeName_treeName_of_settled (tidy : Tidy rename.className) {name : String}
    (settled : rename.className (rename.className (internalName name)) =
      rename.className (internalName name)) :
    rename.treeName (rename.treeName name) = rename.treeName name := by
  apply treeName_of_unchanged
  rw [internalName_treeName (spellable_of_tidy tidy name), settled]

/-! ## Names without dollar signs -/

theorem not_mem_bare {name : String} {c : Char} (absent : c ∉ name.toList) :
    c ∉ (splitLocal name.toList).2 := by
  intro mem
  rw [splitLocal_eq name.toList] at absent
  split at absent
  · exact absent (List.mem_cons_of_mem _ mem)
  · exact absent mem

/-- Where no dollar sign shows, all dollar signs of the new name become dots. -/
theorem bareName_of_not_mem {name : String} (absent : '$' ∉ name.toList) :
    rename.bareName name = replaceChar '$' '.' (rename.className (internalName name)).toList := by
  have absent := not_mem_bare absent
  rw [bareName]
  split
  · rename_i same
    rw [same, toList_internalName, replaceChar_replaceChar absent]
  · rw [restore, if_neg absent]

theorem not_mem_treeName {name : String} (absent : '$' ∉ name.toList) :
    '$' ∉ (rename.treeName name).toList := by
  have bare : '$' ∉ rename.bareName name := by
    rw [bareName_of_not_mem absent]
    exact not_mem_replaceChar (by decide) _
  rw [toList_treeName]
  split
  · exact List.not_mem_cons_of_ne_of_not_mem (by decide) bare
  · exact bare

/-- Renaming a name without dollar signs twice is renaming it once by the composition. -/
theorem treeName_treeName_of_not_mem {second both : Renaming} (tidy : Tidy rename.className)
    (composed : ∀ name, both.className name = second.className (rename.className name))
    {name : String} (absent : '$' ∉ name.toList) :
    second.treeName (rename.treeName name) = both.treeName name := by
  have spellable := spellable_of_tidy tidy name
  rw [← String.toList_inj, toList_treeName second, toList_treeName both,
    bareName_of_not_mem (not_mem_treeName absent), bareName_of_not_mem absent,
    internalName_treeName spellable, splitLocal_treeName spellable, composed]

/-! ## Names of nested classes -/

/-- A class stays nested in the class that it was nested in: it is renamed to a class inside the
renamed one, and if its name does not change, neither does that of the outer class. -/
structure StaysNested (rename : String → String) (outer simple new : String) : Prop where
  inside : rename s!"{outer}${simple}" = s!"{rename outer}${new}"
  kept : rename s!"{outer}${simple}" = s!"{outer}${simple}" → rename outer = outer

theorem toList_nested (outer simple : String) :
    s!"{outer}${simple}".toList = outer.toList ++ '$' :: simple.toList := by
  simp [toString]

theorem nested_inj_right {outer simple new : String} :
    s!"{outer}${simple}" = s!"{outer}${new}" ↔ simple = new := by
  rw [← String.toList_inj, toList_nested, toList_nested, List.append_cancel_left_eq,
    List.cons.injEq, String.toList_inj, eq_self, true_and]

theorem nested_inj_left {outer new simple : String} :
    s!"{outer}${simple}" = s!"{new}${simple}" ↔ outer = new := by
  rw [← String.toList_inj, toList_nested, toList_nested, List.append_cancel_right_eq,
    String.toList_inj]

/-- A class that stays nested gets its new simple name. -/
theorem nestedName_of_staysNested {outer simple new : String}
    (stays : StaysNested rename.className (internalName outer) simple new) :
    rename.nestedName outer simple = new := by
  rw [nestedName]
  split
  · rename_i same
    have inside := stays.inside
    rw [stays.kept same, same] at inside
    exact nested_inj_right.mp inside
  · have found : List.isPrefixOf? (s!"{rename.className (internalName outer)}$").toList
        (rename.className s!"{internalName outer}${simple}").toList = some new.toList := by
      rw [List.isPrefixOf?_eq_some_iff_append_eq, stays.inside, toList_nested]
      simp [toString]
    rw [found]
    exact String.ofList_toList

end Renaming

end KotlinMetadata
