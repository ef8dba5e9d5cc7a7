import KotlinMetadata.Proofs.Renaming.ClassName
import Mathlib.Data.List.Perm.Basic
import Mathlib.Data.List.TakeWhile

/-!
# How trees spell new names

The same class may be named in a tree and in a descriptor, and the two are
renamed in different ways.  They come to the same name, as long as a tree can
spell it.  Of the separators of a name a tree keeps only their number and how
many of them are dots: in a new name the dots come first, wherever they were
in the old one.
-/

namespace KotlinMetadata

/-! ## Names in trees and names in descriptors -/

namespace Descriptor

/-- The descriptor of a class is renamed to that of the new class. -/
theorem mapClassNames_reference (rename : String → String) {name : String}
    (endless : ';' ∉ name.toList) : mapClassNames rename s!"L{name};" = s!"L{rename name};" := by
  have chars : s!"L{name};".toList = 'L' :: (name.toList ++ [';']) := by simp [toString]
  rw [← String.toList_inj, toList_mapClassNames, chars, mapChars_none_reference endless]
  simp [mapChars, onChars, toString]

end Descriptor

namespace Renaming

/-- The new name that a tree spells is the new name of the class, and a descriptor of the class
comes to the same, as long as the new name has no dot and no dollar sign in front. -/
theorem internalName_treeName_and_descriptor (rename : String → String) (name : String)
    (spellable : rename (internalName name) = internalName name ∨
      '.' ∉ (rename (internalName name)).toList ∧
        (rename (internalName name)).toList.head? ≠ some '$') :
    internalName ((ofClassNames rename).treeName name) = rename (internalName name) ∧
      (';' ∉ (internalName name).toList →
        (ofClassNames rename).fieldDescriptor s!"L{internalName name};" =
          s!"L{internalName ((ofClassNames rename).treeName name)};") := by
  have inTree : internalName ((ofClassNames rename).treeName name) = rename (internalName name) :=
    internalName_treeName spellable
  refine ⟨inTree, fun endless => ?_⟩
  rw [inTree]
  exact Descriptor.mapClassNames_reference rename endless

/-- A class in a local class, whose tree spelling mixes the separators, moves in its descriptor as
it does in the tree. -/
theorem internalName_treeName_and_descriptor_sample :
    let rename name := if name = "a/C$run$1$In" then "b/D$go$2$On" else name
    let name := ".a/C$run$1.In"
    (ofClassNames rename).treeName name = ".b/D.go$2$On" ∧
      internalName ((ofClassNames rename).treeName name) = "b/D$go$2$On" ∧
      (ofClassNames rename).fieldDescriptor s!"L{internalName name};" =
        s!"L{internalName ((ofClassNames rename).treeName name)};" := by
  intro rename name
  obtain ⟨inTree, inDescriptor⟩ := internalName_treeName_and_descriptor rename name (by decide)
  exact ⟨by decide, inTree.trans (by decide), inDescriptor (by decide)⟩

/-! ## The part after the last slash -/

theorem splitPackage_replaceChar {source target : Char} (sourceInside : source ≠ '/')
    (targetInside : target ≠ '/') (chars : List Char) :
    (splitPackage (replaceChar source target chars)).2 =
      replaceChar source target (splitPackage chars).2 := by
  have inside : ((fun c => decide (c ≠ '/')) ∘ fun c => if c = source then target else c) =
      fun c => decide (c ≠ '/') := by
    funext c
    by_cases same : c = source <;> simp [same, sourceInside, targetInside]
  simp only [splitPackage, replaceChar, ← List.map_reverse, List.takeWhile_map, inside]

theorem not_mem_splitPackage (chars : List Char) : '/' ∉ (splitPackage chars).2 := by
  intro mem
  have inside := List.mem_takeWhile_imp (List.mem_reverse.mp mem)
  simp at inside

theorem forall_mem_reverse_inside {chars : List Char} (inside : '/' ∉ chars) :
    ∀ c ∈ chars.reverse, decide (c ≠ '/') = true := by
  intro c mem
  have other : c ≠ '/' := fun same => inside (same ▸ List.mem_reverse.mp mem)
  exact decide_eq_true other

/-- A name without a slash is a simple one. -/
theorem splitPackage_of_not_mem {chars : List Char} (inside : '/' ∉ chars) :
    splitPackage chars = ([], chars) := by
  have all := forall_mem_reverse_inside inside
  rw [splitPackage, List.takeWhile_eq_self_iff.mpr all, List.dropWhile_eq_nil_iff.mpr all,
    List.reverse_reverse, List.reverse_nil]

/-- Behind a package, a name without a slash is a simple one. -/
theorem splitPackage_append_of_not_mem {chars simple : List Char} (inside : '/' ∉ simple) :
    (splitPackage ((splitPackage chars).1 ++ simple)).2 = simple := by
  have stops : (chars.reverse.dropWhile (· ≠ '/')).takeWhile (· ≠ '/') = [] :=
    List.takeWhile_eq_nil_iff.mpr (List.dropWhile_get_zero_not _ _)
  simp only [splitPackage, List.reverse_append, List.reverse_reverse]
  rw [List.takeWhile_append_of_pos (forall_mem_reverse_inside inside), stops, List.append_nil,
    List.reverse_reverse]

/-! ## Separators -/

/-- The characters that separate nested classes. -/
def isSeparator (c : Char) : Bool :=
  c = '.' ∨ c = '$'

/-- The separators in the part of a name after its last slash, a mark of so many characters in front
of the name apart. -/
def separators (mark : Nat) (name : String) : List Char :=
  (splitPackage (name.toList.drop mark)).2.filter isSeparator

/-- As many dots and dollar signs, the dots first. -/
def dotsFirst (separators : List Char) : List Char :=
  List.replicate (separators.count '.') '.' ++ List.replicate (separators.count '$') '$'

theorem count_filter_isSeparator {c : Char} (separates : isSeparator c = true)
    (chars : List Char) : (chars.filter isSeparator).count c = chars.count c :=
  List.count_filter separates

theorem count_replaceChar (chars : List Char) :
    (replaceChar '.' '$' chars).count '$' = chars.count '.' + chars.count '$' := by
  induction chars with
  | nil => rfl
  | cons c rest ih =>
      by_cases dot : c = '.'
      · rw [dot, replaceChar_cons, if_pos rfl, List.count_cons_self, List.count_cons_self,
          List.count_cons_of_ne (by decide), ih, Nat.add_right_comm]
      · rw [replaceChar_cons, if_neg dot, List.count_cons, List.count_cons_of_ne dot,
          List.count_cons, ih, Nat.add_assoc]

/-- With dots enough for all dollar signs none is left. -/
theorem dotFirst_of_count_le {chars : List Char} {count : Nat} (enough : chars.count '$' ≤ count) :
    dotFirst count chars = replaceChar '$' '.' chars := by
  fun_induction dotFirst count chars with
  | case1 chars =>
      have absent : '$' ∉ chars := List.count_eq_zero.mp (Nat.le_zero.mp enough)
      exact (replaceChar_of_not_mem absent).symm
  | case2 => rfl
  | case3 count rest ih =>
      rw [List.count_cons_self] at enough
      rw [replaceChar_cons, if_pos rfl, ih (Nat.le_of_succ_le_succ enough)]
  | case4 count c rest other ih =>
      rw [List.count_cons_of_ne other] at enough
      rw [replaceChar_cons, if_neg other, ih enough]

theorem not_mem_dotFirst {c : Char} (other : c ≠ '.') {chars : List Char} (absent : c ∉ chars)
    (count : Nat) : c ∉ dotFirst count chars := by
  fun_induction dotFirst count chars with
  | case1 => exact absent
  | case2 => exact absent
  | case3 count rest ih =>
      exact List.not_mem_cons_of_ne_of_not_mem other (ih (mt (List.mem_cons_of_mem _) absent))
  | case4 count first rest _ ih =>
      obtain ⟨differs, absent⟩ := List.ne_and_not_mem_of_not_mem_cons absent
      exact List.not_mem_cons_of_ne_of_not_mem differs (ih absent)

theorem filter_isSeparator_of_not_mem {chars : List Char} (noDot : '.' ∉ chars) :
    chars.filter isSeparator = List.replicate (chars.count '$') '$' := by
  rw [← List.filter_beq]
  apply List.filter_congr
  intro c mem
  have other : c ≠ '.' := fun same => noDot (same ▸ mem)
  rw [Bool.eq_iff_iff]
  simp [isSeparator, other]

/-- Turning the first dollar signs into dots leaves the dots in front. -/
theorem filter_dotFirst {chars : List Char} (noDot : '.' ∉ chars) {dots dollars : Nat}
    (count : chars.count '$' = dots + dollars) :
    (dotFirst dots chars).filter isSeparator =
      List.replicate dots '.' ++ List.replicate dollars '$' := by
  fun_induction dotFirst dots chars with
  | case1 chars =>
      rw [filter_isSeparator_of_not_mem noDot, count, Nat.zero_add]
      rfl
  | case2 dots =>
      rw [List.count_nil] at count
      obtain ⟨rfl, rfl⟩ : dots = 0 ∧ dollars = 0 := by omega
      rfl
  | case3 dots rest ih =>
      rw [List.count_cons_self] at count
      have count : rest.count '$' = dots + dollars := by omega
      rw [List.filter_cons_of_pos (by decide), ih (mt (List.mem_cons_of_mem _) noDot) count]
      rfl
  | case4 dots c rest dollar ih =>
      obtain ⟨dot, noDot⟩ := List.ne_and_not_mem_of_not_mem_cons noDot
      rw [List.count_cons_of_ne dollar] at count
      rw [List.filter_cons_of_neg (by simp [isSeparator, dollar, Ne.symm dot]), ih noDot count]

theorem perm_dotsFirst {separators : List Char} (all : ∀ c ∈ separators, isSeparator c = true) :
    separators.Perm (dotsFirst separators) := by
  refine (List.perm_replicate_append_replicate (by decide)).mpr ⟨rfl, rfl, fun c mem => ?_⟩
  simpa [isSeparator] using all c mem

/-- Separators keep their places if the dots came first, and only then. -/
theorem dotsFirst_eq_iff {separators : List Char} (all : ∀ c ∈ separators, isSeparator c = true) :
    dotsFirst separators = separators ↔
      separators.Pairwise fun first second => second = '.' → first = '.' := by
  have ordered :
      (dotsFirst separators).Pairwise fun first second => second = '.' → first = '.' := by
    simp [dotsFirst, List.pairwise_append, List.pairwise_replicate]
  constructor
  · intro same
    rwa [same] at ordered
  · intro given
    refine List.Perm.eq_of_pairwise ?_ ordered given (perm_dotsFirst all).symm
    -- Of two separators that may stand in either order, both are dots or neither is.
    intro a b aMem bMem before after
    have aSeparates := all a ((perm_dotsFirst all).mem_iff.mpr aMem)
    have bSeparates := all b bMem
    simp only [isSeparator, decide_eq_true_eq] at aSeparates bSeparates
    rcases aSeparates with rfl | rfl <;> rcases bSeparates with rfl | rfl <;> simp at before after ⊢

/-- The new form of a name has as many dots as before, and they come first. -/
theorem filter_splitPackage_restore {bare mapped : List Char} (noDot : '.' ∉ mapped)
    (sameCount : (splitPackage mapped).2.count '$' =
      (splitPackage (replaceChar '.' '$' bare)).2.count '$') :
    (splitPackage (restore bare mapped)).2.filter isSeparator =
      dotsFirst ((splitPackage bare).2.filter isSeparator) := by
  have simpleNoDot : '.' ∉ (splitPackage mapped).2 := (not_mem_parts noDot).2
  have count : (splitPackage mapped).2.count '$' =
      (splitPackage bare).2.count '.' + (splitPackage bare).2.count '$' := by
    rw [sameCount, splitPackage_replaceChar (by decide) (by decide), count_replaceChar]
  have simple : (splitPackage (restore bare mapped)).2 =
      dotFirst ((splitPackage bare).2.count '.') (splitPackage mapped).2 := by
    rw [restore]
    split
    · exact splitPackage_append_of_not_mem
        (not_mem_dotFirst (by decide) (not_mem_splitPackage mapped) _)
    · rename_i noDollar
      have simpleNoDollar : '$' ∉ (splitPackage bare).2 := (not_mem_parts noDollar).2
      rw [List.count_eq_zero.mpr simpleNoDollar, Nat.add_zero] at count
      rw [splitPackage_replaceChar (by decide) (by decide),
        dotFirst_of_count_le (Nat.le_of_eq count)]
  rw [simple, filter_dotFirst simpleNoDot count, dotsFirst, count_filter_isSeparator (by decide),
    count_filter_isSeparator (by decide)]

variable {rename : Renaming} {name : String}

theorem drop_mark (name : String) :
    name.toList.drop (isLocalName name).toNat = (splitLocal name.toList).2 := by
  unfold isLocalName splitLocal
  split
  · rename_i chars
    rw [chars]
    rfl
  · rfl

theorem drop_mark_treeName (rename : Renaming) (name : String) :
    (rename.treeName name).toList.drop (isLocalName name).toNat = rename.bareName name := by
  rw [toList_treeName, isLocalName]
  cases (splitLocal name.toList).1 <;> rfl

theorem separators_treeName (noDot : '.' ∉ (rename.className (internalName name)).toList)
    (sameCount : (splitPackage (rename.className (internalName name)).toList).2.count '$' =
      (splitPackage (internalName name).toList).2.count '$') :
    separators (isLocalName name).toNat (rename.treeName name) =
      if rename.className (internalName name) = internalName name then
        separators (isLocalName name).toNat name
      else dotsFirst (separators (isLocalName name).toNat name) := by
  rw [separators, separators, drop_mark_treeName, drop_mark, bareName]
  split
  · rfl
  · rw [toList_internalName] at sameCount
    exact filter_splitPackage_restore noDot sameCount

/-- If the new name of a class has as many separators as the old one and no dot, trees spell it with
as many separators, and each in its place exactly if the name has not changed or the dots came first
in it. -/
theorem separators_treeName_eq_iff (rename : Renaming) (name : String)
    (noDot : '.' ∉ (rename.className (internalName name)).toList)
    (sameCount : (splitPackage (rename.className (internalName name)).toList).2.count '$' =
      (splitPackage (internalName name).toList).2.count '$') :
    let mark := (isLocalName name).toNat
    (separators mark (rename.treeName name)).length = (separators mark name).length ∧
      (separators mark (rename.treeName name) = separators mark name ↔
        rename.className (internalName name) = internalName name ∨
          (separators mark name).Pairwise fun first second => second = '.' → first = '.') := by
  have all : ∀ c ∈ separators (isLocalName name).toNat name, isSeparator c = true :=
    fun _ => List.of_mem_filter
  dsimp only
  rw [separators_treeName noDot sameCount]
  split
  · rename_i same
    exact ⟨rfl, iff_of_true rfl (.inl same)⟩
  · rename_i changed
    refine ⟨(perm_dotsFirst all).length_eq.symm, ?_⟩
    rw [dotsFirst_eq_iff all, or_iff_right changed]

/-- A local class in a nested one keeps both separators. -/
theorem separators_treeName_eq_iff_sample :
    let rename := ofClassNames fun name => if name = "a/C$In$1" then "b/D$On$2" else name
    rename.treeName "a/C.In$1" = "b/D.On$2" ∧
      separators 0 (rename.treeName "a/C.In$1") = separators 0 "a/C.In$1" := by
  intro rename
  have places := separators_treeName_eq_iff rename "a/C.In$1" (by decide) (by decide)
  exact ⟨by decide, places.2.mpr (.inr (by decide))⟩

/-- A class in a local class does not: its dot moves to the front. -/
theorem separators_treeName_moved :
    let rename := ofClassNames fun name =>
      if name = "a/Foo$run$1$Inner" then "b/Bar$run$1$Inner" else name
    let name := ".a/Foo$run$1.Inner"
    '.' ∉ (rename.className (internalName name)).toList ∧
      (splitPackage (rename.className (internalName name)).toList).2.count '$' =
        (splitPackage (internalName name).toList).2.count '$' ∧
      rename.treeName name = ".b/Bar.run$1$Inner" ∧
      separators (isLocalName name).toNat name = ['$', '$', '.'] ∧
      separators (isLocalName name).toNat (rename.treeName name) = ['.', '$', '$'] := by
  decide

end Renaming

end KotlinMetadata
