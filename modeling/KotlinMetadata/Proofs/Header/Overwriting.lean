import KotlinMetadata.Proofs.Header

/-!
# Headers written and read back

A header that is written as an annotation of its own is read back as it was.
One that is written over other elements changes none but those that have a key
of its, and is read back key by key: what it has for the keys that occur, and
nothing for those that do not.
-/

namespace KotlinMetadata

namespace Header

variable {written held : Header} {elements : Elements}

theorem value?_overwritten (key : HeaderKey) :
    (written.overwritten held elements).value? key =
      if Occurs key elements then (written.value? key).or (held.value? key)
      else ({} : Header).value? key := by
  cases key with
  | kind | version | data | strings =>
      simp only [value?, overwritten, Option.or_some]
      split <;> rfl
  | extraText | packageName | extraFlags =>
      simp only [value?, overwritten]
      split
      · exact Option.map_or
      · rfl

/-- Names and order stay. -/
theorem map_fst_writeOver (header : Header) (elements : Elements) :
    (header.writeOver elements).map Prod.fst = elements.map Prod.fst := by
  rw [writeOver, List.map_map]
  rfl

/-- An element without a meaning stays as it is. -/
theorem getElem?_writeOver_of_unknown (header : Header) {position : Nat} {name : String}
    {value : ElementValue} (found : elements[position]? = some (name, value))
    (unknown : ∀ key : HeaderKey, key.text ≠ name) :
    (header.writeOver elements)[position]? = some (name, value) := by
  have meaningless : HeaderKey.ofText? name = none :=
    Option.eq_none_iff_forall_ne_some.mpr fun key same =>
      unknown key (HeaderKey.ofText?_eq_some_iff.mp same)
  rw [writeOver, List.getElem?_map, found, Option.map_some]
  dsimp only
  rw [meaningless]
  rfl

/-- What is read after writing over elements, key by key. -/
theorem ofElements_writeOver (read : ofElements elements = .ok held) (written : Header) :
    ofElements (written.writeOver elements) = .ok (written.overwritten held elements) := by
  obtain ⟨after, readAgain⟩ := exists_ofElements_writeOver read written
  rw [readAgain]
  refine congrArg _ (eq_of_value?_eq fun key => ?_)
  rw [value?_of_ofElements_writeOver readAgain, value?_overwritten, value?_of_ofElements read]
  cases last : lastValue? key elements with
  | none =>
      have absent : ¬ Occurs key elements := lastValue?_eq_none_iff.mp last
      rw [if_neg absent]
      rfl
  | some value =>
      have occurs : Occurs key elements := by
        by_contra absent
        rw [lastValue?_eq_none_iff.mpr absent] at last
        cases last
      rw [if_pos occurs]
      cases written.value? key <;> rfl

/-- A header is read back from its own annotation.  Over other elements that hold a header it keeps
all names and all elements without a meaning, and what is read then is the written header in the
keys that occur, with the held one in place of missing values, and an empty header in the others. -/
theorem writes_and_reads (header : Header) :
    ofElements? header.toAnnotation.elements = .ok (some header) ∧
      ∀ (elements : Elements) (held : Header), ofElements? (some elements) = .ok (some held) →
        (header.writeOver elements).map Prod.fst = elements.map Prod.fst ∧
          (∀ (position : Nat) name value, elements[position]? = some (name, value) →
            (∀ key : HeaderKey, key.text ≠ name) →
              (header.writeOver elements)[position]? = some (name, value)) ∧
          ofElements? (some (header.writeOver elements)) =
            .ok (some (header.overwritten held elements)) := by
  refine ⟨ofElements?_toElements header, fun elements held read => ?_⟩
  obtain ⟨_, ⟨⟩, nonempty, read⟩ := ofElements?_eq_some_iff.mp read
  refine ⟨map_fst_writeOver header elements, fun position name value found unknown =>
    getElem?_writeOver_of_unknown header found unknown, ?_⟩
  exact ofElements?_eq_some_iff.mpr
    ⟨_, rfl, mt List.map_eq_nil_iff.mp nonempty, ofElements_writeOver read header⟩

/-- Of the elements one is unknown and one comes twice, and no element takes the strings and the
package name of the header. -/
theorem writes_and_reads_sample :
    let header : Header :=
      { kind := 3, data := ["y"], strings := ["z"], packageName := some "p" }
    let elements : Elements :=
      [ ("bv", .ints [1, 0, 3]), ("k", .int 2), ("xs", .string "a/B"), ("k", .int 5)
      , ("d1", .strings ["x"]) ]
    let held : Header := { kind := 5, data := ["x"], extraText := some "a/B" }
    ofElements? header.toAnnotation.elements = .ok (some header) ∧
      ofElements? (some elements) = .ok (some held) ∧
      (header.writeOver elements).map Prod.fst = ["bv", "k", "xs", "k", "d1"] ∧
      (∀ key : HeaderKey, key.text ≠ "bv") ∧
      (header.writeOver elements)[0]? = some ("bv", .ints [1, 0, 3]) ∧
      ofElements? (some (header.writeOver elements)) =
        .ok (some { kind := 3, data := ["y"], extraText := some "a/B" }) := by
  intro header elements held
  have read : ofElements? (some elements) = .ok (some held) := rfl
  have unknown : ∀ key : HeaderKey, key.text ≠ "bv" := fun key => by cases key <;> decide
  obtain ⟨own, onOthers⟩ := writes_and_reads header
  obtain ⟨names, unchanged, readAgain⟩ := onOthers elements held read
  exact ⟨own, read, names, unknown, unchanged 0 "bv" _ rfl unknown, readAgain⟩

end Header

end KotlinMetadata
