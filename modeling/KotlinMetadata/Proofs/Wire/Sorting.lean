import KotlinMetadata.Wire.Field

/-!
# Fields by number

Sorting fields by number is stable, so for each number the fields stand in
their old order.  Nothing else is left open: two ascending lists that agree at
every number are the same list, which makes it easy to see what sorting does
to a part of a list.
-/

namespace KotlinMetadata.Wire

/-- Fields stand by ascending number. -/
def Ascending (fields : List RawField) : Prop :=
  fields.Pairwise fun a b => a.number ≤ b.number

instance (fields : List RawField) : Decidable (Ascending fields) :=
  inferInstanceAs (Decidable (fields.Pairwise fun a b => a.number ≤ b.number))

/-- The fields with a given number. -/
def numbered (number : UInt32) (fields : List RawField) : List RawField :=
  fields.filter fun field => decide (field.number = number)

/-- Lists that agree at the numbers of their fields agree at every number. -/
theorem numbered_eq_of_forall_mem {left right : List RawField}
    (agree : ∀ field ∈ left ++ right,
      numbered field.number left = numbered field.number right) (number : UInt32) :
    numbered number left = numbered number right := by
  by_cases occurs : ∃ field ∈ left ++ right, field.number = number
  · rcases occurs with ⟨field, mem, rfl⟩
    exact agree field mem
  · have empty : numbered number (left ++ right) = [] :=
      List.filter_eq_nil_iff.mpr fun field mem => by
        simpa using fun same => occurs ⟨field, mem, same⟩
    rw [numbered, List.filter_append] at empty
    obtain ⟨leftEmpty, rightEmpty⟩ := List.append_eq_nil_iff.mp empty
    exact leftEmpty.trans rightEmpty.symm

theorem sortFields_perm (fields : List RawField) : (sortFields fields).Perm fields :=
  List.mergeSort_perm fields _

@[simp]
theorem mem_sortFields {field : RawField} {fields : List RawField} :
    field ∈ sortFields fields ↔ field ∈ fields :=
  (sortFields_perm fields).mem_iff

/-- The order that sorting uses is transitive. -/
private theorem number_trans (a b c : RawField) (first : decide (a.number ≤ b.number) = true)
    (second : decide (b.number ≤ c.number) = true) : decide (a.number ≤ c.number) = true :=
  decide_eq_true (UInt32.le_trans (of_decide_eq_true first) (of_decide_eq_true second))

/-- The order that sorting uses is total. -/
private theorem number_total (a b : RawField) :
    (decide (a.number ≤ b.number) || decide (b.number ≤ a.number)) = true := by
  simpa using UInt32.le_total a.number b.number

theorem ascending_sortFields (fields : List RawField) : Ascending (sortFields fields) :=
  (List.pairwise_mergeSort number_trans number_total fields).imp of_decide_eq_true

/-- Sorting is stable: the fields with one number keep their order. -/
theorem numbered_sortFields (number : UInt32) (fields : List RawField) :
    numbered number (sortFields fields) = numbered number fields := by
  have level : (numbered number fields).Pairwise
      fun a b => decide (a.number ≤ b.number) = true := by
    rw [List.pairwise_iff_forall_sublist]
    intro a b sub
    have left : a ∈ numbered number fields := sub.subset (by simp)
    have right : b ∈ numbered number fields := sub.subset (by simp)
    simp only [numbered, List.mem_filter, decide_eq_true_eq] at left right ⊢
    rw [left.2, right.2]
    exact UInt32.le_refl number
  have kept : (numbered number fields).Sublist (sortFields fields) :=
    List.sublist_mergeSort number_trans number_total level List.filter_sublist
  have sub : (numbered number fields).Sublist (numbered number (sortFields fields)) := by
    simpa only [numbered, List.filter_filter, Bool.and_self] using
      kept.filter fun field => decide (field.number = number)
  have same : (numbered number fields).length = (numbered number (sortFields fields)).length :=
    ((sortFields_perm fields).filter _).length_eq.symm
  exact (sub.eq_of_length same).symm

/-- An ascending list is determined by its fields at each number. -/
theorem Ascending.eq_of_numbered_eq {left right : List RawField}
    (ascendingLeft : Ascending left) (ascendingRight : Ascending right)
    (agree : ∀ number, numbered number left = numbered number right) : left = right := by
  induction left generalizing right with
  | nil =>
      cases right with
      | nil => rfl
      | cons b right =>
          have absurd := agree b.number
          simp [numbered] at absurd
  | cons a left ih =>
      cases right with
      | nil =>
          have absurd := agree a.number
          simp [numbered] at absurd
      | cons b right =>
          rcases List.pairwise_cons.mp ascendingLeft with ⟨leastLeft, ascendingLeft⟩
          rcases List.pairwise_cons.mp ascendingRight with ⟨leastRight, ascendingRight⟩
          have aMem : a ∈ numbered a.number (b :: right) := by
            rw [← agree]
            simp [numbered]
          have bMem : b ∈ numbered b.number (a :: left) := by
            rw [agree]
            simp [numbered]
          have aBelow : b.number ≤ a.number := by
            rcases List.mem_cons.mp (List.mem_filter.mp aMem).1 with rfl | later
            · exact UInt32.le_refl _
            · exact leastRight a later
          have bBelow : a.number ≤ b.number := by
            rcases List.mem_cons.mp (List.mem_filter.mp bMem).1 with rfl | later
            · exact UInt32.le_refl _
            · exact leastLeft b later
          have number_eq : a.number = b.number := UInt32.le_antisymm bBelow aBelow
          have heads := agree a.number
          simp only [numbered, List.filter_cons, number_eq, decide_true, if_true,
            List.cons.injEq] at heads
          rw [heads.1, ih ascendingLeft ascendingRight]
          intro number
          have tails := agree number
          simp only [numbered, List.filter_cons, number_eq] at tails ⊢
          split at tails
          · exact (List.cons.inj tails).2
          · exact tails

/-- Sorting and choosing fields can be done in either order. -/
theorem filter_sortFields (keep : RawField → Bool) (fields : List RawField) :
    (sortFields fields).filter keep = sortFields (fields.filter keep) := by
  apply Ascending.eq_of_numbered_eq ((ascending_sortFields fields).filter keep)
    (ascending_sortFields _)
  intro number
  have swap (list : List RawField) :
      numbered number (list.filter keep) = (numbered number list).filter keep := by
    simp only [numbered, List.filter_filter, Bool.and_comm]
  rw [numbered_sortFields, swap, swap, numbered_sortFields]

/-- Fields chosen from one number only keep their order. -/
theorem filter_sortFields_of_number {keep : RawField → Bool} {number : UInt32}
    (only : ∀ field, keep field = true → field.number = number) (fields : List RawField) :
    (sortFields fields).filter keep = fields.filter keep := by
  have narrow (list : List RawField) : list.filter keep = (numbered number list).filter keep := by
    rw [numbered, List.filter_filter]
    apply List.filter_congr
    intro field _
    cases kept : keep field with
    | false => simp
    | true => simp [only field kept]
  rw [narrow, narrow fields, numbered_sortFields]

/-- Sorting part of the fields beforehand makes no difference. -/
theorem sortFields_append_sortFields (known unknown : List RawField) :
    sortFields (known ++ sortFields unknown) = sortFields (known ++ unknown) := by
  apply (ascending_sortFields _).eq_of_numbered_eq (ascending_sortFields _)
  intro number
  have split (list : List RawField) :
      numbered number (known ++ list) = numbered number known ++ numbered number list :=
    List.filter_append ..
  rw [numbered_sortFields, numbered_sortFields, split, split, numbered_sortFields]

@[simp]
theorem sortFields_sortFields (fields : List RawField) :
    sortFields (sortFields fields) = sortFields fields := by
  simpa using sortFields_append_sortFields [] fields

@[simp]
theorem sortFields_nil : sortFields [] = [] := by
  simp [sortFields]

/-- `sorted` are the fields by number, those of one number in their old order. -/
structure StablySorted (fields sorted : List RawField) : Prop where
  ascending : Ascending sorted
  numbered_eq : ∀ number, numbered number sorted = numbered number fields

theorem stablySorted_iff {fields sorted : List RawField} :
    StablySorted fields sorted ↔ sorted = sortFields fields := by
  have sorts : StablySorted fields (sortFields fields) :=
    ⟨ascending_sortFields fields, fun number => numbered_sortFields number fields⟩
  constructor
  · intro stable
    refine stable.ascending.eq_of_numbered_eq sorts.ascending fun number => ?_
    rw [stable.numbered_eq, sorts.numbered_eq]
  · rintro rfl
    exact sorts

theorem sortFields_of_ascending {fields : List RawField} (ascending : Ascending fields) :
    sortFields fields = fields :=
  (stablySorted_iff.mp ⟨ascending, fun _ => rfl⟩).symm

end KotlinMetadata.Wire
