import KotlinMetadata.Names.Numbering

/-!
# Runs of records

Entries that are understood alike share a record, and reading the table gives
every entry a record of its own again.  All that a record loses on the way is
its range, so records are compared by their shapes.
-/

namespace KotlinMetadata

namespace NameRecord

/-- A record without its range: how each entry of its run is understood. -/
def shape (record : NameRecord) : NameRecord :=
  { record with range := none }

theorem shape_of_range {record : NameRecord} (alone : record.range = none) :
    record.shape = record := by
  rcases record with ⟨range, _⟩
  cases alone
  rfl

theorem sameShape_iff {a b : NameRecord} : a.sameShape b = true ↔ a.shape = b.shape :=
  decide_eq_true_iff

theorem count_of_range {record : NameRecord} (alone : record.range = none) : record.count = 1 := by
  rw [count, alone]

/-- The range of a record that covers anything is what it covers. -/
theorem toInt_range_of_pos {record : NameRecord} (pos : 0 < record.count) :
    (record.range.getD 1).toInt = record.count := by
  unfold count at pos ⊢
  cases range : record.range with
  | none => rfl
  | some length =>
      simp only [range] at pos
      simp only [Option.getD_some]
      omega

/-- A record that covers one more entry than it did. -/
theorem count_extended {record : NameRecord} (pos : 0 < record.count)
    (small : record.count + 1 < 2147483648) :
    { record with range := some (record.range.getD 1 + 1) }.count = record.count + 1 := by
  have sum : (record.range.getD 1 + 1).toInt = ((record.count + 1 : Nat) : Int) := by
    rw [Int32.toInt_add, toInt_range_of_pos pos]
    change ((record.count : Int) + 1).bmod (2 ^ 32) = _
    rw [Int.bmod_eq_of_le] <;> omega
  change (record.range.getD 1 + 1).toInt.toNat = _
  rw [sum, Int.toNat_natCast]

end NameRecord

/-- Every entry of the runs of some records with the shape of its record. -/
def spreadShapes (records : List NameRecord) : List NameRecord :=
  records.flatMap fun record => List.replicate record.count record.shape

theorem spreadShapes_cons (record : NameRecord) (rest : List NameRecord) :
    spreadShapes (record :: rest) =
      List.replicate record.count record.shape ++ spreadShapes rest :=
  List.flatMap_cons

/-- Records that leave room enough are expanded entry by entry. -/
theorem map_shape_expandRecords {limit : Nat} {records : List NameRecord}
    (fits : (spreadShapes records).length ≤ limit) :
    (expandRecords limit records).map NameRecord.shape = spreadShapes records := by
  induction records generalizing limit with
  | nil => rfl
  | cons record rest ih =>
      rw [spreadShapes_cons, List.length_append, List.length_replicate] at fits
      have whole : min record.count limit = record.count := Nat.min_eq_left (by omega)
      rw [expandRecords, spreadShapes_cons, whole, List.map_append, List.map_replicate,
        ih (by omega)]

/-- Every run is alike some record that was grouped. -/
theorem exists_shape_of_mem_groupRecords {records : List NameRecord} {run : NameRecord}
    (mem : run ∈ groupRecords records) : ∃ record ∈ records, record.shape = run.shape := by
  induction records generalizing run with
  | nil => cases mem
  | cons record rest ih =>
      have later : ∀ other ∈ groupRecords rest,
          ∃ record' ∈ record :: rest, record'.shape = other.shape := by
        intro other otherMem
        obtain ⟨record', recordMem, alike⟩ := ih otherMem
        exact ⟨record', List.mem_cons_of_mem record recordMem, alike⟩
      rw [groupRecords] at mem
      cases grouped : groupRecords rest with
      | nil =>
          rw [grouped] at mem
          rw [List.mem_singleton.mp mem]
          exact ⟨record, List.mem_cons_self, rfl⟩
      | cons next others =>
          rw [grouped] at mem later
          rcases List.forall_mem_cons.mp later with ⟨nextLater, othersLater⟩
          dsimp only at mem
          split at mem
          · rcases List.mem_cons.mp mem with rfl | mem
            · exact nextLater
            · exact othersLater run mem
          · rcases List.mem_cons.mp mem with rfl | mem
            · exact ⟨run, List.mem_cons_self, rfl⟩
            · exact later run mem

/-- Grouping neighbours of one shape keeps the shape of every entry. -/
theorem spreadShapes_groupRecords {records : List NameRecord}
    (alone : ∀ record ∈ records, record.range = none) (few : records.length < 2147483648) :
    (∀ record ∈ groupRecords records, 0 < record.count) ∧
      spreadShapes (groupRecords records) = records.map NameRecord.shape := by
  induction records with
  | nil => exact ⟨fun _ mem => (List.not_mem_nil mem).elim, rfl⟩
  | cons record rest ih =>
      rcases List.forall_mem_cons.mp alone with ⟨single, restAlone⟩
      have one := NameRecord.count_of_range single
      obtain ⟨positive, spread⟩ := ih restAlone (Nat.lt_of_succ_lt few)
      rw [List.map_cons, ← spread, groupRecords]
      cases grouped : groupRecords rest with
      | nil => simp [spreadShapes, one]
      | cons next others =>
          rw [grouped] at positive spread
          rcases List.forall_mem_cons.mp positive with ⟨nextPositive, othersPositive⟩
          have le : next.count ≤ rest.length := by
            have lengths := congrArg List.length spread
            rw [spreadShapes_cons, List.length_append, List.length_replicate,
              List.length_map] at lengths
            omega
          have small : next.count + 1 < 2147483648 :=
            Nat.lt_of_le_of_lt (Nat.succ_le_succ le) few
          dsimp only
          split
          · rename_i same
            have longer := NameRecord.count_extended nextPositive small
            constructor
            · exact List.forall_mem_cons.mpr ⟨by omega, othersPositive⟩
            · rw [spreadShapes_cons, spreadShapes_cons, longer, List.replicate_succ,
                ← NameRecord.sameShape_iff.mp same]
              rfl
          · constructor
            · exact List.forall_mem_cons.mpr ⟨by omega, positive⟩
            · rw [spreadShapes_cons, one]
              rfl

/-- Records of one entry each come back from the runs that they were grouped into. -/
theorem map_shape_expandRecords_groupRecords {records : List NameRecord}
    (alone : ∀ record ∈ records, record.range = none) (few : records.length < 2147483648) :
    (expandRecords records.length (groupRecords records)).map NameRecord.shape = records := by
  have spread := (spreadShapes_groupRecords alone few).2
  have fits : (spreadShapes (groupRecords records)).length ≤ records.length :=
    Nat.le_of_eq (by rw [spread, List.length_map])
  have shapes : records.map NameRecord.shape = records := by
    rw [List.map_congr_left fun record mem => NameRecord.shape_of_range (alone record mem),
      List.map_id']
  rw [map_shape_expandRecords fits, spread, shapes]

end KotlinMetadata
