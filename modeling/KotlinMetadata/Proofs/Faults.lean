import Mathlib.Data.List.Forall2
import KotlinMetadata.Wire.Cursor

/-!
# Success and failure step by step

A sequence of steps succeeds when each of its steps does.  Apart from that the
file compares two readers of one payload of which one may enter fewer levels
of messages: it finds the same, values and faults alike, unless it stops at a
message that is nested too deeply.
-/

namespace KotlinMetadata

open Wire

section

variable {ε α β : Type}

theorem bind_eq_ok_iff {action : Except ε α} {next : α → Except ε β} {value : β} :
    (action >>= next) = .ok value ↔ ∃ middle, action = .ok middle ∧ next middle = .ok value := by
  cases action <;> simp [bind, Except.bind]

theorem map_eq_ok_iff {action : Except ε α} {f : α → β} {value : β} :
    f <$> action = .ok value ↔ ∃ middle, action = .ok middle ∧ f middle = value := by
  cases action <;> simp [Functor.map, Except.map]

theorem mapM_cons_eq_ok_iff {action : α → Except ε β} {item : α} {items : List α}
    {values : List β} :
    (item :: items).mapM action = .ok values ↔
      ∃ value rest, action item = .ok value ∧ items.mapM action = .ok rest ∧
        value :: rest = values := by
  simp only [List.mapM_cons, bind_eq_ok_iff, pure, Except.pure, Except.ok.injEq,
    exists_and_left]

/-- A list of actions succeeds when each of them does. -/
theorem mapM_eq_ok_iff {action : α → Except ε β} {items : List α} {values : List β} :
    items.mapM action = .ok values ↔
      List.Forall₂ (fun item value => action item = .ok value) items values := by
  induction items generalizing values with
  | nil => cases values <;> simp [pure, Except.pure]
  | cons item items ih =>
      rw [mapM_cons_eq_ok_iff]
      constructor
      · rintro ⟨value, rest, head, tail, rfl⟩
        exact .cons head (ih.mp tail)
      · rintro (_ | ⟨head, tail⟩)
        exact ⟨_, _, head, ih.mpr tail, rfl⟩

theorem mapM_append_eq_ok_iff {action : α → Except ε β} {items others : List α}
    {values : List β} :
    (items ++ others).mapM action = .ok values ↔
      ∃ first rest, items.mapM action = .ok first ∧ others.mapM action = .ok rest ∧
        first ++ rest = values := by
  simp only [List.mapM_append, bind_eq_ok_iff, pure, Except.pure, Except.ok.injEq,
    exists_and_left]

/-- Each value of a list comes from one of the items. -/
theorem exists_of_mem_mapM {action : α → Except ε β} {items : List α} {values : List β}
    (success : items.mapM action = .ok values) {value : β} (mem : value ∈ values) :
    ∃ item ∈ items, action item = .ok value := by
  rw [mapM_eq_ok_iff] at success
  induction success with
  | nil => cases mem
  | @cons item first items values head _ ih =>
      rcases List.mem_cons.mp mem with rfl | later
      · exact ⟨item, List.mem_cons_self, head⟩
      · obtain ⟨found, foundMem, done⟩ := ih later
        exact ⟨found, List.mem_cons_of_mem item foundMem, done⟩

/-- Items that come with faults of their own succeed when there are no such faults. -/
theorem mapM_bind_eq_ok_iff {action : α → Except ε β} {items : List (Except ε α)}
    {values : List β} :
    (items.mapM fun item => item.bind action) = .ok values ↔
      ∃ sound : List α, items = sound.map .ok ∧ sound.mapM action = .ok values := by
  constructor
  · intro success
    rw [mapM_eq_ok_iff] at success
    induction success with
    | nil => exact ⟨[], rfl, rfl⟩
    | cons head _ ih =>
        rcases bind_eq_ok_iff.mp head with ⟨item, rfl, done⟩
        obtain ⟨sound, rfl, rest⟩ := ih
        exact ⟨item :: sound, rfl,
          mapM_eq_ok_iff.mpr (.cons done (mapM_eq_ok_iff.mp rest))⟩
  · rintro ⟨sound, rfl, success⟩
    rw [List.mapM_map]
    exact success

end

/-- `result` is `full`, unless it stops at a message that is nested too deeply. -/
def CutShort {α : Type} (result full : Except PayloadError α) : Prop :=
  result = full ∨ ∃ offset, result = .error (.nestedTooDeep nestingLimit offset)

namespace CutShort

variable {α β : Type}

theorem refl (result : Except PayloadError α) : CutShort result result :=
  .inl rfl

theorem stopped {full : Except PayloadError α} (offset : Nat) :
    CutShort (.error (.nestedTooDeep nestingLimit offset)) full :=
  .inr ⟨offset, rfl⟩

theorem trans {first second third : Except PayloadError α} (left : CutShort first second)
    (right : CutShort second third) : CutShort first third := by
  rcases left with rfl | deep
  · exact right
  · exact .inr deep

theorem bind {result full : Except PayloadError α} {next nextFull : α → Except PayloadError β}
    (head : CutShort result full) (tail : ∀ value, CutShort (next value) (nextFull value)) :
    CutShort (result >>= next) (full >>= nextFull) := by
  rcases head with rfl | ⟨offset, rfl⟩
  · cases result with
    | error fault => exact .refl _
    | ok value => exact tail value
  · exact .stopped offset

theorem map {result full : Except PayloadError α} (f : α → β) (head : CutShort result full) :
    CutShort (f <$> result) (f <$> full) := by
  rcases head with rfl | ⟨offset, rfl⟩
  · exact .refl _
  · exact .stopped offset

theorem mapM {action actionFull : α → Except PayloadError β}
    (each : ∀ item, CutShort (action item) (actionFull item)) (items : List α) :
    CutShort (items.mapM action) (items.mapM actionFull) := by
  induction items with
  | nil => exact .refl _
  | cons item items ih =>
      rw [List.mapM_cons, List.mapM_cons]
      exact (each item).bind fun value => ih.bind fun values => .refl _

end CutShort

end KotlinMetadata
