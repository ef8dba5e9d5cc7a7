import KotlinMetadata.Text.Lines
import Mathlib.Data.List.Basic

/-!
# Lines and columns put together again

Cutting a text at separators undoes joining pieces that have none.  Lines that
are each ended by a line feed are the lines of the text that they make, up to
a carriage return at their end.
-/

namespace KotlinMetadata.Text

theorem split_eq_splitOn (separator : Char) (chars : List Char) :
    split separator chars = chars.splitOn separator := by
  induction chars with
  | nil => rfl
  | cons c rest ih =>
      rw [List.splitOn_cons_eq_if_modifyHead, ← ih, split]
      by_cases same : c = separator
      · simp [same]
      · rw [if_neg same, if_neg (by simpa using same)]
        obtain ⟨first, others, split_eq⟩ := List.exists_cons_of_ne_nil (split_ne_nil separator rest)
        rw [split_eq]
        rfl

variable {separator : Char}

/-- A piece ends at the first separator. -/
theorem split_append_cons {piece : List Char} (absent : separator ∉ piece) (rest : List Char) :
    split separator (piece ++ separator :: rest) = piece :: split separator rest := by
  rw [split_eq_splitOn, split_eq_splitOn, List.splitOn_append_cons_self_of_not_mem absent]

theorem split_of_not_mem {piece : List Char} (absent : separator ∉ piece) :
    split separator piece = [piece] := by
  rw [split_eq_splitOn, List.splitOn_eq_singleton absent]

theorem split_intercalate {pieces : List (List Char)} (absent : ∀ piece ∈ pieces, separator ∉ piece)
    (nonempty : pieces ≠ []) : split separator ([separator].intercalate pieces) = pieces := by
  rw [split_eq_splitOn, List.splitOn_intercalate separator absent nonempty]

theorem intercalate_split (chars : List Char) :
    [separator].intercalate (split separator chars) = chars := by
  rw [split_eq_splitOn, List.intercalate_splitOn]

/-- Joined pieces have no other characters than their own and the separator. -/
theorem not_mem_intercalate {c : Char} (other : c ≠ separator) {pieces : List (List Char)}
    (absent : ∀ piece ∈ pieces, c ∉ piece) : c ∉ [separator].intercalate pieces := by
  induction pieces with
  | nil => exact List.not_mem_nil
  | cons piece pieces ih =>
      obtain ⟨here, later⟩ := List.forall_mem_cons.mp absent
      cases pieces with
      | nil => rwa [List.intercalate_singleton]
      | cons next pieces =>
          rw [List.intercalate_cons_cons, List.mem_append, List.mem_append, List.mem_singleton]
          exact not_or.mpr ⟨not_or.mpr ⟨here, other⟩, ih later⟩

theorem dropReturn_of_not_mem {line : List Char} (absent : '\r' ∉ line) : dropReturn line = line :=
  if_neg fun last => absent (List.mem_of_getLast? last)

/-- What is in front of another character does not end in a carriage return. -/
theorem dropReturn_append_cons {c : Char} (other : c ≠ '\r') (front rest : List Char) :
    dropReturn (front ++ c :: rest) = front ++ c :: dropReturn rest := by
  rw [dropReturn, dropReturn, List.getLast?_append_cons]
  cases rest with
  | nil => simp [other]
  | cons d rest =>
      rw [List.getLast?_cons_cons]
      split
      · rw [List.dropLast_append_of_ne_nil (List.cons_ne_nil _ _), List.dropLast_cons_cons]
      · rfl

/-- Lines that are each ended by a line feed. -/
def unlines (lines : List (List Char)) : List Char :=
  lines.flatMap (· ++ ['\n'])

theorem split_unlines {lines : List (List Char)} (single : ∀ line ∈ lines, '\n' ∉ line) :
    split '\n' (unlines lines) = lines ++ [[]] := by
  induction lines with
  | nil => rfl
  | cons line lines ih =>
      obtain ⟨here, later⟩ := List.forall_mem_cons.mp single
      calc
        split '\n' (unlines (line :: lines)) = split '\n' (line ++ '\n' :: unlines lines) := by
          simp [unlines]
        _ = line :: split '\n' (unlines lines) := split_append_cons here _
        _ = line :: lines ++ [[]] := congrArg (line :: ·) (ih later)

theorem linesOfPieces_append_nil (pieces : List (List Char)) :
    linesOfPieces (pieces ++ [[]]) = pieces.map dropReturn := by
  induction pieces with
  | nil => rfl
  | cons piece pieces ih =>
      obtain ⟨next, others, rest_eq⟩ := List.exists_cons_of_ne_nil
        (List.append_ne_nil_of_right_ne_nil pieces (List.cons_ne_nil [] []))
      rw [rest_eq] at ih
      rw [List.cons_append, rest_eq, linesOfPieces, ih, List.map_cons]
      exact List.cons_ne_nil next others

/-- Lines are read back, each without the carriage return at its end. -/
theorem lines_unlines {lines : List (List Char)} (single : ∀ line ∈ lines, '\n' ∉ line) :
    Text.lines (unlines lines) = lines.map dropReturn := by
  rw [Text.lines, split_unlines single, linesOfPieces_append_nil]

end KotlinMetadata.Text
