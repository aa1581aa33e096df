import LinkedSchema.Text.Split
import Mathlib.Tactic.Common

/-!
# Cutting and joining

`Text.split` is the inverse of joining with the separator: pieces without the separator come back
when the joined text is cut (`split_intercalate`).
-/

namespace LinkedSchema.Text

variable {separator : Char}

/-- There is always a piece. -/
theorem splitAt_ne_nil (separator : Char) (text : List Char) : splitAt separator text ≠ [] := by
  cases text with
  | nil => simp [splitAt]
  | cons c rest =>
    unfold splitAt
    split
    · simp
    · split <;> simp

/-- A text without the separator is one piece. -/
theorem splitAt_of_notMem {text : List Char} (h : separator ∉ text) :
    splitAt separator text = [text] := by
  induction text with
  | nil => rfl
  | cons c rest ih =>
    rw [List.mem_cons, not_or] at h
    rw [splitAt, if_neg (Ne.symm h.1), ih h.2]

/-- The pieces on both sides of a separator. -/
theorem splitAt_append (before after : List Char) :
    splitAt separator (before ++ separator :: after) =
      splitAt separator before ++ splitAt separator after := by
  induction before with
  | nil => simp [splitAt]
  | cons c rest ih =>
    rw [List.cons_append, splitAt, splitAt]
    split
    · rw [ih]
      rfl
    · rw [ih]
      cases hs : splitAt separator rest with
      | nil => exact absurd hs (splitAt_ne_nil separator rest)
      | cons piece pieces => rfl

/-- No piece holds the separator. -/
theorem notMem_of_mem_splitAt {text piece : List Char} (h : piece ∈ splitAt separator text) :
    separator ∉ piece := by
  induction text generalizing piece with
  | nil =>
    rw [splitAt, List.mem_singleton] at h
    simp [h]
  | cons c rest ih =>
    rw [splitAt] at h
    split at h
    · rcases List.mem_cons.mp h with rfl | h
      · simp
      · exact ih h
    · next hc =>
      cases hs : splitAt separator rest with
      | nil => exact absurd hs (splitAt_ne_nil separator rest)
      | cons first pieces =>
        rw [hs] at h ih
        rcases List.mem_cons.mp h with rfl | h
        · have hfirst := ih (List.mem_cons_self ..)
          simp [hfirst, Ne.symm hc]
        · exact ih (List.mem_cons_of_mem _ h)

/-- A string is cut at the separators. -/
theorem split_append (before after : String) :
    split '/' (before ++ "/" ++ after) = split '/' before ++ split '/' after := by
  have h : (before ++ "/" ++ after).toList = before.toList ++ '/' :: after.toList := by
    simp [String.toList_append]
  rw [split, h, splitAt_append, List.map_append]
  rfl

/-- A string without the separator is one piece. -/
theorem split_of_notMem {s : String} (h : separator ∉ s.toList) : split separator s = [s] := by
  rw [split, splitAt_of_notMem h]
  simp

/-- Pieces without the separator come back when they are joined and cut. -/
theorem split_intercalate {pieces : List String} (hne : pieces ≠ [])
    (h : ∀ piece ∈ pieces, '/' ∉ piece.toList) :
    split '/' (String.intercalate "/" pieces) = pieces := by
  induction pieces with
  | nil => exact absurd rfl hne
  | cons piece rest ih =>
    obtain ⟨hpiece, hrest⟩ := List.forall_mem_cons.mp h
    cases rest with
    | nil => rw [String.intercalate_singleton, split_of_notMem hpiece]
    | cons next others =>
      rw [String.intercalate_cons_cons, split_append, split_of_notMem hpiece,
        ih (List.cons_ne_nil _ _) hrest]
      rfl

/-- No piece of a cut string holds the separator. -/
theorem notMem_of_mem_split {s piece : String} (h : piece ∈ split separator s) :
    separator ∉ piece.toList := by
  obtain ⟨cs, hcs, rfl⟩ := List.mem_map.mp h
  rw [String.toList_ofList]
  exact notMem_of_mem_splitAt hcs

end LinkedSchema.Text
