/-!
Text cut at every occurrence of a character.
-/

namespace ApiSuite.Text

/-- The stretches between the marks, one more than there are marks. -/
def pieces (mark : Char) : List Char → List (List Char)
  | [] => [[]]
  | c :: rest =>
    if c = mark then [] :: pieces mark rest else (pieces mark rest).modifyHead (c :: ·)

theorem pieces_ne_nil (mark : Char) (cs : List Char) : pieces mark cs ≠ [] := by
  induction cs with
  | nil => exact List.cons_ne_nil _ _
  | cons c rest ih =>
    unfold pieces
    split
    · exact List.cons_ne_nil _ _
    · simpa using ih

theorem length_le_of_mem_pieces {mark : Char} {cs piece : List Char} (h : piece ∈ pieces mark cs) :
    piece.length ≤ cs.length := by
  induction cs generalizing piece with
  | nil => exact Nat.le_of_eq (congrArg List.length (List.mem_singleton.1 h))
  | cons c rest ih =>
    unfold pieces at h
    split at h
    · rcases List.mem_cons.1 h with rfl | h
      · exact Nat.zero_le _
      · exact Nat.le_succ_of_le (ih h)
    · obtain ⟨first, others, hpieces⟩ := List.exists_cons_of_ne_nil (pieces_ne_nil mark rest)
      rw [hpieces] at h ih
      rcases List.mem_cons.1 h with rfl | h
      · exact Nat.succ_le_succ (ih List.mem_cons_self)
      · exact Nat.le_succ_of_le (ih (List.mem_cons_of_mem _ h))

end ApiSuite.Text
