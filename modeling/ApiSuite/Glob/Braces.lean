import ApiSuite.Text.Pieces

/-!
Alternatives in braces. The text between the first opening brace and the first closing brace after it
is a list of alternatives with commas between them; each of them in turn takes the place of the braces.
-/

namespace ApiSuite.Glob

def firstGroup? (cs : List Char) : Option (List Char × List Char × List Char) :=
  match cs.dropWhile (· != '\x7b') with
  | [] => none
  | _ :: rest =>
    match rest.dropWhile (· != '\x7d') with
    | [] => none
    | _ :: after => some (cs.takeWhile (· != '\x7b'), rest.takeWhile (· != '\x7d'), after)

theorem length_eq_of_firstGroup? {cs before group after : List Char}
    (h : firstGroup? cs = some (before, group, after)) :
    cs.length = before.length + group.length + after.length + 2 := by
  unfold firstGroup? at h
  split at h
  · cases h
  · rename_i rest hrest
    split at h
    · cases h
    · rename_i hafter
      cases h
      have hcs := congrArg List.length (List.takeWhile_append_dropWhile (p := (· != '\x7b')) (l := cs))
      have hr := congrArg List.length (List.takeWhile_append_dropWhile (p := (· != '\x7d')) (l := rest))
      simp only [hrest, hafter, List.length_append, List.length_cons] at hcs hr
      omega

/-- The patterns without groups that a pattern stands for, the first group varying slowest. -/
def expand (cs : List Char) : List (List Char) :=
  match h : firstGroup? cs with
  | none => [cs]
  | some (before, group, after) =>
    have := length_eq_of_firstGroup? h
    (Text.pieces ',' group).attach.flatMap fun ⟨piece, hpiece⟩ =>
      have := Text.length_le_of_mem_pieces hpiece
      expand (before ++ piece ++ after)
termination_by cs.length
decreasing_by
  simp only [List.length_append]
  omega

end ApiSuite.Glob
