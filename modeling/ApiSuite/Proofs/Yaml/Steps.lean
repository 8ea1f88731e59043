import ApiSuite.Yaml.Reading

/-!
# Steps of reading

What each step of reading does when it succeeds: which part of the document it looks at, and where
reading stands afterwards.
-/

namespace ApiSuite.Yaml

/-- What stands at a place of a document. Past the end stands nothing. -/
def Document.partAt (document : Document) (place : Nat) : Part :=
  (document.parts[place]?.map (·.1)).getD .absent

theorem Document.partAt_of_size_le {document : Document} {place : Nat}
    (h : document.parts.size ≤ place) : document.partAt place = .absent := by
  rw [partAt, Array.getElem?_eq_none h]
  rfl

theorem Document.lt_size_of_partAt_ne_absent {document : Document} {place : Nat}
    (h : document.partAt place ≠ .absent) : place < document.parts.size :=
  Nat.lt_of_not_le fun hpast => h (partAt_of_size_le hpast)

/-- The place to read for a place: for an alias, that of its anchor. -/
def Document.targetOf (document : Document) (place : Nat) : Nat :=
  match document.partAt place with
  | .alias anchor => (document.anchor? anchor).getD (place + 1)
  | _ => place

def Part.IsEnd (part : Part) : Prop :=
  part = .sequenceEnd ∨ part = .mappingEnd ∨ part = .absent

namespace Reading

variable {α β : Type} {document : Document} {progress progress' : Progress}

theorem exists_of_bind {read : Reading α} {next : α → Reading β} {b : β}
    (h : (read >>= next) progress = .ok (b, progress')) :
    ∃ a between, read progress = .ok (a, between) ∧ next a between = .ok (b, progress') := by
  change Except.bind (read progress) _ = _ at h
  cases hfirst : read progress with
  | error error =>
      rw [hfirst] at h
      cases h
  | ok result =>
      rw [hfirst] at h
      exact ⟨result.1, result.2, rfl, h⟩

theorem exists_of_map {read : Reading α} {f : α → β} {b : β}
    (h : (f <$> read) progress = .ok (b, progress')) :
    ∃ a, read progress = .ok (a, progress') ∧ f a = b := by
  rw [← bind_pure_comp] at h
  obtain ⟨a, between, hread, hpure⟩ := exists_of_bind h
  cases hpure
  exact ⟨a, hread, rfl⟩

theorem of_peek {found : Part × Mark} (h : peek document progress = .ok (found, progress')) :
    found.1 = document.partAt progress.position ∧ progress' = progress := by
  obtain ⟨here, between, hget, hpart⟩ := exists_of_bind h
  cases hget
  rw [Document.partAt]
  cases hfound : document.parts[progress.position]? with
  | some part =>
      rw [hfound] at hpart
      cases hpart
      exact ⟨rfl, rfl⟩
  | none =>
      rw [hfound] at hpart
      cases herror : document.error with
      | some error =>
          rw [herror] at hpart
          cases hpart
      | none =>
          rw [herror] at hpart
          cases hpart
          exact ⟨rfl, rfl⟩

theorem of_next {found : Part × Mark} (h : next document progress = .ok (found, progress')) :
    found.1 = document.partAt progress.position ∧ progress'.position = progress.position + 1 := by
  obtain ⟨part, between, hpeek, hskip⟩ := exists_of_bind h
  obtain ⟨hpart, rfl⟩ := of_peek hpeek
  cases hskip
  exact ⟨hpart, rfl⟩

theorem of_follow {read : Reading α} {anchor : Nat} {a : α}
    (h : follow document anchor read progress = .ok (a, progress')) :
    ∃ start finish, start.position = (document.anchor? anchor).getD progress.position
      ∧ read start = .ok (a, finish) ∧ progress'.position = progress.position := by
  obtain ⟨here, between, hget, hlimit⟩ := exists_of_bind h
  cases hget
  dsimp only at hlimit
  split at hlimit
  · obtain ⟨_, _, hthrow, _⟩ := exists_of_bind hlimit
    cases hthrow
  · obtain ⟨_, start, hset, hrest⟩ := exists_of_bind hlimit
    cases hset
    obtain ⟨a', finish, hread, hback⟩ := exists_of_bind hrest
    cases hback
    exact ⟨_, finish, rfl, hread, rfl⟩

theorem of_orBad {trail : Trail} {mark : Mark} {result : Except BadValue α} {a : α}
    (h : orBad trail mark result progress = .ok (a, progress')) :
    result = .ok a ∧ progress' = progress := by
  cases result with
  | ok b =>
      cases h
      exact ⟨rfl, rfl⟩
  | error cause => cases h

theorem of_descend {mark : Mark} {depth inner : Nat}
    (h : descend mark depth progress = .ok (inner, progress')) : progress' = progress := by
  cases depth with
  | zero => cases h
  | succ depth =>
      cases h
      rfl

theorem of_atEnd {ends : Bool} (h : atEnd document progress = .ok (ends, progress')) :
    (ends = true ↔ (document.partAt progress.position).IsEnd) ∧ progress' = progress := by
  obtain ⟨⟨part, mark⟩, between, hpeek, hends⟩ := exists_of_bind h
  obtain ⟨hpart, rfl⟩ := of_peek hpeek
  rw [← hpart]
  cases part <;> cases hends <;> simp [Part.IsEnd]

theorem of_keyStep {step : Step} (h : keyStep document progress = .ok (step, progress')) :
    progress' = progress := by
  obtain ⟨⟨part, mark⟩, between, hpeek, hstep⟩ := exists_of_bind h
  obtain ⟨-, rfl⟩ := of_peek hpeek
  cases part <;> cases hstep <;> rfl

theorem exists_of_readAll {bytes : List UInt8} {read : Document → Reading α} {a : α}
    (h : Document.readAll bytes read = .ok a) :
    ∃ progress, read (Document.ofBytes bytes).1 ⟨0, 0⟩ = .ok (a, progress) := by
  unfold Document.readAll at h
  dsimp only at h
  split at h
  case h_1 => cases h
  case h_2 => cases h
  case h_3 progress hread _ =>
    split at h
    · cases h
    · cases h
      exact ⟨progress, hread⟩

end Reading

end ApiSuite.Yaml
