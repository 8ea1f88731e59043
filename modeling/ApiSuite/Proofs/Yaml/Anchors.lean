import ApiSuite.Proofs.Yaml.Steps

/-!
# Where aliases lead

Every alias in a document has an anchor, and what stands there is a node of its own and no alias. Where
a name is given again its number stays or goes on to a later anchor, but an anchor it always has.
-/

namespace ApiSuite.Yaml.Document

variable {document : Document} {part : Part} {mark : Mark} {number : Nat} {names : Names}

/-- The anchor with a number stands before a part that is no alias. -/
def Anchors (document : Document) (number : Nat) : Prop :=
  ∃ target, document.anchor? number = some target ∧ target < document.parts.size
    ∧ ∀ anchor, document.partAt target ≠ .alias anchor

/-- Every alias leads to an anchor. -/
def WellAnchored (document : Document) : Prop :=
  ∀ place number, document.partAt place = .alias number → document.Anchors number

theorem partAt_push (place : Nat) : (document.push part mark).partAt place =
    if place = document.parts.size then part else document.partAt place := by
  rw [partAt, push, Array.getElem?_push]
  split
  · rfl
  · rfl

theorem partAt_push_of_lt {place : Nat} (h : place < document.parts.size) :
    (document.push part mark).partAt place = document.partAt place := by
  rw [partAt_push, if_neg (Nat.ne_of_lt h)]

theorem Anchors.push (h : document.Anchors number) : (document.push part mark).Anchors number := by
  obtain ⟨target, hanchor, hlt, hnode⟩ := h
  refine ⟨target, hanchor, ?_, ?_⟩
  · simp only [Document.push, Array.size_push]
    omega
  · rwa [partAt_push_of_lt hlt]

/-! ### Names -/

variable {name : String}

theorem parts_nameNext (anchor : Option String) :
    (document.nameNext names anchor).1.parts = document.parts := by
  cases anchor <;> rfl

theorem partAt_nameNext (anchor : Option String) (place : Nat) :
    (document.nameNext names anchor).1.partAt place = document.partAt place := by
  rw [partAt, parts_nameNext, partAt]

theorem anchors_nameNext_length (hpart : ∀ number, part ≠ .alias number) :
    ((document.nameNext names (some name)).1.push part mark).Anchors names.length := by
  refine ⟨document.parts.size, ?_, ?_, ?_⟩
  · simp [nameNext, push, anchor?]
  · simp [nameNext, push]
  · intro anchor
    rw [partAt_push, parts_nameNext, if_pos rfl]
    exact hpart anchor

theorem Anchors.nameNext (anchor : Option String) (hpart : ∀ number, part ≠ .alias number)
    (h : document.Anchors number) :
    ((document.nameNext names anchor).1.push part mark).Anchors number := by
  cases anchor with
  | none => exact h.push
  | some name =>
      by_cases hnew : number = names.length
      · rw [hnew]
        exact anchors_nameNext_length hpart
      · obtain ⟨target, hanchor, hlt, hnode⟩ := h
        refine Anchors.push ⟨target, ?_, hlt, hnode⟩
        rw [anchor?, Document.nameNext, List.lookup_cons, beq_eq_false_iff_ne.mpr hnew]
        exact hanchor

/-! ### Loading -/

/-- What holds while events are read: aliases and names lead to anchors. -/
structure Anchored (document : Document) (names : Names) : Prop where
  aliases : document.WellAnchored
  names : ∀ entry ∈ names, document.Anchors entry.2

theorem anchored_empty : empty.Anchored [] where
  aliases := by
    intro place number hplace
    rw [partAt_of_size_le (Nat.zero_le place)] at hplace
    cases hplace
  names := List.forall_mem_nil _

theorem Anchored.lookup (h : document.Anchored names) (hname : names.lookup name = some number) :
    document.Anchors number := by
  obtain ⟨before, after, rfl, -⟩ := List.lookup_eq_some_iff.mp hname
  exact h.names (name, number) (by simp)

theorem Anchored.push (h : document.Anchored names)
    (hpart : ∀ number, part = .alias number → document.Anchors number) :
    (document.push part mark).Anchored names where
  aliases := by
    intro place number hplace
    rw [partAt_push] at hplace
    split at hplace
    · exact (hpart number hplace).push
    · exact (h.aliases place number hplace).push
  names := fun entry hentry => (h.names entry hentry).push

theorem Anchored.nameNext (anchor : Option String) (h : document.Anchored names)
    (hpart : ∀ number, part ≠ .alias number) :
    ((document.nameNext names anchor).1.push part mark).Anchored
      (document.nameNext names anchor).2 where
  aliases := by
    intro place number hplace
    rw [partAt_push, partAt_nameNext] at hplace
    split at hplace
    · exact absurd hplace (hpart number)
    · exact (h.aliases place number hplace).nameNext anchor hpart
  names := by
    intro entry hentry
    cases anchor with
    | none => exact (h.names entry hentry).push
    | some name =>
        obtain rfl | hentry := List.mem_cons.mp hentry
        · exact anchors_nameNext_length hpart
        · exact (h.names entry (List.mem_filter.mp hentry).1).nameNext _ hpart

theorem Anchored.load {error : Option TextError} {events : List (Event × Mark)}
    (h : document.Anchored names) : (document.load names error events).1.WellAnchored := by
  induction events generalizing document names with
  | nil => exact h.aliases
  | cons head rest ih =>
      obtain ⟨event, mark⟩ := head
      cases event with
      | streamStart | documentStart => exact ih h
      | documentEnd => exact h.aliases
      | streamEnd =>
          have hpush : (document.push .absent mark).Anchored names := h.push nofun
          rw [Document.load]
          split
          · exact hpush.aliases
          · exact h.aliases
      | «alias» name =>
          rw [Document.load]
          cases hname : names.lookup name with
          | none => exact h.aliases
          | some number =>
              apply ih
              apply h.push
              rintro _ ⟨⟩
              exact h.lookup hname
      | sequenceEnd | mappingEnd => exact ih (h.push nofun)
      | scalar properties | sequenceStart properties | mappingStart properties =>
          exact ih (h.nameNext properties.anchor nofun)

theorem wellAnchored_ofBytes (bytes : List UInt8) : (ofBytes bytes).1.WellAnchored :=
  anchored_empty.load

end ApiSuite.Yaml.Document
