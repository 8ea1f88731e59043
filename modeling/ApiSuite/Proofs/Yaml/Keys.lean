import ApiSuite.Proofs.Parts
import ApiSuite.Yaml.Compose

/-!
# Keys of the mappings in a text

A text in which a mapping repeats a key is not read, so the keys of each mapping that is read differ.
-/

namespace ApiSuite

/-- No two entries have keys that are the same. -/
def Entries.KeysDiffer (entries : Entries) : Prop :=
  entries.Pairwise fun first second => first.1.same second.1 = false

/-- No mapping in the value repeats a key. -/
abbrev Value.KeysDiffer (value : Value) : Prop :=
  value.EachMapping id Entries.KeysDiffer

namespace Yaml

theorem keysDiffer_withTag {name : Option String} {value : Value} (h : value.KeysDiffer) :
    (withTag name value).KeysDiffer := by
  cases name with
  | none => exact h
  | some name => exact Value.eachMapping_tagged_iff.mpr h

theorem Found.keysDiffer_of_value_eq_ok {found : Found} {value : Value}
    (h : found.value = .ok value) : value.KeysDiffer := by
  rintro entries hentries
  cases found <;> cases h <;> cases hentries

namespace Reading

variable {α β : Type} {Q : α → Prop} {R : β → Prop} {document : Document}

/-- Whatever is read satisfies `Q`. -/
def Yields (read : Reading α) (Q : α → Prop) : Prop :=
  ∀ progress a progress', read progress = .ok (a, progress') → Q a

theorem Yields.any (read : Reading α) : Yields read fun _ => True :=
  fun _ _ _ _ => trivial

theorem Yields.pure {a : α} (h : Q a) : Yields (Pure.pure a) Q := by
  intro progress b progress' hread
  cases hread
  exact h

theorem Yields.throw (error : Error) : Yields (MonadExcept.throw error : Reading α) Q := by
  intro progress a progress' hread
  cases hread

theorem Yields.bind {read : Reading α} {next : α → Reading β} (h : Yields read Q)
    (hnext : ∀ a, Q a → Yields (next a) R) : Yields (read >>= next) R := by
  intro progress b progress' hread
  change Except.bind (read progress) _ = _ at hread
  cases hfirst : read progress with
  | error error =>
      rw [hfirst] at hread
      cases hread
  | ok result =>
      rw [hfirst] at hread
      exact hnext result.1 (h progress result.1 result.2 hfirst) result.2 b progress' hread

theorem Yields.map {read : Reading α} {f : α → β} (h : Yields read Q)
    (hf : ∀ a, Q a → R (f a)) : Yields (f <$> read) R := by
  rw [← bind_pure_comp]
  exact h.bind fun a ha => .pure (hf a ha)

theorem orBad_yields {trail : Trail} {mark : Mark} {result : Except BadValue α}
    (h : ∀ a, result = .ok a → Q a) : Yields (orBad trail mark result) Q := by
  cases result with
  | ok a => exact .pure (h a rfl)
  | error cause => exact .throw _

theorem follow_yields {read : Reading α} (anchor : Nat) (h : Yields read Q) :
    Yields (follow document anchor read) Q := by
  refine (Yields.any _).bind fun progress _ => ?_
  have hread (progress' : Progress) : Yields (do
      set progress'
      let a ← read
      modify ({ · with position := progress.position })
      return a) Q :=
    (Yields.any _).bind fun _ _ => h.bind fun a ha =>
      (Yields.any _).bind fun _ _ => .pure ha
  dsimp only
  split
  · exact (Yields.any _).bind fun _ _ => hread _
  · exact hread _

/-- What reading with so much fuel gives. -/
structure Distinct (document : Document) (fuel : Nat) : Prop where
  value : ∀ trail depth tagSeen,
    Yields (value document fuel trail depth tagSeen) Value.KeysDiffer
  items : ∀ trail depth index,
    Yields (items document fuel trail depth index) fun items => (Value.seq items).KeysDiffer
  entries : ∀ trail depth tagSeen mark (before : Entries), (Value.map before.reverse).KeysDiffer →
    Yields (entries document fuel trail depth tagSeen mark before)
      fun entries => (Value.map entries).KeysDiffer

theorem Distinct.zero : Distinct document 0 := by
  constructor
  · intro trail depth tagSeen
    rw [Reading.value]
    exact .throw _
  · intro trail depth index
    rw [Reading.items]
    exact .throw _
  · intro trail depth tagSeen mark before _
    rw [Reading.entries]
    exact .throw _

variable {fuel : Nat}

theorem Distinct.value_succ (h : Distinct document fuel) (trail : Trail) (depth : Nat)
    (tagSeen : Bool) :
    Yields (Reading.value document (fuel + 1) trail depth tagSeen) Value.KeysDiffer := by
  rw [Reading.value]
  refine (Yields.any _).bind fun node _ => ?_
  have hnull : Value.null.KeysDiffer := by
    rintro entries ⟨⟩
  obtain ⟨anchor | ⟨tag, text, style⟩ | tag | _ | tag | _ | _, mark⟩ := node
  · exact follow_yields anchor (h.value trail depth false)
  · refine (Yields.any _).bind fun found _ => .map ?_ fun _ => keysDiffer_withTag
    exact orBad_yields fun value hok => Found.keysDiffer_of_value_eq_ok hok
  · refine (Yields.any _).bind fun depth _ => ?_
    exact ((h.items trail depth 0).map fun _ => id).map fun _ => keysDiffer_withTag
  · exact .pure hnull
  · refine (Yields.any _).bind fun depth _ => ?_
    have hempty : (Value.map List.nil.reverse).KeysDiffer :=
      Value.eachMapping_map_iff.mpr ⟨.nil, List.forall_mem_nil _⟩
    exact ((h.entries trail depth _ mark [] hempty).map fun _ => id).map fun _ => keysDiffer_withTag
  · exact .pure hnull
  · exact .pure hnull

theorem Distinct.items_succ (h : Distinct document fuel) (trail : Trail) (depth index : Nat) :
    Yields (Reading.items document (fuel + 1) trail depth index)
      fun items => (Value.seq items).KeysDiffer := by
  have hempty : (Value.seq []).KeysDiffer :=
    Value.eachMapping_seq_iff.mpr (List.forall_mem_nil _)
  rw [Reading.items]
  refine (Yields.any _).bind fun ended _ => ?_
  split
  · exact (Yields.any _).bind fun _ _ => .pure hempty
  · refine (h.value (.item index :: trail) depth false).bind fun item hitem =>
      (h.items trail depth (index + 1)).bind fun rest hrest => .pure ?_
    exact Value.eachMapping_seq_iff.mpr
      (List.forall_mem_cons.mpr ⟨hitem, Value.eachMapping_seq_iff.mp hrest⟩)

theorem keysDiffer_reverse_cons {before : Entries} {key value : Value}
    (hbefore : (Value.map before.reverse).KeysDiffer)
    (hkey : before.find? (·.1.same key) = none) (hvalue : value.KeysDiffer) :
    (Value.map ((key, value) :: before).reverse).KeysDiffer := by
  obtain ⟨hkeys, hvalues⟩ := Value.eachMapping_map_iff.mp hbefore
  rw [List.reverse_cons, Value.KeysDiffer, Value.eachMapping_map_iff]
  constructor
  · rw [Entries.KeysDiffer, List.pairwise_append]
    refine ⟨hkeys, List.pairwise_singleton _ _, ?_⟩
    intro entry hentry last hlast
    rw [List.mem_singleton.mp hlast]
    simpa using List.find?_eq_none.mp hkey entry (List.mem_reverse.mp hentry)
  · intro entry hentry
    obtain hentry | hentry := List.mem_append.mp hentry
    · exact hvalues entry hentry
    · rw [List.mem_singleton.mp hentry]
      exact hvalue

theorem Distinct.entries_succ (h : Distinct document fuel) (trail : Trail) (depth : Nat)
    (tagSeen : Bool) (mark : Mark) {before : Entries}
    (hbefore : (Value.map before.reverse).KeysDiffer) :
    Yields (Reading.entries document (fuel + 1) trail depth tagSeen mark before)
      fun entries => (Value.map entries).KeysDiffer := by
  rw [Reading.entries]
  refine (Yields.any _).bind fun ended _ => ?_
  split
  · exact (Yields.any _).bind fun _ _ => .pure hbefore
  · refine (Yields.any _).bind fun step _ => (Yields.any _).bind fun key _ => ?_
    split
    next => exact .throw _
    next hkey =>
      exact (h.value (step :: trail) depth false).bind fun value hvalue =>
        h.entries trail depth tagSeen mark _ (keysDiffer_reverse_cons hbefore hkey hvalue)

/-- Every reader calls the others with less fuel, so the three are shown together. -/
theorem distinct (document : Document) (fuel : Nat) : Distinct document fuel := by
  induction fuel with
  | zero => exact .zero
  | succ fuel ih =>
      exact ⟨ih.value_succ, ih.items_succ, fun trail depth tagSeen mark _ =>
        ih.entries_succ trail depth tagSeen mark⟩

end Reading

theorem keysDiffer_of_compose {bytes : List UInt8} {value : Value}
    (h : compose bytes = .ok value) : value.KeysDiffer := by
  unfold compose Document.readAll at h
  dsimp only at h
  split at h
  case h_1 => cases h
  case h_2 => cases h
  case h_3 hread _ =>
    split at h
    · cases h
    · obtain rfl := Except.ok.inj h
      exact (Reading.distinct _ _).value [] depthLimit false _ _ _ hread

end Yaml

end ApiSuite
