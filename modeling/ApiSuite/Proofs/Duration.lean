import ApiSuite.Duration

/-!
# Reading durations

A text reads as a list of groups exactly when the groups, written one after the other, give the text
back. So a duration has one reading, and a text that no groups spell has none.
-/

namespace ApiSuite.Duration

def Group.text (group : Group) : List Char :=
  group.digits ++ group.unit.text

/-- A group that a duration may hold: a number of at least one digit, then its unit. -/
def Group.Proper (group : Group) : Prop :=
  group.digits ≠ [] ∧ ∀ c ∈ group.digits, Text.isDigit c = true

/-- The groups are written in this text, one after the other and with nothing else. -/
def Spells (groups : List Group) (text : List Char) : Prop :=
  groups ≠ [] ∧ (∀ group ∈ groups, group.Proper) ∧ groups.flatMap Group.text = text

theorem ofChar?_eq_some {c : Char} {unit : Scale} (h : Scale.ofChar? c = some unit) :
    unit.text = [c] := by
  unfold Scale.ofChar? at h
  split at h <;> cases h <;> rfl

theorem closeGroup_eq_some {digits : List Char} {unit : Scale} {groups result : List Group} :
    closeGroup digits unit groups = some result ↔
      digits ≠ [] ∧ result = ⟨digits.reverse, unit⟩ :: groups := by
  unfold closeGroup
  split
  case isTrue hempty => simp [List.isEmpty_iff.mp hempty]
  case isFalse hne =>
    rw [List.isEmpty_iff] at hne
    simp [hne, eq_comm]

theorem flatMap_text_of_closeGroup {digits rest : List Char} {unit : Scale}
    {later groups : List Group} (hdigits : ∀ c ∈ digits, Text.isDigit c = true)
    (hproper : ∀ group ∈ later, group.Proper) (htext : later.flatMap Group.text = rest)
    (hclosed : closeGroup digits unit later = some groups) :
    (∀ group ∈ groups, group.Proper)
      ∧ groups.flatMap Group.text = digits.reverse ++ (unit.text ++ rest) := by
  obtain ⟨hne, rfl⟩ := closeGroup_eq_some.mp hclosed
  refine ⟨?_, by simp [Group.text, htext]⟩
  intro group hgroup
  rcases List.mem_cons.mp hgroup with rfl | hgroup
  · exact ⟨by simpa using hne, fun c hc => hdigits c (List.mem_reverse.mp hc)⟩
  · exact hproper group hgroup

/-- What is read accounts for the digits of the open group and for every character after them. -/
theorem flatMap_text_of_readGroups? {digits text : List Char} {groups : List Group}
    (hdigits : ∀ c ∈ digits, Text.isDigit c = true)
    (hread : readGroups? digits text = some groups) :
    (∀ group ∈ groups, group.Proper) ∧ groups.flatMap Group.text = digits.reverse ++ text := by
  fun_induction readGroups? digits text generalizing groups with
  | case1 digits hempty =>
      cases hread
      simp [List.isEmpty_iff.mp hempty]
  | case2 digits hne => cases hread
  | case3 digits rest ih =>
      obtain ⟨later, hlater, hclosed⟩ := Option.bind_eq_some_iff.mp hread
      obtain ⟨hproper, htext⟩ := ih (by simp) hlater
      exact flatMap_text_of_closeGroup hdigits hproper htext hclosed
  | case4 digits c rest hnot hdigit ih =>
      have hopen : ∀ d ∈ c :: digits, Text.isDigit d = true := by
        simpa [hdigit] using hdigits
      simpa using ih hopen hread
  | case5 digits c rest hnot hdigit ih =>
      obtain ⟨unit, hunit, hread⟩ := Option.bind_eq_some_iff.mp hread
      obtain ⟨later, hlater, hclosed⟩ := Option.bind_eq_some_iff.mp hread
      obtain ⟨hproper, htext⟩ := ih (by simp) hlater
      simpa [ofChar?_eq_some hunit] using
        flatMap_text_of_closeGroup hdigits hproper htext hclosed

theorem readGroups?_append_digits {digits opened rest : List Char}
    (hdigits : ∀ c ∈ digits, Text.isDigit c = true) :
    readGroups? opened (digits ++ rest) = readGroups? (digits.reverse ++ opened) rest := by
  induction digits generalizing opened with
  | nil => rfl
  | cons c digits ih =>
      have hc : Text.isDigit c = true := hdigits c List.mem_cons_self
      have hm : c ≠ 'm' := by
        rintro rfl
        exact absurd hc (by decide)
      rw [List.cons_append, readGroups?.eq_def]
      simp [hm, hc, ih fun d hd => hdigits d (List.mem_cons_of_mem c hd)]

/-- A unit ends the open group. The unit `m` does so only where no `s` follows. -/
theorem readGroups?_unit_append {opened rest : List Char} {unit : Scale}
    (hrest : ∀ c ∈ rest.head?, Text.isDigit c = true) :
    readGroups? opened (unit.text ++ rest) = readGroups? [] rest >>= closeGroup opened unit := by
  cases unit with
  | milliseconds => rfl
  | seconds => rfl
  | hours => rfl
  | minutes =>
      cases rest with
      | nil => rfl
      | cons c rest =>
          have hs : c ≠ 's' := by
            rintro rfl
            exact absurd (hrest 's' rfl) (by decide)
          have hm : Text.isDigit 'm' = false := by decide
          change readGroups? opened ('m' :: c :: rest) = _
          rw [readGroups?.eq_def]
          simp [hs, hm, Scale.ofChar?]

theorem isDigit_head_flatMap_text {groups : List Group}
    (hproper : ∀ group ∈ groups, group.Proper) :
    ∀ c ∈ (groups.flatMap Group.text).head?, Text.isDigit c = true := by
  intro c hc
  cases groups with
  | nil => simp at hc
  | cons group groups =>
      obtain ⟨hne, hdigits⟩ := hproper group List.mem_cons_self
      obtain ⟨first, digits, hsplit⟩ := List.exists_cons_of_ne_nil hne
      refine hdigits c ?_
      simp_all [Group.text]

theorem readGroups?_flatMap_text {groups : List Group} (hproper : ∀ group ∈ groups, group.Proper) :
    readGroups? [] (groups.flatMap Group.text) = some groups := by
  induction groups with
  | nil => rfl
  | cons group groups ih =>
      have hlater : ∀ group ∈ groups, group.Proper := fun later hmem =>
        hproper later (List.mem_cons_of_mem group hmem)
      obtain ⟨hne, hdigits⟩ := hproper group List.mem_cons_self
      rw [List.flatMap_cons, Group.text, List.append_assoc, readGroups?_append_digits hdigits,
        readGroups?_unit_append (isDigit_head_flatMap_text hlater), ih hlater]
      exact closeGroup_eq_some.mpr ⟨by simpa using hne, by simp⟩

theorem groups?_eq_some_iff {text : List Char} {groups : List Group} :
    groups? text = some groups ↔ Spells groups text := by
  rw [groups?, Option.filter_eq_some_iff]
  constructor
  · rintro ⟨hread, hne⟩
    obtain ⟨hproper, htext⟩ := flatMap_text_of_readGroups? (by simp) hread
    exact ⟨by simpa using hne, hproper, by simpa using htext⟩
  · rintro ⟨hne, hproper, rfl⟩
    exact ⟨readGroups?_flatMap_text hproper, by simpa using hne⟩

end ApiSuite.Duration

namespace ApiSuite

theorem isDuration_iff {s : String} :
    isDuration s = true ↔ ∃ groups, Duration.Spells groups s.toList := by
  simp only [isDuration, Option.isSome_iff_exists, Duration.groups?_eq_some_iff]

end ApiSuite
