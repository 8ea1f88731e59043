import ApiSuite.Text.Quoted
import Mathlib.Data.List.Infix

/-!
# Words in texts

When a word stands in a text that is put together from parts. A part that the word can neither
begin nor end in may be left out, and so may the quotation marks around a part and the escapes in
it, for a word without characters that are escaped. Whether a word begins or ends in a fixed part is
computed.
-/

namespace ApiSuite.Text

/-- The word stands somewhere in the text. -/
def Contains (s word : String) : Prop :=
  word.toList <:+: s.toList

/-- The word does not begin in this part, whatever follows it. -/
def Leads (word s : String) : Prop :=
  ∀ t, Contains (s ++ t) word → Contains t word

/-- The word does not end in this part, whatever comes before it. -/
def Trails (word s : String) : Prop :=
  ∀ t, Contains (t ++ s) word → Contains t word

variable {word s t : String} {c : Char}

theorem Contains.append_left (h : Contains s word) (t : String) : Contains (s ++ t) word := by
  rw [Contains, String.toList_append]
  exact h.trans (List.prefix_append _ _).isInfix

theorem Contains.append_right (h : Contains t word) (s : String) : Contains (s ++ t) word := by
  rw [Contains, String.toList_append]
  exact h.trans (List.suffix_append _ _).isInfix

theorem Leads.contains_append_iff (h : Leads word s) : Contains (s ++ t) word ↔ Contains t word :=
  ⟨h t, fun h => h.append_right s⟩

theorem Trails.contains_append_iff (h : Trails word t) : Contains (s ++ t) word ↔ Contains s word :=
  ⟨h s, fun h => h.append_left t⟩

theorem Trails.append (h : Trails word s) (h' : Trails word t) : Trails word (s ++ t) := by
  intro rest hrest
  rw [← String.append_assoc] at hrest
  exact h rest (h' _ hrest)

/-- A word that does not begin at the end of a part does not begin in it. -/
theorem leads_of_tails (h : ∀ back ∈ s.toList.tails, back ≠ [] →
    ¬ back <+: word.toList ∧ ¬ word.toList <+: back) : Leads word s := by
  rintro t ⟨before, after, hsplit⟩
  rw [String.toList_append, List.append_assoc] at hsplit
  obtain ⟨back, hs, hrest⟩ | ⟨front, -, hrest⟩ := List.append_eq_append_iff.mp hsplit
  · by_cases hback : back = []
    · subst hback
      exact ⟨[], after, hrest⟩
    · have hcommon : back <+: word.toList ++ after := ⟨t.toList, hrest.symm⟩
      have hword : word.toList <+: word.toList ++ after := List.prefix_append _ _
      have hparts := h back ((List.mem_tails _ _).mpr ⟨before, hs.symm⟩) hback
      obtain hstarts | hstarts := List.prefix_or_prefix_of_prefix hcommon hword
      · exact absurd hstarts hparts.1
      · exact absurd hstarts hparts.2
  · exact ⟨front, after, by rw [hrest, List.append_assoc]⟩

/-- A word that does not end at the start of a part does not end in it. -/
theorem trails_of_inits (h : ∀ front ∈ s.toList.inits, front ≠ [] →
    ¬ front <:+ word.toList ∧ ¬ word.toList <:+ front) : Trails word s := by
  rintro t ⟨before, after, hsplit⟩
  rw [String.toList_append] at hsplit
  obtain ⟨rest, ht, -⟩ | ⟨front, hrest, hs⟩ := List.append_eq_append_iff.mp hsplit
  · exact ⟨before, rest, ht.symm⟩
  · by_cases hfront : front = []
    · subst hfront
      exact ⟨before, [], by simpa using hrest⟩
    · have hcommon : front <:+ before ++ word.toList := ⟨t.toList, hrest.symm⟩
      have hword : word.toList <:+ before ++ word.toList := List.suffix_append _ _
      have hparts := h front ((List.mem_inits _ _).mpr ⟨after, hs.symm⟩) hfront
      obtain hends | hends := List.suffix_or_suffix_of_suffix hcommon hword
      · exact absurd hends hparts.1
      · exact absurd hends hparts.2

theorem leads_of_head (hhead : word.toList.head? = some c) (hc : c ∉ s.toList) :
    Leads word s := by
  refine leads_of_tails fun back hback hne => ⟨fun hstarts => ?_, fun hstarts => ?_⟩
  all_goals
    have hends : back <:+ s.toList := (List.mem_tails _ _).mp hback
    refine hc (hends.subset ?_)
  · obtain ⟨after, hword⟩ := hstarts
    rw [← hword, List.head?_append_of_ne_nil _ hne] at hhead
    exact List.mem_of_head? hhead
  · exact hstarts.subset (List.mem_of_head? hhead)

theorem trails_of_getLast (hlast : word.toList.getLast? = some c) (hc : c ∉ s.toList) :
    Trails word s := by
  refine trails_of_inits fun front hfront hne => ⟨fun hends => ?_, fun hends => ?_⟩
  all_goals
    have hstarts : front <+: s.toList := (List.mem_inits _ _).mp hfront
    refine hc (hstarts.subset ?_)
  · obtain ⟨before, hword⟩ := hends
    rw [← hword, List.getLast?_append_of_ne_nil _ hne] at hlast
    exact List.mem_of_getLast? hlast
  · exact hends.subset (List.mem_of_getLast? hlast)

theorem contains_append_iff_of_head (hhead : t.toList.head? = some c) (hc : c ∉ word.toList) :
    Contains (s ++ t) word ↔ Contains s word ∨ Contains t word := by
  refine ⟨?_, Or.rec (·.append_left t) (·.append_right s)⟩
  rintro ⟨before, after, hsplit⟩
  rw [String.toList_append] at hsplit
  obtain ⟨rest, hs, -⟩ | ⟨front, hrest, ht⟩ := List.append_eq_append_iff.mp hsplit
  · exact .inl ⟨before, rest, hs.symm⟩
  · obtain ⟨back, -, hword⟩ | ⟨between, -, hfront⟩ := List.append_eq_append_iff.mp hrest
    · cases front with
      | nil => exact .inl ⟨before, [], by simpa using hrest⟩
      | cons d front =>
        obtain rfl : d = c := by simpa [ht] using hhead
        exact absurd (by simp [hword]) hc
    · exact .inr ⟨between, after, by rw [ht, hfront]⟩

/-! ### Fixed texts

A literal unfolds to the list of its characters, on which the criteria are quickly computed.
-/

theorem not_contains_ofList {chars part : List Char} (h : ¬ chars <:+: part) :
    ¬ Contains (String.ofList part) (String.ofList chars) := by
  rwa [Contains, String.toList_ofList, String.toList_ofList]

theorem leads_ofList {chars part : List Char}
    (h : ∀ back ∈ part.tails, back ≠ [] → ¬ back <+: chars ∧ ¬ chars <+: back) :
    Leads (String.ofList chars) (String.ofList part) :=
  leads_of_tails (by simpa only [String.toList_ofList] using h)

theorem trails_ofList {chars part : List Char}
    (h : ∀ front ∈ part.inits, front ≠ [] → ¬ front <:+ chars ∧ ¬ chars <:+ front) :
    Trails (String.ofList chars) (String.ofList part) :=
  trails_of_inits (by simpa only [String.toList_ofList] using h)

/-! ### Between quotation marks -/

theorem quoteChar_eq_or (c : Char) : quoteChar c = [c] ∨ ∃ rest, quoteChar c = '\\' :: rest := by
  grind [quoteChar]

theorem mem_hex {n : Nat} (h : c ∈ hex n) : c ∈ "0123456789abcdef".toList := by
  have hdigit : ∀ n < 16, n.digitChar ∈ "0123456789abcdef".toList := by decide +kernel
  induction n using Nat.strongRecOn with
  | ind n ih =>
    rw [hex, Nat.toDigits_eq_if (by decide)] at h
    split at h
    next hn => exact List.mem_singleton.mp h ▸ hdigit n hn
    next hn =>
      obtain h | h := List.mem_append.mp h
      · exact ih (n / 16) (by omega) h
      · exact List.mem_singleton.mp h ▸ hdigit (n % 16) (Nat.mod_lt n (by decide))

def escapeChars : List Char :=
  ['\\', '"', 'n', 'r', 't', '0', 'u', '\x7b', '\x7d'] ++ "0123456789abcdef".toList

theorem mem_escapeChars {d : Char} (hd : quoteChar d ≠ [d]) (h : c ∈ quoteChar d) :
    c ∈ escapeChars := by
  refine List.mem_append.mpr (Or.imp_right mem_hex (?_ : c ∈ _ ∨ c ∈ hex d.toNat))
  unfold quoteChar at h hd
  split_ifs at h hd
  all_goals grind

variable {chars : List Char}

theorem prefix_of_prefix_quoted {start : List Char} (hstart : ∀ c ∈ start, quoteChar c = [c])
    (h : start <+: chars.flatMap quoteChar ++ ['"']) : start <+: chars := by
  induction chars generalizing start with
  | nil =>
    cases start with
    | nil => exact List.nil_prefix
    | cons c start =>
      obtain ⟨rfl, -⟩ := List.cons_prefix_cons.mp h
      exact absurd (hstart '"' List.mem_cons_self) (by decide)
  | cons d chars ih =>
    cases start with
    | nil => exact List.nil_prefix
    | cons c start =>
      rw [List.flatMap_cons, List.append_assoc] at h
      obtain hd | ⟨rest, hd⟩ := quoteChar_eq_or d
      · rw [hd] at h
        obtain ⟨rfl, hrest⟩ := List.cons_prefix_cons.mp h
        exact List.cons_prefix_cons.mpr ⟨rfl, ih (fun c hc => hstart c (.tail _ hc)) hrest⟩
      · rw [hd] at h
        obtain ⟨rfl, -⟩ := List.cons_prefix_cons.mp h
        exact absurd (hstart '\\' List.mem_cons_self) (by decide)

theorem infix_of_infix_quoted (hword : ∀ c ∈ word.toList, quoteChar c = [c])
    (hhead : word.toList.head? = some c) (hc : c ∉ escapeChars)
    (h : word.toList <:+: chars.flatMap quoteChar ++ ['"']) : word.toList <:+: chars := by
  have hskip {front back : List Char} (hfront : c ∉ front) (h : word.toList <:+: front ++ back) :
      word.toList <:+: back := by
    have hleads : Leads word (String.ofList front) := leads_of_head hhead (by simpa using hfront)
    simpa [Contains] using hleads (String.ofList back) (by simpa [Contains] using h)
  induction chars with
  | nil =>
    have hquote : c ∉ ['"'] := fun h => hc (List.mem_singleton.mp h ▸ by decide)
    exact hskip hquote h
  | cons d chars ih =>
    rw [List.flatMap_cons, List.append_assoc] at h
    by_cases hd : quoteChar d = [d]
    · rw [hd] at h
      obtain h | h := List.infix_cons_iff.mp h
      · have hchars : word.toList <+: (d :: chars).flatMap quoteChar ++ ['"'] := by
          rwa [List.flatMap_cons, hd]
        exact (prefix_of_prefix_quoted hword hchars).isInfix
      · exact List.infix_cons (ih h)
    · exact List.infix_cons (ih (hskip (fun h => hc (mem_escapeChars hd h)) h))

/-- A word of characters that stand for themselves, of which the first is in no escape, stands in a
quoted text just if it stands in the text. -/
theorem contains_quoted_iff (hword : ∀ c ∈ word.toList, quoteChar c = [c])
    (hhead : word.toList.head? = some c) (hc : c ∉ escapeChars) :
    Contains (quoted s) word ↔ Contains s word := by
  have hself : word.toList.flatMap quoteChar = word.toList := by
    rw [List.flatMap_congr hword, List.flatMap_singleton']
  constructor
  · intro h
    rw [Contains, quoted, String.toList_ofList] at h
    obtain h | h := List.infix_cons_iff.mp h
    · obtain ⟨rest, hrest⟩ := List.head?_eq_some_iff.mp hhead
      rw [hrest] at h
      obtain ⟨rfl, -⟩ := List.cons_prefix_cons.mp h
      exact absurd (by decide) hc
    · exact infix_of_infix_quoted hword hhead hc h
  · rintro ⟨before, after, hs⟩
    refine ⟨'"' :: before.flatMap quoteChar, after.flatMap quoteChar ++ ['"'], ?_⟩
    rw [quoted, String.toList_ofList, ← hs]
    simp only [List.flatMap_append, hself, List.cons_append, List.append_assoc]

end ApiSuite.Text
