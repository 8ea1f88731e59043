import ApiSuite.Proofs.Text.Trim
import ApiSuite.Text.Uppercase

/-!
# Capital forms

The capital form of a character is the character itself, or lies among the images of the two tables.
No image is white space, and none is one of the few characters that only become capital letters of
ASCII. Hence capitals never bring blanks to the ends of a text, and a text whose capitals are letters
of ASCII has them already after the first pass.
-/

namespace ApiSuite.Text

/-- The characters other than the capital letters of ASCII whose capital form is spelled with those
letters alone. -/
def lookAlikeRanges : List (Nat × Nat) :=
  [(0x61, 0x7A), (0xDF, 0xDF), (0x131, 0x131), (0x17F, 0x17F), (0xFB00, 0xFB06)]

theorem upperChar_cases (c : Char) :
    upperChar c = [c]
      ∨ (∃ run ∈ caseRuns, run.contains c.toNat = true
          ∧ upperChar c = [Char.ofNat (c.toNat + run.shift).toNat])
      ∨ ∃ entry ∈ expandingCapitals, entry.1 = c.toNat ∧ upperChar c = entry.2.map Char.ofNat := by
  unfold upperChar
  split
  case h_1 run hrun =>
    have hcontains := List.find?_some (p := fun run : CaseRun => run.contains c.toNat) hrun
    exact Or.inr (Or.inl ⟨run, List.mem_of_find?_eq_some hrun, hcontains, rfl⟩)
  case h_2 =>
    split
    case h_1 codes hcodes =>
      obtain ⟨before, after, hsplit, -⟩ := List.lookup_eq_some_iff.mp hcodes
      exact Or.inr (Or.inr ⟨(c.toNat, codes), by rw [hsplit]; simp, rfl, rfl⟩)
    case h_2 => exact Or.inl rfl

/-! ### What the tables say

Each run is compared with the ranges as a whole, so these are a few hundred comparisons and not one
for every character. -/

theorem caseRuns_image_away : ∀ run ∈ caseRuns, ∀ range ∈ lookAlikeRanges ++ blankRanges,
    run.last + run.shift < range.1 ∨ range.2 < run.first + run.shift := by
  decide +kernel

theorem expandingCapitals_image_away : ∀ entry ∈ expandingCapitals, ∀ code ∈ entry.2,
    ∀ range ∈ lookAlikeRanges ++ blankRanges, code < range.1 ∨ range.2 < code := by
  decide +kernel

theorem caseRuns_ascii : ∀ run ∈ caseRuns, 0x5A < run.first + run.shift
    ∨ ∃ range ∈ lookAlikeRanges, range.1 ≤ run.first ∧ run.last ≤ range.2 := by
  decide +kernel

theorem expandingCapitals_ascii : ∀ entry ∈ expandingCapitals, (∃ code ∈ entry.2, 0x5A < code)
    ∨ ∃ range ∈ lookAlikeRanges, range.1 ≤ entry.1 ∧ entry.1 ≤ range.2 := by
  decide +kernel

theorem expandingCapitals_ne_nil : ∀ entry ∈ expandingCapitals, entry.2 ≠ [] := by
  decide +kernel

/-! ### Characters -/

theorem toNat_ofNat_eq_or (n : Nat) : (Char.ofNat n).toNat = n ∨ (Char.ofNat n).toNat = 0 := by
  by_cases hvalid : n.isValidChar
  · left
    rw [Char.ofNat, dif_pos hvalid]
    rfl
  · right
    rw [Char.ofNat, dif_neg hvalid]
    rfl

theorem CaseRun.contains_bounds {run : CaseRun} {code : Nat} (h : run.contains code = true) :
    run.first ≤ code ∧ code ≤ run.last := by
  simp only [CaseRun.contains, Bool.and_eq_true, decide_eq_true_eq] at h
  exact h.1

/-- A capital form other than the character itself stays clear of white space and of the characters
that become letters of ASCII. -/
theorem mem_upperChar {c d : Char} (hd : d ∈ upperChar c) :
    upperChar c = [d] ∧ d = c ∨
      ∀ range ∈ lookAlikeRanges ++ blankRanges, d.toNat < range.1 ∨ range.2 < d.toNat := by
  have hzero : ∀ range ∈ lookAlikeRanges ++ blankRanges, 0 < range.1 := by decide
  obtain hself | ⟨run, hrun, hcontains, himage⟩ | ⟨entry, hentry, -, himage⟩ := upperChar_cases c
  · have hdc : d = c := by simpa [hself] using hd
    exact Or.inl ⟨hdc ▸ hself, hdc⟩
  · refine Or.inr fun range hrange => ?_
    have hbounds := CaseRun.contains_bounds hcontains
    have haway := caseRuns_image_away run hrun range hrange
    have hpos := hzero range hrange
    rw [himage, List.mem_singleton] at hd
    rcases toNat_ofNat_eq_or (c.toNat + run.shift).toNat with hcode | hcode <;>
      rw [hd, hcode] <;> omega
  · refine Or.inr fun range hrange => ?_
    rw [himage, List.mem_map] at hd
    obtain ⟨code, hcode, rfl⟩ := hd
    have haway := expandingCapitals_image_away entry hentry code hcode range hrange
    have hpos := hzero range hrange
    rcases toNat_ofNat_eq_or code with hcode | hcode <;> rw [hcode] <;> omega

theorem inRanges_iff {ranges : List (Nat × Nat)} {code : Nat} :
    inRanges ranges code = true ↔ ∃ range ∈ ranges, range.1 ≤ code ∧ code ≤ range.2 := by
  simp [inRanges]

theorem isBlank_of_mem_upperChar {c d : Char} (hd : d ∈ upperChar c) (hblank : isBlank d = true) :
    isBlank c = true := by
  obtain ⟨-, rfl⟩ | haway := mem_upperChar hd
  · exact hblank
  · obtain ⟨range, hrange, hin⟩ := inRanges_iff.mp hblank
    have := haway range (List.mem_append_right _ hrange)
    omega

theorem upperChar_ne_nil (c : Char) : upperChar c ≠ [] := by
  obtain hself | ⟨run, -, -, himage⟩ | ⟨entry, hentry, -, himage⟩ := upperChar_cases c
  · simp [hself]
  · simp [himage]
  · simpa [himage] using expandingCapitals_ne_nil entry hentry

theorem upperChar_eq_self_or_lookAlike {c : Char} (hcapital : ∀ d ∈ upperChar c, d.isUpper = true) :
    upperChar c = [c] ∨ ∃ range ∈ lookAlikeRanges, range.1 ≤ c.toNat ∧ c.toNat ≤ range.2 := by
  have hbound : ∀ n, (Char.ofNat n).isUpper = true → n ≤ 0x5A := by
    intro n hupper
    have hcode : 'A' ≤ Char.ofNat n ∧ Char.ofNat n ≤ 'Z' := of_decide_eq_true hupper
    have hlow : 0x41 ≤ (Char.ofNat n).toNat := hcode.1
    have hhigh : (Char.ofNat n).toNat ≤ 0x5A := hcode.2
    rcases toNat_ofNat_eq_or n with h | h <;> omega
  obtain hself | ⟨run, hrun, hcontains, himage⟩ | ⟨entry, hentry, hkey, himage⟩ := upperChar_cases c
  · exact Or.inl hself
  · have hbounds := CaseRun.contains_bounds hcontains
    have hlow := hbound (c.toNat + run.shift).toNat (hcapital _ (by simp [himage]))
    obtain habove | ⟨range, hrange, hin⟩ := caseRuns_ascii run hrun
    · omega
    · exact Or.inr ⟨range, hrange, by omega⟩
  · obtain ⟨code, hcode, habove⟩ | ⟨range, hrange, hin⟩ := expandingCapitals_ascii entry hentry
    · have hlow := hbound code (hcapital _ (himage ▸ List.mem_map_of_mem hcode))
      omega
    · exact Or.inr ⟨range, hrange, by omega⟩

theorem upperChar_eq_self_of_mem {c d : Char} (hd : d ∈ upperChar c)
    (hcapital : ∀ e ∈ upperChar d, e.isUpper = true) : upperChar d = [d] := by
  obtain ⟨hself, rfl⟩ | haway := mem_upperChar hd
  · exact hself
  · obtain hself | ⟨range, hrange, hin⟩ := upperChar_eq_self_or_lookAlike hcapital
    · exact hself
    · have := haway range (List.mem_append_left _ hrange)
      omega

/-! ### Texts -/

theorem toList_upper (s : String) : (upper s).toList = s.toList.flatMap upperChar := by
  rw [upper, String.toList_ofList]

theorem trim_upper {s : String} (htrim : trim s = s) : trim (upper s) = upper s := by
  rw [trim_eq_self_iff] at htrim ⊢
  have hnotBlank : ∀ {c d : Char}, isBlank c = false → d ∈ upperChar c → isBlank d = false := by
    intro c d hc hd
    by_contra hblank
    rw [isBlank_of_mem_upperChar hd (by simpa using hblank)] at hc
    exact Bool.false_ne_true hc.symm
  rw [toList_upper]
  intro h
  have hne : s.toList ≠ [] := by
    rintro hnil
    simp [hnil] at h
  obtain ⟨hfirst, hlast⟩ := htrim hne
  refine ⟨hnotBlank hfirst ?_, hnotBlank hlast ?_⟩
  · obtain ⟨a, rest, hsplit⟩ := List.exists_cons_of_ne_nil hne
    simp only [hsplit, List.flatMap_cons, List.head_cons, List.head_append_of_ne_nil (upperChar_ne_nil a)]
    exact List.head_mem _
  · obtain ⟨front, a, hsplit⟩ := List.eq_nil_or_concat s.toList |>.resolve_left hne
    simp only [hsplit, List.concat_eq_append, List.flatMap_append, List.flatMap_singleton,
      List.getLast_concat, List.getLast_append_of_ne_nil _ (upperChar_ne_nil a)]
    exact List.getLast_mem _

theorem upper_upper_of_isUpper {s : String}
    (hcapital : ∀ c ∈ (upper (upper s)).toList, c.isUpper = true) : upper (upper s) = upper s := by
  rw [← String.toList_inj, toList_upper (upper s)]
  have hself : ∀ d ∈ (upper s).toList, upperChar d = [d] := by
    intro d hd
    obtain ⟨c, -, hdc⟩ := List.mem_flatMap.mp (toList_upper s ▸ hd)
    refine upperChar_eq_self_of_mem hdc fun e he => hcapital e ?_
    rw [toList_upper (upper s)]
    exact List.mem_flatMap.mpr ⟨d, hd, he⟩
  rw [List.flatMap_congr hself]
  exact List.flatMap_singleton' _

end ApiSuite.Text
