import ApiSuite.Proofs.Schema.Shape
import ApiSuite.Proofs.Suite.Rules
import ApiSuite.Proofs.Text.Capitals
import Mathlib

/-!
# Durations and methods as they are written

A duration is read in one way only. Its digits may be those of any script, and a method may have
letters outside ASCII whose capitals are letters of ASCII. Apart from these characters, which are
few for methods, a duration or a method that is accepted is written in ASCII.
-/

namespace ApiSuite.Schema

open Duration

/-! ### One reading -/

theorem spells_unique {text : List Char} {groups groups' : List Group} (h : Spells groups text)
    (h' : Spells groups' text) : groups = groups' :=
  Option.some.inj ((groups?_eq_some_iff.mpr h).symm.trans (groups?_eq_some_iff.mpr h'))

/-- **One reading.** A duration is a text of one or more groups, blanks around it aside, and what
groups spell is spelled by no others. -/
theorem duration_check_eq_ok_iff (value : Value) :
    (Shape.duration.check value = .ok () ↔
      ∃ s, value.str? = some s ∧ ∃ groups, Spells groups (Text.trim s).toList)
    ∧ ∀ text, (∃ groups, Spells groups text) ↔ ∃! groups, Spells groups text := by
  refine ⟨Shape.check_eq_ok_iff, fun text => ⟨?_, ExistsUnique.exists⟩⟩
  rintro ⟨groups, h⟩
  exact ⟨groups, h, fun _ hother => spells_unique hother h⟩

example : Spells [⟨['1'], .minutes⟩, ⟨['3', '0'], .milliseconds⟩] "1m30ms".toList := by
  rw [← groups?_eq_some_iff]
  decide

/-! ### ASCII -/

variable {c : Char} {text : List Char}

def IsAscii (text : List Char) : Prop :=
  ∀ c ∈ text, c.toNat < 0x80

/-- A duration in ASCII, each number of which is read as one. -/
def IsPlainDuration (text : List Char) : Prop :=
  IsAscii text ∧ ∃ groups, Spells groups text ∧
    ∀ group ∈ groups, (∀ c ∈ group.digits, c.isDigit = true)
      ∧ ∃ n, (String.ofList group.digits).toNat? = some n

/-- A method in ASCII, letter for letter. -/
def IsPlainMethod (text : List Char) : Prop :=
  IsAscii text ∧ ∃ method ∈ httpMethods, text.map Char.toUpper = method.toList

theorem digitRanges_ascii : ∀ range ∈ Text.digitRanges, range = (0x30, 0x39) ∨ 0x80 ≤ range.1 := by
  decide +kernel

theorem isDigit_of_lt (hdigit : Text.isDigit c = true) (hlt : c.toNat < 0x80) :
    c.isDigit = true := by
  obtain ⟨range, hrange, hin⟩ := Text.inRanges_iff.mp hdigit
  obtain rfl | habove := digitRanges_ascii range hrange
  · exact Char.isDigit_iff_toNat.mpr hin
  · omega

theorem isAscii_unit (unit : Scale) : IsAscii unit.text := by
  cases unit <;> simp [IsAscii, Scale.text]

theorem toNat?_of_isDigit {digits : List Char} (hne : digits ≠ [])
    (hdigits : ∀ c ∈ digits, c.isDigit = true) : ∃ n, (String.ofList digits).toNat? = some n := by
  have hnat : (String.ofList digits).isNat = true := by
    apply String.isNat_of_isDigit
    · simpa using hne
    · rwa [String.toList_ofList]
  -- The lemmas on reading numbers come with no part of Mathlib but with the whole.
  rw [← Option.isSome_iff_exists, String.isSome_toNat?]
  exact hnat

theorem isPlainDuration_iff {groups : List Group} (h : Spells groups text) :
    IsPlainDuration text ↔ ∀ c ∈ text, Text.isDigit c = true → c.isDigit = true := by
  constructor
  · rintro ⟨hascii, -⟩ c hc hdigit
    exact isDigit_of_lt hdigit (hascii c hc)
  · intro hplain
    have hproper := h.2.1
    have hmem : ∀ c, c ∈ text ↔ ∃ group ∈ groups, c ∈ group.digits ∨ c ∈ group.unit.text := by
      intro c
      rw [← h.2.2, List.mem_flatMap]
      simp only [Group.text, List.mem_append]
    have hdigits : ∀ group ∈ groups, ∀ c ∈ group.digits, c.isDigit = true :=
      fun group hgroup c hc =>
        hplain c ((hmem c).mpr ⟨group, hgroup, .inl hc⟩) ((hproper group hgroup).2 c hc)
    refine ⟨?_, groups, h, fun group hgroup => ⟨hdigits group hgroup,
      toNat?_of_isDigit (hproper group hgroup).1 (hdigits group hgroup)⟩⟩
    intro c hc
    obtain ⟨group, hgroup, hc | hc⟩ := (hmem c).mp hc
    · have hbounds : 0x30 ≤ c.toNat ∧ c.toNat ≤ 0x39 :=
        Char.isDigit_iff_toNat.mp (hdigits group hgroup c hc)
      omega
    · exact isAscii_unit group.unit c hc

/-! ### Methods -/

/-- The characters outside ASCII that may stand in a method: their capitals are `I`, `S` and `ST`. -/
def lookAlikes : List Char :=
  ['ı', 'ſ', 'ﬅ', 'ﬆ']

theorem upperChar_ascii : ∀ code < 0x80,
    Text.upperChar (Char.ofNat code) = [(Char.ofNat code).toUpper] := by
  decide +kernel

/-- The other characters whose capitals are letters of ASCII become two letters that no method has
next to each other, or a letter that none has. -/
theorem lookAlikeRanges_methods : ∀ range ∈ Text.lookAlikeRanges,
    ∀ code ∈ List.range' range.1 (range.2 + 1 - range.1), 0x80 ≤ code →
      Char.ofNat code ∈ lookAlikes
        ∨ ∀ method ∈ httpMethods, ¬Text.upperChar (Char.ofNat code) <:+: method.toList := by
  decide +kernel

theorem flatMap_upperChar (hascii : IsAscii text) :
    text.flatMap Text.upperChar = text.map Char.toUpper := by
  rw [List.map_eq_flatMap]
  apply List.flatMap_congr
  intro c hc
  have hupper := upperChar_ascii c.toNat (hascii c hc)
  rwa [Char.ofNat_toNat] at hupper

theorem lt_or_mem_lookAlikes {method : String} (hmethod : method ∈ httpMethods)
    (htext : text.flatMap Text.upperChar = method.toList) (hc : c ∈ text) :
    c.toNat < 0x80 ∨ c ∈ lookAlikes := by
  have hwithin : Text.upperChar c <:+: method.toList := by
    obtain ⟨before, after, rfl⟩ := List.append_of_mem hc
    rw [← htext, List.flatMap_append, List.flatMap_cons, ← List.append_assoc]
    exact List.infix_append _ _ _
  have hcapital : ∀ d ∈ Text.upperChar c, d.isUpper = true := fun d hd =>
    List.all_eq_true.mp (upper_of_mem_httpMethods method hmethod).2 d (hwithin.subset hd)
  obtain hself | ⟨range, hrange, hlow, hhigh⟩ := Text.upperChar_eq_self_or_lookAlike hcapital
  · have hupper := hcapital c (by rw [hself]; exact List.mem_singleton_self c)
    have hlast : c ≤ 'Z' := (of_decide_eq_true hupper : 'A' ≤ c ∧ c ≤ 'Z').2
    have hbound : c.toNat ≤ 0x5A := hlast
    exact .inl (by omega)
  · by_cases hascii : c.toNat < 0x80
    · exact .inl hascii
    · have hcode : c.toNat ∈ List.range' range.1 (range.2 + 1 - range.1) := by
        rw [List.mem_range'_1]
        omega
      have hcases := lookAlikeRanges_methods range hrange c.toNat hcode (Nat.le_of_not_lt hascii)
      rw [Char.ofNat_toNat] at hcases
      exact .inr (hcases.resolve_right fun haway => haway method hmethod hwithin)

theorem isPlainMethod_iff {method : String} (hmethod : method ∈ httpMethods)
    (htext : text.flatMap Text.upperChar = method.toList) :
    IsPlainMethod text ↔ ∀ c ∈ text, c ∉ lookAlikes := by
  constructor
  · rintro ⟨hascii, -⟩ c hc hlookAlike
    have hbeyond : lookAlikes.all (0x80 ≤ ·.toNat) = true := by
      decide
    have hcode := of_decide_eq_true (List.all_eq_true.mp hbeyond c hlookAlike)
    exact absurd (hascii c hc) (Nat.not_lt.mpr hcode)
  · intro hplain
    have hascii : IsAscii text := fun c hc =>
      (lt_or_mem_lookAlikes hmethod htext hc).resolve_right (hplain c hc)
    exact ⟨hascii, method, hmethod, by rw [← flatMap_upperChar hascii, htext]⟩

/-! ### The vocabularies -/

/-- **Look-alikes.** The durations in plain writing are those accepted without a digit of another
script, and the methods in plain writing those accepted without one of four characters. -/
theorem isPlain_iff {value : Value} {s : String} (hs : value.str? = some s) :
    (IsPlainDuration (Text.trim s).toList ↔
      Shape.duration.check value = .ok ()
        ∧ ∀ c ∈ (Text.trim s).toList, Text.isDigit c = true → c.isDigit = true)
    ∧ (IsPlainMethod (Text.trim s).toList ↔
      Shape.httpMethod.check value = .ok () ∧ ∀ c ∈ (Text.trim s).toList, c ∉ lookAlikes) := by
  have htext {property : String → Prop} : value.IsText property ↔ property s := by
    simp [Value.IsText, hs]
  rw [Shape.check_eq_ok_iff, Shape.check_eq_ok_iff, Shape.Admits, Shape.Admits, htext, htext]
  constructor
  · constructor
    · intro hplain
      obtain ⟨groups, hspells, -⟩ := hplain.2
      exact ⟨⟨groups, hspells⟩, (isPlainDuration_iff hspells).mp hplain⟩
    · rintro ⟨⟨groups, hspells⟩, hdigits⟩
      exact (isPlainDuration_iff hspells).mpr hdigits
  · constructor
    · intro hplain
      obtain ⟨method, hmethod, hletters⟩ := hplain.2
      have hupper : (Text.trim s).toList.flatMap Text.upperChar = method.toList := by
        rw [flatMap_upperChar hplain.1, hletters]
      refine ⟨?_, (isPlainMethod_iff hmethod hupper).mp hplain⟩
      rw [IsMethodText, Text.upper, hupper, String.ofList_toList]
      exact hmethod
    · rintro ⟨hmethod, hlookAlikes⟩
      exact (isPlainMethod_iff hmethod (Text.toList_upper _).symm).mpr hlookAlikes

theorem isPlain_iff_tagged :
    (Value.tagged "k" (.str " Post ")).str? = some " Post "
      ∧ IsPlainMethod (Text.trim " Post ").toList
      ∧ (Value.tagged "k" (.str " 1m30s ")).str? = some " 1m30s "
      ∧ IsPlainDuration (Text.trim " 1m30s ").toList := by
  have hmethod : (Value.tagged "k" (.str " Post ")).str? = some " Post " := rfl
  have hduration : (Value.tagged "k" (.str " 1m30s ")).str? = some " 1m30s " := rfl
  refine ⟨hmethod, (isPlain_iff hmethod).2.mpr ⟨rfl, ?_⟩, hduration,
    (isPlain_iff hduration).1.mpr ⟨rfl, ?_⟩⟩
  · have htrim : Text.trim " Post " = "Post" := by decide
    rw [htrim]
    simp [lookAlikes]
  · have htrim : Text.trim " 1m30s " = "1m30s" := by decide
    have hall : "1m30s".toList.all (fun c => !Text.isDigit c || c.isDigit) = true := by decide
    rw [htrim]
    intro c hc hdigit
    simpa [hdigit] using List.all_eq_true.mp hall c hc

/-- An Arabic digit three is taken for a digit, and an `i` without its dot for an `i`. -/
theorem not_isPlain_arabic_digit_dotless_i :
    (Shape.duration.check (.str "٣s") = .ok () ∧ ¬IsPlainDuration (Text.trim "٣s").toList)
      ∧ Shape.httpMethod.check (.str "optıons") = .ok ()
      ∧ ¬IsPlainMethod (Text.trim "optıons").toList := by
  have hduration : Text.trim "٣s" = "٣s" := by decide
  have hmethod : Text.trim "optıons" = "optıons" := by decide
  refine ⟨⟨rfl, ?_⟩, rfl, ?_⟩
  · rintro ⟨hascii, -⟩
    rw [hduration] at hascii
    exact absurd (hascii '٣' (by simp)) (by decide)
  · rintro ⟨hascii, -⟩
    rw [hmethod] at hascii
    exact absurd (hascii 'ı' (by simp)) (by decide)

end ApiSuite.Schema
