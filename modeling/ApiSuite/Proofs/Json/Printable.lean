import ApiSuite.Proofs.Json.Legible

/-!
# JSON in one line

The characters before the blank, line breaks among them, are escaped in a text. So they stand nowhere
in a document that is written in one line.
-/

namespace ApiSuite.Json

open Text

def IsPrintable (text : List Char) : Prop :=
  ∀ c ∈ text, 32 ≤ c.toNat

instance (text : List Char) : Decidable (IsPrintable text) :=
  inferInstanceAs (Decidable (∀ c ∈ text, _))

variable {c : Char} {text text' : List Char}

theorem isPrintable_append : IsPrintable (text ++ text') ↔ IsPrintable text ∧ IsPrintable text' :=
  List.forall_mem_append

theorem isPrintable_cons : IsPrintable (c :: text) ↔ 32 ≤ c.toNat ∧ IsPrintable text :=
  List.forall_mem_cons

theorem isPrintable_escapeChar (c : Char) : IsPrintable (escapeChar c) := by
  by_cases hescaped : c ∈ escaped
  · have hall : ∀ c ∈ escaped, IsPrintable (escapeChar c) := by decide +kernel
    exact hall c hescaped
  · rw [escapeChar_of_notMem hescaped]
    exact List.forall_mem_singleton.mpr (Nat.not_lt.mp (mt mem_escaped_of_lt hescaped))

theorem isPrintable_stringText (s : String) : IsPrintable (stringText s) := by
  have hchars : IsPrintable (s.toList.flatMap escapeChar) := by
    intro c hc
    obtain ⟨d, -, hc⟩ := List.mem_flatMap.mp hc
    exact isPrintable_escapeChar d c hc
  exact isPrintable_append.mpr ⟨isPrintable_cons.mpr ⟨by decide, hchars⟩, by decide⟩

theorem le_toNat_of_isNumeral (h : IsNumeral c) : 32 ≤ c.toNat := by
  obtain hdigit | hother := h
  · have hbounds : 0x30 ≤ c.toNat ∧ c.toNat ≤ 0x39 := Char.isDigit_iff_toNat.mp hdigit
    omega
  · revert c
    decide

theorem isPrintable_scalarText (json : Json) : IsPrintable json.scalarText := by
  cases json with
  | bool b => cases b <;> decide
  | int n => exact fun c hc => le_toNat_of_isNumeral (isNumeral_int n c hc)
  | real x =>
      change IsPrintable (if x.isFinite then (x.text numberStyle).toList else ['n', 'u', 'l', 'l'])
      split
      · exact fun c hc => le_toNat_of_isNumeral (isNumeral_binary64 (by decide) x c hc)
      · decide
  | str s => exact isPrintable_stringText s
  | null | arr | obj => exact (by decide : IsPrintable ['n', 'u', 'l', 'l'])

theorem isPrintable_commaSeparated {parts : List (List Char)} (h : ∀ part ∈ parts, IsPrintable part) :
    IsPrintable (commaSeparated parts) := by
  induction parts with
  | nil => exact List.forall_mem_nil _
  | cons part parts ih =>
      obtain ⟨hfirst, hlater⟩ := List.forall_mem_cons.mp h
      cases parts with
      | nil => exact hfirst
      | cons next parts =>
          exact isPrintable_append.mpr ⟨hfirst, isPrintable_cons.mpr ⟨by decide, ih hlater⟩⟩

mutual

theorem isPrintable_compact : ∀ json : Json, IsPrintable json.compact
  | .arr items =>
      isPrintable_append.mpr ⟨isPrintable_cons.mpr ⟨by decide,
        isPrintable_commaSeparated (isPrintable_compactItems items)⟩, by decide⟩
  | .obj members =>
      isPrintable_append.mpr ⟨isPrintable_cons.mpr ⟨by decide,
        isPrintable_commaSeparated (isPrintable_compactMembers members)⟩, by decide⟩
  | .null => isPrintable_scalarText .null
  | .bool b => isPrintable_scalarText (.bool b)
  | .int n => isPrintable_scalarText (.int n)
  | .real x => isPrintable_scalarText (.real x)
  | .str s => isPrintable_scalarText (.str s)

theorem isPrintable_compactItems : ∀ items : List Json, ∀ part ∈ compactItems items, IsPrintable part
  | [] => List.forall_mem_nil _
  | item :: rest =>
      List.forall_mem_cons.mpr ⟨isPrintable_compact item, isPrintable_compactItems rest⟩

theorem isPrintable_compactMembers : ∀ members : List (String × Json),
    ∀ part ∈ compactMembers members, IsPrintable part
  | [] => List.forall_mem_nil _
  | (key, value) :: rest => by
      have hmember : IsPrintable (stringText key ++ ':' :: value.compact) :=
        isPrintable_append.mpr ⟨isPrintable_stringText key,
          isPrintable_cons.mpr ⟨by decide, isPrintable_compact value⟩⟩
      exact List.forall_mem_cons.mpr ⟨hmember, isPrintable_compactMembers rest⟩

end

end ApiSuite.Json
