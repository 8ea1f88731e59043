import ApiSuite.Proofs.Json.Encode
import ApiSuite.Proofs.Text.Numerals

/-!
# Unique readability of the pages

A value is told by the text it has on a page. Its first character tells the kind; the quotes around a
string are the only ones in it that no backslash precedes; a number ends where no digit follows; and
after an item stands a comma or a new line. So a page without numbers that are real has one reading,
and a suite that is written so is the only one with its page.
-/

namespace ApiSuite

namespace Json

open Text

variable {α : Type} {rest rest' : List Char}

/-- No number in the value is real. -/
inductive IsPlain : Json → Prop
  | null : IsPlain .null
  | bool (b : Bool) : IsPlain (.bool b)
  | int (n : Int) : IsPlain (.int n)
  | str (s : String) : IsPlain (.str s)
  | arr {items : List Json} (h : ∀ item ∈ items, item.IsPlain) : IsPlain (.arr items)
  | obj {members : List (String × Json)} (h : ∀ member ∈ members, member.2.IsPlain) :
      IsPlain (.obj members)

/-! ### Numbers -/

def Ends (rest : List Char) : Prop :=
  ∀ c ∈ rest.head?, isNumberChar c = false

theorem toString_append_inj {m n : Int} (hends : Ends rest) (hends' : Ends rest')
    (h : (toString m).toList ++ rest = (toString n).toList ++ rest') : m = n ∧ rest = rest' := by
  obtain ⟨htext, hrest⟩ := append_inj_of_run (fun c hc => isNumberChar_of_mem hc)
    (fun c hc => isNumberChar_of_mem hc) hends hends' h
  exact ⟨toList_toString_injective htext, hrest⟩

/-! ### Strings -/

def escaped : List Char :=
  '"' :: '\\' :: (List.range 32).map Char.ofNat

variable {c d : Char}

theorem mem_escaped_of_lt (h : c.toNat < 32) : c ∈ escaped := by
  apply List.mem_cons_of_mem
  apply List.mem_cons_of_mem
  exact List.mem_map.mpr ⟨c.toNat, List.mem_range.mpr h, Char.ofNat_toNat c⟩

theorem escapeChar_of_notMem (h : c ∉ escaped) : escapeChar c = [c] := by
  have hne (d : Char) (hd : d ∈ escaped) : c ≠ d := fun hcd => h (hcd ▸ hd)
  have hlarge : ¬ c.toNat < 32 := fun hlt => h (mem_escaped_of_lt hlt)
  have hlarger : ¬ c.toNat < 16 := by omega
  rw [escapeChar, if_neg (hne _ (by decide)), if_neg (hne _ (by decide)),
    if_neg (hne _ (by decide)), if_neg (hne _ (by decide)), if_neg (hne _ (by decide)),
    if_neg (hne _ (by decide)), if_neg (hne _ (by decide)), if_neg hlarger, if_neg hlarge]

theorem all_escaped : escaped.all fun c => (escapeChar c).head? == some '\\' &&
    escaped.all fun d => !(escapeChar c).isPrefixOf (escapeChar d) || c == d := by
  decide +kernel

theorem head?_escapeChar_of_mem (h : c ∈ escaped) : (escapeChar c).head? = some '\\' := by
  have hall := List.all_eq_true.mp all_escaped c h
  rw [Bool.and_eq_true, beq_iff_eq] at hall
  exact hall.1

theorem eq_of_mem_escaped (hc : c ∈ escaped) (hd : d ∈ escaped) (h : escapeChar c <+: escapeChar d) :
    c = d := by
  have hall := List.all_eq_true.mp all_escaped c hc
  rw [Bool.and_eq_true, List.all_eq_true] at hall
  have hprefix := hall.2 d hd
  rw [List.isPrefixOf_iff_prefix.mpr h] at hprefix
  exact eq_of_beq hprefix

theorem head?_escapeChar (c : Char) :
    (escapeChar c).head? = some (if c ∈ escaped then '\\' else c) := by
  by_cases hc : c ∈ escaped
  · rw [if_pos hc, head?_escapeChar_of_mem hc]
  · rw [if_neg hc, escapeChar_of_notMem hc]
    rfl

theorem eq_of_escapeChar_isPrefix (h : escapeChar c <+: escapeChar d) : c = d := by
  obtain ⟨more, hmore⟩ := h
  have hhead : (escapeChar d).head? = (escapeChar c).head? := by
    rw [← hmore, List.head?_append, head?_escapeChar]
    rfl
  have hbackslash : '\\' ∈ escaped := by decide
  rw [head?_escapeChar, head?_escapeChar, Option.some.injEq] at hhead
  by_cases hc : c ∈ escaped <;> by_cases hd : d ∈ escaped
  · exact eq_of_mem_escaped hc hd ⟨more, hmore⟩
  · rw [if_pos hc, if_neg hd] at hhead
    exact absurd (hhead ▸ hbackslash) hd
  · rw [if_neg hc, if_pos hd] at hhead
    exact absurd (hhead ▸ hbackslash) hc
  · rw [if_neg hc, if_neg hd] at hhead
    exact hhead.symm

theorem escapeChar_append_inj (h : escapeChar c ++ rest = escapeChar d ++ rest') :
    c = d ∧ rest = rest' := by
  have hcd : c = d := by
    -- Both escapes begin the same text, so one of them begins the other.
    have hprefix : escapeChar c <+: escapeChar d ++ rest' := h ▸ List.prefix_append _ _
    obtain hc | hd := List.prefix_or_prefix_of_prefix hprefix (List.prefix_append _ _)
    · exact eq_of_escapeChar_isPrefix hc
    · exact (eq_of_escapeChar_isPrefix hd).symm
  subst hcd
  exact ⟨rfl, List.append_cancel_left h⟩

theorem escapeChar_append_ne_quote : escapeChar c ++ rest ≠ '"' :: rest' := by
  intro h
  have hhead : (escapeChar c ++ rest).head? = some '"' := by rw [h, List.head?_cons]
  rw [List.head?_append, head?_escapeChar, Option.some_or, Option.some.injEq] at hhead
  by_cases hc : c ∈ escaped
  · rw [if_pos hc] at hhead
    exact absurd hhead (by decide)
  · rw [if_neg hc] at hhead
    exact hc (hhead ▸ (by decide))

theorem flatMap_escapeChar_append_inj {cs ds : List Char}
    (h : cs.flatMap escapeChar ++ '"' :: rest = ds.flatMap escapeChar ++ '"' :: rest') :
    cs = ds ∧ rest = rest' := by
  induction cs generalizing ds with
  | nil =>
      cases ds with
      | nil => simpa using h
      | cons d ds =>
          rw [List.flatMap_cons, List.append_assoc] at h
          exact absurd h.symm escapeChar_append_ne_quote
  | cons c cs ih =>
      cases ds with
      | nil =>
          rw [List.flatMap_cons, List.append_assoc] at h
          exact absurd h escapeChar_append_ne_quote
      | cons d ds =>
          rw [List.flatMap_cons, List.flatMap_cons, List.append_assoc, List.append_assoc] at h
          obtain ⟨rfl, hlater⟩ := escapeChar_append_inj h
          obtain ⟨rfl, hrest⟩ := ih hlater
          exact ⟨rfl, hrest⟩

theorem stringText_append_inj {s s' : String} (h : stringText s ++ rest = stringText s' ++ rest') :
    s = s' ∧ rest = rest' := by
  simp only [stringText, List.cons_append, List.append_assoc, List.nil_append, List.cons.injEq,
    true_and] at h
  obtain ⟨hs, hrest⟩ := flatMap_escapeChar_append_inj h
  exact ⟨String.toList_injective hs, hrest⟩

/-! ### Blocks -/

/-- A part is told among the valid ones by its text, with anything after it that ends a number. -/
def Legible (valid : α → Prop) (text : α → List Char) (part : α) : Prop :=
  ∀ ⦃other rest rest'⦄, valid other → Ends rest → Ends rest' →
    text part ++ rest = text other ++ rest' → part = other ∧ rest = rest'

variable {valid : α → Prop} {text : α → List Char} {level : Nat} {opening closing : Char}
  {parts others : List α}

def remaining (level : Nat) (closing : Char) (text : α → List Char) (parts : List α)
    (rest : List Char) : List Char :=
  parts.flatMap (fun part => ',' :: (newLine (level + 1) ++ text part)) ++
    (newLine level ++ closing :: rest)

theorem remaining_cons {part : α} :
    remaining level closing text (part :: parts) rest =
      ',' :: (newLine (level + 1) ++ (text part ++ remaining level closing text parts rest)) := by
  simp [remaining]

theorem ends_remaining : Ends (remaining level closing text parts rest) := by
  intro c hc
  cases parts with
  | nil =>
      obtain rfl : '\n' = c := Option.some.inj hc
      rfl
  | cons part parts =>
      rw [remaining_cons] at hc
      obtain rfl := Option.some.inj hc
      rfl

theorem remaining_inj (hparts : ∀ part ∈ parts, Legible valid text part)
    (hothers : ∀ other ∈ others, valid other)
    (h : remaining level closing text parts rest = remaining level closing text others rest') :
    parts = others ∧ rest = rest' := by
  induction parts generalizing others with
  | nil =>
      cases others with
      | nil => simpa [remaining] using h
      | cons other others =>
          rw [remaining_cons] at h
          exact absurd (List.cons.inj h).1 (by decide)
  | cons part parts ih =>
      obtain ⟨hpart, hparts⟩ := List.forall_mem_cons.mp hparts
      cases others with
      | nil =>
          rw [remaining_cons] at h
          exact absurd (List.cons.inj h).1 (by decide)
      | cons other others =>
          obtain ⟨hother, hothers⟩ := List.forall_mem_cons.mp hothers
          rw [remaining_cons, remaining_cons] at h
          have htext := List.append_cancel_left (List.cons.inj h).2
          obtain ⟨heq, hremaining⟩ := hpart hother ends_remaining ends_remaining htext
          obtain ⟨hlater, hrest⟩ := ih hparts hothers hremaining
          exact ⟨by rw [heq, hlater], hrest⟩

theorem commaSeparated_cons (part : List Char) (parts : List (List Char)) :
    commaSeparated (part :: parts) = part ++ parts.flatMap (',' :: ·) := by
  induction parts generalizing part with
  | nil => simp [commaSeparated]
  | cons next parts ih =>
      rw [commaSeparated, ih, List.flatMap_cons, List.cons_append]
      exact List.cons_ne_nil _ _

theorem block_nil_append :
    block level opening closing (List.map text []) ++ rest = opening :: closing :: rest := rfl

theorem exists_block_cons_append {part : α} :
    ∃ inner, block level opening closing ((part :: parts).map text) ++ rest
        = opening :: '\n' :: inner
      ∧ remaining level closing text (part :: parts) rest = ',' :: '\n' :: inner := by
  refine ⟨_, ?_, by rw [remaining_cons, newLine, List.cons_append]⟩
  simp [block, commaSeparated_cons, remaining, newLine, List.flatMap_map]

theorem block_append_inj (hclosing : closing ≠ '\n')
    (hparts : ∀ part ∈ parts, Legible valid text part) (hothers : ∀ other ∈ others, valid other)
    (h : block level opening closing (parts.map text) ++ rest
      = block level opening closing (others.map text) ++ rest') :
    parts = others ∧ rest = rest' := by
  cases parts with
  | nil =>
      cases others with
      | nil => simpa [block_nil_append] using h
      | cons other others =>
          obtain ⟨inner, hinner, -⟩ := exists_block_cons_append
          rw [hinner, block_nil_append, List.cons.injEq, List.cons.injEq] at h
          exact absurd h.2.1 hclosing
  | cons part parts =>
      obtain ⟨inner, hinner, hremaining⟩ := exists_block_cons_append
      rw [hinner] at h
      cases others with
      | nil =>
          rw [block_nil_append, List.cons.injEq, List.cons.injEq] at h
          exact absurd h.2.1.symm hclosing
      | cons other others =>
          obtain ⟨inner', hinner', hremaining'⟩ := exists_block_cons_append
          rw [hinner'] at h
          apply remaining_inj hparts hothers
          rw [hremaining, hremaining', (List.cons.inj h).2]

/-! ### Values -/

inductive Kind where
  | null
  | bool
  | number
  | str
  | arr
  | obj

def kind : Json → Kind
  | .null => .null
  | .bool _ => .bool
  | .int _ | .real _ => .number
  | .str _ => .str
  | .arr _ => .arr
  | .obj _ => .obj

/-- The kind that the first character tells. -/
def Kind.ofChar (c : Char) : Kind :=
  if isNumberChar c then .number
  else if c = '"' then .str
  else if c = '[' then .arr
  else if c = '\x7b' then .obj
  else if c = 'n' then .null
  else .bool

theorem prettyItems_eq_map (items : List Json) : prettyItems level items = items.map (pretty level) := by
  induction items with
  | nil => rfl
  | cons item items ih => rw [prettyItems, ih, List.map_cons]

def memberText (level : Nat) (member : String × Json) : List Char :=
  stringText member.1 ++ ':' :: ' ' :: member.2.pretty level

theorem prettyMembers_eq_map (members : List (String × Json)) :
    prettyMembers level members = members.map (memberText level) := by
  induction members with
  | nil => rfl
  | cons member members ih => rw [prettyMembers, ih, List.map_cons, memberText]

variable {json json' : Json}

theorem pretty_arr (items : List Json) :
    pretty level (.arr items) = block level '[' ']' (items.map (pretty (level + 1))) := by
  rw [pretty, prettyItems_eq_map]

theorem pretty_obj (members : List (String × Json)) :
    pretty level (.obj members) = block level '\x7b' '\x7d' (members.map (memberText (level + 1))) := by
  rw [pretty, prettyMembers_eq_map]

theorem exists_block_eq_cons (parts : List (List Char)) :
    ∃ inner, block level opening closing parts = opening :: inner := by
  rw [block]
  split
  · exact ⟨_, rfl⟩
  · exact ⟨_, rfl⟩

theorem exists_pretty_eq_cons (h : json.IsPlain) (level : Nat) :
    ∃ c cs, json.pretty level = c :: cs ∧ Kind.ofChar c = json.kind := by
  cases h with
  | null => exact ⟨_, _, rfl, rfl⟩
  | bool b => cases b <;> exact ⟨_, _, rfl, rfl⟩
  | int n =>
      obtain ⟨c, cs, htext⟩ := List.exists_cons_of_ne_nil (toList_toString_ne_nil n)
      have hc : isNumberChar c = true :=
        isNumberChar_of_mem (n := n) (htext ▸ List.mem_cons_self)
      exact ⟨c, cs, htext, if_pos hc⟩
  | str s => exact ⟨_, _, rfl, rfl⟩
  | arr h =>
      obtain ⟨inner, hinner⟩ := exists_block_eq_cons _
      exact ⟨_, inner, by rw [pretty_arr, hinner], rfl⟩
  | obj h =>
      obtain ⟨inner, hinner⟩ := exists_block_eq_cons _
      exact ⟨_, inner, by rw [pretty_obj, hinner], rfl⟩

theorem kind_eq_of_pretty_append_eq (h : json.IsPlain) (h' : json'.IsPlain)
    (htext : json.pretty level ++ rest = json'.pretty level ++ rest') : json.kind = json'.kind := by
  obtain ⟨c, cs, hc, hkind⟩ := exists_pretty_eq_cons h level
  obtain ⟨d, ds, hd, hkind'⟩ := exists_pretty_eq_cons h' level
  rw [hc, hd] at htext
  rw [← hkind, ← hkind', (List.cons.inj htext).1]

theorem legible_memberText {member : String × Json}
    (h : ∀ level, Legible IsPlain (pretty level) member.2) :
    Legible (fun other => other.2.IsPlain) (memberText level) member := by
  intro other rest rest' hother hends hends' htext
  rw [memberText, memberText, List.append_assoc, List.append_assoc] at htext
  obtain ⟨hname, hvalue⟩ := stringText_append_inj htext
  obtain ⟨hvalue, hrest⟩ :=
    h level hother hends hends' (List.cons.inj (List.cons.inj hvalue).2).2
  exact ⟨Prod.ext hname hvalue, hrest⟩

theorem legible_pretty (h : json.IsPlain) (level : Nat) :
    Legible IsPlain (pretty level) json := by
  -- The kinds agree by the first characters, which leaves one case of the other value for each case.
  induction h generalizing level with
  | null =>
      intro other rest rest' hother _ _ htext
      have hkind := kind_eq_of_pretty_append_eq .null hother htext
      cases hother with
      | null => exact ⟨rfl, List.append_cancel_left htext⟩
      | _ => cases hkind
  | bool b =>
      intro other rest rest' hother _ _ htext
      have hkind := kind_eq_of_pretty_append_eq (.bool b) hother htext
      cases hother with
      | bool b' => cases b <;> cases b' <;> simp_all [pretty, scalarText]
      | _ => cases hkind
  | int n =>
      intro other rest rest' hother hends hends' htext
      have hkind := kind_eq_of_pretty_append_eq (.int n) hother htext
      cases hother with
      | int n' =>
          obtain ⟨rfl, hrest⟩ := toString_append_inj hends hends' htext
          exact ⟨rfl, hrest⟩
      | _ => cases hkind
  | str s =>
      intro other rest rest' hother _ _ htext
      have hkind := kind_eq_of_pretty_append_eq (.str s) hother htext
      cases hother with
      | str s' =>
          obtain ⟨rfl, hrest⟩ := stringText_append_inj htext
          exact ⟨rfl, hrest⟩
      | _ => cases hkind
  | arr hitems ih =>
      intro other rest rest' hother _ _ htext
      have hkind := kind_eq_of_pretty_append_eq (.arr hitems) hother htext
      cases hother with
      | arr hothers =>
          rw [pretty_arr, pretty_arr] at htext
          obtain ⟨rfl, hrest⟩ :=
            block_append_inj (by decide) (fun item hitem => ih item hitem _) hothers htext
          exact ⟨rfl, hrest⟩
      | _ => cases hkind
  | obj hmembers ih =>
      intro other rest rest' hother _ _ htext
      have hkind := kind_eq_of_pretty_append_eq (.obj hmembers) hother htext
      cases hother with
      | obj hothers =>
          rw [pretty_obj, pretty_obj] at htext
          obtain ⟨rfl, hrest⟩ := block_append_inj (by decide)
            (fun member hmember => legible_memberText (ih member hmember)) hothers htext
          exact ⟨rfl, hrest⟩
      | _ => cases hkind

theorem page_inj (h : json.IsPlain) (h' : json'.IsPlain) (hpage : json.page = json'.page) :
    json = json' := by
  have htext : json.pretty 0 ++ [] = json'.pretty 0 ++ [] := by
    rw [String.ofList_injective hpage]
  have hends : Ends [] := nofun
  exact (legible_pretty h 0 h' hends hends htext).1

end Json

end ApiSuite
