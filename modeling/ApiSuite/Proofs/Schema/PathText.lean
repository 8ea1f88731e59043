import ApiSuite.Proofs.Schema.Genuine
import ApiSuite.Proofs.Text.Numerals

/-!
# Paths are told by their texts

The text of a path has no mark between two segments but the one that the second begins with, and none
before a key that stands first. Still no two paths whose keys are words have the same text, since a
word and a number end where the next segment begins. All that is reported of a document is reported at
such paths, so the text of a path mentions just what is reported there.
-/

namespace ApiSuite

namespace Text

def isWordChar (c : Char) : Bool :=
  c.isAlphanum || c == '_'

/-- One or more letters of ASCII, digits and underscores. -/
def IsWord (s : String) : Prop :=
  s ≠ "" ∧ ∀ c ∈ s.toList, isWordChar c = true

instance (s : String) : Decidable (IsWord s) :=
  inferInstanceAs (Decidable (_ ∧ _))

end Text

open Text

/-! ### Segments -/

def Segment.IsWordy (segment : Segment) : Prop :=
  ∀ name, segment = .key name → IsWord name

/-- Nothing, or a text that begins like a segment. -/
def StartsSegment (rest : List Char) : Prop :=
  ∀ c ∈ rest.head?, c = '.' ∨ c = '['

def segmentsText (segments : List Segment) : List Char :=
  segments.flatMap fun segment => segment.text.toList

variable {segment segment' : Segment} {segments segments' : List Segment} {rest rest' : List Char}

theorem toList_text_key (name : String) : (Segment.key name).text.toList = '.' :: name.toList := by
  rw [Segment.text, String.toList_append]
  rfl

theorem toList_text_index (n : Nat) :
    (Segment.index n).text.toList = '[' :: (Nat.toDigits 10 n ++ [']']) := by
  rw [Segment.text, String.toList_append, String.toList_append]
  exact congrArg (fun digits => '[' :: digits ++ [']']) Nat.toList_repr

theorem startsSegment_segmentsText (segments : List Segment) :
    StartsSegment (segmentsText segments) := by
  intro c hc
  cases segments with
  | nil => cases hc
  | cons segment segments =>
      rw [segmentsText, List.flatMap_cons] at hc
      cases segment with
      | key name =>
          rw [toList_text_key] at hc
          exact .inl (Option.some.inj hc).symm
      | index n =>
          rw [toList_text_index] at hc
          exact .inr (Option.some.inj hc).symm

theorem StartsSegment.not_word (h : StartsSegment rest) :
    ∀ c ∈ rest.head?, isWordChar c = false := by
  intro c hc
  obtain rfl | rfl := h c hc <;> decide

theorem Segment.text_append_inj (hsegment : segment.IsWordy) (hsegment' : segment'.IsWordy)
    (hrest : StartsSegment rest) (hrest' : StartsSegment rest')
    (h : segment.text.toList ++ rest = segment'.text.toList ++ rest') :
    segment = segment' ∧ rest = rest' := by
  cases segment with
  | key name =>
      cases segment' with
      | key name' =>
          rw [toList_text_key, toList_text_key] at h
          -- What follows begins with a character that is in no word, so both names end there.
          obtain ⟨hname, hrests⟩ := append_inj_of_run (hsegment name rfl).2 (hsegment' name' rfl).2
            hrest.not_word hrest'.not_word (List.cons.inj h).2
          exact ⟨congrArg key (String.toList_injective hname), hrests⟩
      | index n =>
          rw [toList_text_key, toList_text_index] at h
          exact absurd (List.cons.inj h).1 (by decide)
  | index n =>
      cases segment' with
      | key name' =>
          rw [toList_text_key, toList_text_index] at h
          exact absurd (List.cons.inj h).1 (by decide)
      | index n' =>
          rw [toList_text_index, toList_text_index, List.cons_append, List.cons_append,
            List.append_assoc, List.append_assoc] at h
          have hdigits (n : Nat) : ∀ c ∈ Nat.toDigits 10 n, c.isDigit = true :=
            fun c hc => isDigit_of_mem hc
          have hclosing (rest : List Char) : ∀ c ∈ ([']'] ++ rest).head?, c.isDigit = false := by
            rintro c ⟨⟩
            decide
          obtain ⟨hnumber, hrests⟩ := append_inj_of_run (hdigits n) (hdigits n') (hclosing rest)
            (hclosing rest') (List.cons.inj h).2
          exact ⟨congrArg index (toDigits_injective hnumber), (List.cons.inj hrests).2⟩

theorem segmentsText_inj (hwordy : ∀ segment ∈ segments, segment.IsWordy)
    (hwordy' : ∀ segment ∈ segments', segment.IsWordy)
    (h : segmentsText segments = segmentsText segments') : segments = segments' := by
  have hne (segment : Segment) (segments : List Segment) :
      segmentsText (segment :: segments) ≠ [] := by
    rw [segmentsText, List.flatMap_cons]
    cases segment with
    | key name => simp [toList_text_key]
    | index n => simp [toList_text_index]
  induction segments generalizing segments' with
  | nil =>
      cases segments' with
      | nil => rfl
      | cons segment' segments' => exact absurd h.symm (hne segment' segments')
  | cons segment segments ih =>
      cases segments' with
      | nil => exact absurd h (hne segment segments)
      | cons segment' segments' =>
          obtain ⟨hfirst, hlater⟩ := List.forall_mem_cons.mp hwordy
          obtain ⟨hfirst', hlater'⟩ := List.forall_mem_cons.mp hwordy'
          rw [segmentsText, segmentsText, List.flatMap_cons, List.flatMap_cons] at h
          obtain ⟨rfl, hrest⟩ := Segment.text_append_inj hfirst hfirst'
            (startsSegment_segmentsText segments) (startsSegment_segmentsText segments') h
          rw [ih hlater hlater' hrest]

/-! ### Paths -/

namespace FieldPath

/-- The keys of the path are words. -/
def IsWordy (path : FieldPath) : Prop :=
  ∀ segment ∈ path.segments, segment.IsWordy

variable {path path' : FieldPath} {name : String}

theorem isWordy_root : root.IsWordy :=
  List.forall_mem_nil _

theorem IsWordy.key (h : path.IsWordy) (hname : IsWord name) : (path.key name).IsWordy := by
  refine List.forall_mem_append.mpr ⟨h, List.forall_mem_singleton.mpr ?_⟩
  rintro _ ⟨⟩
  exact hname

theorem IsWordy.index (h : path.IsWordy) (i : Nat) : (path.index i).IsWordy := by
  refine List.forall_mem_append.mpr ⟨h, List.forall_mem_singleton.mpr ?_⟩
  rintro _ ⟨⟩

theorem toList_join_text (segments : List Segment) :
    (String.join (segments.map Segment.text)).toList = segmentsText segments := by
  rw [String.toList_join, List.flatMap_map, segmentsText]

/-- A text with the point that is left out before a key that stands first. -/
def withPoint : List Char → List Char
  | [] => []
  | c :: rest => if isWordChar c then '.' :: c :: rest else c :: rest

theorem withPoint_text (hwordy : path.IsWordy) :
    withPoint path.text.toList =
      if path = root then "<root>".toList else segmentsText path.segments := by
  obtain ⟨segments⟩ := path
  cases segments with
  | nil => rfl
  | cons first rest =>
      have hroot : (⟨first :: rest⟩ : FieldPath) ≠ root := by simp [root]
      rw [if_neg hroot, segmentsText, List.flatMap_cons, ← segmentsText]
      cases first with
      | key name =>
          obtain ⟨hne, hchars⟩ := hwordy (.key name) List.mem_cons_self name rfl
          obtain ⟨c, more, hname⟩ := List.exists_cons_of_ne_nil (mt String.toList_eq_nil_iff.mp hne)
          have hc : isWordChar c = true := hchars c (hname ▸ List.mem_cons_self)
          rw [text, String.toList_append, toList_join_text, toList_text_key, hname]
          exact if_pos hc
      | index n =>
          rw [toList_text_index, ← toList_join_text]
          change withPoint ((Segment.index n).text ++ String.join (rest.map Segment.text)).toList = _
          rw [String.toList_append, toList_text_index]
          rfl

theorem segmentsText_ne_root (segments : List Segment) :
    "<root>".toList ≠ segmentsText segments := by
  intro h
  have hfirst := startsSegment_segmentsText segments '<' (h ▸ rfl)
  exact absurd hfirst (by decide)

theorem eq_of_text_eq (hwordy : path.IsWordy) (hwordy' : path'.IsWordy)
    (h : path.text = path'.text) : path = path' := by
  have hpoint := withPoint_text hwordy
  rw [h, withPoint_text hwordy'] at hpoint
  split_ifs at hpoint with hroot' hroot hroot
  · rw [hroot, hroot']
  · exact absurd hpoint (segmentsText_ne_root _)
  · exact absurd hpoint.symm (segmentsText_ne_root _)
  · obtain ⟨segments⟩ := path
    obtain ⟨segments'⟩ := path'
    exact congrArg mk (segmentsText_inj hwordy hwordy' hpoint.symm)

end FieldPath

namespace Schema

/-! ### Where something is reported -/

variable {document : Value} {path : FieldPath} {name : String} {rule : FieldRule}

theorem Element.Holds.isWord {whole element : Element} (h : whole.Holds name element) :
    IsWord name := by
  cases h <;> decide

theorem Element.isWord_of_mem_rules {element : Element} : ∀ rule ∈ element.rules, IsWord rule.name := by
  cases element <;> decide

theorem isWord_of_mem_configRules {plugin : Plugin} :
    ∀ rule ∈ configRules plugin, IsWord rule.name := by
  cases plugin <;> decide

theorem isWord_of_mem_assertionRules {kind : AssertionKind} :
    ∀ rule ∈ assertionRules kind, IsWord rule.name := by
  cases kind <;> decide

theorem Place.isWordy {element : Element} (h : Place element path) : path.IsWordy := by
  induction h with
  | root => exact FieldPath.isWordy_root
  | item hholds hplace i ih => exact (ih.key hholds.isWord).index i

theorem Ruled.isWordy (h : Ruled document path rule) : path.IsWordy ∧ IsWord rule.name := by
  cases h with
  | element hplace hrule => exact ⟨hplace.isWordy, Element.isWord_of_mem_rules rule hrule⟩
  | setting hplace _ _ hrule =>
      exact ⟨hplace.isWordy.key (by decide), isWord_of_mem_configRules rule hrule⟩
  | payload hplace _ _ hrule => exact ⟨hplace.isWordy, isWord_of_mem_assertionRules rule hrule⟩

theorem Requires.isWordy (h : Requires document path name) : path.IsWordy ∧ IsWord name := by
  cases h with
  | field hruled _ => exact hruled.isWordy
  | tests hplace | steps hplace | plugin hplace | config hplace | type hplace =>
      exact ⟨hplace.isWordy, by decide⟩

theorem Asks.isWordy {demand : Demand} (h : Asks document path demand) : path.IsWordy := by
  cases h with
  | element hplace => exact hplace.isWordy
  | items hholds hplace => exact hplace.isWordy.key hholds.isWord
  | field hruled => exact hruled.isWordy.1.key hruled.isWordy.2
  | tests hplace | steps hplace | pluginText hplace | plugin hplace | config hplace
  | settings hplace | typeText hplace | type hplace => exact hplace.isWordy.key (by decide)

theorem Genuine.isWordy {defect : Defect} (h : Genuine document path defect) : path.IsWordy := by
  cases h with
  | missing hrequires _ _ => exact hrequires.isWordy.1.key hrequires.isWordy.2
  | broken _ hasks _ => exact hasks.isWordy

theorem genuine_of_mem_defects {defect : Defect} (h : (path, defect) ∈ (checkSuite document).defects) :
    Genuine document path defect :=
  genuine_checkSuite .root rfl (path, defect) h

theorem isWordy_of_mem {broken : List Violation} (h : validate document = .error broken) :
    ∀ violation ∈ broken, violation.path.IsWordy := by
  obtain ⟨rfl, -⟩ := validate_eq_error_iff.mp h
  intro violation hviolation
  obtain ⟨⟨path, defect⟩, hfound, rfl⟩ := List.mem_map.mp hviolation
  exact (genuine_of_mem_defects hfound).isWordy

theorem mentions_text_iff {broken : List Violation}
    (hbroken : ∀ violation ∈ broken, violation.path.IsWordy) (hpath : path.IsWordy) :
    mentions broken path.text = true ↔ ∃ violation ∈ broken, violation.path = path := by
  rw [mentions, List.any_eq_true]
  constructor
  · rintro ⟨violation, hviolation, htext⟩
    refine ⟨violation, hviolation, ?_⟩
    exact FieldPath.eq_of_text_eq (hbroken violation hviolation) hpath (eq_of_beq htext)
  · rintro ⟨violation, hviolation, rfl⟩
    exact ⟨violation, hviolation, beq_self_eq_true _⟩

/-- **Texts of paths.** A path whose keys are words is told by its text. Whatever is reported of a
document is reported at such paths: a text mentions what is reported at the path that it displays, and
no two paths with something to report are displayed alike. -/
theorem text_tells_path :
    (∀ path path' : FieldPath, path.IsWordy → path'.IsWordy → (path.text = path'.text ↔ path = path'))
    ∧ ∀ (document : Value) (broken : List Violation), validate document = .error broken →
        (∀ violation ∈ broken, violation.path.IsWordy)
        ∧ (∀ path : FieldPath, path.IsWordy →
            (mentions broken path.text = true ↔ ∃ violation ∈ broken, violation.path = path))
        ∧ ∀ violation ∈ broken, ∀ violation' ∈ broken, violation.path ≠ violation'.path →
            violation.path.text ≠ violation'.path.text := by
  constructor
  · intro path path' hpath hpath'
    exact ⟨FieldPath.eq_of_text_eq hpath hpath', congrArg FieldPath.text⟩
  · intro document broken h
    have hbroken := isWordy_of_mem h
    refine ⟨hbroken, fun path hpath => mentions_text_iff hbroken hpath, ?_⟩
    intro violation hviolation violation' hviolation' hne htext
    exact hne (FieldPath.eq_of_text_eq (hbroken _ hviolation) (hbroken _ hviolation') htext)

theorem text_tells_path_two_tests :
    let test : Value := .map [(.str "name", .str "t"), (.str "steps", .seq [])]
    let document : Value := .map [(.str "tests", .seq [test, .tagged "k" test])]
    let path := ((FieldPath.root.key "tests").index 1).key "steps"
    ∃ broken, validate document = .error broken
      ∧ mentions broken "tests[1].steps" = true ∧ path.text = "tests[1].steps"
      ∧ (∃ violation ∈ broken, violation.path = path)
      ∧ (∀ violation ∈ broken, ∀ violation' ∈ broken, violation.path ≠ violation'.path →
          violation.path.text ≠ violation'.path.text)
      ∧ ((FieldPath.root.key "t").index 1).text ≠ (FieldPath.root.key "t_1").text := by
  intro test document path
  have hbroken : validate document = .error (violations document) :=
    validate_eq_error_iff.mpr ⟨rfl, by decide +kernel⟩
  have htests : (FieldPath.root.key "tests").IsWordy := FieldPath.isWordy_root.key (by decide)
  have hpath : path.IsWordy := (htests.index 1).key (by decide)
  have hmentions : mentions (violations document) path.text = true := by decide +kernel
  have hindex : ((FieldPath.root.key "t").index 1).IsWordy :=
    (FieldPath.isWordy_root.key (by decide)).index 1
  have hkey : (FieldPath.root.key "t_1").IsWordy := FieldPath.isWordy_root.key (by decide)
  obtain ⟨-, htells, hapart⟩ := text_tells_path.2 document _ hbroken
  refine ⟨_, hbroken, hmentions, by decide +kernel, (htells path hpath).mp hmentions, hapart, ?_⟩
  rw [ne_eq, text_tells_path.1 _ _ hindex hkey]
  exact (FieldPath.key_ne_index _ _ _ _).symm

end Schema

end ApiSuite
