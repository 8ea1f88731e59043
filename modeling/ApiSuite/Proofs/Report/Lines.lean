import ApiSuite.Proofs.Json.Printable
import ApiSuite.Proofs.Report.Width
import ApiSuite.Proofs.Schema.PathText
import ApiSuite.Proofs.Suite.WellFormed

/-!
# One line for each item

A report has a line for each of its items. Numbers, paths and words of its own have no line break, and
those in a value that is shown as JSON are escaped as far as they are control characters. Names and
keys, texts among the settings and texts that messages quote are shown as they are written. So an item
stands on one line unless such a text does not.
-/

namespace ApiSuite

namespace Text

/-- The characters that end a line. -/
def lineBreaks : List Char :=
  ['\n', '\x0b', '\x0c', '\r', '\x85', '\u2028', '\u2029']

def IsOneLine (s : String) : Prop :=
  ∀ c ∈ lineBreaks, c ∉ s.toList

instance (s : String) : Decidable (IsOneLine s) :=
  inferInstanceAs (Decidable (∀ c ∈ lineBreaks, _))

variable {c : Char} {s t : String}

theorem mem_toList_append : c ∈ (s ++ t).toList ↔ c ∈ s.toList ∨ c ∈ t.toList := by
  rw [String.toList_append, List.mem_append]

theorem mem_intercalate_iff {texts : List String} (h : c ∉ s.toList) :
    c ∈ (String.intercalate s texts).toList ↔ ∃ text ∈ texts, c ∈ text.toList := by
  induction texts with
  | nil => simp
  | cons text texts ih =>
      cases texts with
      | nil => simp
      | cons next texts =>
          rw [String.intercalate_cons_cons, mem_toList_append, mem_toList_append, ih, or_iff_left h]
          simp only [List.mem_cons, exists_eq_or_imp]

theorem exists_mem_flatMap_iff {α β : Type} {xs : List α} {f : α → List β} {p : β → Prop} :
    (∃ y ∈ xs.flatMap f, p y) ↔ ∃ x ∈ xs, ∃ y ∈ f x, p y := by
  constructor
  · rintro ⟨y, hy, hp⟩
    obtain ⟨x, hx, hy⟩ := List.mem_flatMap.mp hy
    exact ⟨x, hx, y, hy, hp⟩
  · rintro ⟨x, hx, y, hy, hp⟩
    exact ⟨y, List.mem_flatMap.mpr ⟨x, hx, hy⟩, hp⟩

theorem isOneLine_append : IsOneLine (s ++ t) ↔ IsOneLine s ∧ IsOneLine t := by
  simp only [IsOneLine, mem_toList_append, not_or, forall_and]

theorem isOneLine_join {texts : List String} (h : ∀ text ∈ texts, IsOneLine text) :
    IsOneLine (String.join texts) := by
  intro c hc hmem
  rw [String.toList_join] at hmem
  obtain ⟨text, htext, hmem⟩ := List.mem_flatMap.mp hmem
  exact h text htext c hc hmem

theorem isOneLine_of_isWordChar (h : ∀ c ∈ s.toList, isWordChar c = true) : IsOneLine s := by
  have hbreaks : ∀ c ∈ lineBreaks, isWordChar c = false := by decide
  intro c hc hmem
  exact Bool.noConfusion ((h c hmem).symm.trans (hbreaks c hc))

theorem isOneLine_toString (n : Nat) : IsOneLine (toString n) := by
  refine isOneLine_of_isWordChar fun c hc => ?_
  simp [isWordChar, Char.isAlphanum, isDigit_of_mem_toString hc]

theorem notMem_of_isOneLine (hc : c ∈ lineBreaks) (h : IsOneLine s) : c ∉ s.toList :=
  h c hc

theorem notMem_toString (hc : c ∈ lineBreaks) (n : Nat) : c ∉ (toString n).toList :=
  notMem_of_isOneLine hc (isOneLine_toString n)

theorem isOneLine_of_isIdentifierText (h : Schema.IsIdentifierText s) : IsOneLine s := by
  obtain ⟨first, rest, hs, hfirst, hrest⟩ := h
  refine isOneLine_of_isWordChar fun c hc => ?_
  rw [hs, List.mem_cons] at hc
  obtain rfl | hc := hc
  · obtain halpha | rfl := hfirst
    · simp [isWordChar, Char.isAlphanum, halpha]
    · decide
  · obtain halnum | rfl := hrest c hc
    · simp [isWordChar, halnum]
    · decide

end Text

open Text

variable {c : Char}

/-! ### Paths and messages -/

theorem Segment.IsWordy.isOneLine {segment : Segment} (h : segment.IsWordy) :
    IsOneLine segment.text := by
  cases segment with
  | key name => exact isOneLine_append.mpr ⟨by decide, isOneLine_of_isWordChar (h name rfl).2⟩
  | index n =>
      exact isOneLine_append.mpr
        ⟨isOneLine_append.mpr ⟨by decide, isOneLine_toString n⟩, by decide⟩

theorem FieldPath.IsWordy.isOneLine {path : FieldPath} (h : path.IsWordy) : IsOneLine path.text := by
  obtain ⟨segments⟩ := path
  cases segments with
  | nil => exact (by decide : IsOneLine "<root>")
  | cons first rest =>
      obtain ⟨hfirst, hrest⟩ := List.forall_mem_cons.mp h
      have hjoin : IsOneLine (String.join (rest.map Segment.text)) := by
        refine isOneLine_join fun text htext => ?_
        obtain ⟨segment, hsegment, rfl⟩ := List.mem_map.mp htext
        exact (hrest segment hsegment).isOneLine
      cases first with
      | key name => exact isOneLine_append.mpr ⟨isOneLine_of_isWordChar (hfirst name rfl).2, hjoin⟩
      | index n => exact isOneLine_append.mpr ⟨hfirst.isOneLine, hjoin⟩

namespace Schema

/-- The text of a document that the message of a defect quotes. -/
def Defect.quoted? : Defect → Option String
  | .notScalar text _ | .notDuration text | .notMethod text | .notIdentifier text
  | .unknownPlugin text | .unknownAssertion text => some text
  | _ => none

/-- What is quoted in the messages about a document. -/
def quotedTexts (document : Value) : List String :=
  (checkSuite document).defects.filterMap fun entry => entry.2.quoted?

theorem isOneLine_describe (value : Value) : IsOneLine value.describe := by
  unfold Value.describe
  split <;> decide

theorem isOneLine_phrase (wanted : Wanted) : IsOneLine wanted.phrase := by
  cases wanted <;> decide +kernel

theorem Defect.mem_message_iff {defect : Defect} (hc : c ∈ lineBreaks)
    (hmissing : ∀ field, defect = .missing field → IsWord field) :
    c ∈ defect.message.toList ↔ ∃ text ∈ defect.quoted?, c ∈ text.toList := by
  have hdescribe (value : Value) : c ∉ value.describe.toList := isOneLine_describe value c hc
  have hphrase (wanted : Wanted) : c ∉ wanted.phrase.toList := isOneLine_phrase wanted c hc
  -- Every message is put together from words of its own, kinds of values, numbers and what it quotes.
  unfold message quoted?
  cases defect with
  | missing field =>
      have hfield : c ∉ field.toList := isOneLine_of_isWordChar (hmissing field rfl).2 c hc
      simp (disch := decide +kernel) only [mem_toList_append, notMem_of_isOneLine hc, hfield,
        or_false, Option.not_mem_none, false_and, exists_false]
  | _ =>
      simp (disch := decide +kernel) only [mem_toList_append, notMem_of_isOneLine hc,
        notMem_toString hc, hdescribe, hphrase, false_or, or_false, Option.mem_some_iff,
        exists_eq_left', Option.not_mem_none, false_and, exists_false]

theorem Genuine.isWord_of_missing {document : Value} {path : FieldPath} {field : String}
    (h : Genuine document path (.missing field)) : IsWord field := by
  cases h with
  | missing hrequires _ _ => exact hrequires.isWordy.2
  | broken _ _ hbreaks => exact absurd rfl (hbreaks.ne_missing field)

end Schema

/-! ### Lines of a report -/

namespace Report

/-- The texts of a step that its line shows as they are. -/
def stepTexts (report : Report) (step : Step) : List String :=
  step.name :: step.config.entries.flatMap fun entry => [entry.1, report.shorten entry.2.fullText]

def testTexts (report : Report) (test : Test) : List String :=
  test.name :: test.steps.flatMap report.stepTexts

/-- The texts of a suite that are shown as they are. -/
def suiteTexts (report : Report) (suite : Suite) : List String :=
  suite.name :: suite.tests.flatMap report.testTexts

variable {report : Report} {path : String} {suite : Suite} {test : Test} {step : Step}

theorem mem_paint_iff {colour : Colour} {text : String} (hc : c ∈ lineBreaks) :
    c ∈ (report.paint colour text).toList ↔ c ∈ text.toList := by
  have hcode : c ∉ colour.code.toList := by
    cases colour <;> exact notMem_of_isOneLine hc (by decide)
  unfold paint
  split
  · simp (disch := decide) only [mem_toList_append, notMem_of_isOneLine hc, hcode, false_or, or_false]
  · exact Iff.rfl

theorem mem_enclose_iff {value : Value} {shown : String} (hc : c ∈ lineBreaks) :
    c ∈ (value.enclose shown).toList ↔ c ∈ shown.toList := by
  unfold Value.enclose
  split
  · simp (disch := decide) only [mem_toList_append, notMem_of_isOneLine hc, false_or, or_false]
  · exact Iff.rfl

theorem mem_showConfig_iff {config : Config} (hc : c ∈ lineBreaks) :
    c ∈ (report.showConfig config).toList ↔ ∃ entry ∈ config.entries,
      c ∈ entry.1.toList ∨ c ∈ (report.shorten entry.2.fullText).toList := by
  rw [showConfig_eq, mem_intercalate_iff (notMem_of_isOneLine hc (by decide))]
  simp (disch := decide) only [List.mem_map, exists_exists_and_eq_and, mem_toList_append,
    mem_enclose_iff hc, notMem_of_isOneLine hc, or_false]

theorem exists_mem_stepTexts_iff :
    (∃ text ∈ report.stepTexts step, c ∈ text.toList) ↔ c ∈ step.name.toList
      ∨ ∃ entry ∈ step.config.entries,
        c ∈ entry.1.toList ∨ c ∈ (report.shorten entry.2.fullText).toList := by
  simp only [stepTexts, List.mem_cons, exists_eq_or_imp, exists_mem_flatMap_iff, List.not_mem_nil,
    or_false, exists_eq_left]

theorem mem_stepLine_iff {i : Nat} (hc : c ∈ lineBreaks)
    (hcaptures : ∀ capture ∈ step.captures, IsOneLine capture.name) :
    c ∈ (report.stepLine i step).toList ↔ ∃ text ∈ report.stepTexts step, c ∈ text.toList := by
  have hplugin : c ∉ step.plugin.name.toList := by
    cases step.plugin <;> exact notMem_of_isOneLine hc (by decide)
  have hassertions : c ∉ (if step.assertions.isEmpty then ""
      else " (" ++ toString step.assertions.length ++ " assertion(s))").toList := by
    split
    · exact notMem_of_isOneLine hc (by decide)
    · simp (disch := decide +kernel) only [mem_toList_append, notMem_of_isOneLine hc,
        notMem_toString hc, or_false]
      exact id
  have hnames : c ∉ (if step.captures.isEmpty then ""
      else " -> " ++ String.intercalate ", " (step.captures.map (·.name))).toList := by
    split
    · exact notMem_of_isOneLine hc (by decide)
    · rw [mem_toList_append, mem_intercalate_iff (notMem_of_isOneLine hc (by decide))]
      rintro (harrow | ⟨name, hname, hmem⟩)
      · exact notMem_of_isOneLine hc (by decide) harrow
      · obtain ⟨capture, hcapture, rfl⟩ := List.mem_map.mp hname
        exact hcaptures capture hcapture c hc hmem
  rw [exists_mem_stepTexts_iff, stepLine, showStep]
  simp (disch := decide) only [mem_toList_append, notMem_of_isOneLine hc, notMem_toString hc,
    mem_paint_iff hc, hplugin, mem_showConfig_iff hc, hassertions, hnames, false_or, or_false]

theorem exists_mem_testLines_iff (hc : c ∈ lineBreaks) (htest : test.WellFormed) :
    (∃ line ∈ report.testLines test, c ∈ line.toList) ↔
      ∃ text ∈ report.testTexts test, c ∈ text.toList := by
  have hindent : c ∉ "      ".toList := notMem_of_isOneLine hc (by decide)
  have hstepLine {step : Step} {i : Nat} (hstep : step ∈ test.steps) :
      c ∈ (report.stepLine i step).toList ↔ ∃ text ∈ report.stepTexts step, c ∈ text.toList :=
    mem_stepLine_iff hc fun capture hcapture =>
      isOneLine_of_isIdentifierText ((htest.steps step hstep).captures capture hcapture).name
  simp only [testLines, testTexts, List.mem_cons, exists_eq_or_imp, mem_toList_append, hindent,
    false_or, exists_mem_flatMap_iff]
  refine or_congr_right ⟨?_, ?_⟩
  · rintro ⟨line, hline, hmem⟩
    obtain ⟨i, hi, rfl⟩ := List.mem_mapIdx.mp hline
    have hstep : test.steps[i] ∈ test.steps := List.getElem_mem hi
    exact ⟨_, hstep, (hstepLine hstep).mp hmem⟩
  · rintro ⟨step, hstep, hmem⟩
    obtain ⟨i, hi, rfl⟩ := List.getElem_of_mem hstep
    exact ⟨_, List.mem_mapIdx.mpr ⟨i, hi, rfl⟩, (hstepLine hstep).mpr hmem⟩

theorem exists_mem_outlineLines_iff (hc : c ∈ lineBreaks) (hsuite : suite.WellFormed) :
    (∃ line ∈ report.outlineLines suite, c ∈ line.toList) ↔
      ∃ text ∈ suite.tests.flatMap report.testTexts, c ∈ text.toList := by
  rw [outlineLines, exists_mem_flatMap_iff, exists_mem_flatMap_iff]
  exact exists_congr fun test => and_congr_right fun htest =>
    exists_mem_testLines_iff hc (hsuite.tests test htest)

theorem mem_passLine_iff (hc : c ∈ lineBreaks) :
    c ∈ (report.passLine path suite).toList ↔ c ∈ path.toList ∨ c ∈ suite.name.toList := by
  simp (disch := decide +kernel) only [passLine, mem_toList_append, notMem_of_isOneLine hc,
    notMem_toString hc, mem_paint_iff hc, false_or, or_false]

/-- The index of the line in the outline for test `i`, before which come a line for every earlier test
and every step of these. -/
def headingAt (suite : Suite) (i : Nat) : Nat :=
  i + ((suite.tests.take i).flatMap (·.steps)).length

/-- A line for every test and one for every step, in order, the steps of a test being numbered from
one. -/
structure Outlines (report : Report) (suite : Suite) (lines : List String) : Prop where
  length : lines.length = suite.tests.length + suite.stepCount
  test : ∀ i test, suite.tests[i]? = some test → lines[headingAt suite i]? = some ("      " ++ test.name)
  step : ∀ i j test step, suite.tests[i]? = some test → test.steps[j]? = some step →
    lines[headingAt suite i + (j + 1)]? =
      some ("        " ++ toString (j + 1) ++ ". " ++ report.showStep step)

theorem length_flatMap_testLines (tests : List Test) :
    (tests.flatMap report.testLines).length = tests.length + (tests.flatMap (·.steps)).length := by
  induction tests with
  | nil => rfl
  | cons test tests ih =>
      simp only [List.flatMap_cons, List.length_append, List.length_cons, ih, testLines,
        List.length_mapIdx]
      omega

theorem getElem?_outlineLines {i j : Nat} (htest : suite.tests[i]? = some test)
    (hj : j ≤ test.steps.length) :
    (report.outlineLines suite)[headingAt suite i + j]? = (report.testLines test)[j]? := by
  obtain ⟨before, after, hsplit, rfl⟩ := exists_split_of_getElem? htest
  -- The tests before this one take up a line for each of them and of their steps.
  have hbefore : headingAt suite before.length = (before.flatMap report.testLines).length := by
    rw [headingAt, hsplit, List.take_left, length_flatMap_testLines]
  have hinside : j < (report.testLines test).length := by
    rw [testLines, List.length_cons, List.length_mapIdx]
    omega
  rw [outlineLines, hsplit, List.flatMap_append, List.flatMap_cons, hbefore,
    List.getElem?_append_right (Nat.le_add_right _ _), Nat.add_sub_cancel_left,
    List.getElem?_append_left hinside]

theorem outlines_outlineLines (report : Report) (suite : Suite) :
    report.Outlines suite (report.outlineLines suite) where
  length := length_flatMap_testLines suite.tests
  test i test htest := (getElem?_outlineLines htest (Nat.zero_le _)).trans rfl
  step i j test step htest hstep := by
    have hj : j < test.steps.length := (List.getElem?_eq_some_iff.mp hstep).1
    rw [getElem?_outlineLines htest hj, testLines, List.getElem?_cons_succ, List.getElem?_mapIdx, hstep]
    rfl

/-! ### Lines of a failure -/

/-- Two lines and one for every violation, in order. -/
structure Itemizes (report : Report) (violations : List Schema.Violation) (lines : List String) :
    Prop where
  length : lines.length = 2 + violations.length
  violation : ∀ i violation, violations[i]? = some violation →
    lines[2 + i]? = some
      ("       - " ++ report.paint .yellow violation.path.text ++ ": " ++ violation.message)

theorem itemizes_failureLines (report : Report) (path : String) (violations : List Schema.Violation) :
    report.Itemizes violations (report.failureLines path (.rejected violations)) where
  length := by
    rw [failureLines, List.length_cons, List.length_cons, List.length_map]
    omega
  violation i violation hviolation := by
    rw [failureLines, Nat.add_comm, List.getElem?_cons_succ, List.getElem?_cons_succ,
      List.getElem?_map, hviolation]
    rfl

theorem mem_violationLine_iff {violation : Schema.Violation} (hc : c ∈ lineBreaks)
    (hwordy : violation.path.IsWordy) :
    c ∈ (report.violationLine violation).toList ↔ c ∈ violation.message.toList := by
  have hpath : c ∉ violation.path.text.toList := hwordy.isOneLine c hc
  simp (disch := decide) only [violationLine, mem_toList_append, notMem_of_isOneLine hc,
    mem_paint_iff hc, hpath, false_or]

theorem exists_mem_failureLines_iff {document : Value} {violations : List Schema.Violation}
    (hc : c ∈ lineBreaks) (hpath : c ∉ path.toList)
    (h : Schema.validate document = .error violations) :
    (∃ line ∈ report.failureLines path (.rejected violations), c ∈ line.toList) ↔
      ∃ text ∈ Schema.quotedTexts document, c ∈ text.toList := by
  have hitem : ∀ entry ∈ (Schema.checkSuite document).defects,
      (c ∈ (report.violationLine ⟨entry.1, entry.2.message⟩).toList ↔
        ∃ text ∈ entry.2.quoted?, c ∈ text.toList) := by
    rintro ⟨path, defect⟩ hentry
    have hgenuine := Schema.genuine_of_mem_defects hentry
    rw [mem_violationLine_iff hc hgenuine.isWordy]
    refine Schema.Defect.mem_message_iff hc fun field hfield => ?_
    obtain rfl : defect = .missing field := hfield
    exact hgenuine.isWord_of_missing
  obtain ⟨rfl, -⟩ := Schema.validate_eq_error_iff.mp h
  simp (disch := decide +kernel) only [failureLines, List.mem_cons, exists_eq_or_imp,
    mem_toList_append, notMem_of_isOneLine hc, notMem_toString hc, hpath, mem_paint_iff hc, false_or]
  constructor
  · rintro ⟨line, hline, hmem⟩
    obtain ⟨violation, hviolation, rfl⟩ := List.mem_map.mp hline
    obtain ⟨entry, hentry, rfl⟩ := List.mem_map.mp hviolation
    obtain ⟨text, htext, hmem⟩ := (hitem entry hentry).mp hmem
    exact ⟨text, List.mem_filterMap.mpr ⟨entry, hentry, htext⟩, hmem⟩
  · rintro ⟨text, htext, hmem⟩
    obtain ⟨entry, hentry, htext⟩ := List.mem_filterMap.mp htext
    exact ⟨_, List.mem_map.mpr ⟨_, List.mem_map.mpr ⟨entry, hentry, rfl⟩, rfl⟩,
      (hitem entry hentry).mpr ⟨text, htext, hmem⟩⟩

end Report

/-! ### Files -/

variable {bytes : List UInt8}

theorem Suite.wellFormed_of_parse {suite : Suite} (h : parse bytes = .ok suite) :
    suite.WellFormed := by
  obtain ⟨document, -, h⟩ := bind_eq_ok_iff.mp h
  obtain ⟨⟨⟩, hvalid, h⟩ := bind_eq_ok_iff.mp h
  rw [mapError_eq_ok_iff] at hvalid h
  rw [Schema.validate_eq_ok_iff_clean, Schema.clean_checkSuite_iff] at hvalid
  obtain ⟨entries, -, hisSuite, hsuite⟩ := hvalid.and (Suite.mirrors_of_build hvalid h)
  exact hsuite.wellFormed hisSuite

theorem parse_eq_rejected_iff {violations : List Schema.Violation} :
    parse bytes = .error (.rejected violations) ↔
      ∃ document, Yaml.read bytes = .ok document ∧ Schema.validate document = .error violations := by
  constructor
  · intro h
    obtain h | ⟨document, hread, h⟩ := bind_eq_error_iff.mp h
    · obtain ⟨fault, -, ⟨⟩⟩ := mapError_eq_error_iff.mp h
    · obtain h | ⟨⟨⟩, -, h⟩ := bind_eq_error_iff.mp h
      · obtain ⟨violations, hinvalid, ⟨⟩⟩ := mapError_eq_error_iff.mp h
        exact ⟨document, mapError_eq_ok_iff.mp hread, hinvalid⟩
      · obtain ⟨error, -, ⟨⟩⟩ := mapError_eq_error_iff.mp h
  · rintro ⟨document, hread, hinvalid⟩
    rw [parse, hread]
    refine bind_eq_error_iff.mpr (.inr ⟨document, rfl, bind_eq_error_iff.mpr (.inl ?_)⟩)
    exact mapError_eq_error_iff.mpr ⟨violations, hinvalid, rfl⟩

namespace Report

variable {report : Report}

theorem isPrintable_shorten {text : String} (h : Json.IsPrintable text.toList) :
    Json.IsPrintable (report.shorten text).toList := by
  unfold shorten
  split
  · exact h
  · rw [String.toList_append, String.toList_ofList]
    refine Json.isPrintable_append.mpr ⟨fun c hc => h c (List.mem_of_mem_take hc), ?_⟩
    exact (by decide : Json.IsPrintable "...".toList)

theorem isPrintable_fullText {value : Value} (h : ∀ s, value ≠ .str s) :
    Json.IsPrintable value.fullText.toList := by
  unfold Value.fullText
  split
  case h_1 s => exact absurd rfl (h s)
  case h_2 =>
    split
    · rw [Json.line, String.toList_ofList]
      exact Json.isPrintable_compact _
    · exact (by decide : Json.IsPrintable "?".toList)

/-- **Lines.** A report has one line for each item, in order. A line break stands in a line just where
it stands in a text that is shown as it is: in a name, a key or a setting of the suite, or in what the
messages quote. Among the settings, only texts can have one that is a control character. -/
theorem exists_break_iff {bytes : List UInt8} {path : String} (report : Report) (hc : c ∈ lineBreaks)
    (hpath : c ∉ path.toList) :
    (∀ suite, parse bytes = .ok suite →
      report.Outlines suite (report.outlineLines suite)
      ∧ ((∃ line ∈ report.passLine path suite :: report.outlineLines suite, c ∈ line.toList) ↔
          ∃ text ∈ report.suiteTexts suite, c ∈ text.toList))
    ∧ (∀ violations, parse bytes = .error (.rejected violations) →
      report.Itemizes violations (report.failureLines path (.rejected violations))
      ∧ ∃ document, Yaml.read bytes = .ok document ∧ Schema.validate document = .error violations
          ∧ ((∃ line ∈ report.failureLines path (.rejected violations), c ∈ line.toList) ↔
              ∃ text ∈ Schema.quotedTexts document, c ∈ text.toList))
    ∧ ∀ value : Value, (∀ s, value ≠ .str s) → c.toNat < 32 →
        c ∉ (report.shorten value.fullText).toList := by
  refine ⟨?_, ?_, ?_⟩
  · intro suite hsuite
    refine ⟨outlines_outlineLines report suite, ?_⟩
    simp only [suiteTexts, List.mem_cons, exists_eq_or_imp, mem_passLine_iff hc, or_iff_right hpath,
      exists_mem_outlineLines_iff hc (Suite.wellFormed_of_parse hsuite)]
  · intro violations hviolations
    obtain ⟨document, hread, hinvalid⟩ := parse_eq_rejected_iff.mp hviolations
    exact ⟨itemizes_failureLines report path violations, document, hread, hinvalid,
      exists_mem_failureLines_iff hc hpath hinvalid⟩
  · intro value hvalue hlow hmem
    have hprintable : 32 ≤ c.toNat := isPrintable_shorten (isPrintable_fullText hvalue) c hmem
    omega

def oneStep (name item : String) : List UInt8 :=
  Yaml.asciiOctets ("\x7bname: " ++ name ++ ", tests: [\x7bname: t, steps: [\x7bname: p, " ++
    "plugin: http, config: \x7burl: u, body: [" ++ item ++ "]\x7d\x7d]\x7d]\x7d").toList

/-- The break in the body is escaped, and that in the name of the plugin is not. -/
theorem exists_break_iff_body_plugin :
    let report : Report := ⟨true, 60, false⟩
    let unknown := Yaml.asciiOctets "tests: [\x7bsteps: [\x7bplugin: \"a\\nb\"\x7d]\x7d]".toList
    (∃ suite, parse (oneStep "s" "\"a\\nb\"") = .ok suite
      ∧ ¬ ∃ line ∈ report.passLine "p" suite :: report.outlineLines suite, '\n' ∈ line.toList)
    ∧ ∃ violations, parse unknown = .error (.rejected violations)
      ∧ ∃ line ∈ report.failureLines "p" (.rejected violations), '\n' ∈ line.toList := by
  intro report unknown
  have hbreak : '\n' ∈ lineBreaks := by decide
  have hpath : '\n' ∉ "p".toList := by decide
  constructor
  · have hparse : (parse (oneStep "s" "\"a\\nb\"")).toOption.any (fun suite =>
        (report.suiteTexts suite).all fun text => !text.toList.contains '\n') = true := by
      decide +kernel
    obtain ⟨suite, hsuite, htexts⟩ := (Option.any_eq_true _ _).mp hparse
    rw [toOption_eq_some_iff] at hsuite
    refine ⟨suite, hsuite, ?_⟩
    rw [((exists_break_iff report hbreak hpath).1 suite hsuite).2]
    simpa using htexts
  · have hread : (Yaml.read unknown).toOption.any (fun document =>
        !(Schema.violations document).isEmpty
          && (Schema.quotedTexts document).any fun text => text.toList.contains '\n') = true := by
      decide +kernel
    obtain ⟨document, hdocument, htexts⟩ := (Option.any_eq_true _ _).mp hread
    rw [toOption_eq_some_iff] at hdocument
    rw [Bool.and_eq_true] at htexts
    have hinvalid : Schema.validate document = .error (Schema.violations document) :=
      Schema.validate_eq_error_iff.mpr ⟨rfl, by simpa using htexts.1⟩
    have hrejected := parse_eq_rejected_iff.mpr ⟨document, hdocument, hinvalid⟩
    obtain ⟨-, document', hdocument', -, hiff⟩ :=
      (exists_break_iff report hbreak hpath).2.1 _ hrejected
    obtain rfl := Except.ok.inj (hdocument.symm.trans hdocument')
    exact ⟨_, hrejected, hiff.mpr (by simpa using htexts.2)⟩

/-- The line for a file is two where the name of its suite is. -/
theorem not_isOneLine_broken_name :
    ¬ ∀ (report : Report) (bytes : List UInt8) (path : String) (suite : Suite), IsOneLine path →
      parse bytes = .ok suite → IsOneLine (report.passLine path suite) := by
  intro h
  have hparse : (parse (oneStep "\"a\\nb\"" "b")).toOption.any (fun suite =>
      (passLine ⟨true, 60, false⟩ "p" suite).toList.contains '\n') = true := by
    decide +kernel
  obtain ⟨suite, hsuite, hbroken⟩ := (Option.any_eq_true _ _).mp hparse
  rw [toOption_eq_some_iff] at hsuite
  exact h ⟨true, 60, false⟩ _ "p" suite (by decide) hsuite '\n' (by decide) (by simpa using hbroken)

end Report

end ApiSuite
