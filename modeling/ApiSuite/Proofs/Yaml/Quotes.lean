import ApiSuite.Proofs.Text.Contains
import ApiSuite.Proofs.Text.Numerals
import ApiSuite.Schema.Violation
import ApiSuite.Yaml.Error

/-!
# The marker in messages about texts

The messages about a text that is not read consist of fixed phrases, numbers, and what they repeat
of the text: the keys on the way to a value, a key that occurs twice, a scalar that its tag does not
admit. Phrases and numbers have no part in the marker of rejected documents, so a message has the
marker in it just if a text that it repeats has.
-/

namespace ApiSuite.Yaml

open Text Schema

/-- The texts that a message about a value repeats. -/
def BadValue.quotes : BadValue → List String
  | .repeatedKey (.str s) => [s]
  | .notOfTag text _ => [text]
  | .mistyped (.text s) _ => [s]
  | .unknownField name known => name :: known
  | .repeatedField name => [name]
  | _ => []

/-- The texts that a message repeats. The path to a value is one of them. -/
def Error.quotes : Error → List String
  | .badValue cause path _ => path :: cause.quotes
  | _ => []

/-- The text has the marker of rejected documents in it. -/
abbrev Marked (s : String) : Prop :=
  Contains s rejectionMarker

theorem marked_iff_nil {s : String} (h : ¬ Marked s) :
    Marked s ↔ ∃ quote ∈ ([] : List String), Marked quote := by
  simpa using h

/-! ### Numbers

No number has a letter `d`, so the marker does not end in one.
-/

theorem trails_of_notMem {s : String} (h : 'd' ∉ s.toList) : Trails rejectionMarker s :=
  trails_of_getLast (by decide) h

theorem notMem_toString_bool (b : Bool) : 'd' ∉ (toString b).toList := by
  cases b <;> decide

theorem notMem_of_isNumeral {s : String} (h : ∀ c ∈ s.toList, IsNumeral c) : 'd' ∉ s.toList :=
  fun hmem => absurd (h 'd' hmem) (by decide)

theorem trails_of_isNumeral {s : String} (h : ∀ c ∈ s.toList, IsNumeral c) :
    Trails rejectionMarker s :=
  trails_of_notMem (notMem_of_isNumeral h)

theorem notMem_float {style : NumberStyle} {nan negative infinite : String} (x : Binary64)
    (hsign : ∀ c ∈ style.exponentSign.toList, IsNumeral c) (hnan : 'd' ∉ nan.toList)
    (hnegative : 'd' ∉ negative.toList) (hinfinite : 'd' ∉ infinite.toList) :
    'd' ∉ (if x.isNaN then nan
      else if x.isInfinite then if x.isNegative then negative else infinite
      else x.text style).toList := by
  split_ifs
  · exact hnan
  · exact hnegative
  · exact hinfinite
  · exact notMem_of_isNumeral (isNumeral_binary64 hsign x)

theorem notMem_floatText (x : Binary64) : 'd' ∉ (floatText x).toList :=
  notMem_float x (by decide) (by decide) (by decide) (by decide)

theorem notMem_keyFloatText (x : Binary64) : 'd' ∉ (keyFloatText x).toList :=
  notMem_float x (by decide) (by decide) (by decide) (by decide)

/-! ### Messages about the text -/

theorem trails_toString (n : Nat) : Trails rejectionMarker (toString n) :=
  trails_of_isNumeral (isNumeral_int n)

theorem trails_suffix (mark : Mark) : Trails rejectionMarker mark.suffix := by
  unfold Mark.suffix
  split
  · exact trails_ofList (by decide)
  · have hat : Trails rejectionMarker " at " := trails_ofList (by decide)
    have hline : Trails rejectionMarker "line " := trails_ofList (by decide)
    have hcolumn : Trails rejectionMarker " column " := trails_ofList (by decide)
    have htext : Trails rejectionMarker mark.text :=
      ((hline.append (trails_toString _)).append hcolumn).append (trails_toString _)
    exact hat.append htext

theorem trails_phrase (activity : Activity) : Trails rejectionMarker activity.phrase := by
  cases activity <;> exact trails_ofList (by decide)

theorem trails_context (context : Context) (problem : Mark) :
    Trails rejectionMarker (context.suffix problem) := by
  have hcomma : Trails rejectionMarker ", " := trails_ofList (by decide)
  refine (hcomma.append (trails_phrase context.activity)).append ?_
  split
  · exact trails_ofList (by decide)
  · exact trails_suffix context.mark

theorem not_marked_unreadable (cause : Unreadable) : ¬ Marked cause.message := by
  cases cause <;> exact not_contains_ofList (by decide)

theorem not_marked_problem (problem : Problem) : ¬ Marked problem.message := by
  cases problem <;> exact not_contains_ofList (by decide)

theorem not_marked_textError (error : TextError) : ¬ Marked error.text := by
  cases error with
  | unreadable cause offset =>
    have hplace : Trails rejectionMarker
        (if offset = 0 then "" else " at position " ++ toString offset) := by
      split
      · exact trails_ofList (by decide)
      · have hat : Trails rejectionMarker " at position " := trails_ofList (by decide)
        exact hat.append (trails_toString offset)
    exact fun h => not_marked_unreadable cause (hplace _ h)
  | ungrammatical problem mark context =>
    have hcontext : Trails rejectionMarker ((context.map (·.suffix mark)).getD "") := by
      cases context with
      | none => exact trails_ofList (by decide)
      | some context => exact trails_context context mark
    exact fun h => not_marked_problem problem (trails_suffix mark _ (hcontext _ h))

/-! ### Messages about values -/

theorem trails_expected (expected : Expected) : Trails rejectionMarker expected.phrase := by
  cases expected <;> exact trails_ofList (by decide)

theorem marked_quoted_iff {s : String} : Marked (quoted s) ↔ Marked s := by
  have hhead : rejectionMarker.toList.head? = some 's' := by decide +kernel
  have hplain : rejectionMarker.toList.all fun c => quoteChar c == [c] := by decide +kernel
  exact contains_quoted_iff (fun c hc => eq_of_beq (List.all_eq_true.mp hplain c hc)) hhead
    (by decide)

theorem marked_repeatedKeyPhrase_iff (key : Value) :
    Marked (repeatedKeyPhrase key) ↔ ∃ quote ∈ (BadValue.repeatedKey key).quotes, Marked quote := by
  have hplain : ¬ Marked "with key " := not_contains_ofList (by decide)
  have htick : ¬ Marked "with key `" := not_contains_ofList (by decide)
  have hend : Trails rejectionMarker "`" := trails_ofList (by decide)
  cases key with
  | null => exact marked_iff_nil (not_contains_ofList (by decide))
  | bool b =>
    have hbool := trails_of_notMem (notMem_toString_bool b)
    exact marked_iff_nil fun h => htick (hbool _ (hend _ h))
  | int n => exact marked_iff_nil fun h => hplain (trails_of_isNumeral (isNumeral_int n) _ h)
  | float x => exact marked_iff_nil fun h => hplain (trails_of_notMem (notMem_keyFloatText x) _ h)
  | str s =>
    have hkey : Leads rejectionMarker "with key " := leads_ofList (by decide)
    refine (hkey.contains_append_iff.trans marked_quoted_iff).trans ?_
    simp [BadValue.quotes]
  | seq items => exact marked_iff_nil (not_contains_ofList (by decide))
  | map entries => exact marked_iff_nil (not_contains_ofList (by decide))
  | tagged tag content => exact marked_iff_nil (not_contains_ofList (by decide))

theorem marked_found_iff (found : Found) (expected : Expected) :
    Marked found.phrase ↔ ∃ quote ∈ (BadValue.mistyped found expected).quotes, Marked quote := by
  have hend : Trails rejectionMarker "`" := trails_ofList (by decide)
  have hbool : ¬ Marked "boolean `" := not_contains_ofList (by decide)
  have hint : ¬ Marked "integer `" := not_contains_ofList (by decide)
  have hfloat : ¬ Marked "floating point `" := not_contains_ofList (by decide)
  cases found with
  | unit => exact marked_iff_nil (not_contains_ofList (by decide))
  | bool b =>
    have hword := trails_of_notMem (notMem_toString_bool b)
    exact marked_iff_nil fun h => hbool (hword _ (hend _ h))
  | int n =>
    have hnumber := trails_of_isNumeral (isNumeral_int n)
    exact marked_iff_nil fun h => hint (hnumber _ (hend _ h))
  | wideInt n =>
    have hwidth : Trails rejectionMarker (if n < 0 then "` as i128" else "` as u128") := by
      split <;> exact trails_ofList (by decide)
    have hnumber := trails_of_isNumeral (isNumeral_int n)
    exact marked_iff_nil fun h => hint (hnumber _ (hwidth _ h))
  | float x =>
    have hnumber := trails_of_notMem (notMem_floatText x)
    exact marked_iff_nil fun h => hfloat (hnumber _ (hend _ h))
  | text s =>
    have htext : Leads rejectionMarker "string " := leads_ofList (by decide)
    refine (htext.contains_append_iff.trans marked_quoted_iff).trans ?_
    simp [BadValue.quotes]
  | sequence => exact marked_iff_nil (not_contains_ofList (by decide))
  | map => exact marked_iff_nil (not_contains_ofList (by decide))

theorem marked_append_iff {s t : String} {c : Char} {chars : List Char}
    (hc : c ∉ rejectionMarker.toList) :
    Marked (s ++ (String.ofList (c :: chars) ++ t)) ↔
      Marked s ∨ Marked (String.ofList (c :: chars) ++ t) := by
  refine contains_append_iff_of_head (c := c) ?_ hc
  rw [String.toList_append, String.toList_ofList]
  rfl

theorem marked_intercalate_iff (fields : List String) :
    Marked (String.intercalate ", " (fields.map fun field => "`" ++ field ++ "`")) ↔
      ∃ field ∈ fields, Marked field := by
  have hlead : Leads rejectionMarker "`" := leads_ofList (by decide)
  have hend : Trails rejectionMarker "`" := trails_ofList (by decide)
  induction fields with
  | nil =>
    have hempty : ¬ Marked "" := not_contains_ofList (by decide)
    simpa using hempty
  | cons field fields ih =>
    have hfield : Marked ("`" ++ field ++ "`") ↔ Marked field :=
      hend.contains_append_iff.trans hlead.contains_append_iff
    cases fields with
    | nil => simpa using hfield
    | cons other fields =>
      have hcomma : Leads rejectionMarker ", " := leads_ofList (by decide)
      simp only [List.map_cons, String.intercalate_cons_cons, String.append_assoc] at ih ⊢
      calc Marked ("`" ++ (field ++ ("`" ++ (", " ++ _))))
          ↔ Marked (field ++ ("`" ++ (", " ++ _))) := hlead.contains_append_iff
        _ ↔ Marked field ∨ Marked ("`" ++ (", " ++ _)) :=
            marked_append_iff (by decide)
        _ ↔ Marked field ∨ Marked _ :=
            or_congr_right (hlead.contains_append_iff.trans hcomma.contains_append_iff)
        _ ↔ Marked field ∨ ∃ field ∈ other :: fields, Marked field := or_congr_right ih
        _ ↔ ∃ field' ∈ field :: other :: fields, Marked field' := by simp

theorem marked_unknownField_iff (name : String) (known : List String) :
    Marked (BadValue.unknownField name known).message ↔
      Marked name ∨ ∃ field ∈ known, Marked field := by
  have hlead : Leads rejectionMarker "unknown field `" := leads_ofList (by decide)
  have hknown : Leads rejectionMarker "`, expected one of " := leads_ofList (by decide)
  have hparts (rest : String) : "unknown field `" ++ name ++ "`, expected one of " ++ rest =
      "unknown field `" ++ (name ++ ("`, expected one of " ++ rest)) := by
    simp only [String.append_assoc]
  calc Marked (BadValue.unknownField name known).message
      ↔ Marked ("unknown field `" ++ (name ++ ("`, expected one of " ++ _))) :=
        iff_of_eq (congrArg Marked (hparts _))
    _ ↔ Marked (name ++ ("`, expected one of " ++ _)) := hlead.contains_append_iff
    _ ↔ Marked name ∨ Marked ("`, expected one of " ++ _) := marked_append_iff (by decide)
    _ ↔ Marked name ∨ Marked _ := or_congr_right hknown.contains_append_iff
    _ ↔ Marked name ∨ ∃ field ∈ known, Marked field :=
        or_congr_right (marked_intercalate_iff known)

theorem BadValue.marked_message_iff (cause : BadValue) :
    Marked cause.message ↔ ∃ quote ∈ cause.quotes, Marked quote := by
  have hexpected : Trails rejectionMarker ", expected " := trails_ofList (by decide)
  cases cause with
  | repeatedKey key =>
    have hlead : Leads rejectionMarker "duplicate entry " := leads_ofList (by decide)
    exact hlead.contains_append_iff.trans (marked_repeatedKeyPhrase_iff key)
  | notOfTag text expected =>
    have hlead : Leads rejectionMarker "invalid value: string " := leads_ofList (by decide)
    calc Marked (BadValue.notOfTag text expected).message
        ↔ Marked ("invalid value: string " ++ quoted text ++ ", expected ") :=
          (trails_expected expected).contains_append_iff
      _ ↔ Marked ("invalid value: string " ++ quoted text) := hexpected.contains_append_iff
      _ ↔ Marked (quoted text) := hlead.contains_append_iff
      _ ↔ Marked text := marked_quoted_iff
      _ ↔ _ := by simp [quotes]
  | mistyped found expected =>
    have hlead : Leads rejectionMarker "invalid type: " := leads_ofList (by decide)
    calc Marked (BadValue.mistyped found expected).message
        ↔ Marked ("invalid type: " ++ found.phrase ++ ", expected ") :=
          (trails_expected expected).contains_append_iff
      _ ↔ Marked ("invalid type: " ++ found.phrase) := hexpected.contains_append_iff
      _ ↔ Marked found.phrase := hlead.contains_append_iff
      _ ↔ _ := marked_found_iff found expected
  | unknownField name known =>
    refine (marked_unknownField_iff name known).trans ?_
    simp [quotes]
  | repeatedField name =>
    have hlead : Leads rejectionMarker "duplicate field `" := leads_ofList (by decide)
    have hend : Trails rejectionMarker "`" := trails_ofList (by decide)
    calc Marked (BadValue.repeatedField name).message
        ↔ Marked ("duplicate field `" ++ name) := hend.contains_append_iff
      _ ↔ Marked name := hlead.contains_append_iff
      _ ↔ _ := by simp [quotes]

theorem marked_located_iff (path message : String) :
    Marked ((if path = "." then "" else path ++ ": ") ++ message) ↔
      Marked path ∨ Marked message := by
  split
  next h =>
    have hroot : ¬ Marked "." := not_contains_ofList (by decide)
    subst h
    simp [hroot]
  next h =>
    have hcolon : Leads rejectionMarker ": " := leads_ofList (by decide)
    rw [String.append_assoc]
    exact (marked_append_iff (by decide)).trans (or_congr_right hcolon.contains_append_iff)

/-- A message has the marker in it just if a text that it repeats has. -/
theorem Error.marked_text_iff (error : Error) :
    Marked error.text ↔ ∃ quote ∈ error.quotes, Marked quote := by
  cases error with
  | badText error => exact marked_iff_nil (not_marked_textError error)
  | unknownAnchor mark =>
    have hplain : ¬ Marked "unknown anchor" := not_contains_ofList (by decide)
    exact marked_iff_nil fun h => hplain (trails_suffix mark _ h)
  | tooDeep mark =>
    have hplain : ¬ Marked "recursion limit exceeded" := not_contains_ofList (by decide)
    exact marked_iff_nil fun h => hplain (trails_suffix mark _ h)
  | tooManyAliases => exact marked_iff_nil (not_contains_ofList (by decide))
  | severalDocuments => exact marked_iff_nil (not_contains_ofList (by decide +kernel))
  | badMerge fault => cases fault <;> exact marked_iff_nil (not_contains_ofList (by decide +kernel))
  | badValue cause path mark =>
    calc Marked (Error.badValue cause path mark).text
        ↔ Marked ((if path = "." then "" else path ++ ": ") ++ cause.message) :=
          (trails_suffix mark).contains_append_iff
      _ ↔ Marked path ∨ Marked cause.message := marked_located_iff path cause.message
      _ ↔ Marked path ∨ ∃ quote ∈ cause.quotes, Marked quote :=
          or_congr_right cause.marked_message_iff
      _ ↔ ∃ quote ∈ path :: cause.quotes, Marked quote := by simp

end ApiSuite.Yaml
