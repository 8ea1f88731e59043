import ApiSuite.Parse
import ApiSuite.Proofs.Suite.Located
import ApiSuite.Proofs.Yaml.Citations

/-!
# Telling rejected documents from texts that are not read

Every report of a rejected document has the marker in it. The message about a text that is not read
has it only where it repeats a key or a scalar of the text that has it.
-/

namespace ApiSuite

open Schema Text Yaml

theorem marked_rejectionText (violations : List Violation) : Marked (rejectionText violations) := by
  have hmarker : Marked rejectionMarker := List.infix_rfl
  exact ((((hmarker.append_left _).append_left _).append_left _)).append_left _

/-- Parsing fails where a text is not read or its document rejected: what is accepted is built. -/
theorem parse_eq_error_cases {bytes : List UInt8} {error : ParseError}
    (h : parse bytes = .error error) :
    (∃ fault, read bytes = .error fault ∧ error = .malformed fault) ∨
      ∃ violations, error = .rejected violations := by
  obtain h | ⟨document, -, h⟩ := bind_eq_error_iff.mp h
  · obtain ⟨fault, hread, rfl⟩ := mapError_eq_error_iff.mp h
    exact .inl ⟨fault, hread, rfl⟩
  · obtain h | ⟨⟨⟩, hvalid, h⟩ := bind_eq_error_iff.mp h
    · obtain ⟨violations, -, rfl⟩ := mapError_eq_error_iff.mp h
      exact .inr ⟨violations, rfl⟩
    · obtain ⟨suite, hbuild⟩ := Suite.build_of_validate_eq_ok (mapError_eq_ok_iff.mp hvalid)
      obtain ⟨fault, hfault, -⟩ := mapError_eq_error_iff.mp h
      rw [hbuild] at hfault
      cases hfault

theorem marked_malformed_iff (fault : Yaml.Error) :
    Marked (ParseError.malformed fault).text ↔ ∃ quote ∈ fault.quotes, Marked quote := by
  have hlead : Leads rejectionMarker "YAML syntax error: " := leads_ofList (by decide)
  exact hlead.contains_append_iff.trans fault.marked_text_iff

/-! ### Documents of one scalar -/

section

variable {bytes : List UInt8} {tag : Option Tag} {text : String} {style : ScalarStyle} {mark : Mark}
  {cause : BadValue}

theorem value_scalar_eq_error (fuel : Nat)
    (hcause : scalarValue tag text style (shownTag tag false).isSome = .error cause) :
    (Reading.value ⟨#[(.scalar tag text style, mark)], [], none⟩ (fuel + 1) [] depthLimit
      false).run ⟨0, 0⟩ = .error (.badValue cause "." mark) := by
  have hroot : Trail.text [] = "." := by rw [Trail.text]
  rw [Reading.value]
  change (do
    let found ← Reading.orBad [] mark (scalarValue tag text style (shownTag tag false).isSome)
    withTag (shownTag tag false) <$> Reading.orBad [] mark found.value :
      Reading Value).run ⟨1, 0⟩ = _
  rw [hcause, ← hroot]
  rfl

theorem parse_scalar_eq_error
    (hdocument : Document.ofBytes bytes = (⟨#[(.scalar tag text style, mark)], [], none⟩, false))
    (hcause : scalarValue tag text style (shownTag tag false).isSome = .error cause) :
    parse bytes = .error (.malformed (.badValue cause "." mark)) := by
  have hcompose : compose bytes = .error (.badValue cause "." mark) := by
    have hfuel : Reading.fuel ⟨#[(.scalar tag text style, mark)], [], none⟩ = 649 + 1 := rfl
    rw [compose, Document.readAll, hdocument]
    dsimp only
    rw [hfuel, value_scalar_eq_error 649 hcause]
  rw [parse, Yaml.read, hcompose]
  rfl

theorem scalarTexts_scalar
    (hdocument : Document.ofBytes bytes = (⟨#[(.scalar tag text style, mark)], [], none⟩, false)) :
    scalarTexts bytes = [text] := by
  rw [scalarTexts, hdocument]
  rfl

end

def integerDocument (text : String) : Document :=
  ⟨#[(.scalar (some ⟨asciiOctets "tag:yaml.org,2002:int".toList⟩) text .plain, .start)], [], none⟩

theorem ofBytes_eq_integerDocument {bytes : List UInt8} {text : String}
    (hparts : (Document.ofBytes bytes).1.parts = (integerDocument text).parts)
    (hanchors : (Document.ofBytes bytes).1.anchors = [])
    (herror : (Document.ofBytes bytes).1.error.isNone = true)
    (hlast : (Document.ofBytes bytes).2 = false) :
    Document.ofBytes bytes = (integerDocument text, false) := by
  refine Prod.ext ?_ hlast
  generalize (Document.ofBytes bytes).1 = document at *
  cases document
  rw [integerDocument, Document.mk.injEq]
  exact ⟨hparts, hanchors, Option.isNone_iff_eq_none.mp herror⟩

theorem ofBytes_integer_one :
    Document.ofBytes (asciiOctets "!!int one".toList) = (integerDocument "one", false) := by
  apply ofBytes_eq_integerDocument <;> decide +kernel

theorem ofBytes_integer_marker :
    Document.ofBytes (asciiOctets "!!int schema validation failed".toList) =
      (integerDocument "schema validation failed", false) := by
  apply ofBytes_eq_integerDocument <;> decide +kernel

/-! ### Every text -/

/-- **The marker.** When parsing fails, the message has the marker of rejected documents in it just
if the document was rejected, or the text was not read and the message repeats something of it with
the marker. So the marker tells the two apart wherever no scalar of the document has it. -/
theorem parse_error_contains_iff {bytes : List UInt8} {error : ParseError}
    (h : parse bytes = .error error) :
    (Contains error.text rejectionMarker ↔
      (∃ violations, error = .rejected violations) ∨
        ∃ fault, error = .malformed fault ∧
          ∃ quote ∈ fault.quotes, Contains quote rejectionMarker) ∧
      ((∀ text ∈ scalarTexts bytes, ¬ Contains text rejectionMarker) →
        (Contains error.text rejectionMarker ↔ ∃ violations, error = .rejected violations)) := by
  obtain ⟨fault, hread, rfl⟩ | ⟨violations, rfl⟩ := parse_eq_error_cases h
  · have hmarked := marked_malformed_iff fault
    refine ⟨⟨fun h => .inr ⟨fault, rfl, hmarked.mp h⟩, ?_⟩, fun hclean => ?_⟩
    · rintro (⟨violations, hrejected⟩ | ⟨_, hfault, hquote⟩)
      · cases hrejected
      · cases hfault
        exact hmarked.mpr hquote
    · refine iff_of_false (fun h => ?_) (fun ⟨violations, hrejected⟩ => nomatch hrejected)
      obtain ⟨text, htext, hmarker⟩ := (read_cites hread).exists_marked (hmarked.mp h)
      exact hclean text htext hmarker
  · have hmarked := marked_rejectionText violations
    exact ⟨iff_of_true hmarked (.inl ⟨violations, rfl⟩),
      fun _ => iff_of_true hmarked ⟨violations, rfl⟩⟩

theorem parse_error_contains_iff_integer :
    parse (asciiOctets "!!int one".toList) =
        .error (.malformed (.badValue (.notOfTag "one" .integer) "." .start)) ∧
      ¬ Contains (ParseError.malformed (.badValue (.notOfTag "one" .integer) "." .start)).text
        rejectionMarker := by
  have hparse : parse (asciiOctets "!!int one".toList) =
      .error (.malformed (.badValue (.notOfTag "one" .integer) "." .start)) :=
    parse_scalar_eq_error ofBytes_integer_one rfl
  have htexts : ∀ text ∈ scalarTexts (asciiOctets "!!int one".toList),
      ¬ Contains text rejectionMarker := by
    rw [scalarTexts_scalar ofBytes_integer_one, List.forall_mem_singleton]
    exact not_contains_ofList (by decide)
  refine ⟨hparse, fun hmarked => ?_⟩
  obtain ⟨violations, hrejected⟩ := ((parse_error_contains_iff hparse).2 htexts).mp hmarked
  cases hrejected

/-- A text that is not read, with the marker in the message about it. -/
theorem parse_error_contains_not_rejected :
    ∃ error, parse (asciiOctets "!!int schema validation failed".toList) = .error error ∧
      Contains error.text rejectionMarker ∧ ¬ ∃ violations, error = .rejected violations := by
  refine ⟨_, parse_scalar_eq_error ofBytes_integer_marker rfl, ?_, fun ⟨_, h⟩ => nomatch h⟩
  exact (marked_malformed_iff _).mpr ⟨rejectionMarker, .tail _ (.head _), List.infix_rfl⟩

end ApiSuite
