import ApiSuite.Proofs.Except
import ApiSuite.Proofs.Yaml.Quotes
import ApiSuite.Yaml.Merge

/-!
# What errors repeat of a document

A text that an error repeats is a scalar of the document, or the path to a value, which is put
together from scalars. Reading keeps to this step by step: a trail grows by a key that stands in the
document, a key that is compared with later ones was read from a scalar, and a scalar is repeated as
it stands.
-/

namespace ApiSuite.Yaml

open Text Schema

/-- The texts of the scalars of a document. -/
def Document.scalarTexts (document : Document) : List String :=
  document.parts.toList.filterMap fun
    | (.scalar _ text _, _) => some text
    | _ => none

/-- A document that was not cut off, or by an error that repeats nothing. -/
def Document.Plain (document : Document) : Prop :=
  ∀ error, document.error = some error → error.quotes = []

/-- If the step goes to a key, that is one of the texts. -/
def Step.Within (texts : List String) (step : Step) : Prop :=
  ∀ key, step = .field key → key ∈ texts

/-- The keys on the way to a value are among the texts. -/
def Trail.Within (texts : List String) (trail : Trail) : Prop :=
  ∀ step ∈ trail, step.Within texts

/-- What the error repeats is one of the texts or a path of such. -/
def Error.Cites (texts : List String) (error : Error) : Prop :=
  ∀ quote ∈ error.quotes, quote ∈ texts ∨ ∃ trail : Trail, trail.Within texts ∧ quote = trail.text

/-- If the value is a string without a tag, it is one of the texts. -/
def StringIn (texts : List String) (value : Value) : Prop :=
  ∀ s, value = .str s → s ∈ texts

def Part.Within (texts : List String) (part : Part) : Prop :=
  ∀ tag text style, part = .scalar tag text style → text ∈ texts

theorem Document.part_within {document : Document} {place : Nat} {part : Part × Mark}
    (h : document.parts[place]? = some part) : part.1.Within document.scalarTexts := by
  intro tag text style hpart
  refine List.mem_filterMap.mpr ⟨part, Array.mem_toList_iff.mpr (Array.mem_of_getElem? h), ?_⟩
  obtain ⟨part, mark⟩ := part
  obtain rfl : part = .scalar tag text style := hpart
  rfl

theorem Error.Cites.of_quotes_eq_nil {texts : List String} {error : Error}
    (h : error.quotes = []) : error.Cites texts := by
  intro quote hquote
  rw [h] at hquote
  cases hquote

theorem stringIn_null {texts : List String} : StringIn texts .null := by
  rintro s ⟨⟩

theorem stringIn_seq {texts : List String} {items : List Value} : StringIn texts (.seq items) := by
  rintro s ⟨⟩

theorem stringIn_map {texts : List String} {entries : Entries} :
    StringIn texts (.map entries) := by
  rintro s ⟨⟩

theorem stringIn_withTag {texts : List String} {name : Option String} {value : Value}
    (h : StringIn texts value) : StringIn texts (withTag name value) := by
  cases name with
  | none => exact h
  | some name => exact fun s hs => nomatch hs

/-! ### Scalars -/

theorem plainValue_eq_text {s t : String} (h : plainValue s = .text t) : t = s := by
  grind [plainValue]

theorem coreValue?_cases {tag : Tag} {s : String} {result : Except BadValue Found}
    (h : coreValue? tag s = some result) :
    (∃ found, result = .ok found ∧ ∀ t, found ≠ .text t) ∨
      ∃ expected, result = .error (.notOfTag s expected) := by
  unfold coreValue? at h
  dsimp only at h
  split_ifs at h
  all_goals
    obtain rfl := Option.some.inj h
    split
    next found hfound => exact .inl ⟨found, rfl, by grind [Option.map_eq_some_iff]⟩
    next => exact .inr ⟨_, rfl⟩

theorem scalarValue_eq_ok {tag : Option Tag} {s t : String} {style : ScalarStyle} {tagSeen : Bool}
    (h : scalarValue tag s style tagSeen = .ok (.text t)) : t = s := by
  unfold scalarValue at h
  grind [plainValue_eq_text, coreValue?_cases]

theorem scalarValue_eq_error {tag : Option Tag} {s : String} {style : ScalarStyle} {tagSeen : Bool}
    {cause : BadValue} (h : scalarValue tag s style tagSeen = .error cause) :
    ∃ expected, cause = .notOfTag s expected := by
  unfold scalarValue at h
  grind [coreValue?_cases]

theorem Found.value_eq_ok {found : Found} {s : String} (h : found.value = .ok (.str s)) :
    found = .text s := by
  cases found with
  | text t => cases h; rfl
  | _ => cases h

theorem Found.value_eq_error {found : Found} {cause : BadValue} (h : found.value = .error cause) :
    cause.quotes = [] := by
  cases found with
  | wideInt n => cases h; rfl
  | sequence => cases h; rfl
  | map => cases h; rfl
  | _ => cases h

theorem quotes_within {texts : List String} {key : Value} (h : StringIn texts key) :
    ∀ quote ∈ (BadValue.repeatedKey key).quotes, quote ∈ texts := by
  intro quote hquote
  cases key with
  | str s => exact List.mem_singleton.mp hquote ▸ h s rfl
  | _ => cases hquote

/-! ### Reading -/

namespace Reading

/-- What is read satisfies `Q`, and an error cites the texts only. -/
def Ensures (texts : List String) (read : Reading α) (Q : α → Prop) : Prop :=
  ∀ progress,
    (∀ a progress', read progress = .ok (a, progress') → Q a) ∧
    ∀ error, read progress = .error error → error.Cites texts

variable {texts : List String} {α β : Type} {Q : α → Prop} {R : β → Prop}

theorem Ensures.pure {a : α} (h : Q a) : Ensures texts (Pure.pure a) Q := by
  intro progress
  constructor
  · intro b progress' hread
    cases hread
    exact h
  · intro error hread
    cases hread

theorem Ensures.bind {read : Reading α} {next : α → Reading β} (h : Ensures texts read Q)
    (hnext : ∀ a, Q a → Ensures texts (next a) R) : Ensures texts (read >>= next) R := by
  intro progress
  have hbind : (read >>= next) progress =
      match read progress with
      | .ok (a, progress') => next a progress'
      | .error error => .error error := by
    change Except.bind (read progress) _ = _
    cases read progress <;> rfl
  rw [hbind]
  cases hread : read progress with
  | ok result => exact hnext result.1 ((h progress).1 result.1 result.2 hread) result.2
  | error error =>
    constructor
    · intro b progress' hbad
      cases hbad
    · intro error' hbad
      cases hbad
      exact (h progress).2 error hread

theorem Ensures.map {read : Reading α} {f : α → β} (h : Ensures texts read Q)
    (hf : ∀ a, Q a → R (f a)) : Ensures texts (f <$> read) R := by
  rw [← bind_pure_comp]
  exact h.bind fun a ha => .pure (hf a ha)

theorem Ensures.throw {error : Error} (h : error.Cites texts) :
    Ensures texts (MonadExcept.throw error : Reading α) Q := by
  intro progress
  constructor
  · intro a progress' hread
    cases hread
  · intro error' hread
    cases hread
    exact h

theorem get_ensures : Ensures texts (get : Reading Progress) fun _ => True :=
  fun _ => ⟨fun _ _ _ => trivial, fun _ hread => nomatch hread⟩

theorem set_ensures (progress : Progress) :
    Ensures texts (set progress : Reading Unit) fun _ => True :=
  fun _ => ⟨fun _ _ _ => trivial, fun _ hread => nomatch hread⟩

theorem modify_ensures (f : Progress → Progress) :
    Ensures texts (modify f : Reading Unit) fun _ => True :=
  fun _ => ⟨fun _ _ _ => trivial, fun _ hread => nomatch hread⟩

variable {document : Document} {trail : Trail}

theorem bad_ensures {cause : BadValue} (htrail : trail.Within texts)
    (hcause : ∀ quote ∈ cause.quotes, quote ∈ texts) (mark : Mark) :
    Ensures texts (bad trail mark cause : Reading α) Q := by
  refine .throw fun quote hquote => ?_
  obtain rfl | hquote := List.mem_cons.mp hquote
  · exact .inr ⟨trail, htrail, rfl⟩
  · exact .inl (hcause quote hquote)

theorem orBad_ensures {result : Except BadValue α} (htrail : trail.Within texts)
    (hok : ∀ a, result = .ok a → Q a)
    (hbad : ∀ cause, result = .error cause → ∀ quote ∈ cause.quotes, quote ∈ texts) (mark : Mark) :
    Ensures texts (orBad trail mark result) Q := by
  cases result with
  | ok a => exact .pure (hok a rfl)
  | error cause => exact bad_ensures htrail (hbad cause rfl) mark

theorem descend_ensures (mark : Mark) (depth : Nat) :
    Ensures texts (descend mark depth) fun _ => True := by
  cases depth with
  | zero => exact .throw (.of_quotes_eq_nil rfl)
  | succ depth => exact .pure trivial

theorem follow_ensures {read : Reading α} (anchor : Nat) (h : Ensures texts read Q) :
    Ensures texts (follow document anchor read) Q := by
  refine get_ensures.bind fun progress _ => ?_
  have hread (progress' : Progress) : Ensures texts (do
      set progress'
      let a ← read
      modify ({ · with position := progress.position })
      return a) Q :=
    (set_ensures progress').bind fun _ _ => h.bind fun a ha =>
      (modify_ensures _).bind fun _ _ => .pure ha
  dsimp only
  split
  · exact Ensures.bind (Q := fun _ => True) (.throw (.of_quotes_eq_nil rfl))
      fun _ _ => hread _
  · exact hread _

section

variable (hdocument : document.Plain)
include hdocument

theorem peek_ensures :
    Ensures document.scalarTexts (peek document) (·.1.Within document.scalarTexts) := by
  refine get_ensures.bind fun progress _ => ?_
  split
  next part hpart => exact .pure (Document.part_within hpart)
  next error _ herror => exact .throw (.of_quotes_eq_nil (hdocument error herror))
  next => exact .pure fun _ _ _ habsent => nomatch habsent

theorem next_ensures :
    Ensures document.scalarTexts (next document) (·.1.Within document.scalarTexts) :=
  (peek_ensures hdocument).bind fun _ hpart => (modify_ensures _).bind fun _ _ => .pure hpart

theorem keyStep_ensures :
    Ensures document.scalarTexts (keyStep document) (·.Within document.scalarTexts) := by
  refine (peek_ensures hdocument).bind fun part hpart => ?_
  split
  next tag text style mark =>
    refine .pure fun key hkey => ?_
    cases hkey
    exact hpart tag text style rfl
  next => exact .pure fun key hkey => nomatch hkey

theorem atEnd_ensures : Ensures document.scalarTexts (atEnd document) fun _ => True := by
  refine (peek_ensures hdocument).bind fun part _ => ?_
  split <;> exact .pure trivial

end

theorem scalar_ensures {tag : Option Tag} {text : String} {style : ScalarStyle} {tagSeen : Bool}
    (htrail : trail.Within texts) (htext : text ∈ texts) (name : Option String) (mark : Mark) :
    Ensures texts (do
      let found ← orBad trail mark (scalarValue tag text style tagSeen)
      withTag name <$> orBad trail mark found.value) (StringIn texts) := by
  have hfound : Ensures texts (orBad trail mark (scalarValue tag text style tagSeen))
      fun found => ∀ t, found = Found.text t → t = text := by
    refine orBad_ensures htrail (fun found hok t ht => scalarValue_eq_ok (ht ▸ hok)) ?_ mark
    intro cause hbad quote hquote
    obtain ⟨expected, rfl⟩ := scalarValue_eq_error hbad
    rwa [List.mem_singleton.mp hquote]
  refine hfound.bind fun found hfound => .map (Q := StringIn texts) ?_ fun _ => stringIn_withTag
  refine orBad_ensures htrail (fun value hok s hs => ?_) (fun cause hbad quote hquote => ?_) mark
  · rwa [hfound s (Found.value_eq_ok (hs ▸ hok))]
  · rw [Found.value_eq_error hbad] at hquote
    cases hquote

/-- What reading with so much fuel keeps to. -/
structure Sound (document : Document) (fuel : Nat) : Prop where
  value : ∀ {trail : Trail}, trail.Within document.scalarTexts → ∀ depth tagSeen,
    Ensures document.scalarTexts (value document fuel trail depth tagSeen)
      (StringIn document.scalarTexts)
  items : ∀ {trail : Trail}, trail.Within document.scalarTexts → ∀ depth index,
    Ensures document.scalarTexts (items document fuel trail depth index) fun _ => True
  entries : ∀ {trail : Trail}, trail.Within document.scalarTexts → ∀ depth tagSeen mark,
    ∀ before : Entries, (∀ entry ∈ before, StringIn document.scalarTexts entry.1) →
    Ensures document.scalarTexts (entries document fuel trail depth tagSeen mark before)
      fun _ => True

theorem Sound.zero : Sound document 0 := by
  constructor
  · intro trail _ depth tagSeen
    rw [Reading.value]
    exact .throw (.of_quotes_eq_nil rfl)
  · intro trail _ depth index
    rw [Reading.items]
    exact .throw (.of_quotes_eq_nil rfl)
  · intro trail _ depth tagSeen mark before _
    rw [Reading.entries]
    exact .throw (.of_quotes_eq_nil rfl)

section

variable {fuel : Nat} (hdocument : document.Plain)
include hdocument

theorem Sound.value_succ (h : Sound document fuel) (htrail : trail.Within document.scalarTexts)
    (depth : Nat) (tagSeen : Bool) :
    Ensures document.scalarTexts (Reading.value document (fuel + 1) trail depth tagSeen)
      (StringIn document.scalarTexts) := by
  rw [Reading.value]
  refine (next_ensures hdocument).bind fun node hpart => ?_
  obtain ⟨anchor | ⟨tag, text, style⟩ | tag | _ | tag | _ | _, mark⟩ := node
  · exact follow_ensures anchor (h.value htrail depth false)
  · exact scalar_ensures htrail (hpart tag text style rfl) _ mark
  · refine (descend_ensures mark depth).bind fun depth _ => ?_
    exact ((h.items htrail depth 0).map fun _ _ => stringIn_seq).map fun _ => stringIn_withTag
  · exact .pure stringIn_null
  · -- A tag that is seen here counts for the keys, which are read as if they had none.
    refine (descend_ensures mark depth).bind fun depth _ => ?_
    have hentries := h.entries htrail depth (tagSeen || (shownTag tag tagSeen).isSome) mark []
      (List.forall_mem_nil _)
    exact (hentries.map fun _ _ => stringIn_map).map fun _ => stringIn_withTag
  · exact .pure stringIn_null
  · exact .pure stringIn_null

theorem Sound.items_succ (h : Sound document fuel) (htrail : trail.Within document.scalarTexts)
    (depth index : Nat) :
    Ensures document.scalarTexts (Reading.items document (fuel + 1) trail depth index)
      fun _ => True := by
  have hitem : Trail.Within document.scalarTexts (.item index :: trail) :=
    List.forall_mem_cons.mpr ⟨fun key hkey => (nomatch hkey), htrail⟩
  rw [Reading.items]
  refine (atEnd_ensures hdocument).bind fun ended _ => ?_
  split
  · exact (modify_ensures _).bind fun _ _ => .pure trivial
  · exact (h.value hitem depth false).bind fun _ _ =>
      (h.items htrail depth (index + 1)).bind fun _ _ => .pure trivial

theorem Sound.entries_succ (h : Sound document fuel) (htrail : trail.Within document.scalarTexts)
    (depth : Nat) (tagSeen : Bool) (mark : Mark) {before : Entries}
    (hbefore : ∀ entry ∈ before, StringIn document.scalarTexts entry.1) :
    Ensures document.scalarTexts
      (Reading.entries document (fuel + 1) trail depth tagSeen mark before) fun _ => True := by
  rw [Reading.entries]
  refine (atEnd_ensures hdocument).bind fun ended _ => ?_
  split
  · exact (modify_ensures _).bind fun _ _ => .pure trivial
  · refine (keyStep_ensures hdocument).bind fun step hstep =>
      (h.value htrail depth tagSeen).bind fun key hkey => ?_
    split
    next entry hentry =>
      have hkey := hbefore entry (List.mem_of_find?_eq_some hentry)
      exact bad_ensures htrail (quotes_within hkey) mark
    next =>
      refine (h.value (List.forall_mem_cons.mpr ⟨hstep, htrail⟩) depth false).bind fun value _ =>
        h.entries htrail depth tagSeen mark _ fun entry hentry => ?_
      obtain rfl | hentry := List.mem_cons.mp hentry
      · exact hkey
      · exact hbefore entry hentry

/-- Every reader calls the others with less fuel, so the three are shown sound together. -/
theorem sound (fuel : Nat) : Sound document fuel := by
  induction fuel with
  | zero => exact .zero
  | succ fuel ih =>
    exact ⟨ih.value_succ hdocument, ih.items_succ hdocument, fun htrail depth tagSeen mark _ =>
      ih.entries_succ hdocument htrail depth tagSeen mark⟩

end

end Reading

/-! ### Whole texts -/

namespace Document

theorem nameNext_error (document : Document) (names : Names) (name : Option String) :
    (document.nameNext names name).1.error = document.error := by
  cases name <;> rfl

theorem plain_load (events : List (Event × Mark)) (cut : Option TextError) {document : Document}
    (names : Names) (hdocument : document.Plain) : (load document names cut events).1.Plain := by
  induction events generalizing document names with
  | nil =>
    intro error herror
    obtain ⟨cause, -, rfl⟩ := Option.map_eq_some_iff.mp herror
    rfl
  | cons event events ih =>
    obtain ⟨event, mark⟩ := event
    have hnode (properties : Properties) (part : Part) :
        (load ((document.nameNext names properties.anchor).1.push part mark)
          (document.nameNext names properties.anchor).2 cut events).1.Plain :=
      ih _ fun error herror => hdocument error (by rwa [← nameNext_error document names])
    match event with
    | .streamStart | .documentStart => exact ih names hdocument
    | .sequenceEnd | .mappingEnd => exact ih names hdocument
    | .documentEnd => exact hdocument
    | .streamEnd =>
      rw [load]
      split
      · exact hdocument
      · exact hdocument
    | .alias name =>
      rw [load]
      split
      next number _ =>
        have hpush : (document.push (.alias number) mark).Plain := hdocument
        exact ih names hpush
      next =>
        rintro error ⟨⟩
        rfl
    | .scalar properties text style => exact hnode properties _
    | .sequenceStart properties => exact hnode properties _
    | .mappingStart properties => exact hnode properties _

theorem plain_ofBytes (bytes : List UInt8) : (ofBytes bytes).1.Plain :=
  plain_load _ _ _ fun _ hempty => nomatch hempty

end Document

def scalarTexts (bytes : List UInt8) : List String :=
  (Document.ofBytes bytes).1.scalarTexts

theorem compose_cites {bytes : List UInt8} {error : Error} (h : compose bytes = .error error) :
    error.Cites (scalarTexts bytes) := by
  have hdocument := Document.plain_ofBytes bytes
  unfold compose Document.readAll at h
  dsimp only at h
  split at h
  next error' hread =>
    cases h
    exact ((Reading.sound hdocument _).value (List.forall_mem_nil _) _ _ ⟨0, 0⟩).2 error hread
  next error' _ herror =>
    cases h
    exact .of_quotes_eq_nil (hdocument error herror)
  next =>
    split at h
    · cases h
      exact .of_quotes_eq_nil rfl
    · cases h

theorem read_cites {bytes : List UInt8} {error : Error} (h : read bytes = .error error) :
    error.Cites (scalarTexts bytes) := by
  obtain h | ⟨value, -, hmerge⟩ := bind_eq_error_iff.mp h
  · exact compose_cites h
  · obtain ⟨fault, -, rfl⟩ := mapError_eq_error_iff.mp hmerge
    exact .of_quotes_eq_nil rfl

/-! ### The marker in what is repeated -/

theorem marked_lead_append {trail : Trail} {s : String}
    (h : Marked (Trail.text.lead trail ++ s)) : Marked trail.text ∨ Marked s := by
  cases trail with
  | nil =>
    rw [Trail.text.lead, String.empty_append] at h
    exact .inr h
  | cons step outer =>
    have hdot : Leads rejectionMarker "." := leads_ofList (by decide)
    rw [Trail.text.lead, String.append_assoc] at h
    · exact ((marked_append_iff (by decide +kernel)).mp h).imp_right (hdot s)
    · exact List.cons_ne_nil step outer

theorem exists_marked_key : {trail : Trail} → Marked trail.text →
    ∃ key, .field key ∈ trail ∧ Marked key
  | [], h => by
    rw [Trail.text] at h
    exact absurd h (not_contains_ofList (by decide))
  | step :: outer, h => by
    have houter (h : Marked (Trail.text outer)) :
        ∃ key, .field key ∈ step :: outer ∧ Marked key := by
      obtain ⟨key, hkey, hmarked⟩ := exists_marked_key h
      exact ⟨key, .tail _ hkey, hmarked⟩
    cases step with
    | item index =>
      have hopen : Trails rejectionMarker "[" := trails_ofList (by decide)
      have hclose : Trails rejectionMarker "]" := trails_ofList (by decide)
      rw [Trail.text] at h
      exact houter (hopen _ (trails_toString index _ (hclose _ h)))
    | field key =>
      rw [Trail.text] at h
      exact (marked_lead_append h).elim houter fun hkey => ⟨key, List.mem_cons_self, hkey⟩
    | unknown =>
      have hmark : ¬ Marked "?" := not_contains_ofList (by decide)
      rw [Trail.text] at h
      exact (marked_lead_append h).elim houter fun hunknown => absurd hunknown hmark

theorem Error.Cites.exists_marked {texts : List String} {error : Error} (h : error.Cites texts)
    (hmarked : ∃ quote ∈ error.quotes, Marked quote) : ∃ text ∈ texts, Marked text := by
  obtain ⟨quote, hquote, hmarked⟩ := hmarked
  obtain hquote | ⟨trail, htrail, rfl⟩ := h quote hquote
  · exact ⟨quote, hquote, hmarked⟩
  · obtain ⟨key, hkey, hmarked⟩ := exists_marked_key hmarked
    exact ⟨key, htrail (.field key) hkey key rfl, hmarked⟩

end ApiSuite.Yaml
