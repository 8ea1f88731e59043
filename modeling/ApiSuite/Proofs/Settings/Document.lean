import ApiSuite.Proofs.Except
import ApiSuite.Proofs.Yaml.Anchors
import ApiSuite.Settings.Read

/-!
# What a settings file says

A settings file is a mapping in which each known key stands at most once. What it says of a field is
told from the part of the document under the key of the field: a null says nothing, and anything else
is the value of this field and of no other.
-/

namespace ApiSuite.Settings

open Yaml Yaml.Reading

/-- What is written under a key of a settings file. -/
inductive Entry where
  | null
  | text (s : String)
  | flag (b : Bool)
  | texts (items : List String)
  deriving DecidableEq, Repr

def Entry.text? : Entry → Option String
  | .text s => some s
  | _ => none

def Entry.flag? : Entry → Option Bool
  | .flag b => some b
  | _ => none

def Entry.texts? : Entry → Option (List String)
  | .texts items => some items
  | _ => none

/-- The entries of a settings file in their order. -/
abbrev Written := List (Field × Entry)

/-! ### What is written in a document -/

/-- A scalar stands at a place, or an alias of one. -/
def TextAt (document : Document) (place : Nat) (s : String) : Prop :=
  ∃ tag style, document.partAt (document.targetOf place) = .scalar tag s style

/-- Texts stand from a place on, up to the end of a collection, and `next` comes after it. -/
inductive TextsAt (document : Document) : Nat → List String → Nat → Prop
  | ends {place : Nat} (h : (document.partAt place).IsEnd) : TextsAt document place [] (place + 1)
  | text {place next : Nat} {s : String} {rest : List String} (h : TextAt document place s)
      (later : TextsAt document (place + 1) rest next) : TextsAt document place (s :: rest) next

/-- What is written for a field at a place, and the place that comes after it. -/
inductive EntryAt (document : Document) (field : Field) : Nat → Entry → Nat → Prop
  | nothing {place : Nat} (h : document.partAt place = .absent) :
      EntryAt document field place .null place
  | null {place : Nat} {tag : Option Tag} {s : String} {style : ScalarStyle}
      (h : document.partAt place = .scalar tag s style) (hnull : isAbsent tag s style = .ok true) :
      EntryAt document field place .null (place + 1)
  | text {place : Nat} {tag : Option Tag} {s : String} {style : ScalarStyle}
      (hfield : field = .testPattern ∨ field = .root)
      (h : document.partAt place = .scalar tag s style) (hnull : isAbsent tag s style = .ok false) :
      EntryAt document field place (.text s) (place + 1)
  | flag {place : Nat} {tag : Option Tag} {s : String} {style : ScalarStyle} {b : Bool}
      (hfield : field = .recursive) (h : document.partAt place = .scalar tag s style)
      (hnull : isAbsent tag s style = .ok false) (hword : boolWord? s = some b) :
      EntryAt document field place (.flag b) (place + 1)
  | texts {place next : Nat} {tag : Option Tag} {items : List String} (hfield : field = .exclude)
      (h : document.partAt place = .sequenceStart tag)
      (hitems : TextsAt document (place + 1) items next) :
      EntryAt document field place (.texts items) next
  | aliased {place anchor next : Nat} {entry : Entry} (h : document.partAt place = .alias anchor)
      (hentry : EntryAt document field (document.targetOf place) entry next) :
      EntryAt document field place entry (place + 1)

/-- Fields are written from a place on, up to the end of a collection. -/
inductive FieldsAt (document : Document) : Nat → Written → Prop
  | ends {place : Nat} (h : (document.partAt place).IsEnd) : FieldsAt document place []
  | field {place next : Nat} {field : Field} {entry : Entry} {rest : Written}
      (hkey : TextAt document place field.name) (hentry : EntryAt document field (place + 1) entry next)
      (later : FieldsAt document next rest) : FieldsAt document place ((field, entry) :: rest)

/-- The document is a mapping with these entries, no two of which have the same key. One that is empty
has none. -/
def Says (document : Document) (written : Written) : Prop :=
  (written.map (·.1)).Nodup ∧
    ((∃ tag, document.partAt (document.targetOf 0) = .mappingStart tag
        ∧ FieldsAt document (document.targetOf 0 + 1) written)
      ∨ written = [] ∧ (document.partAt (document.targetOf 0) = .absent ∨ TextAt document 0 ""))

variable {α : Type} {document : Document} {progress progress' : Progress} {field : Field}
  {place next : Nat} {entry : Entry} {items : List String}

theorem targetOf_eq_self (h : ∀ anchor, document.partAt place ≠ .alias anchor) :
    document.targetOf place = place := by
  rw [Document.targetOf]
  split
  case h_1 anchor hpart => exact absurd hpart (h anchor)
  case h_2 => rfl

theorem TextsAt.lt (h : TextsAt document place items next) : place < next := by
  induction h with
  | ends => omega
  | text _ _ ih => omega

theorem EntryAt.le (h : EntryAt document field place entry next) : place ≤ next := by
  cases h with
  | nothing => exact Nat.le_refl place
  | texts _ _ hitems => exact Nat.le_of_lt (Nat.lt_of_succ_lt hitems.lt)
  | _ => exact Nat.le_succ place

/-! ### One reading -/

variable {s s' : String} {items' : List String} {entry' : Entry} {next' : Nat}

theorem TextAt.unique (h : TextAt document place s) (h' : TextAt document place s') : s = s' := by
  obtain ⟨tag, style, h⟩ := h
  obtain ⟨tag', style', h'⟩ := h'
  exact (Part.scalar.inj (h.symm.trans h')).2.1

theorem TextAt.not_isEnd (h : TextAt document place s) : ¬(document.partAt place).IsEnd := by
  intro hend
  obtain ⟨tag, style, h⟩ := h
  rw [targetOf_eq_self] at h
  · rw [h] at hend
    obtain ⟨⟨⟩⟩ | ⟨⟨⟩⟩ | ⟨⟨⟩⟩ := hend
  · rintro anchor halias
    rw [halias] at hend
    obtain ⟨⟨⟩⟩ | ⟨⟨⟩⟩ | ⟨⟨⟩⟩ := hend

theorem TextsAt.unique (h : TextsAt document place items next)
    (h' : TextsAt document place items' next') : items = items' ∧ next = next' := by
  induction h generalizing items' with
  | ends hend =>
      cases h' with
      | ends => exact ⟨rfl, rfl⟩
      | text htext => exact absurd hend htext.not_isEnd
  | text htext _ ih =>
      cases h' with
      | ends hend => exact absurd hend htext.not_isEnd
      | text htext' later' =>
          obtain ⟨rfl, rfl⟩ := ih later'
          exact ⟨by rw [htext.unique htext'], rfl⟩

theorem EntryAt.unique (h : EntryAt document field place entry next)
    (h' : EntryAt document field place entry' next') : entry = entry' ∧ next = next' := by
  induction h generalizing entry' next' with
  | texts hfield h hitems =>
      cases h' with
      | texts _ h' hitems' =>
          obtain ⟨rfl, rfl⟩ := hitems.unique hitems'
          exact ⟨rfl, rfl⟩
      | _ => simp_all
  | aliased h _ ih =>
      cases h' with
      | aliased h' hentry' => exact ⟨(ih hentry').1, rfl⟩
      | _ => simp_all
  | _ => cases h' <;> simp_all

theorem Field.ofName?_name (field : Field) : ofName? field.name = some field := by
  cases field <;> rfl

theorem Field.name_injective : Function.Injective Field.name := by
  intro field other h
  rw [← Option.some_inj, ← ofName?_name field, ← ofName?_name other, h]

theorem FieldsAt.unique {written written' : Written} (h : FieldsAt document place written)
    (h' : FieldsAt document place written') : written = written' := by
  induction h generalizing written' with
  | ends hend =>
      cases h' with
      | ends => rfl
      | field hkey => exact absurd hend hkey.not_isEnd
  | field hkey hentry _ ih =>
      cases h' with
      | ends hend => exact absurd hend hkey.not_isEnd
      | field hkey' hentry' later' =>
          obtain rfl := Field.name_injective (hkey.unique hkey')
          obtain ⟨rfl, rfl⟩ := hentry.unique hentry'
          rw [ih later']

theorem Says.unique {written written' : Written} (h : Says document written)
    (h' : Says document written') : written = written' := by
  have hmapping : ∀ tag, document.partAt (document.targetOf 0) = .mappingStart tag →
      ¬(document.partAt (document.targetOf 0) = .absent ∨ TextAt document 0 "") := by
    rintro tag hpart (hempty | ⟨_, _, hempty⟩)
    · cases hpart.symm.trans hempty
    · cases hpart.symm.trans hempty
  obtain ⟨-, ⟨tag, hpart, hfields⟩ | ⟨rfl, hempty⟩⟩ := h
  · obtain ⟨-, ⟨tag', hpart', hfields'⟩ | ⟨rfl, hempty⟩⟩ := h'
    · exact hfields.unique hfields'
    · exact absurd hempty (hmapping tag hpart)
  · obtain ⟨-, ⟨tag', hpart', hfields'⟩ | ⟨rfl, -⟩⟩ := h'
    · exact absurd hempty (hmapping tag' hpart')
    · rfl

/-! ### Parts -/

/-- What is read is the part at the target. Where that is not an alias, reading goes on after it, and
else it comes back. -/
theorem of_readPart {read : Part → Mark → Reading α} {a : α}
    (h : readPart document read progress = .ok (a, progress')) :
    ∃ mark start finish, start.position = document.targetOf progress.position + 1
      ∧ read (document.partAt (document.targetOf progress.position)) mark start = .ok (a, finish)
      ∧ (document.targetOf progress.position = progress.position ∧ progress' = finish
        ∨ (∃ anchor, document.partAt progress.position = .alias anchor)
          ∧ progress'.position = progress.position + 1) := by
  obtain ⟨⟨part, mark⟩, between, hnext, hread⟩ := exists_of_bind h
  obtain ⟨hpart, hposition⟩ := of_next hnext
  dsimp only at hpart
  cases part with
  | «alias» anchor =>
      obtain ⟨start, finish, hstart, hinner, hback⟩ := of_follow hread
      obtain ⟨⟨target, mark'⟩, inside, hnext', hread'⟩ := exists_of_bind hinner
      obtain ⟨htarget, hinside⟩ := of_next hnext'
      dsimp only at htarget hread'
      have hto : document.targetOf progress.position = start.position := by
        rw [Document.targetOf, ← hpart, hstart, hposition]
      refine ⟨mark', inside, finish, ?_, ?_, .inr ⟨⟨anchor, hpart.symm⟩, hback.trans hposition⟩⟩
      · rw [hinside, hto]
      · rw [hto, ← htarget]
        exact hread'
  | _ =>
      have hto : document.targetOf progress.position = progress.position := by
        rw [Document.targetOf, ← hpart]
      refine ⟨mark, between, progress', ?_, ?_, .inl ⟨hto, rfl⟩⟩
      · rw [hposition, hto]
      · rw [hto, ← hpart]
        exact hread

theorem of_readPart_still {read : Part → Mark → Reading α} {a : α} {P : Part → Prop}
    (hstill : ∀ part mark start finish, read part mark start = .ok (a, finish) →
      P part ∧ finish = start)
    (h : readPart document read progress = .ok (a, progress')) :
    P (document.partAt (document.targetOf progress.position))
      ∧ progress'.position = progress.position + 1 := by
  obtain ⟨mark, start, finish, hstart, hread, hafter⟩ := of_readPart h
  obtain ⟨hpart, rfl⟩ := hstill _ _ _ _ hread
  refine ⟨hpart, ?_⟩
  obtain ⟨hto, rfl⟩ | ⟨-, hafter⟩ := hafter
  · rw [hstart, hto]
  · exact hafter

theorem not_mistyped {trail : Trail} {mark : Mark} {expected : Expected} {part : Part} {a : α} :
    mistyped trail mark expected part progress ≠ .ok (a, progress') := by
  intro h
  cases part with
  | scalar tag text style =>
      obtain ⟨found, between, -, hbad⟩ := exists_of_bind h
      cases hbad
  | _ => cases h

theorem of_readText {trail : Trail} {expected : Expected} {s : String}
    (h : readText document trail expected progress = .ok (s, progress')) :
    TextAt document progress.position s ∧ progress'.position = progress.position + 1 := by
  refine of_readPart_still (P := fun part => ∃ tag style, part = .scalar tag s style) ?_ h
  intro part mark start finish hread
  cases part with
  | scalar tag text style =>
      cases hread
      exact ⟨⟨tag, style, rfl⟩, rfl⟩
  | _ => exact absurd hread not_mistyped

theorem of_readBool {trail : Trail} {b : Bool}
    (h : readBool document trail progress = .ok (b, progress')) :
    (∃ tag s style, document.partAt (document.targetOf progress.position) = .scalar tag s style
        ∧ boolWord? s = some b)
      ∧ progress'.position = progress.position + 1 := by
  refine of_readPart_still
    (P := fun part => ∃ tag s style, part = .scalar tag s style ∧ boolWord? s = some b) ?_ h
  intro part mark start finish hread
  cases part with
  | scalar tag text style =>
      dsimp only at hread
      cases hword : boolWord? text with
      | none =>
          rw [hword] at hread
          exact absurd hread not_mistyped
      | some word =>
          rw [hword] at hread
          dsimp only at hread
          split at hread
          · cases hread
            exact ⟨⟨tag, text, style, rfl, hword⟩, rfl⟩
          · exact absurd hread not_mistyped
  | _ => exact absurd hread not_mistyped

theorem of_readKey (h : readKey document progress = .ok (field, progress')) :
    TextAt document progress.position field.name ∧ progress'.position = progress.position + 1 := by
  refine of_readPart_still (P := fun part => ∃ tag style, part = .scalar tag field.name style) ?_ h
  intro part mark start finish hread
  cases part with
  | scalar tag text style =>
      dsimp only at hread
      cases hname : Field.ofName? text with
      | none =>
          rw [hname] at hread
          cases hread
      | some found =>
          rw [hname] at hread
          cases hread
          have hsame : field.name = text := by
            simpa using List.find?_some hname
          exact ⟨⟨tag, style, by rw [hsame]⟩, rfl⟩
  | _ => exact absurd hread not_mistyped

/-! ### Texts -/

theorem of_readItems {trail : Trail} {rounds index : Nat}
    (hin : progress.position ≤ document.parts.size)
    (hrounds : document.parts.size < progress.position + rounds)
    (h : readItems document trail rounds index progress = .ok (items, progress')) :
    TextsAt document progress.position items progress'.position := by
  induction rounds generalizing progress index items with
  | zero => omega
  | succ rounds ih =>
      obtain ⟨ends, here, hends, h⟩ := exists_of_bind h
      obtain ⟨hend, rfl⟩ := of_atEnd hends
      cases ends with
      | true =>
          cases h
          exact .ends (hend.mp rfl)
      | false =>
          obtain ⟨s, afterText, hs, h⟩ := exists_of_bind h
          obtain ⟨rest, afterRest, hrest, h⟩ := exists_of_bind h
          cases h
          obtain ⟨hs, hposition⟩ := of_readText hs
          have hhere : here.position < document.parts.size :=
            Document.lt_size_of_partAt_ne_absent fun habsent =>
              Bool.noConfusion (hend.mpr (.inr (.inr habsent)))
          refine .text hs ?_
          rw [← hposition]
          exact ih (by omega) (by omega) hrest

theorem of_readTexts {trail : Trail} {depth : Nat}
    (hnode : ∀ anchor, document.partAt progress.position ≠ .alias anchor)
    (h : readTexts document trail depth progress = .ok (items, progress')) :
    ∃ tag, document.partAt progress.position = .sequenceStart tag
      ∧ TextsAt document (progress.position + 1) items progress'.position := by
  obtain ⟨mark, start, finish, hstart, hread, ⟨-, rfl⟩ | ⟨⟨anchor, halias⟩, -⟩⟩ := of_readPart h
  case inr => exact absurd halias (hnode anchor)
  rw [targetOf_eq_self hnode] at hstart hread
  cases hpart : document.partAt progress.position with
  | sequenceStart tag =>
      rw [hpart] at hread
      obtain ⟨_, between, hdiscard, hitems⟩ := exists_of_bind hread
      obtain ⟨_, hdescend, -⟩ := exists_of_map hdiscard
      obtain rfl := of_descend hdescend
      have hhere : progress.position < document.parts.size :=
        Document.lt_size_of_partAt_ne_absent (by rw [hpart]; nofun)
      refine ⟨tag, rfl, ?_⟩
      rw [← hstart]
      exact of_readItems (by omega) (by omega) hitems
  | _ =>
      rw [hpart] at hread
      exact absurd hread not_mistyped

/-! ### Entries -/

/-- A reader finds what is written for a field, if that is not a null. -/
def Reads (document : Document) (field : Field) (read : Reading α) (entryOf : α → Entry) : Prop :=
  ∀ ⦃progress progress' : Progress⦄ ⦃a : α⦄,
    (∀ anchor, document.partAt progress.position ≠ .alias anchor) →
    (∀ tag s style, document.partAt progress.position = .scalar tag s style →
      isAbsent tag s style = .ok false) →
    read progress = .ok (a, progress') →
    EntryAt document field progress.position (entryOf a) progress'.position

theorem reads_readText {trail : Trail} {expected : Expected}
    (hfield : field = .testPattern ∨ field = .root) :
    Reads document field (readText document trail expected) .text := by
  intro progress progress' s hnode hnull h
  obtain ⟨⟨tag, style, hpart⟩, hposition⟩ := of_readText h
  rw [targetOf_eq_self hnode] at hpart
  rw [hposition]
  exact .text hfield hpart (hnull _ _ _ hpart)

theorem reads_readBool {trail : Trail} :
    Reads document .recursive (readBool document trail) .flag := by
  intro progress progress' b hnode hnull h
  obtain ⟨⟨tag, s, style, hpart, hword⟩, hposition⟩ := of_readBool h
  rw [targetOf_eq_self hnode] at hpart
  rw [hposition]
  exact .flag rfl hpart (hnull _ _ _ hpart) hword

theorem reads_readTexts {trail : Trail} {depth : Nat} :
    Reads document .exclude (readTexts document trail depth) .texts := by
  intro progress progress' items hnode hnull h
  obtain ⟨tag, hpart, hitems⟩ := of_readTexts hnode h
  exact .texts rfl hpart hitems

variable {read : Reading α} {entryOf : α → Entry} {found : Option α} {start : Mark}

theorem Reads.of_readHere (hread : Reads document field read entryOf)
    (hnode : ∀ anchor, document.partAt progress.position ≠ .alias anchor)
    (h : readOption.readHere start read (document.partAt progress.position) progress =
      .ok (found, progress')) :
    EntryAt document field progress.position (found.elim .null entryOf) progress'.position := by
  have hsome : ∀ {between : Progress}, between = progress →
      (∀ tag s style, document.partAt progress.position = .scalar tag s style →
        isAbsent tag s style = .ok false) →
      (some <$> read) between = .ok (found, progress') →
      EntryAt document field progress.position (found.elim .null entryOf) progress'.position := by
    rintro _ rfl hnull h
    obtain ⟨a, ha, rfl⟩ := exists_of_map h
    exact hread hnode hnull ha
  cases hpart : document.partAt progress.position with
  | scalar tag s style =>
      rw [hpart] at h
      obtain ⟨isNull, between, hbad, h⟩ := exists_of_bind h
      obtain ⟨hnull, hsame⟩ := of_orBad hbad
      cases isNull with
      | true =>
          cases h
          rw [hsame]
          exact .null hpart hnull
      | false =>
          refine hsome hsame ?_ h
          intro tag' s' style' hpart'
          obtain ⟨rfl, rfl, rfl⟩ := Part.scalar.inj (hpart.symm.trans hpart')
          exact hnull
  | absent =>
      rw [hpart] at h
      cases h
      exact .nothing hpart
  | _ =>
      rw [hpart] at h
      exact hsome rfl (fun tag s style hscalar => by cases hpart.symm.trans hscalar) h

theorem Reads.of_readOption (hread : Reads document field read entryOf)
    (hanchored : document.WellAnchored)
    (h : readOption document start read progress = .ok (found, progress')) :
    EntryAt document field progress.position (found.elim .null entryOf) progress'.position := by
  obtain ⟨⟨part, mark⟩, here, hpeek, h⟩ := exists_of_bind h
  obtain ⟨hpart, rfl⟩ := of_peek hpeek
  dsimp only at hpart
  cases part with
  | «alias» anchor =>
      obtain ⟨_, between, hskip, h⟩ := exists_of_bind h
      cases hskip
      obtain ⟨there, finish, hthere, hfollowed, hback⟩ := of_follow h
      obtain ⟨⟨target, mark'⟩, between, hpeek', hfound⟩ := exists_of_bind hfollowed
      obtain ⟨htarget, hsame⟩ := of_peek hpeek'
      subst hsame
      dsimp only at htarget hfound hback hthere
      have hto : document.targetOf here.position = between.position := by
        rw [Document.targetOf, ← hpart, hthere]
      -- What stands at an anchor is no alias, so reading jumps only once.
      obtain ⟨place, hanchor, -, hnode⟩ := hanchored _ _ hpart.symm
      rw [hanchor, Option.getD_some] at hthere
      rw [htarget] at hfound
      have hentry := hread.of_readHere (hthere ▸ hnode) hfound
      rw [← hto] at hentry
      rw [hback]
      exact .aliased hpart.symm hentry
  | _ =>
      have hnode : ∀ anchor, document.partAt here.position ≠ .alias anchor := by
        rw [← hpart]
        nofun
      have hfound : readOption.readHere start read (document.partAt here.position) here =
          .ok (found, progress') := by
        rw [← hpart]
        exact h
      exact hread.of_readHere hnode hfound

/-! ### Fields -/

def put (settings : PartialSettings) : Field → Entry → PartialSettings
  | .testPattern, entry => { settings with testPattern := entry.text? }
  | .root, entry => { settings with root := entry.text? }
  | .recursive, entry => { settings with recursive := entry.flag? }
  | .exclude, entry => { settings with exclude := entry.texts? }

/-- Settings in which the written fields are as written. -/
def overlay (written : Written) (settings : PartialSettings) : PartialSettings where
  testPattern := (written.lookup .testPattern).elim settings.testPattern (·.text?)
  root := (written.lookup .root).elim settings.root (·.text?)
  recursive := (written.lookup .recursive).elim settings.recursive (·.flag?)
  exclude := (written.lookup .exclude).elim settings.exclude (·.texts?)

variable {settings settings' : PartialSettings}

theorem overlay_nil (settings : PartialSettings) : overlay [] settings = settings :=
  rfl

theorem overlay_cons {rest : Written} (hfresh : field ∉ rest.map (·.1)) :
    overlay ((field, entry) :: rest) settings = overlay rest (put settings field entry) := by
  have hnone : rest.lookup field = none := by
    rw [List.lookup_eq_none_iff]
    intro other hother
    have hne : field ≠ other.1 := fun hsame => hfresh (hsame ▸ List.mem_map_of_mem hother)
    simpa using hne
  cases field <;> simp only [overlay, put, hnone, Option.elim_none] <;> rfl

theorem Reads.of_set {set : Option α → PartialSettings} (hread : Reads document field read entryOf)
    (hanchored : document.WellAnchored)
    (hset : ∀ found, set found = put settings field (found.elim .null entryOf))
    (h : (readOption document start read >>= fun found => pure (set found)) progress =
      .ok (settings', progress')) :
    ∃ entry, EntryAt document field progress.position entry progress'.position
      ∧ settings' = put settings field entry := by
  obtain ⟨found, between, hfound, hput⟩ := exists_of_bind h
  cases hput
  exact ⟨_, hread.of_readOption hanchored hfound, hset found⟩

theorem of_readValue {depth : Nat} {trail : Trail} (hanchored : document.WellAnchored)
    (h : readValue document start depth trail settings field progress = .ok (settings', progress')) :
    ∃ entry, EntryAt document field progress.position entry progress'.position
      ∧ settings' = put settings field entry := by
  cases field with
  | testPattern =>
      refine Reads.of_set (reads_readText (.inl rfl)) hanchored ?_ h
      rintro (_ | _) <;> rfl
  | root =>
      refine Reads.of_set (reads_readText (.inr rfl)) hanchored ?_ h
      rintro (_ | _) <;> rfl
  | recursive =>
      refine Reads.of_set reads_readBool hanchored ?_ h
      rintro (_ | _) <;> rfl
  | exclude =>
      refine Reads.of_set reads_readTexts hanchored ?_ h
      rintro (_ | _) <;> rfl

theorem fieldsAt_nil (h : (document.partAt place).IsEnd) (seen : List Field)
    (settings : PartialSettings) :
    ∃ written, FieldsAt document place written ∧ (written.map (·.1)).Nodup
      ∧ (∀ field ∈ written.map (·.1), field ∉ seen) ∧ settings = overlay written settings :=
  ⟨[], .ends h, List.nodup_nil, List.forall_mem_nil _, (overlay_nil settings).symm⟩

theorem of_readFields {depth rounds : Nat} {seen : List Field}
    (hanchored : document.WellAnchored)
    (hrounds : document.parts.size < progress.position + rounds)
    (h : readFields document start depth rounds seen settings progress =
      .ok (settings', progress')) :
    ∃ written, FieldsAt document progress.position written ∧ (written.map (·.1)).Nodup
      ∧ (∀ field ∈ written.map (·.1), field ∉ seen) ∧ settings' = overlay written settings := by
  induction rounds generalizing progress seen settings with
  | zero =>
      -- All parts are read, and nothing stands after the last.
      cases h
      have habsent := Document.partAt_of_size_le (Nat.le_of_lt hrounds)
      exact fieldsAt_nil (.inr (.inr habsent)) _ _
  | succ rounds ih =>
      obtain ⟨ends, here, hends, h⟩ := exists_of_bind h
      obtain ⟨hend, rfl⟩ := of_atEnd hends
      cases ends with
      | true =>
          cases h
          exact fieldsAt_nil (hend.mp rfl) _ _
      | false =>
          obtain ⟨step, _, hstep, h⟩ := exists_of_bind h
          cases of_keyStep hstep
          obtain ⟨field, atValue, hkey, h⟩ := exists_of_bind h
          obtain ⟨hkey, hposition⟩ := of_readKey hkey
          dsimp only at h
          split at h
          case isTrue =>
            obtain ⟨_, _, hbad, -⟩ := exists_of_bind h
            cases hbad
          case isFalse hfresh =>
            obtain ⟨taken, atNext, hvalue, hrest⟩ := exists_of_bind h
            obtain ⟨entry, hentry, rfl⟩ := of_readValue hanchored hvalue
            rw [hposition] at hentry
            have hle := hentry.le
            obtain ⟨rest, hfields, hnodup, hunseen, rfl⟩ := ih (by omega) hrest
            have hnew : field ∉ rest.map (·.1) := fun hmem =>
              hunseen field hmem List.mem_cons_self
            refine ⟨(field, entry) :: rest, .field hkey hentry hfields,
              List.nodup_cons.mpr ⟨hnew, hnodup⟩, List.forall_mem_cons.mpr ⟨hfresh, ?_⟩,
              (overlay_cons hnew).symm⟩
            exact fun other hother hseen => hunseen other hother (List.mem_cons_of_mem field hseen)

/-! ### Documents -/

theorem of_readDocument (hanchored : document.WellAnchored)
    (h : readDocument document ⟨0, 0⟩ = .ok (settings, progress')) :
    ∃ written, Says document written ∧ settings = overlay written .none := by
  obtain ⟨mark, start, finish, hstart, hread, -⟩ := of_readPart h
  dsimp only at hstart hread
  generalize hpart : document.partAt (document.targetOf 0) = part at hread
  split at hread
  case h_1 tag =>
    obtain ⟨depth, between, hdescend, hrest⟩ := exists_of_bind hread
    obtain rfl := of_descend hdescend
    obtain ⟨written, hfields, hnodup, -, rfl⟩ := of_readFields hanchored (by omega) hrest
    rw [hstart] at hfields
    exact ⟨written, ⟨hnodup, .inl ⟨tag, hpart, hfields⟩⟩, rfl⟩
  case h_2 =>
    cases hread
    exact ⟨[], ⟨List.nodup_nil, .inr ⟨rfl, .inl hpart⟩⟩, rfl⟩
  case h_3 tag =>
    cases hread
    exact ⟨[], ⟨List.nodup_nil, .inr ⟨rfl, .inr ⟨tag, .plain, hpart⟩⟩⟩, rfl⟩
  case h_4 => exact absurd hread not_mistyped

theorem exists_says_of_ofBytes {bytes : List UInt8} {settings : Settings}
    (h : ofBytes bytes = .ok settings) :
    ∃ written, Says (Document.ofBytes bytes).1 written
      ∧ settings = (overlay written .none).resolve .default := by
  obtain ⟨found, hfound, rfl⟩ := map_eq_ok_iff.mp h
  obtain ⟨progress, hread⟩ := exists_of_readAll hfound
  obtain ⟨written, hsays, rfl⟩ := of_readDocument (Document.wellAnchored_ofBytes bytes) hread
  exact ⟨written, hsays, rfl⟩

end ApiSuite.Settings
