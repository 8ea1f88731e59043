import ApiSuite.Files.Disk
import ApiSuite.Proofs.Settings.Document
import ApiSuite.Settings.Load

/-!
# Where each setting comes from

The command line comes before the settings file, and that before the defaults. This goes for each
setting by itself, however many changes the command line makes: all of them together are one change,
which has the last of the values that they give.
-/

namespace ApiSuite.Settings

open Yaml

/-! ### Changes -/

variable {α : Type} {change : Overrides} {changes : List Overrides} {settings : Settings}

def lastOf (get : Overrides → Option α) (changes : List Overrides) : Option α :=
  (changes.filterMap get).getLast?

theorem lastOf_cons (get : Overrides → Option α) :
    lastOf get (change :: changes) = (lastOf get changes).or (get change) := by
  rw [lastOf, lastOf]
  cases h : get change with
  | none => rw [List.filterMap_cons_none h, Option.or_none]
  | some a => rw [List.filterMap_cons_some h, List.getLast?_cons, Option.or_some]

def combined (changes : List Overrides) : Overrides where
  pattern := lastOf (·.pattern) changes
  root := lastOf (·.root) changes
  noRecursive := changes.any (·.noRecursive)

theorem override_override (settings : Settings) (change later : Overrides) :
    (settings.override change).override later =
      settings.override ⟨later.pattern.or change.pattern, later.root.or change.root,
        change.noRecursive || later.noRecursive⟩ := by
  simp [override, Option.or_assoc, Bool.and_assoc, Option.getD_or]

theorem override_self (settings : Settings) (change : Overrides) :
    (settings.override change).override change = settings.override change := by
  rw [override_override, Option.or_self, Option.or_self, Bool.or_self]

theorem foldl_override (changes : List Overrides) (settings : Settings) :
    changes.foldl override settings = settings.override (combined changes) := by
  induction changes generalizing settings with
  | nil =>
      simp [override, combined, lastOf]
  | cons change changes ih =>
      rw [List.foldl_cons, ih, override_override, combined, combined, lastOf_cons, lastOf_cons,
        List.any_cons]

theorem foldl_override_append_self (changes : List Overrides) (settings : Settings) :
    (changes ++ changes).foldl override settings = changes.foldl override settings := by
  rw [List.foldl_append, foldl_override, foldl_override, override_self]

/-! ### Resolving -/

/-- Each setting is that of the last change to it, else what is written for it, else the default. -/
structure Resolved (written : Written) (changes : List Overrides) (settings : Settings) : Prop where
  testPattern : settings.testPattern =
    ((lastOf (·.pattern) changes).or ((written.lookup .testPattern).bind (·.text?))).getD
      default.testPattern
  root : settings.root =
    (lastOf (·.root) changes).or ((written.lookup .root).bind (·.text?))
  recursive : settings.recursive =
    if changes.any (·.noRecursive) then false
    else ((written.lookup .recursive).bind (·.flag?)).getD default.recursive
  exclude : settings.exclude =
    ((written.lookup .exclude).bind (·.texts?)).getD default.exclude

theorem overlay_none (written : Written) :
    overlay written .none =
      { testPattern := (written.lookup .testPattern).bind (·.text?)
        root := (written.lookup .root).bind (·.text?)
        recursive := (written.lookup .recursive).bind (·.flag?)
        exclude := (written.lookup .exclude).bind (·.texts?) } := by
  have helim {β : Type} (found : Option Entry) (f : Entry → Option β) :
      found.elim none f = found.bind f := by
    cases found <;> rfl
  simp only [overlay, PartialSettings.none, helim]

theorem resolved_foldl_override (written : Written) (changes : List Overrides) :
    Resolved written changes (changes.foldl override ((overlay written .none).resolve default)) := by
  rw [foldl_override, overlay_none]
  constructor
  case testPattern =>
    rw [Option.getD_or]
    rfl
  case root =>
    change (lastOf (·.root) changes).or (((written.lookup .root).bind (·.text?)).or none) = _
    rw [Option.or_none]
  case recursive =>
    change (_ && !changes.any (·.noRecursive)) = _
    cases changes.any (·.noRecursive) with
    | false => rw [Bool.not_false, Bool.and_true]; rfl
    | true => rw [Bool.not_true, Bool.and_false]; rfl
  case exclude => rfl

theorem searchDir_eq (settings : Settings) (base : String) (dir : Option String) :
    settings.searchDir base dir =
      match settings.root with
      | none => base
      | some root =>
          if Files.isAbsolute root then root else Files.join (dir.getD base) root := by
  rw [searchDir]
  cases settings.root with
  | none => rfl
  | some root =>
      dsimp only
      split
      case isTrue habsolute => rw [Files.join, if_pos habsolute]
      case isFalse => rfl

/-- The file that comes with the program says all that the default settings do, so they do not depend on
what its own settings are laid over; a root is not among them. -/
theorem readAll_shipped (base : Settings) :
    (·.resolve base) <$> Document.readAll shipped readDocument =
      .ok { default with root := base.root } := by
  have hread : (Document.readAll shipped readDocument).toOption =
      some ⟨default.testPattern, none, default.recursive, default.exclude⟩ := by
    decide +kernel
  rw [toOption_eq_some_iff.mp hread]
  rfl

theorem ofBytes_shipped : ofBytes shipped = .ok default :=
  readAll_shipped default

/-- **Precedence.** In the settings of a file with any changes over them each setting is the last
given on the command line, else the one in the file, else the default. Making the changes once more
makes no difference, and a scan starts at the root, taken from the directory of the file. -/
theorem load_override {files : Files.System Id} {path fileDir : String} {loaded : Settings}
    (h : (load files path).run = .ok (loaded, fileDir)) (changes : List Overrides) :
    ∃ bytes written, (files.read path).run = .ok bytes
      ∧ (∀ other, Says (Document.ofBytes bytes).1 other ↔ other = written)
      ∧ Resolved written changes (changes.foldl override loaded)
      ∧ (changes ++ changes).foldl override loaded = changes.foldl override loaded
      ∧ ∀ base dir, (changes.foldl override loaded).searchDir base dir =
          match (changes.foldl override loaded).root with
          | none => base
          | some root =>
              if Files.isAbsolute root then root else Files.join (dir.getD base) root := by
  change ofFile path (files.read path).run = _ at h
  obtain ⟨bytes, hread, h⟩ := bind_eq_ok_iff.mp h
  obtain ⟨_, hcontent, hsame⟩ := bind_eq_ok_iff.mp h
  cases hsame
  have hbytes : ofBytes bytes = .ok loaded := by
    rw [ofContent] at hcontent
    split at hcontent
    · cases hcontent
    · exact mapError_eq_ok_iff.mp hcontent
  obtain ⟨written, hsays, rfl⟩ := exists_says_of_ofBytes hbytes
  refine ⟨bytes, written, mapError_eq_ok_iff.mp hread, ?_, resolved_foldl_override written changes,
    foldl_override_append_self changes _, fun base dir => searchDir_eq _ base dir⟩
  intro other
  constructor
  · exact fun hother => hother.unique hsays
  · rintro rfl
    exact hsays

/-- A null, a flag that is set, and nothing else. -/
def layeredText : List UInt8 :=
  asciiOctets "{root: ~, recursive: false}".toList

def layered : Files.Disk :=
  ⟨.dir [(fileName, .file layeredText)], []⟩

theorem ofBytes_layered : ofBytes layeredText = .ok { default with recursive := false } := by
  have hread : (ofBytes layeredText).toOption = some { default with recursive := false } := by
    decide +kernel
  exact toOption_eq_some_iff.mp hread

theorem load_layered : (load layered.system "/.stepcheck.yaml").run =
    .ok ({ default with recursive := false }, "/") := by
  have hread : (layered.system.read "/.stepcheck.yaml").run = .ok layeredText := rfl
  have hparent : (Files.parent? "/.stepcheck.yaml").getD "." = "/" := by
    decide +kernel
  have htext : (String.fromUTF8? ⟨layeredText.toArray⟩).isSome := by
    decide +kernel
  have hcontent : ofContent "/.stepcheck.yaml" layeredText =
      .ok { default with recursive := false } := by
    obtain ⟨text, htext⟩ := Option.isSome_iff_exists.mp htext
    rw [ofContent, htext]
    exact mapError_eq_ok_iff.mpr ofBytes_layered
  change ofFile "/.stepcheck.yaml" (layered.system.read "/.stepcheck.yaml").run = _
  rw [hread, ofFile, hparent]
  exact bind_eq_ok_iff.mpr ⟨layeredText, rfl, bind_eq_ok_iff.mpr ⟨_, hcontent, rfl⟩⟩

/-- The last pattern counts, and a root that was given is kept. -/
theorem load_override_layered :
    (load layered.system "/.stepcheck.yaml").run = .ok ({ default with recursive := false }, "/")
      ∧ ∃ written, (∀ other, Says (Document.ofBytes layeredText).1 other ↔ other = written)
        ∧ Resolved written [⟨some "a", none, false⟩, ⟨none, some "x", false⟩, ⟨some "b", none, false⟩]
            ⟨"b", some "x", false, default.exclude⟩
        ∧ (⟨"b", some "x", false, default.exclude⟩ : Settings).searchDir "/work" (some "/api") =
            "/api/x" := by
  refine ⟨load_layered, ?_⟩
  obtain ⟨bytes, written, hread, hsays, hresolved, -, hsearch⟩ := load_override load_layered
    [⟨some "a", none, false⟩, ⟨none, some "x", false⟩, ⟨some "b", none, false⟩]
  obtain rfl : layeredText = bytes := Except.ok.inj hread
  exact ⟨written, hsays, hresolved, hsearch "/work" (some "/api")⟩

end ApiSuite.Settings
