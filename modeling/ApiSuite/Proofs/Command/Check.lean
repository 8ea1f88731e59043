import ApiSuite.Proofs.Command.Dump
import ApiSuite.Proofs.Command.Reads
import ApiSuite.Proofs.Discovery
import ApiSuite.Proofs.Files.Canonical

/-!
# What is checked is what is listed

A check looks at the files that a list prints, in the order of the list, and counts those that pass. A
file passes if what is in it is a suite and the system takes its path; the path of a listed file can be
too long for that, since it is longer than the path that the listing began with.
-/

namespace ApiSuite

open Files (Disk)

variable {disk : Disk} {path : String} {paths : List String}

namespace Outcome

variable {report : Report} {results : List (String × Except ParseError Suite)}

def tally (report : Report) (passed total : Nat) (blocks : List (List String)) : Outcome where
  status := if passed = total then 0 else 1
  output := Text.page <|
    if total = 0 then ["", "No suite files found.", ""]
    else
      "" :: blocks.flatten ++
        ["", report.paint (if passed = total then .green else .red)
          ("Results: " ++ toString passed ++ "/" ++ toString total ++ " suite file(s) valid")]
  errors := ""

theorem ofCheck_eq_tally :
    ofCheck report results =
      tally report (results.countP (·.2.isOk)) results.length
        (results.map fun result => report.fileLines result.1 result.2) := by
  have hle : results.countP (·.2.isOk) ≤ results.length := List.countP_le_length
  have hall : results.all (·.2.isOk) = true ↔ results.countP (·.2.isOk) = results.length := by
    rw [List.all_eq_true, List.countP_eq_length]
  have hnone : results.length - results.countP (·.2.isOk) = 0 ↔
      results.countP (·.2.isOk) = results.length := by
    omega
  have hempty : results.isEmpty = true ↔ results.length = 0 := by
    rw [List.isEmpty_iff, List.length_eq_zero_iff]
  have htotal : results.countP (·.2.isOk) + (results.length - results.countP (·.2.isOk))
      = results.length := by
    omega
  rw [ofCheck, tally, checkLines]
  simp only [hall, hempty, Report.summaryLine, htotal, hnone, List.flatMap_def]

end Outcome

namespace Command

variable {scope : Scope} {colours outline : Bool} {bytes : List UInt8}

/-- Whether the file at a path passes that has this content. -/
def passes (path : String) (bytes : List UInt8) : Bool :=
  path.utf8ByteSize ≤ Disk.pathLimit && (parse bytes).isOk

theorem isOk_load (h : disk.system.read path =
    if Disk.pathLimit < path.utf8ByteSize then .error .nameTooLong else .ok bytes) :
    (load disk.system path).run.isOk = passes path bytes := by
  have hload : (load disk.system path).run = (disk.system.read path).run.mapError .unread >>= parse := rfl
  rw [hload, h, passes]
  by_cases hlong : Disk.pathLimit < path.utf8ByteSize
  · have hlimit : ¬ path.utf8ByteSize ≤ Disk.pathLimit := by omega
    simp [hlong, hlimit]
    rfl
  · have hlimit : path.utf8ByteSize ≤ Disk.pathLimit := by omega
    simp [hlong, hlimit]
    rfl

theorem loadAll_eq_map : (loadAll disk.system paths).run =
    paths.map fun path => (path, (load disk.system path).run) := by
  induction paths with
  | nil => rfl
  | cons path paths ih =>
      rw [List.map_cons, ← ih]
      rfl

/-- A block of lines that begins by saying whether the file at a path passes. -/
def Marks (report : Report) (passed : Bool) (path : String) (block : List String) : Prop :=
  ∃ rest lines, block =
    ("  " ++ (if passed then report.paint .green "✓" else report.paint .red "✗") ++ " " ++ path ++ rest)
      :: lines

theorem marks_fileLines (report : Report) (path : String) (result : Except ParseError Suite) :
    Marks report result.isOk path (report.fileLines path result) := by
  cases result with
  | error error => exact ⟨"", _, by rw [String.append_empty]; rfl⟩
  | ok suite =>
      refine ⟨" (" ++ suite.name ++ ": " ++ toString suite.tests.length ++ " test(s), " ++
        toString suite.stepCount ++ " step(s))",
        if report.outline then report.outlineLines suite else [], ?_⟩
      rw [Report.fileLines, Report.passLine]
      simp only [Except.isOk, Except.toBool, if_true, String.append_assoc]

theorem observe_list :
    observe disk colours (.list path scope) =
      (match (suitePaths disk.system path scope).run with
        | .error failure => .ofFailure failure
        | .ok paths => .ofList paths,
      (settingsPath? disk path scope).toList) := by
  have houtcome := observe_fst disk colours (.list path scope)
  exact Prod.ext (houtcome.trans rfl) (congrArg Prod.snd (records_list []))

theorem observe_check (h : (disk.system.isFile path).run = false) :
    observe disk colours (.check path outline scope) =
      match (suitePaths disk.system path scope).run with
      | .error failure => (.ofFailure failure, (settingsPath? disk path scope).toList)
      | .ok paths =>
        (.ofCheck ⟨outline, 60, colours⟩ (paths.map fun path => (path, (load disk.system path).run)),
          (settingsPath? disk path scope).toList ++ paths) := by
  have hpaths : checkPaths disk.system path scope = suitePaths disk.system path scope := by
    change (if (disk.system.isFile path).run = true then _ else _) = _
    rw [h, if_neg Bool.false_ne_true]
  have houtcome : (observe disk colours (.check path outline scope)).1 =
      match (suitePaths disk.system path scope).run with
      | .error failure => .ofFailure failure
      | .ok paths => .ofCheck ⟨outline, 60, colours⟩ (loadAll disk.system paths).run := by
    rw [observe_fst, run, hpaths]
    rfl
  have hreads : observe disk colours (.check path outline scope) = _ := records_check []
  rw [hpaths, h, if_neg Bool.false_ne_true, List.nil_append] at hreads
  refine Prod.ext (houtcome.trans ?_) ((congrArg Prod.snd hreads).trans ?_) <;>
    cases (suitePaths disk.system path scope).run with
    | error failure => simp only [List.append_nil]
    | ok paths => simp only [loadAll_eq_map]

theorem observe_check_of_isFile (h : (disk.system.isFile path).run = true) :
    observe disk colours (.check path outline scope) =
      (.ofCheck ⟨outline, 60, colours⟩ [(path, (load disk.system path).run)], [path]) := by
  have hpaths : checkPaths disk.system path scope = (pure (.ok [path]) : Id _) := by
    change (if (disk.system.isFile path).run = true then _ else _) = _
    rw [if_pos h]
  refine Prod.ext ?_ ?_
  · rw [observe_fst, run, hpaths]
    rfl
  · rw [observe, records_check, hpaths, if_pos h, List.nil_append]
    rfl

theorem exists_of_suitePaths_eq_ok (h : (suitePaths disk.system path scope).run = .ok paths) :
    ∃ settings dir, (Discovery.discover disk.system settings dir).run = .ok paths := by
  cases hfound : (findSettings disk.system path scope).run with
  | error failure =>
      have hfound : findSettings disk.system path scope = (pure (.error failure) : Id _) := hfound
      rw [suitePaths, hfound] at h
      cases h
  | ok found =>
      have hfound : findSettings disk.system path scope = (pure (.ok found) : Id _) := hfound
      rw [suitePaths, hfound] at h
      exact ⟨_, _, mapError_eq_ok_iff.mp h⟩

/-- A check reports on the files that a list prints, and fails where the list fails, by then having
read nothing but a settings file; a file that is given itself is checked whatever the scope. -/
theorem check_as_listed (hproper : disk.root.Proper) (hstorable : disk.root.Storable)
    (path : String) (scope : Scope) (outline colours : Bool) :
    ((disk.system.isFile path).run = false →
      (∃ failure,
        observe disk colours (.list path scope) =
          (.ofFailure failure, (settingsPath? disk path scope).toList)
        ∧ observe disk colours (.check path outline scope) =
          (.ofFailure failure, (settingsPath? disk path scope).toList))
      ∨ ∃ (paths : List String) (content : String → List UInt8) (blocks : List (List String)),
          paths.Nodup
          ∧ (∀ path ∈ paths, disk.target path = .ok (.file (content path)))
          ∧ List.Forall₂ (fun path block =>
              Marks ⟨outline, 60, colours⟩ (passes path (content path)) path block) paths blocks
          ∧ observe disk colours (.list path scope) =
            (.ofList paths, (settingsPath? disk path scope).toList)
          ∧ observe disk colours (.check path outline scope) =
            (.tally ⟨outline, 60, colours⟩ (paths.countP fun path => passes path (content path))
              paths.length blocks,
            (settingsPath? disk path scope).toList ++ paths))
    ∧ ∀ bytes, disk.find path = .ok (.file bytes) →
        ∃ block, Marks ⟨outline, 60, colours⟩ (parse bytes).isOk path block
          ∧ observe disk colours (.check path outline scope) =
            (.tally ⟨outline, 60, colours⟩ (if (parse bytes).isOk then 1 else 0) 1 [block], [path]) := by
  constructor
  · intro hfile
    rw [observe_list, observe_check hfile]
    cases hpaths : (suitePaths disk.system path scope).run with
    | error failure => exact .inl ⟨failure, rfl, rfl⟩
    | ok paths =>
        obtain ⟨settings, dir, hdiscover⟩ := exists_of_suitePaths_eq_ok hpaths
        have hread := Discovery.read_of_mem_discover hproper hstorable hdiscover
        choose! content hcontent using hread
        right
        refine ⟨paths, content,
          paths.map fun path => Report.fileLines ⟨outline, 60, colours⟩ path (load disk.system path).run,
          Discovery.nodup_of_discover hproper hdiscover,
          fun path hpath => (hcontent path hpath).1, ?_, rfl, ?_⟩
        · rw [List.forall₂_map_right_iff, List.forall₂_same]
          intro path hpath
          rw [← isOk_load (hcontent path hpath).2]
          exact marks_fileLines _ _ _
        · have hcount : (paths.map fun path => (path, (load disk.system path).run)).countP (·.2.isOk)
              = paths.countP fun path => passes path (content path) := by
            rw [List.countP_map]
            apply List.countP_congr
            intro path hpath
            simp [isOk_load (hcontent path hpath).2]
          simp only [Outcome.ofCheck_eq_tally, hcount, List.length_map, List.map_map]
          rfl
  · intro bytes hfind
    have hfile : (disk.system.isFile path).run = true := by
      simp only [Disk.system, hfind]
      rfl
    have hload : (load disk.system path).run = parse bytes := load_eq_parse hfind
    refine ⟨_, marks_fileLines _ path (parse bytes), ?_⟩
    rw [observe_check_of_isFile hfile, hload, Outcome.ofCheck_eq_tally]
    cases parse bytes with
    | error error => rfl
    | ok suite => rfl

/-! ### A disk with one suite -/

def everywhere : Scope :=
  ⟨none, none, false, none⟩

def oneSuite : Disk :=
  ⟨.dir [("a.suite.yaml", .file nullKeyed)], []⟩

theorem isName_oneSuite : Files.IsName "a.suite.yaml" := by
  decide

theorem proper_oneSuite : oneSuite.root.Proper := by
  decide

theorem storable_oneSuite : oneSuite.root.Storable := by
  decide

theorem check_as_listed_oneSuite :
    (∃ paths passed blocks, observe oneSuite false (.list "/" everywhere) = (.ofList paths, [])
      ∧ observe oneSuite false (.check "/" false everywhere)
        = (.tally ⟨false, 60, false⟩ passed paths.length blocks, paths))
    ∧ ∃ block, observe oneSuite false (.check "a.suite.yaml" false everywhere)
      = (.tally ⟨false, 60, false⟩ 1 1 [block], ["a.suite.yaml"]) := by
  have hsettings : (settingsPath? oneSuite "/" everywhere).toList = [] := by decide +kernel
  have hstatus : (observe oneSuite false (.list "/" everywhere)).1.status = 0 := by decide +kernel
  constructor
  · have hcheck := (check_as_listed proper_oneSuite storable_oneSuite "/" everywhere false false).1 rfl
    rw [hsettings] at hcheck
    obtain ⟨failure, hlist, -⟩ | ⟨paths, content, blocks, -, -, -, hlist, hcheck⟩ := hcheck
    · rw [hlist] at hstatus
      cases hstatus
    · exact ⟨paths, _, blocks, hlist, hcheck⟩
  · obtain ⟨block, -, hcheck⟩ := (check_as_listed proper_oneSuite storable_oneSuite "a.suite.yaml"
      everywhere false false).2 nullKeyed rfl
    obtain ⟨suite, -, hparse, -⟩ := parse_nullKeyed
    rw [hparse] at hcheck
    exact ⟨block, hcheck⟩

open Discovery (suiteMatcher matcher_default)
open Files.Disk (dots)

theorem select_dots {n : Nat} (hn : 0 < n) :
    Discovery.select suiteMatcher (dots n) [["a.suite.yaml"]] = [Files.join (dots n) "a.suite.yaml"] := by
  have hfits : suiteMatcher.fits (Discovery.pathTo (dots n) ["a.suite.yaml"]) = true := by
    rw [Discovery.fits_pathTo_iff (Disk.isPath_dots hn).ne_empty
      (List.forall_mem_singleton.mpr isName_oneSuite)]
    exact ⟨"a.suite.yaml", rfl, _, List.mem_cons_self, by decide +kernel⟩
  rw [Discovery.select_eq_map_selected, Discovery.selected, List.filter_singleton, hfits]
  simp [Discovery.pathTo]

theorem find_dots_oneSuite {n : Nat} (hn : 0 < n) (hlimit : 2 * n ≤ Disk.pathLimit) :
    oneSuite.find (dots n) = .ok oneSuite.root :=
  Disk.find_dots rfl rfl hn hlimit

theorem walk_dots {n : Nat} (hn : 0 < n) (hlimit : 2 * n ≤ Disk.pathLimit) :
    (oneSuite.system.walk (Discovery.walk .default) (dots n)).run = .ok [["a.suite.yaml"]] := by
  refine Disk.scan_eq_ok_iff.mpr ⟨_, find_dots_oneSuite hn hlimit, ?_, rfl⟩
  have hopened : oneSuite.root.opened (Discovery.walk .default) = [[]] := rfl
  rw [hopened, List.forall_mem_singleton, List.foldl_nil, Disk.utf8ByteSize_dots]
  exact hlimit

theorem suitePaths_dots {n : Nat} (hn : 0 < n) (hlimit : 2 * n ≤ Disk.pathLimit) :
    (suitePaths oneSuite.system (dots n) everywhere).run = .ok [Files.join (dots n) "a.suite.yaml"] := by
  have hnames : oneSuite.system.names? (dots n) = (pure (some []) : Id _) :=
    Disk.names?_eq_some_iff.mpr ⟨[], Disk.canonical_dots rfl rfl hn, rfl⟩
  have hfile : Settings.findFile? oneSuite.system (dots n) = (pure none : Id _) := by
    rw [Settings.findFile?, hnames]
    change (Settings.firstFile? oneSuite.system (Settings.candidates [])).run = none
    decide +kernel
  have hfound : findSettings oneSuite.system (dots n) everywhere = (pure (.ok none) : Id _) := by
    change Settings.discover oneSuite.system (dots n) = _
    rw [Settings.discover, hfile]
    rfl
  have hdiscover := Discovery.discover_eq_select matcher_default (walk_dots hn hlimit)
  rw [select_dots hn] at hdiscover
  rw [suitePaths, hfound]
  change (Discovery.discover oneSuite.system .default (dots n)).run.mapError Failure.discovery = _
  rw [hdiscover]
  rfl

theorem isFile_dots {n : Nat} (hn : 0 < n) (hlimit : 2 * n ≤ Disk.pathLimit) :
    (oneSuite.system.isFile (dots n)).run = false := by
  simp only [Disk.system, find_dots_oneSuite hn hlimit]
  rfl

/-- A suite is listed but does not pass if the path that the listing begins with is almost too long. -/
theorem observe_dots {n : Nat} (hn : 0 < n) (hlimit : 2 * n ≤ Disk.pathLimit)
    (hlong : Disk.pathLimit < 2 * n + 12) :
    (observe oneSuite false (.list (dots n) everywhere)).1
        = .ofList [Files.join (dots n) "a.suite.yaml"]
      ∧ oneSuite.target (Files.join (dots n) "a.suite.yaml") = .ok (.file nullKeyed)
      ∧ (observe oneSuite false (.check (dots n) false everywhere)).1.status = 1 := by
  have hpaths := suitePaths_dots hn hlimit
  have hdir := (Disk.find_eq_ok_iff.mp (find_dots_oneSuite hn hlimit)).1
  have hat : oneSuite.root.at? ["a.suite.yaml"] = some (.file nullKeyed) := rfl
  obtain ⟨htarget, hread⟩ := Disk.read_foldl_join proper_oneSuite storable_oneSuite hdir hat
  have hsize := Files.le_utf8ByteSize_join (dots n) isName_oneSuite
  have hname : "a.suite.yaml".utf8ByteSize = 12 := by decide
  rw [Disk.utf8ByteSize_dots, hname] at hsize
  refine ⟨?_, htarget, ?_⟩
  · rw [observe_list, hpaths]
  · have hfails : passes (Files.join (dots n) "a.suite.yaml") nullKeyed = false := by
      rw [passes, decide_eq_false (by omega), Bool.false_and]
    have hok : (load oneSuite.system (Files.join (dots n) "a.suite.yaml")).run.isOk = false :=
      (isOk_load hread).trans hfails
    rw [observe_check (isFile_dots hn hlimit), hpaths]
    simp [Outcome.ofCheck, hok]

theorem not_check_as_listed_dots :
    ¬ ∀ (disk : Disk) (path : String) (scope : Scope) (paths : List String),
      disk.root.Proper → disk.root.Storable → (disk.system.isFile path).run = false →
      (observe disk false (.list path scope)).1 = .ofList paths →
      (∀ path ∈ paths, ∃ bytes suite,
        disk.target path = .ok (.file bytes) ∧ parse bytes = .ok suite) →
      (observe disk false (.check path false scope)).1.status = 0 := by
  intro h
  -- Two characters for each dot and twelve for the name: 4102 where 4095 are allowed.
  have hlimit : 2 * 2045 ≤ Disk.pathLimit := by decide
  have hlong : Disk.pathLimit < 2 * 2045 + 12 := by decide
  obtain ⟨hlist, htarget, hstatus⟩ := observe_dots (by omega) hlimit hlong
  obtain ⟨suite, -, hparse, -⟩ := parse_nullKeyed
  have hzero := h oneSuite _ everywhere _ proper_oneSuite storable_oneSuite
    (isFile_dots (by omega) hlimit) hlist
    (List.forall_mem_singleton.mpr ⟨nullKeyed, suite, htarget, hparse⟩)
  rw [hstatus] at hzero
  cases hzero

end Command

end ApiSuite
