import ApiSuite.Discovery
import ApiSuite.Proofs.Files.Disk

/-!
# Which suites are found

A file at or below a path is found if its own name fits the pattern, no name below the path is
excluded, and it lies no deeper than the settings allow. The order in which the file system lists the
files makes no difference.
-/

namespace ApiSuite.Discovery

variable {settings : Settings} {matcher : Glob.Matcher} {disk : Files.Disk} {dir : String}
  {tree : Files.Tree} {names : List String} {listed : List (List String)}

/-- Whether some names lead from a path, where `tree` is, to a suite file. -/
structure IsSuiteFile (settings : Settings) (matcher : Glob.Matcher) (dir : String)
    (tree : Files.Tree) (names : List String) : Prop where
  isFile : ∃ bytes, tree.at? names = some (.file bytes)
  fits : ∃ name, names.getLast?.or (Files.fileName? dir) = some name
    ∧ ∃ pattern ∈ matcher, pattern.fits name.toList = true
  kept : ∀ name ∈ names, name ∉ settings.exclude
  near : settings.recursive = false → names.length ≤ 1

/-- Whether a scan goes to what some names lead to by its path: the place where it starts, and each
directory below in which it looks for files. -/
structure IsEntered (settings : Settings) (tree : Files.Tree) (names : List String) : Prop where
  isDir : names = [] ∨ ∃ entries, tree.at? names = some (.dir entries)
  kept : ∀ name ∈ names, name ∉ settings.exclude
  near : settings.recursive = false → names = []

def pathTo (dir : String) (names : List String) : String :=
  names.foldl Files.join dir

theorem components_pathTo_injective {names' : List String} (hdir : dir ≠ "")
    (hnames : ∀ name ∈ names, Files.IsName name) (hnames' : ∀ name ∈ names', Files.IsName name)
    (h : Files.components (pathTo dir names) = Files.components (pathTo dir names')) :
    names = names' := by
  rw [pathTo, pathTo, Files.components_foldl_join hdir hnames,
    Files.components_foldl_join hdir hnames'] at h
  exact List.map_injective_iff.mpr (fun _ _ heq => Files.Component.name.inj heq)
    (List.append_cancel_left h)

theorem fits_pathTo_iff (hdir : dir ≠ "") (hnames : ∀ name ∈ names, Files.IsName name) :
    matcher.fits (pathTo dir names) = true ↔
      ∃ name, names.getLast?.or (Files.fileName? dir) = some name
        ∧ ∃ pattern ∈ matcher, pattern.fits name.toList = true := by
  rw [Glob.Matcher.fits, pathTo, Files.fileName?_foldl_join hdir hnames, Option.any_eq_true]
  simp only [List.any_eq_true]

theorem forall_takes_iff : (∀ name ∈ names, (walk settings).takes name = true) ↔
    ∀ name ∈ names, name ∉ settings.exclude := by
  simp [Files.Walk.takes, walk]

/-- The suite files are the files of the walk whose names fit. -/
theorem isSuiteFile_iff (htree : tree.Proper) (hdir : dir ≠ "") :
    IsSuiteFile settings matcher dir tree names ↔
      names ∈ tree.files (walk settings) ∧ matcher.fits (pathTo dir names) = true := by
  rw [Files.Tree.mem_files_iff htree, forall_takes_iff]
  constructor
  · rintro ⟨⟨bytes, hfile⟩, hfits, hkept, hnear⟩
    obtain ⟨-, hnames⟩ := htree.at? hfile
    exact ⟨⟨⟨bytes, hfile⟩, hkept, hnear⟩, (fits_pathTo_iff hdir hnames).mpr hfits⟩
  · rintro ⟨⟨⟨bytes, hfile⟩, hkept, hnear⟩, hfits⟩
    obtain ⟨-, hnames⟩ := htree.at? hfile
    exact ⟨⟨bytes, hfile⟩, (fits_pathTo_iff hdir hnames).mp hfits, hkept, hnear⟩

/-- The files selected from a list of files, by their names and in the order of their paths. -/
def selected (matcher : Glob.Matcher) (dir : String) (listed : List (List String)) :
    List (List String) :=
  (listed.filter fun names => matcher.fits (pathTo dir names)).mergeSort fun names names' =>
    Files.isUpTo (Files.components (pathTo dir names)) (Files.components (pathTo dir names'))

theorem select_eq_map_selected (matcher : Glob.Matcher) (dir : String)
    (listed : List (List String)) :
    select matcher dir listed = (selected matcher dir listed).map (pathTo dir) := by
  rw [select, Files.sortPaths, List.filter_map]
  symm
  apply List.map_mergeSort
  intros
  rfl

theorem mem_selected_iff :
    names ∈ selected matcher dir listed ↔
      names ∈ listed ∧ matcher.fits (pathTo dir names) = true := by
  rw [selected, List.mem_mergeSort, List.mem_filter]

theorem nodup_selected (h : listed.Nodup) : (selected matcher dir listed).Nodup :=
  (List.mergeSort_perm _ _).nodup_iff.mpr (h.filter _)

theorem pairwise_precedes_select (hdir : dir ≠ "") (hnodup : listed.Nodup)
    (hnames : ∀ names ∈ listed, ∀ name ∈ names, Files.IsName name) :
    (select matcher dir listed).Pairwise Files.Precedes := by
  apply Files.pairwise_precedes_sortPaths
  refine List.Nodup.sublist (List.filter_sublist.map _) ?_
  rw [List.map_map]
  refine List.Nodup.map_on ?_ hnodup
  intro names hmem names' hmem' h
  exact components_pathTo_injective hdir (hnames names hmem) (hnames names' hmem') h

theorem select_eq_of_perm {listed' : List (List String)} (hdir : dir ≠ "") (hnodup : listed.Nodup)
    (hnames : ∀ names ∈ listed, ∀ name ∈ names, Files.IsName name) (hperm : listed'.Perm listed) :
    select matcher dir listed' = select matcher dir listed := by
  have hsorted : (select matcher dir listed).Pairwise Files.Precedes :=
    pairwise_precedes_select hdir hnodup hnames
  have hsorted' : (select matcher dir listed').Pairwise Files.Precedes :=
    pairwise_precedes_select hdir (hperm.nodup_iff.mpr hnodup)
      fun names hmem => hnames names (hperm.mem_iff.mp hmem)
  refine Files.eq_of_pairwise_precedes hsorted' hsorted fun path => ?_
  rw [select_eq_map_selected, select_eq_map_selected]
  simp only [List.mem_map, mem_selected_iff, hperm.mem_iff]

theorem discover_eq {files : Files.System Id}
    (hpattern : Discovery.matcher settings.testPattern = .ok matcher) :
    Id.run (discover files settings dir) =
      ((Id.run (files.walk (walk settings) dir)).mapError fun (path, fault) =>
        .unscanned dir path fault).map (select matcher dir) := by
  rw [discover, hpattern]
  rfl

theorem discover_eq_select {files : Files.System Id}
    (hpattern : Discovery.matcher settings.testPattern = .ok matcher)
    (hwalk : Id.run (files.walk (walk settings) dir) = .ok listed) :
    Id.run (discover files settings dir) = .ok (select matcher dir listed) := by
  rw [discover_eq hpattern, hwalk]
  rfl

theorem discover_eq_unscanned {files : Files.System Id} {path : String} {fault : Files.Fault}
    (hpattern : Discovery.matcher settings.testPattern = .ok matcher)
    (hwalk : Id.run (files.walk (walk settings) dir) = .error (path, fault)) :
    Id.run (discover files settings dir) = .error (.unscanned dir path fault) := by
  rw [discover_eq hpattern, hwalk]
  rfl

theorem exists_of_discover_eq_ok {paths : List String}
    (h : (discover disk.system settings dir).run = .ok paths) :
    ∃ matcher tree, Discovery.matcher settings.testPattern = .ok matcher
      ∧ disk.find dir = .ok tree ∧ select matcher dir (tree.files (walk settings)) = paths := by
  cases hmatcher : Discovery.matcher settings.testPattern with
  | error failure =>
      rw [discover, hmatcher] at h
      cases h
  | ok matcher =>
      cases hwalk : (disk.system.walk (walk settings) dir).run with
      | error fault => cases (discover_eq_unscanned hmatcher hwalk).symm.trans h
      | ok found =>
          obtain ⟨tree, hdir, -, rfl⟩ := Files.Disk.scan_eq_ok_iff.mp hwalk
          exact ⟨matcher, tree, rfl, hdir,
            Except.ok.inj ((discover_eq_select hmatcher hwalk).symm.trans h)⟩

theorem nodup_of_discover {paths : List String} (hproper : disk.root.Proper)
    (h : (discover disk.system settings dir).run = .ok paths) : paths.Nodup := by
  obtain ⟨matcher, tree, -, hdir, rfl⟩ := exists_of_discover_eq_ok h
  obtain ⟨htree, hne⟩ := (Files.Disk.find_eq_ok_iff.mp hdir).1.proper hproper
  apply Files.nodup_of_pairwise_precedes
  exact pairwise_precedes_select hne (Files.Tree.nodup_files htree)
    fun names hmem => htree.isName_of_mem_files hmem

/-- A path that is found leads to a file, which is read if the path is not too long. -/
theorem read_of_mem_discover {paths : List String} (hproper : disk.root.Proper)
    (hstorable : disk.root.Storable) (h : (discover disk.system settings dir).run = .ok paths) :
    ∀ path ∈ paths, ∃ bytes, disk.target path = .ok (.file bytes)
      ∧ disk.system.read path =
        if Files.Disk.pathLimit < path.utf8ByteSize then .error .nameTooLong else .ok bytes := by
  obtain ⟨matcher, tree, -, hdir, rfl⟩ := exists_of_discover_eq_ok h
  have hdir := (Files.Disk.find_eq_ok_iff.mp hdir).1
  intro path hpath
  rw [select_eq_map_selected] at hpath
  obtain ⟨names, hnames, rfl⟩ := List.mem_map.mp hpath
  obtain ⟨⟨bytes, hat⟩, -⟩ :=
    (Files.Tree.mem_files_iff (hdir.proper hproper).1).mp (mem_selected_iff.mp hnames).1
  exact ⟨bytes, Files.Disk.read_foldl_join hproper hstorable hdir hat⟩

theorem isEntered_of_mem_opened (htree : tree.Proper) (h : names ∈ tree.opened (walk settings)) :
    IsEntered settings tree names := by
  obtain ⟨hdir, htakes, hnear⟩ := (Files.Tree.mem_opened_iff htree).mp h
  exact ⟨.inr hdir, forall_takes_iff.mp htakes, hnear⟩

theorem IsEntered.mem_opened (htree : tree.Proper) (h : IsEntered settings tree names)
    (hne : names ≠ []) : names ∈ tree.opened (walk settings) :=
  (Files.Tree.mem_opened_iff htree).mpr
    ⟨h.isDir.resolve_left hne, forall_takes_iff.mpr h.kept, h.near⟩

/-- A scan fails at a place to which its path is too long. -/
theorem exists_walk_eq_error (hroot : disk.root.Proper) (hdir : disk.LeadsTo dir tree)
    (hentered : IsEntered settings tree names)
    (hlong : Files.Disk.pathLimit < (pathTo dir names).utf8ByteSize) :
    ∃ names, IsEntered settings tree names
      ∧ Files.Disk.pathLimit < (pathTo dir names).utf8ByteSize
      ∧ (disk.system.walk (walk settings) dir).run
        = .error (pathTo dir names, .nameTooLong) := by
  obtain ⟨htree, -⟩ := hdir.proper hroot
  by_cases hshort : dir.utf8ByteSize ≤ Files.Disk.pathLimit
  · have hfind := Files.Disk.find_eq_ok_iff.mpr ⟨hdir, hshort⟩
    cases hwalk : (disk.system.walk (walk settings) dir).run with
    | error fault =>
        obtain ⟨names, hmem, hlong, rfl⟩ := Files.Disk.exists_of_scan_eq_error hfind hwalk
        exact ⟨names, isEntered_of_mem_opened htree hmem, hlong, rfl⟩
    | ok found =>
        obtain ⟨tree', hfind', hopened, -⟩ := Files.Disk.scan_eq_ok_iff.mp hwalk
        obtain rfl := Except.ok.inj (hfind.symm.trans hfind')
        have hne : names ≠ [] := by
          rintro rfl
          exact absurd hshort (Nat.not_le.mpr hlong)
        exact absurd (hopened names (hentered.mem_opened htree hne)) (Nat.not_le.mpr hlong)
  · refine ⟨[], ⟨.inl rfl, List.forall_mem_nil _, fun _ => rfl⟩, Nat.not_le.mp hshort, ?_⟩
    change disk.scan (walk settings) dir = _
    rw [Files.Disk.scan, Files.Disk.find_eq hdir.1, if_pos (Nat.not_le.mp hshort)]
    rfl

/-- What is found is the suite files, each once and in the order of their paths, and a file system
that lists the files in another order makes no difference. The scan fails instead if it comes to a
directory whose path is too long to be opened. -/
theorem discover_exact (hroot : disk.root.Proper) (hdir : disk.LeadsTo dir tree)
    (hpattern : Discovery.matcher settings.testPattern = .ok matcher) :
    ((∃ names, IsEntered settings tree names
        ∧ Files.Disk.pathLimit < (pathTo dir names).utf8ByteSize) →
      ∃ names, IsEntered settings tree names
        ∧ Files.Disk.pathLimit < (pathTo dir names).utf8ByteSize
        ∧ Id.run (discover disk.system settings dir)
          = .error (.unscanned dir (pathTo dir names) .nameTooLong))
    ∧ ((∀ names, IsEntered settings tree names →
        (pathTo dir names).utf8ByteSize ≤ Files.Disk.pathLimit) →
      ∃ suites : List (List String), suites.Nodup
        ∧ (∀ names, names ∈ suites ↔ IsSuiteFile settings matcher dir tree names)
        ∧ (suites.map (pathTo dir)).Pairwise Files.Precedes
        ∧ Id.run (discover disk.system settings dir) = .ok (suites.map (pathTo dir))
        ∧ ∀ (files : Files.System Id) (listed : List (List String)),
            Id.run (files.walk (walk settings) dir) = .ok listed →
            listed.Perm (tree.files (walk settings)) →
            Id.run (discover files settings dir) = .ok (suites.map (pathTo dir))) := by
  obtain ⟨htree, hne⟩ := hdir.proper hroot
  constructor
  · rintro ⟨names, hentered, hlong⟩
    obtain ⟨names, hentered, hlong, hwalk⟩ := exists_walk_eq_error hroot hdir hentered hlong
    exact ⟨names, hentered, hlong, discover_eq_unscanned hpattern hwalk⟩
  · intro hshort
    let found := tree.files (walk settings)
    have hnodup : found.Nodup := Files.Tree.nodup_files htree
    have hnames : ∀ names ∈ found, ∀ name ∈ names, Files.IsName name :=
      fun names hmem => htree.isName_of_mem_files hmem
    have hfind : disk.find dir = .ok tree :=
      Files.Disk.find_eq_ok_iff.mpr ⟨hdir, hshort [] ⟨.inl rfl, List.forall_mem_nil _, fun _ => rfl⟩⟩
    have hwalk : (disk.system.walk (walk settings) dir).run = .ok found :=
      Files.Disk.scan_eq_ok_iff.mpr ⟨tree, hfind, fun names hmem =>
        hshort names (isEntered_of_mem_opened htree hmem), rfl⟩
    refine ⟨selected matcher dir found, nodup_selected hnodup, ?_, ?_, ?_, ?_⟩
    · intro names
      rw [mem_selected_iff, isSuiteFile_iff htree hne]
    · rw [← select_eq_map_selected]
      exact pairwise_precedes_select hne hnodup hnames
    · rw [← select_eq_map_selected]
      exact discover_eq_select hpattern hwalk
    · intro files listed hlisted hperm
      rw [← select_eq_map_selected, discover_eq_select hpattern hlisted,
        select_eq_of_perm hne hnodup hnames hperm]

/-- A directory with suites in it, one of them below an excluded name. -/
def sample : Files.Tree :=
  .dir [("b.suite.yaml", .file []), ("target", .dir [("c.suite.yaml", .file [])]),
    ("api", .dir [("a.suite.yml", .file [])])]

def suiteMatcher : Glob.Matcher :=
  [.anyRun :: ".suite.yaml".toList.map .char, .anyRun :: ".suite.yml".toList.map .char]

theorem matcher_default : Discovery.matcher Settings.default.testPattern = .ok suiteMatcher := by
  decide +kernel

theorem proper_sample : sample.Proper := by
  decide

theorem find_sample : Files.Disk.find ⟨sample, []⟩ "/" = .ok sample :=
  rfl

/-- The directories that a scan of the sample enters are at short paths. -/
theorem length_le_of_isEntered_sample (h : IsEntered .default sample names) :
    (pathTo "/" names).utf8ByteSize ≤ Files.Disk.pathLimit := by
  have hopened : ∀ names ∈ sample.opened (walk .default),
      (pathTo "/" names).utf8ByteSize ≤ Files.Disk.pathLimit := by
    decide
  by_cases hne : names = []
  · subst hne
    decide
  · exact hopened names (h.mem_opened proper_sample hne)

theorem discover_sample :
    ∃ suites : List (List String),
      Id.run (discover (Files.Disk.system ⟨sample, []⟩) .default "/")
        = .ok (suites.map (pathTo "/"))
      ∧ ["api", "a.suite.yml"] ∈ suites ∧ ["target", "c.suite.yaml"] ∉ suites := by
  obtain ⟨suites, -, hsuites, -, hfound, -⟩ :=
    (discover_exact proper_sample (Files.Disk.find_eq_ok_iff.mp find_sample).1 matcher_default).2
      fun _ => length_le_of_isEntered_sample
  refine ⟨suites, hfound, (hsuites _).mpr ⟨⟨[], rfl⟩, ?_, ?_, nofun⟩, ?_⟩
  · exact ⟨"a.suite.yml", rfl, by decide +kernel⟩
  · decide
  · intro hmem
    exact ((hsuites _).mp hmem).kept "target" List.mem_cons_self (by decide)

open Files.Disk (dots) in
/-- The directory in the sample cannot be opened if the path of the sample is almost too long. -/
theorem discover_dots {n : Nat} (hn : 0 < n) (hshort : 2 * n ≤ Files.Disk.pathLimit)
    (hlong : Files.Disk.pathLimit < 2 * n + 3) :
    Files.Disk.find ⟨sample, []⟩ (dots n) = .ok sample
      ∧ ∃ path, Id.run (discover (Files.Disk.system ⟨sample, []⟩) .default (dots n))
        = .error (.unscanned (dots n) path .nameTooLong) := by
  have hdir : Files.Disk.find ⟨sample, []⟩ (dots n) = .ok sample :=
    Files.Disk.find_dots rfl rfl hn hshort
  have hentered : IsEntered .default sample ["api"] := ⟨.inr ⟨_, rfl⟩, by decide, nofun⟩
  have hpath : Files.Disk.pathLimit < (pathTo (dots n) ["api"]).utf8ByteSize := by
    have hname : Files.IsName "api" := by decide
    have hsize := Files.le_utf8ByteSize_join (dots n) hname
    rw [Files.Disk.utf8ByteSize_dots] at hsize
    exact Nat.lt_of_lt_of_le hlong hsize
  obtain ⟨names, -, -, hwalk⟩ :=
    exists_walk_eq_error proper_sample (Files.Disk.find_eq_ok_iff.mp hdir).1 hentered hpath
  exact ⟨hdir, _, discover_eq_unscanned matcher_default hwalk⟩

theorem not_discover_exact_dots :
    ¬ ∀ (disk : Files.Disk) (dir : String) (tree : Files.Tree) (settings : Settings)
      (matcher : Glob.Matcher), disk.root.Proper → disk.find dir = .ok tree →
      Discovery.matcher settings.testPattern = .ok matcher →
      ∃ suites : List (List String),
        (∀ names, names ∈ suites ↔ IsSuiteFile settings matcher dir tree names)
        ∧ Id.run (discover disk.system settings dir) = .ok (suites.map (pathTo dir)) := by
  intro h
  -- Two characters for each dot and three for the name: 4097 where 4095 are allowed.
  obtain ⟨hdir, path, hfails⟩ := discover_dots (n := 2047) (by omega) (by decide) (by decide)
  obtain ⟨suites, -, hfound⟩ :=
    h ⟨sample, []⟩ _ sample .default suiteMatcher proper_sample hdir matcher_default
  cases hfails.symm.trans hfound

end ApiSuite.Discovery
