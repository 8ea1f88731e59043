import ApiSuite.Proofs.Files.Canonical
import ApiSuite.Settings.Load

/-!
# The nearest settings file

The directories at or above a path are looked at from the path upwards, and the first one that has a
settings file decides. Whether the file can be read makes no difference to that: a nearest file that is
broken is reported, and none above it takes its place.
-/

namespace ApiSuite.Settings

open Files (Disk)

/-! ### Beginnings -/

section Beginnings

variable {α : Type} {names dir : List α} {p : List α → Bool}

theorem mem_beginnings_iff : dir ∈ beginnings names ↔ dir <+: names := by
  induction names generalizing dir with
  | nil => simp [beginnings]
  | cons name names ih =>
      rw [beginnings, List.mem_append, List.mem_map, List.mem_singleton]
      constructor
      · rintro (⟨rest, hrest, rfl⟩ | rfl)
        · exact (List.prefix_cons_inj name).mpr (ih.mp hrest)
        · exact List.nil_prefix
      · intro h
        cases dir with
        | nil => exact .inr rfl
        | cons first rest =>
            obtain ⟨rfl, hrest⟩ := List.cons_prefix_cons.mp h
            exact .inl ⟨rest, ih.mpr hrest, rfl⟩

theorem pairwise_beginnings (names : List α) :
    (beginnings names).Pairwise fun deeper dir => dir <+: deeper := by
  induction names with
  | nil => exact List.pairwise_singleton _ _
  | cons name names ih =>
      rw [beginnings, List.pairwise_append]
      refine ⟨?_, List.pairwise_singleton _ _, ?_⟩
      · rw [List.pairwise_map]
        exact ih.imp fun h => (List.prefix_cons_inj name).mpr h
      · intro deeper _ dir hdir
        rw [List.mem_singleton.mp hdir]
        exact List.nil_prefix

theorem find?_beginnings_eq_some (h : (beginnings names).find? p = some dir) :
    dir <+: names ∧ p dir = true ∧ ∀ other, other <+: names → p other = true → other <+: dir := by
  obtain ⟨hpasses, before, after, hsplit, hbefore⟩ := List.find?_eq_some_iff_append.mp h
  have hmem : dir ∈ beginnings names := by
    rw [hsplit]
    exact List.mem_append_right before List.mem_cons_self
  refine ⟨mem_beginnings_iff.mp hmem, hpasses, fun other hother hpasses' => ?_⟩
  have hpairwise := pairwise_beginnings names
  rw [hsplit] at hpairwise
  have hother : other ∈ before ++ dir :: after := hsplit ▸ mem_beginnings_iff.mpr hother
  obtain hother | hother := List.mem_append.mp hother
  · -- Those before the first that passes do not pass.
    have hfails := hbefore other hother
    simp [hpasses'] at hfails
  · obtain rfl | hother := List.mem_cons.mp hother
    · exact List.prefix_rfl
    · exact List.rel_of_pairwise_cons (List.pairwise_append.mp hpairwise).2.1 hother

theorem find?_beginnings_eq_none_iff :
    (beginnings names).find? p = none ↔ ∀ dir, dir <+: names → p dir = false := by
  simp only [List.find?_eq_none, mem_beginnings_iff, Bool.not_eq_true]

end Beginnings

/-! ### Directories with a settings file -/

variable {disk : Disk} {path : String} {names dir : List String} {bytes : List UInt8}

def pathIn (dir : List String) : String :=
  Files.join (Files.absolute dir) fileName

/-- Whether a settings file is in a directory. -/
def HasFile (disk : Disk) (dir : List String) (bytes : List UInt8) : Prop :=
  disk.root.at? (dir ++ [fileName]) = some (.file bytes)

theorem isName_fileName : Files.IsName fileName := by
  decide

theorem isStorable_fileName : Files.IsStorable fileName := by
  decide

theorem pathIn_eq (hnames : ∀ name ∈ dir, Files.IsName name) :
    pathIn dir = Files.absolute (dir ++ [fileName]) :=
  Files.join_absolute hnames isName_fileName

theorem find_pathIn_iff (hnames : ∀ name ∈ dir, Files.IsName name)
    (hstored : ∀ name ∈ dir, Files.IsStorable name) :
    disk.find (pathIn dir) = .ok (.file bytes) ↔
      HasFile disk dir bytes ∧ (pathIn dir).utf8ByteSize ≤ Disk.pathLimit := by
  have hall : ∀ name ∈ dir ++ [fileName], Files.IsStorable name :=
    List.forall_mem_append.mpr ⟨hstored, List.forall_mem_singleton.mpr isStorable_fileName⟩
  rw [pathIn_eq hnames, Disk.find_absolute_iff hnames isName_fileName hall, HasFile]

theorem parent?_pathIn (hnames : ∀ name ∈ dir, Files.IsName name) :
    Files.parent? (pathIn dir) = some (Files.absolute dir) := by
  rw [pathIn_eq hnames, Files.parent?_absolute hnames isName_fileName]

/-! ### The way up -/

theorem isFile_iff : (disk.system.isFile path).run = true ↔
    ∃ bytes, disk.find path = .ok (.file bytes) := by
  cases hfind : disk.find path with
  | error fault => simp [Disk.system, hfind, Id.run]
  | ok tree => cases tree <;> simp [Disk.system, hfind, Id.run]

theorem firstFile?_eq_find? (files : Files.System Id) (paths : List String) :
    (firstFile? files paths).run = paths.find? fun path => (files.isFile path).run := by
  induction paths with
  | nil => rfl
  | cons path paths ih =>
      rw [List.find?_cons, ← ih]
      change (if (files.isFile path).run then some path else (firstFile? files paths).run) = _
      cases (files.isFile path).run <;> rfl

theorem load_pathIn (hnames : ∀ name ∈ dir, Files.IsName name)
    (h : disk.find (pathIn dir) = .ok (.file bytes)) :
    (load disk.system (pathIn dir)).run =
      (ofContent (pathIn dir) bytes).map fun settings => (settings, Files.absolute dir) := by
  have hread : (disk.system.read (pathIn dir)).run = .ok bytes := by
    simp only [Disk.system, h]
    rfl
  change ofFile (pathIn dir) (disk.system.read (pathIn dir)).run = _
  rw [hread, ofFile, parent?_pathIn hnames]
  cases hcontent : ofContent (pathIn dir) bytes with
  | error failure =>
      change Except.bind (ofContent (pathIn dir) bytes) _ = _
      rw [hcontent]
      rfl
  | ok settings =>
      change Except.bind (ofContent (pathIn dir) bytes) _ = _
      rw [hcontent]
      rfl

/-- The settings file that is looked for is the first in the directories along the names. -/
def firstAlong? (disk : Disk) (names : List String) : Option (List String) :=
  (beginnings names).find? fun dir => (disk.system.isFile (pathIn dir)).run

theorem findFile?_eq (h : (disk.system.names? path).run = some names) :
    (findFile? disk.system path).run = (firstAlong? disk names).map pathIn := by
  have hnames : disk.system.names? path = (pure (some names) : Id _) := h
  have hfirst := firstFile?_eq_find? disk.system (candidates names)
  rw [candidates, List.find?_map] at hfirst
  rw [findFile?, hnames]
  exact hfirst

theorem discover_of_findFile?_eq_none (h : (findFile? disk.system path).run = none) :
    (discover disk.system path).run = .ok none := by
  have hfind : findFile? disk.system path = (pure none : Id _) := h
  rw [discover, hfind]
  rfl

theorem discover_of_findFile?_eq_some {found : String}
    (h : (findFile? disk.system path).run = some found) :
    (discover disk.system path).run = some <$> (load disk.system found).run := by
  have hfind : findFile? disk.system path = (pure (some found) : Id _) := h
  rw [discover, hfind]
  rfl

theorem discover_of_names?_eq_none (h : (disk.system.names? path).run = none) :
    (discover disk.system path).run = .ok none := by
  have hnames : disk.system.names? path = (pure none : Id _) := h
  apply discover_of_findFile?_eq_none
  rw [findFile?, hnames]
  rfl

theorem find_pathIn_iff_of_prefix {tree : Files.Tree} (hproper : disk.root.Proper)
    (hstorable : disk.root.Storable) (hat : disk.root.at? names = some tree) (hdir : dir <+: names) :
    disk.find (pathIn dir) = .ok (.file bytes) ↔
      HasFile disk dir bytes ∧ (pathIn dir).utf8ByteSize ≤ Disk.pathLimit :=
  find_pathIn_iff (fun name hmem => (hproper.at? hat).2 name (hdir.subset hmem))
    fun name hmem => hstorable.isStorable hat name (hdir.subset hmem)

/-- Settings at the root, a directory of that name below, and a broken file of that name below that. -/
def nested : Disk :=
  ⟨.dir [(fileName, .file []), ("api", .dir [(fileName, .dir []),
    ("v1", .dir [(fileName, .file [0xFF]), ("a.yaml", .file [])])])], []⟩

theorem proper_nested : nested.root.Proper := by
  decide

theorem storable_nested : nested.root.Storable := by
  decide

/-- A directory with settings in it, and such directories in each other below it. -/
def deep : Nat → Files.Tree
  | 0 => .dir [(fileName, .file [])]
  | n + 1 => .dir [(fileName, .file []), ("d", deep n)]

/-- A disk whose home directory is at the end of a chain of directories. -/
def chain (n : Nat) : Disk :=
  ⟨deep n, List.replicate n "d"⟩

theorem all_deep {good : List String → Bool} (hlast : good [fileName] = true)
    (habove : good [fileName, "d"] = true) (n : Nat) : (deep n).all good = true := by
  induction n with
  | zero => simpa [deep, Files.Tree.all, Files.Tree.allAmong] using hlast
  | succ n ih => simpa [deep, Files.Tree.all, Files.Tree.allAmong] using ⟨habove, ih⟩

theorem proper_deep (n : Nat) : (deep n).Proper :=
  Files.Tree.proper_iff_all.mpr (all_deep (by decide) (by decide) n)

theorem storable_deep (n : Nat) : (deep n).Storable :=
  Files.Tree.storable_iff_all.mpr (all_deep (by decide) (by decide) n)

theorem isName_of_mem_replicate {n : Nat} : ∀ name ∈ List.replicate n "d", Files.IsName name := by
  intro name hmem
  rw [List.eq_of_mem_replicate hmem]
  decide

theorem at?_chain (n : Nat) : (chain n).root.at? (List.replicate n "d") = some (deep 0) := by
  change (deep n).at? _ = _
  induction n with
  | zero => rfl
  | succ n ih => exact ih

theorem hasFile_chain (n : Nat) : HasFile (chain n) (List.replicate n "d") [] := by
  rw [HasFile, Disk.at?_append, at?_chain]
  rfl

theorem exists_foldlM_chain {disk : Disk} {trail : Disk.Trail} {n : Nat}
    (hend : disk.endOf trail = deep n) : ∃ trail',
      ((List.replicate n "d").map (·.toList)).foldlM disk.follow trail = .ok trail'
        ∧ disk.endOf trail' = deep 0
        ∧ Disk.Trail.names trail' = Disk.Trail.names trail ++ List.replicate n "d" := by
  induction n generalizing trail with
  | zero => exact ⟨trail, rfl, hend, by simp⟩
  | succ n ih =>
      have hstep : disk.follow trail "d".toList = .ok (("d", deep n) :: trail) :=
        Disk.follow_name (by decide) (by decide) hend rfl
      have hnext : disk.endOf (("d", deep n) :: trail) = deep n := rfl
      obtain ⟨trail', hrest, hend', hnames⟩ := ih hnext
      refine ⟨trail', ?_, hend', ?_⟩
      · rw [List.replicate_succ, List.map_cons, List.foldlM_cons, hstep]
        exact hrest
      · rw [hnames, List.replicate_succ]
        simp [Disk.Trail.names]

theorem names?_chain (n : Nat) :
    ((chain n).system.names? ".").run = some (List.replicate n "d") := by
  have hroot : (chain n).endOf [] = deep n := rfl
  obtain ⟨trail, hhome, hend, hnames⟩ := exists_foldlM_chain hroot
  have hreach : (chain n).reach "." = .ok trail := by
    have hstay : (chain n).follow trail ['.'] = .ok trail := Disk.follow_silent rfl hend
    have hstart : (chain n).start "." = (List.replicate n "d").map (·.toList) := rfl
    rw [Disk.reach, hstart, List.foldlM_append, hhome]
    change [['.']].foldlM (chain n).follow trail = _
    rw [List.foldlM_cons, hstay]
    rfl
  refine Disk.names?_eq_some_iff.mpr ⟨trail, Disk.canonical_eq_ok_iff.mpr
    ⟨⟨by decide, by decide⟩, hreach, fun place hpasses => absurd hpasses ?_⟩, hnames⟩
  exact Disk.not_passes_of_silent (by decide) place

theorem load_far {n : Nat} (hfar : Disk.pathLimit < (pathIn (List.replicate n "d")).utf8ByteSize) :
    (load (chain n).system (pathIn (List.replicate n "d"))).run =
      .error (.unread (pathIn (List.replicate n "d")) .nameTooLong) := by
  have hat := hasFile_chain n
  have hpath : Disk.IsPath (pathIn (List.replicate n "d")) := by
    rw [pathIn_eq isName_of_mem_replicate]
    exact Disk.isPath_absolute ((proper_deep n).at? hat).2 ((storable_deep n).isStorable hat)
  have hread : ((chain n).system.read (pathIn (List.replicate n "d"))).run = .error .nameTooLong := by
    simp only [Disk.system, Disk.find_eq hpath, if_pos hfar]
    rfl
  change ofFile _ ((chain n).system.read _).run = _
  rw [hread]
  rfl

theorem ofContent_ne_nameTooLong (path path' : String) (bytes : List UInt8) :
    ofContent path bytes ≠ .error (.unread path' .nameTooLong) := by
  unfold ofContent
  split
  · nofun
  · cases ofBytes bytes <;> nofun

/-- Settings too far down are passed over for those of a directory further up. -/
theorem discover_chain {n : Nat}
    (hfar : Disk.pathLimit < (pathIn (List.replicate n "d")).utf8ByteSize) :
    (discover (chain n).system ".").run
      ≠ some <$> (load (chain n).system (pathIn (List.replicate n "d"))).run := by
  have hfound := findFile?_eq (names?_chain n)
  cases hfirst : firstAlong? (chain n) (List.replicate n "d") with
  | none =>
      have hnot := find?_beginnings_eq_none_iff.mp hfirst [] List.nil_prefix
      have hfile : (chain n).find (pathIn []) = .ok (.file []) := by
        refine (find_pathIn_iff (List.forall_mem_nil _) (List.forall_mem_nil _)).mpr ⟨?_, by decide⟩
        cases n <;> rfl
      rw [isFile_iff.mpr ⟨[], hfile⟩] at hnot
      cases hnot
  | some dir =>
      rw [hfirst] at hfound
      obtain ⟨hdir, hisFile, -⟩ := find?_beginnings_eq_some hfirst
      obtain ⟨bytes, hbytes⟩ := isFile_iff.mp hisFile
      have hnames : ∀ name ∈ dir, Files.IsName name :=
        fun name hmem => ((proper_deep n).at? (at?_chain n)).2 name (hdir.subset hmem)
      rw [discover_of_findFile?_eq_some hfound, load_pathIn hnames hbytes, load_far hfar]
      intro heq
      cases hcontent : ofContent (pathIn dir) bytes with
      | ok settings =>
          rw [hcontent] at heq
          cases heq
      | error failure =>
          rw [hcontent] at heq
          obtain rfl := Except.error.inj heq
          exact ofContent_ne_nameTooLong _ _ _ hcontent

theorem utf8ByteSize_pathIn_chain (n : Nat) :
    (pathIn (List.replicate (n + 1) "d")).utf8ByteSize = 2 * n + 18 := by
  have hname : "d".utf8ByteSize = 1 := by decide
  have hfile : fileName.utf8ByteSize = 15 := by decide
  have hdir : (Files.absolute (List.replicate (n + 1) "d")).utf8ByteSize = 2 * n + 2 := by
    induction n with
    | zero => decide
    | succ n ih =>
        rw [List.replicate_succ', Files.utf8ByteSize_absolute_concat (by simp), ih, hname]
        omega
  rw [pathIn_eq isName_of_mem_replicate, Files.utf8ByteSize_absolute_concat (by simp), hdir, hfile]

/-- Nothing can be opened at a path that is too long, but it is resolved piece by piece. -/
theorem discover_dots {n : Nat} (hlong : Disk.pathLimit < 2 * n) :
    (∀ tree, nested.find (Disk.dots n) ≠ .ok tree)
      ∧ (discover nested.system (Disk.dots n)).run ≠ .ok none := by
  constructor
  · intro tree hfind
    have hsize := (Disk.find_eq_ok_iff.mp hfind).2
    rw [Disk.utf8ByteSize_dots] at hsize
    omega
  · have hnames : (nested.system.names? (Disk.dots n)).run = some [] :=
      Disk.names?_eq_some_iff.mpr ⟨[], Disk.canonical_dots rfl rfl (by omega), rfl⟩
    have hfirst : firstAlong? nested [] = some [] := by decide +kernel
    have hfound := findFile?_eq hnames
    rw [hfirst] at hfound
    rw [discover_of_findFile?_eq_some hfound]
    cases (load nested.system (pathIn [])).run <;> nofun

end ApiSuite.Settings
