import ApiSuite.Files.Disk
import ApiSuite.Proofs.Except
import ApiSuite.Proofs.Files.Tree

/-!
# Where paths lead

What a path leads to is as proper as the disk it is on. The path of an entry, made of the path of its
directory and its name, leads to the entry; but a system takes only paths up to a certain length, so
that an entry can lie where no path that it takes leads.
-/

namespace ApiSuite.Files

/-- A property of directories that goes down to what is in them. -/
def Tree.Inherited (property : Tree → Prop) : Prop :=
  ∀ ⦃entries name tree⦄, property (.dir entries) → entries.lookup name = some tree → property tree

theorem Tree.inherited_proper : Inherited Proper := by
  intro entries name tree hproper hlookup
  cases hproper with
  | dir distinct named proper => exact proper _ ((lookup_eq_some_iff_mem distinct).mp hlookup)

namespace Disk

variable {disk : Disk} {path : String} {tree : Tree} {trail trail' : Trail} {property : Tree → Prop}

theorem endOf_inherits (hroot : property disk.root) (htrail : ∀ entry ∈ trail, property entry.2) :
    property (disk.endOf trail) := by
  cases trail with
  | nil => exact hroot
  | cons entry trail => exact htrail entry List.mem_cons_self

/-- What a piece does by the component that it is. -/
theorem follow_cases {piece : List Char} (h : disk.follow trail piece = .ok trail') :
    ∃ entries, disk.endOf trail = .dir entries
      ∧ (component? false piece = none ∧ trail' = trail
        ∨ component? false piece = some .up ∧ trail' = trail.drop 1
        ∨ ∃ name tree, component? false piece = some (.name name)
          ∧ entries.lookup name = some tree ∧ trail' = (name, tree) :: trail) := by
  unfold follow at h
  split at h
  case h_1 => cases h
  case h_2 entries hdir | h_3 entries hdir =>
    obtain rfl := Except.ok.inj h
    exact ⟨entries, hdir, .inl ⟨rfl, rfl⟩⟩
  case h_4 entries hdir =>
    obtain rfl := Except.ok.inj h
    exact ⟨entries, hdir, .inr (.inl ⟨rfl, rfl⟩)⟩
  case h_5 entries hdir hempty hhere hup =>
    dsimp only at h
    split at h
    case isTrue => cases h
    case isFalse =>
      split at h
      case h_1 tree hlookup =>
        obtain rfl := Except.ok.inj h
        refine ⟨entries, hdir, .inr (.inr ⟨_, tree, ?_, hlookup, rfl⟩)⟩
        unfold component?
        split
        · exact absurd rfl hempty
        · exact absurd rfl hhere
        · exact absurd rfl hup
        · rfl
      case h_2 => cases h

theorem follow_inherits {piece : List Char} (hdown : Tree.Inherited property)
    (hroot : property disk.root) (htrail : ∀ entry ∈ trail, property entry.2)
    (hfollow : disk.follow trail piece = .ok trail') : ∀ entry ∈ trail', property entry.2 := by
  have hend := endOf_inherits hroot htrail
  obtain ⟨entries, hdir, ⟨-, rfl⟩ | ⟨-, rfl⟩ | ⟨name, tree, -, hlookup, rfl⟩⟩ := follow_cases hfollow
  · exact htrail
  · exact fun entry hentry => htrail entry (List.mem_of_mem_drop hentry)
  · rw [hdir] at hend
    exact List.forall_mem_cons.mpr ⟨hdown hend hlookup, htrail⟩

theorem foldlM_follow_inherits {pieces : List (List Char)} (hdown : Tree.Inherited property)
    (hroot : property disk.root) (htrail : ∀ entry ∈ trail, property entry.2)
    (hfollow : pieces.foldlM disk.follow trail = .ok trail') :
    ∀ entry ∈ trail', property entry.2 := by
  induction pieces generalizing trail with
  | nil =>
      obtain rfl := Except.ok.inj hfollow
      exact htrail
  | cons piece pieces ih =>
      rw [List.foldlM_cons] at hfollow
      obtain ⟨next, hnext, hrest⟩ := bind_eq_ok_iff.mp hfollow
      exact ih (follow_inherits hdown hroot htrail hnext) hrest

/-- The trail of a path, whatever is in the path and however long it is. -/
def reach (disk : Disk) (path : String) : Except Fault Trail :=
  (disk.start path ++ pieces path).foldlM disk.follow []

/-- What lies at a path, if there were no limit to the length of paths. -/
def target (disk : Disk) (path : String) : Except Fault Tree :=
  disk.endOf <$> disk.reach path

/-- A path that the system can look for. -/
structure IsPath (path : String) : Prop where
  ne_empty : path ≠ ""
  noNul : '\x00' ∉ path.toList

theorem check_eq_ok_iff : check path = .ok () ↔ IsPath path := by
  rw [check]
  split
  case isTrue hnul => exact ⟨nofun, fun h => absurd (List.contains_iff_mem.mp hnul) h.noNul⟩
  case isFalse hnul =>
    split
    case isTrue hempty => exact ⟨nofun, fun h => absurd (String.isEmpty_iff.mp hempty) h.ne_empty⟩
    case isFalse hempty =>
      exact ⟨fun _ => ⟨mt String.isEmpty_iff.mpr hempty, mt List.contains_iff_mem.mpr hnul⟩, fun _ => rfl⟩

theorem allow_eq_ok_iff : allow path = .ok () ↔ path.utf8ByteSize ≤ pathLimit := by
  rw [allow, ← Nat.not_lt]
  split <;> simp [*]

theorem allow_eq_error {fault : Fault} (h : allow path = .error fault) :
    pathLimit < path.utf8ByteSize ∧ fault = .nameTooLong := by
  rw [allow] at h
  split at h
  case isTrue hlong => exact ⟨hlong, (Except.error.inj h).symm⟩
  case isFalse => cases h

theorem locate_eq_ok_iff : disk.locate path = .ok trail ↔
    IsPath path ∧ path.utf8ByteSize ≤ pathLimit ∧ disk.reach path = .ok trail := by
  rw [locate, bind_eq_ok_iff, ← check_eq_ok_iff, ← allow_eq_ok_iff]
  constructor
  · rintro ⟨_, hcheck, h⟩
    obtain ⟨_, hallow, hreach⟩ := bind_eq_ok_iff.mp h
    exact ⟨hcheck, hallow, hreach⟩
  · rintro ⟨hcheck, hallow, hreach⟩
    exact ⟨_, hcheck, bind_eq_ok_iff.mpr ⟨_, hallow, hreach⟩⟩

theorem find_eq (h : IsPath path) :
    disk.find path =
      if pathLimit < path.utf8ByteSize then .error .nameTooLong else disk.target path := by
  rw [find, locate, check_eq_ok_iff.mpr h, allow]
  split <;> rfl

/-- Whether something lies at a path, however long the path is. -/
def LeadsTo (disk : Disk) (path : String) (tree : Tree) : Prop :=
  IsPath path ∧ disk.target path = .ok tree

theorem LeadsTo.inherits (h : disk.LeadsTo path tree) (hdown : Tree.Inherited property)
    (hroot : property disk.root) : property tree := by
  obtain ⟨trail, hreach, rfl⟩ := map_eq_ok_iff.mp h.2
  exact endOf_inherits hroot (foldlM_follow_inherits hdown hroot (by simp) hreach)

theorem LeadsTo.proper (h : disk.LeadsTo path tree) (hroot : disk.root.Proper) :
    tree.Proper ∧ path ≠ "" :=
  ⟨h.inherits Tree.inherited_proper hroot, h.1.ne_empty⟩

theorem find_eq_ok_iff : disk.find path = .ok tree ↔
    disk.LeadsTo path tree ∧ path.utf8ByteSize ≤ pathLimit := by
  constructor
  · intro h
    obtain ⟨trail, hlocate, rfl⟩ := map_eq_ok_iff.mp h
    obtain ⟨hpath, hshort, hreach⟩ := locate_eq_ok_iff.mp hlocate
    exact ⟨⟨hpath, map_eq_ok_iff.mpr ⟨trail, hreach, rfl⟩⟩, hshort⟩
  · rintro ⟨⟨hpath, htarget⟩, hshort⟩
    obtain ⟨trail, hreach, rfl⟩ := map_eq_ok_iff.mp htarget
    exact map_eq_ok_iff.mpr ⟨trail, locate_eq_ok_iff.mpr ⟨hpath, hshort, hreach⟩, rfl⟩

/-! ### Further along names -/

variable {entries : List (String × Tree)} {base name : String} {names : List String}
  {piece : List Char} {ends : List (List Char)}

theorem follow_silent (hpiece : component? false piece = none)
    (hend : disk.endOf trail = .dir entries) : disk.follow trail piece = .ok trail := by
  unfold component? at hpiece
  split at hpiece
  case h_1 | h_2 => simp only [follow, hend]
  case h_3 | h_4 => cases hpiece

theorem eq_of_follow_silent (hpiece : component? false piece = none)
    (h : disk.follow trail piece = .ok trail') : trail = trail' := by
  obtain ⟨entries, -, ⟨-, rfl⟩ | ⟨hup, -⟩ | ⟨name, tree, hname, -⟩⟩ := follow_cases h
  · rfl
  · cases hpiece.symm.trans hup
  · cases hpiece.symm.trans hname

theorem eq_of_foldlM_follow_silent (hends : ends.filterMap (component? false) = [])
    (h : ends.foldlM disk.follow trail = .ok trail') : trail = trail' := by
  induction ends generalizing trail with
  | nil => exact Except.ok.inj h
  | cons piece ends ih =>
      have hsilent := List.filterMap_eq_nil_iff.mp hends
      rw [List.foldlM_cons] at h
      obtain ⟨next, hnext, hrest⟩ := bind_eq_ok_iff.mp h
      obtain rfl := eq_of_follow_silent (hsilent piece List.mem_cons_self) hnext
      exact ih (List.filterMap_eq_nil_iff.mpr fun piece hpiece =>
        hsilent piece (List.mem_cons_of_mem _ hpiece)) hrest

/-- The path of an entry leads on from where the path of the directory leads. -/
theorem reach_join (hname : IsName name) (hbase : base ≠ "") (hreach : disk.reach base = .ok trail) :
    disk.reach (join base name) = disk.follow trail name.toList := by
  obtain ⟨first, rest, ends, hpieces, hjoined, hends⟩ := pieces_join hbase hname
  rw [reach, hpieces, ← List.cons_append, ← List.append_assoc, List.foldlM_append] at hreach
  obtain ⟨before, hbefore, hafter⟩ := bind_eq_ok_iff.mp hreach
  -- What the name takes the place of is an empty piece at most, which leads nowhere else.
  obtain rfl := eq_of_foldlM_follow_silent hends hafter
  rw [reach, start, hjoined, isAbsolute_join hbase hname, ← start, ← List.cons_append,
    ← List.append_assoc, List.foldlM_append, hbefore]
  change [name.toList].foldlM disk.follow before = _
  rw [List.foldlM_cons]
  exact bind_pure _

theorem follow_name (hname : IsName name) (hshort : name.utf8ByteSize ≤ nameLimit)
    (hend : disk.endOf trail = .dir entries) (hlookup : entries.lookup name = some tree) :
    disk.follow trail name.toList = .ok ((name, tree) :: trail) := by
  have hlimit : ¬ nameLimit < name.utf8ByteSize := by omega
  unfold follow
  split
  case h_1 hfile => cases hend.symm.trans hfile
  case h_2 hempty => exact absurd (String.toList_eq_nil_iff.mp hempty) hname.ne_empty
  case h_3 hhere => exact absurd (String.toList_inj.mp hhere) hname.ne_here
  case h_4 hup => exact absurd (String.toList_inj.mp hup) hname.ne_up
  case h_5 hdir _ _ _ =>
    obtain rfl := Tree.dir.inj (hend.symm.trans hdir)
    simp only [String.ofList_toList, if_neg hlimit, hlookup]

theorem reach_foldl_join {tree : Tree} (hbase : base ≠ "") (hreach : disk.reach base = .ok trail)
    (hat : (disk.endOf trail).at? names = some tree) (hnames : ∀ name ∈ names, IsName name)
    (hshort : ∀ name ∈ names, name.utf8ByteSize ≤ nameLimit) :
    disk.target (names.foldl join base) = .ok tree := by
  induction names generalizing base trail with
  | nil =>
      obtain rfl := Option.some.inj hat
      rw [List.foldl_nil, target, hreach]
      rfl
  | cons name names ih =>
      obtain ⟨hname, hnames⟩ := List.forall_mem_cons.mp hnames
      obtain ⟨hshort, hshorts⟩ := List.forall_mem_cons.mp hshort
      cases hend : disk.endOf trail with
      | file bytes =>
          rw [hend] at hat
          cases hat
      | dir entries =>
          rw [hend] at hat
          obtain ⟨next, hlookup, hat⟩ := Option.bind_eq_some_iff.mp hat
          have hfollow := follow_name hname hshort hend hlookup
          rw [← reach_join hname hbase hreach] at hfollow
          exact ih (join_ne_empty hbase hname) hfollow hat hnames hshorts

end Disk

/-! ### Names that are stored -/

/-- A name that a disk can hold. -/
structure IsStorable (name : String) : Prop where
  short : name.utf8ByteSize ≤ Disk.nameLimit
  noNul : '\x00' ∉ name.toList

/-- Trees whose entries have names that a disk can hold. -/
inductive Tree.Storable : Tree → Prop
  | file (bytes : List UInt8) : Storable (.file bytes)
  | dir {entries : List (String × Tree)} (named : ∀ entry ∈ entries, IsStorable entry.1)
      (storable : ∀ entry ∈ entries, Storable entry.2) : Storable (.dir entries)

theorem isStorable_iff {name : String} :
    IsStorable name ↔ name.utf8ByteSize ≤ Disk.nameLimit ∧ '\x00' ∉ name.toList :=
  ⟨fun h => ⟨h.short, h.noNul⟩, fun h => ⟨h.1, h.2⟩⟩

instance (name : String) : Decidable (IsStorable name) :=
  decidable_of_iff _ isStorable_iff.symm

theorem Tree.storable_iff_all {tree : Tree} :
    tree.Storable ↔ tree.all (fun names => ∀ name ∈ names, IsStorable name) = true := by
  constructor
  · intro h
    induction h with
    | file bytes => rfl
    | dir named storable ih =>
        rw [all, Bool.and_eq_true, decide_eq_true_iff, allAmong_iff]
        exact ⟨List.forall_mem_map.mpr named, ih⟩
  · refine induction_of_all .file (fun entries hgood ih => ?_) tree
    exact .dir (List.forall_mem_map.mp (decide_eq_true_iff.mp hgood)) ih

instance (tree : Tree) : Decidable tree.Storable :=
  decidable_of_iff _ Tree.storable_iff_all.symm

theorem Tree.mem_of_lookup {entries : List (String × Tree)} {name : String} {tree : Tree}
    (h : entries.lookup name = some tree) : (name, tree) ∈ entries := by
  obtain ⟨before, after, rfl, -⟩ := List.lookup_eq_some_iff.mp h
  exact List.mem_append_right before List.mem_cons_self

theorem Tree.inherited_storable : Inherited Storable := by
  intro entries name tree hstorable hlookup
  cases hstorable with
  | dir named storable => exact storable _ (mem_of_lookup hlookup)

theorem Tree.Storable.isStorable {tree inner : Tree} {names : List String} (h : tree.Storable)
    (hat : tree.at? names = some inner) : ∀ name ∈ names, IsStorable name := by
  induction names generalizing tree with
  | nil => exact List.forall_mem_nil _
  | cons name names ih =>
      cases tree with
      | file bytes => cases hat
      | dir entries =>
          obtain ⟨next, hlookup, hat⟩ := Option.bind_eq_some_iff.mp hat
          have hnext := inherited_storable h hlookup
          cases h with
          | dir named =>
              exact List.forall_mem_cons.mpr ⟨named _ (mem_of_lookup hlookup), ih hnext hat⟩

namespace Disk

variable {disk : Disk} {dir : String} {tree : Tree} {names : List String} {bytes : List UInt8}

theorem IsPath.join {base name : String} (hbase : IsPath base) (hname : IsName name)
    (hstorable : IsStorable name) : IsPath (Files.join base name) where
  ne_empty := join_ne_empty hbase.ne_empty hname
  noNul := by
    rw [Files.join, hname.isAbsolute_eq, if_neg Bool.false_ne_true]
    split <;> simp [hbase.noNul, hstorable.noNul]

theorem IsPath.foldl_join {base : String} (hbase : IsPath base) (hnames : ∀ name ∈ names, IsName name)
    (hstorable : ∀ name ∈ names, IsStorable name) : IsPath (names.foldl Files.join base) := by
  induction names generalizing base with
  | nil => exact hbase
  | cons name names ih =>
      obtain ⟨hname, hnames⟩ := List.forall_mem_cons.mp hnames
      obtain ⟨hfirst, hstorable⟩ := List.forall_mem_cons.mp hstorable
      exact ih (hbase.join hname hfirst) hnames hstorable

/-- A file below a directory lies where its path says, and is read if the path is not too long. -/
theorem read_foldl_join (hproper : disk.root.Proper) (hstorable : disk.root.Storable)
    (hdir : disk.LeadsTo dir tree) (hat : tree.at? names = some (.file bytes)) :
    disk.target (names.foldl join dir) = .ok (.file bytes) ∧
      disk.system.read (names.foldl join dir) =
        if pathLimit < (names.foldl join dir).utf8ByteSize then .error .nameTooLong else .ok bytes := by
  obtain ⟨-, hnames⟩ := (hdir.proper hproper).1.at? hat
  have hstored := (hdir.inherits Tree.inherited_storable hstorable).isStorable hat
  have hpath := hdir.1.foldl_join hnames hstored
  obtain ⟨trail, hreach, rfl⟩ := map_eq_ok_iff.mp hdir.2
  have htarget : disk.target (names.foldl join dir) = .ok (.file bytes) :=
    reach_foldl_join hdir.1.ne_empty hreach hat hnames fun name hname => (hstored name hname).short
  have hfind : disk.find (names.foldl join dir) = _ := find_eq hpath
  rw [htarget] at hfind
  refine ⟨htarget, ?_⟩
  by_cases hlong : pathLimit < (names.foldl join dir).utf8ByteSize <;> simp [system, hfind, hlong]

/-! ### Scans -/

variable {walk : Walk} {found : List (List String)}

theorem allow_mapError_eq_ok_iff {path : String} :
    (allow path).mapError (path, ·) = .ok () ↔ path.utf8ByteSize ≤ pathLimit := by
  rw [mapError_eq_ok_iff, allow_eq_ok_iff]

/-- A scan finds the files of the walk if all directories that the walk opens are at paths that the system
takes. -/
theorem scan_eq_ok_iff : disk.scan walk dir = .ok found ↔
    ∃ tree, disk.find dir = .ok tree
      ∧ (∀ names ∈ tree.opened walk, (names.foldl Files.join dir).utf8ByteSize ≤ pathLimit)
      ∧ tree.files walk = found := by
  rw [scan, bind_eq_ok_iff]
  constructor
  · rintro ⟨tree, hdir, h⟩
    obtain ⟨_, hopened, hfound⟩ := bind_eq_ok_iff.mp h
    refine ⟨tree, mapError_eq_ok_iff.mp hdir, fun names hmem => ?_, Except.ok.inj hfound⟩
    exact allow_mapError_eq_ok_iff.mp (forM_eq_ok_iff.mp hopened names hmem)
  · rintro ⟨tree, hdir, hopened, rfl⟩
    refine ⟨tree, mapError_eq_ok_iff.mpr hdir, bind_eq_ok_iff.mpr ⟨_, forM_eq_ok_iff.mpr ?_, rfl⟩⟩
    exact fun names hmem => allow_mapError_eq_ok_iff.mpr (hopened names hmem)

theorem exists_of_scan_eq_error {fault : String × Fault} (hdir : disk.find dir = .ok tree)
    (h : disk.scan walk dir = .error fault) : ∃ names ∈ tree.opened walk,
      pathLimit < (names.foldl Files.join dir).utf8ByteSize
        ∧ fault = (names.foldl Files.join dir, .nameTooLong) := by
  rw [scan, bind_eq_error_iff] at h
  obtain hnowhere | ⟨tree', htree, h⟩ := h
  · obtain ⟨_, hfind, -⟩ := mapError_eq_error_iff.mp hnowhere
    cases hdir.symm.trans hfind
  obtain rfl := Except.ok.inj (hdir.symm.trans (mapError_eq_ok_iff.mp htree))
  obtain h | ⟨_, -, h⟩ := bind_eq_error_iff.mp h
  · obtain ⟨names, hmem, h⟩ := exists_of_forM_eq_error h
    obtain ⟨refusal, hrefused, rfl⟩ := mapError_eq_error_iff.mp h
    obtain ⟨hlong, rfl⟩ := allow_eq_error hrefused
    exact ⟨names, hmem, hlong, rfl⟩
  · cases h

/-! ### Long paths that lead nowhere else -/

/-- A path of twice as many characters, all of them dots and slashes. -/
def dots : Nat → String
  | 0 => ""
  | n + 1 => "./" ++ dots n

theorem utf8ByteSize_dots (n : Nat) : (dots n).utf8ByteSize = 2 * n := by
  induction n with
  | zero => rfl
  | succ n ih =>
      have hstep : "./".utf8ByteSize = 2 := by decide
      rw [dots, String.utf8ByteSize_append, ih, hstep]
      omega

theorem pieces_dots (n : Nat) : pieces (dots n) = List.replicate n ['.'] ++ [[]] := by
  induction n with
  | zero => rfl
  | succ n ih =>
      have hlist : (dots (n + 1)).toList = ['.'] ++ '/' :: (dots n).toList := by
        rw [dots, String.toList_append]
        rfl
      rw [pieces, hlist, Text.pieces_append_cons, List.replicate_succ, List.cons_append]
      exact congrArg (['.'] :: ·) ih

theorem noNul_dots (n : Nat) : '\x00' ∉ (dots n).toList := by
  induction n with
  | zero => decide
  | succ n ih =>
      rw [dots, String.toList_append, List.mem_append, not_or]
      exact ⟨by decide, ih⟩

theorem isPath_dots {n : Nat} (hn : 0 < n) : IsPath (dots n) where
  ne_empty := by
    intro hempty
    have hsize := utf8ByteSize_dots n
    rw [hempty, String.utf8ByteSize_empty] at hsize
    omega
  noNul := noNul_dots n

section Dots

variable {entries : List (String × Tree)}

theorem foldlM_dots (hroot : disk.root = .dir entries) (n : Nat) :
    (List.replicate n ['.']).foldlM disk.follow [] = .ok [] := by
  have hstay : disk.follow [] ['.'] = .ok [] := follow_silent rfl hroot
  induction n with
  | zero => rfl
  | succ n ih =>
      rw [List.replicate_succ, List.foldlM_cons, hstay]
      exact ih

theorem start_of_home (hhome : disk.home = []) (path : String) : disk.start path = [] := by
  rw [start, hhome]
  exact ite_self []

theorem reach_dots (hroot : disk.root = .dir entries) (hhome : disk.home = []) (n : Nat) :
    disk.reach (dots n) = .ok [] := by
  have hstay : disk.follow [] [] = .ok [] := follow_silent rfl hroot
  rw [reach, start_of_home hhome, pieces_dots, List.nil_append, List.foldlM_append,
    foldlM_dots hroot]
  change [[]].foldlM disk.follow [] = _
  rw [List.foldlM_cons, hstay]
  rfl

theorem find_dots (hroot : disk.root = .dir entries) (hhome : disk.home = []) {n : Nat} (hn : 0 < n)
    (hshort : 2 * n ≤ pathLimit) : disk.find (dots n) = .ok disk.root := by
  have hlocate := locate_eq_ok_iff.mpr
    ⟨isPath_dots hn, (utf8ByteSize_dots n).trans_le hshort, reach_dots hroot hhome n⟩
  rw [find, hlocate]
  rfl

end Dots

end Disk

end ApiSuite.Files
