import ApiSuite.Files.Tree
import ApiSuite.Proofs.Files.Path
import Mathlib.Data.List.Nodup

/-!
# What a walk finds

In a tree whose entries have proper and distinct names, a file is where its names lead. A walk finds
each file once, and it finds those that it can reach without a name that it skips.
-/

namespace ApiSuite.Files

variable {walk : Walk} {enters : Bool} {name : String} {names : List String} {tree inner : Tree}
  {entries : List (String × Tree)}

namespace Tree

/-- The tree that some names lead to. -/
def at? : Tree → List String → Option Tree
  | tree, [] => some tree
  | .file _, _ :: _ => none
  | .dir entries, name :: names => (entries.lookup name).bind (at? · names)

/-- Trees such as a file system can hold: an entry has a name of its own in its directory. -/
inductive Proper : Tree → Prop
  | file (bytes : List UInt8) : Proper (.file bytes)
  | dir {entries : List (String × Tree)} (distinct : (entries.map (·.1)).Nodup)
      (named : ∀ entry ∈ entries, IsName entry.1) (proper : ∀ entry ∈ entries, Proper entry.2) :
      Proper (.dir entries)

theorem lookup_eq_some_iff_mem (distinct : (entries.map (·.1)).Nodup) :
    entries.lookup name = some tree ↔ (name, tree) ∈ entries := by
  induction entries with
  | nil => simp
  | cons entry entries ih =>
      obtain ⟨hentry, hentries⟩ := List.nodup_cons.mp distinct
      rw [List.lookup_cons, List.mem_cons]
      by_cases hname : name = entry.1
      · subst hname
        have hnone : (entry.1, tree) ∉ entries := fun hmem =>
          hentry (List.mem_map.mpr ⟨_, hmem, rfl⟩)
        simp [hnone, Prod.ext_iff, eq_comm]
      · rw [beq_eq_false_iff_ne.mpr hname]
        simp [ih hentries, Prod.ext_iff, hname]

theorem Proper.at? {inner : Tree} (h : tree.Proper) (hat : tree.at? names = some inner) :
    inner.Proper ∧ ∀ name ∈ names, IsName name := by
  induction names generalizing tree with
  | nil =>
      obtain rfl := Option.some.inj hat
      exact ⟨h, by simp⟩
  | cons name names ih =>
      cases h with
      | file bytes => cases hat
      | @dir entries distinct named proper =>
          obtain ⟨next, hnext, hinner⟩ := Option.bind_eq_some_iff.mp hat
          have hmem := (lookup_eq_some_iff_mem distinct).mp hnext
          obtain ⟨hproper, hnames⟩ := ih (proper _ hmem) hinner
          exact ⟨hproper, List.forall_mem_cons.mpr ⟨named _ hmem, hnames⟩⟩

/-! ### Trees whose directories pass a test -/

mutual

/-- Whether the names in each directory of a tree pass a test. -/
def all (good : List String → Bool) : Tree → Bool
  | .file _ => true
  | .dir entries => good (entries.map (·.1)) && allAmong good entries

def allAmong (good : List String → Bool) : List (String × Tree) → Bool
  | [] => true
  | (_, tree) :: rest => tree.all good && allAmong good rest

end

variable {good : List String → Bool}

theorem allAmong_iff : allAmong good entries = true ↔ ∀ entry ∈ entries, entry.2.all good = true := by
  induction entries with
  | nil => simp [allAmong]
  | cons entry entries ih => rw [allAmong, Bool.and_eq_true, ih, List.forall_mem_cons]

theorem induction_of_all {motive : Tree → Prop} (file : ∀ bytes, motive (.file bytes))
    (dir : ∀ entries, good (entries.map (·.1)) = true → (∀ entry ∈ entries, motive entry.2) →
      motive (.dir entries)) : ∀ tree : Tree, tree.all good = true → motive tree
  | .file bytes, _ => file bytes
  | .dir entries, h => by
      rw [all, Bool.and_eq_true, allAmong_iff] at h
      exact dir entries h.1 fun entry hentry =>
        induction_of_all file dir entry.2 (h.2 entry hentry)
termination_by tree => sizeOf tree
decreasing_by
  have hentries := List.sizeOf_lt_of_mem hentry
  obtain ⟨name, tree⟩ := entry
  simp only [Prod.mk.sizeOf_spec] at hentries
  simp only [Tree.dir.sizeOf_spec]
  omega

def areNames (names : List String) : Bool :=
  names.Nodup ∧ ∀ name ∈ names, IsName name

theorem proper_iff_all : tree.Proper ↔ tree.all areNames = true := by
  constructor
  · intro h
    induction h with
    | file bytes => rfl
    | dir distinct named proper ih =>
        rw [all, areNames, Bool.and_eq_true, decide_eq_true_iff, allAmong_iff]
        exact ⟨⟨distinct, List.forall_mem_map.mpr named⟩, ih⟩
  · refine induction_of_all .file (fun entries hgood ih => ?_) tree
    obtain ⟨distinct, named⟩ := decide_eq_true_iff.mp hgood
    exact .dir distinct (List.forall_mem_map.mp named) ih

instance (tree : Tree) : Decidable tree.Proper :=
  decidable_of_iff _ proper_iff_all.symm

/-! ### Walks -/

theorem mem_visitsAmong : (names, inner) ∈ visitsAmong walk entries ↔
    ∃ name tree rest, (name, tree) ∈ entries ∧ walk.takes name = true
      ∧ (rest, inner) ∈ tree.visits walk walk.deep ∧ names = name :: rest := by
  induction entries with
  | nil => simp [visitsAmong]
  | cons entry entries ih =>
      obtain ⟨name, tree⟩ := entry
      rw [visitsAmong, List.mem_append, ih]
      constructor
      · rintro (hfirst | ⟨name', tree', rest, hmem, h⟩)
        · split at hfirst
          case isTrue htakes =>
            obtain ⟨⟨rest, _⟩, hrest, heq⟩ := List.mem_map.mp hfirst
            obtain ⟨rfl, rfl⟩ := Prod.mk.inj heq
            exact ⟨name, tree, rest, List.mem_cons_self, htakes, hrest, rfl⟩
          case isFalse => cases hfirst
        · exact ⟨name', tree', rest, List.mem_cons_of_mem _ hmem, h⟩
      · rintro ⟨name', tree', rest, hmem, htakes, hrest, rfl⟩
        obtain heq | hmem := List.mem_cons.mp hmem
        · obtain ⟨rfl, rfl⟩ := Prod.mk.inj heq
          left
          rw [if_pos htakes]
          exact List.mem_map_of_mem hrest
        · exact .inr ⟨name', tree', rest, hmem, htakes, hrest, rfl⟩

theorem nil_mem_visits_iff : ([], inner) ∈ tree.visits walk enters ↔ tree = inner := by
  have hbelow : ∀ entries, ([], inner) ∉ visitsAmong walk entries := by
    intro entries hmem
    obtain ⟨_, _, _, -, -, -, heq⟩ := mem_visitsAmong.mp hmem
    cases heq
  cases tree with
  | file bytes =>
      rw [visits, List.mem_singleton, Prod.mk.injEq]
      exact ⟨fun h => h.2.symm, fun h => ⟨rfl, h.symm⟩⟩
  | dir entries =>
      rw [visits, List.mem_cons, Prod.mk.injEq]
      constructor
      · rintro (⟨-, rfl⟩ | hmem)
        · rfl
        · split at hmem
          · exact absurd hmem (hbelow entries)
          · cases hmem
      · exact fun h => .inl ⟨rfl, h.symm⟩

/-- What a walk prunes on its way is what a look at all the names that lead to a place tells. -/
theorem mem_visits_iff (h : tree.Proper) : (names, inner) ∈ tree.visits walk enters ↔
    tree.at? names = some inner ∧ (∀ name ∈ names, walk.takes name = true)
      ∧ (enters = false → names = []) ∧ (walk.deep = false → names.length ≤ 1) := by
  -- Below the first directory `enters` is what the walk says of all depths.
  induction names generalizing tree enters with
  | nil => simp [nil_mem_visits_iff, at?]
  | cons name names ih =>
      cases h with
      | file bytes => simp [visits, at?]
      | @dir entries distinct named proper =>
          cases enters with
          | false => simp [visits]
          | true =>
              have hstep : (name :: names, inner) ∈ (Tree.dir entries).visits walk true ↔
                  ∃ tree, (name, tree) ∈ entries ∧ walk.takes name = true
                    ∧ (names, inner) ∈ tree.visits walk walk.deep := by
                rw [visits, if_pos rfl, List.mem_cons, mem_visitsAmong]
                simp
              have hdepth : (walk.deep = false → (name :: names).length ≤ 1) ↔
                  (walk.deep = false → names = []) := by
                simp
              rw [hstep, hdepth]
              constructor
              · rintro ⟨tree, hmem, htakes, hnames⟩
                obtain ⟨hat, hrest, hnear, -⟩ := (ih (proper _ hmem)).mp hnames
                refine ⟨?_, List.forall_mem_cons.mpr ⟨htakes, hrest⟩, by simp, hnear⟩
                rw [at?, (lookup_eq_some_iff_mem distinct).mpr hmem]
                exact hat
              · rintro ⟨hat, htakes, -, hnear⟩
                obtain ⟨htakes, hrest⟩ := List.forall_mem_cons.mp htakes
                obtain ⟨tree, hlookup, hat⟩ := Option.bind_eq_some_iff.mp hat
                have hmem := (lookup_eq_some_iff_mem distinct).mp hlookup
                refine ⟨tree, hmem, htakes, (ih (proper _ hmem)).mpr ⟨hat, hrest, hnear, ?_⟩⟩
                intro hdeep
                simp [hnear hdeep]

theorem isFile_iff : tree.isFile = true ↔ ∃ bytes, tree = .file bytes := by
  cases tree <;> simp [isFile]

theorem mem_files_iff (h : tree.Proper) : names ∈ tree.files walk ↔
    (∃ bytes, tree.at? names = some (.file bytes)) ∧ (∀ name ∈ names, walk.takes name = true)
      ∧ (walk.deep = false → names.length ≤ 1) := by
  simp only [files, List.mem_map, List.mem_filter]
  constructor
  · rintro ⟨⟨_, inner⟩, ⟨hvisit, hfile⟩, rfl⟩
    obtain ⟨hat, htakes, -, hnear⟩ := (mem_visits_iff h).mp hvisit
    obtain ⟨bytes, rfl⟩ := isFile_iff.mp hfile
    exact ⟨⟨bytes, hat⟩, htakes, hnear⟩
  · rintro ⟨⟨bytes, hat⟩, htakes, hnear⟩
    exact ⟨(names, .file bytes), ⟨(mem_visits_iff h).mpr ⟨hat, htakes, nofun, hnear⟩, rfl⟩, rfl⟩

/-- A walk that is not deep comes to the directories in a directory and opens none of them. -/
theorem mem_opened_iff (h : tree.Proper) : names ∈ tree.opened walk ↔
    (∃ entries, tree.at? names = some (.dir entries)) ∧ (∀ name ∈ names, walk.takes name = true)
      ∧ (walk.deep = false → names = []) := by
  simp only [opened, List.mem_map, List.mem_filter, Bool.and_eq_true, Bool.or_eq_true,
    List.isEmpty_iff]
  constructor
  · rintro ⟨⟨_, inner⟩, ⟨hvisit, hdir, hopens⟩, rfl⟩
    obtain ⟨hat, htakes, -, -⟩ := (mem_visits_iff h).mp hvisit
    cases inner with
    | file bytes => cases hdir
    | dir entries =>
        exact ⟨⟨entries, hat⟩, htakes, fun hdeep => hopens.resolve_left (by simp [hdeep])⟩
  · rintro ⟨⟨entries, hat⟩, htakes, hnear⟩
    refine ⟨(names, .dir entries), ⟨(mem_visits_iff h).mpr ⟨hat, htakes, nofun, ?_⟩, rfl, ?_⟩, rfl⟩
    · intro hdeep
      simp [hnear hdeep]
    · cases hdeep : walk.deep with
      | true => exact .inl rfl
      | false => exact .inr (hnear hdeep)

theorem Proper.isName_of_mem_files (h : tree.Proper) (hmem : names ∈ tree.files walk) :
    ∀ name ∈ names, IsName name := by
  obtain ⟨⟨bytes, hfile⟩, -⟩ := (mem_files_iff h).mp hmem
  exact (h.at? hfile).2

theorem nodup_visitsAmong (distinct : (entries.map (·.1)).Nodup)
    (h : ∀ entry ∈ entries, ((entry.2.visits walk walk.deep).map (·.1)).Nodup) :
    ((visitsAmong walk entries).map (·.1)).Nodup := by
  induction entries with
  | nil => simp [visitsAmong]
  | cons entry entries ih =>
      obtain ⟨hentry, hentries⟩ := List.nodup_cons.mp distinct
      obtain ⟨hfirst, hrest⟩ := List.forall_mem_cons.mp h
      rw [visitsAmong, List.map_append, List.nodup_append]
      refine ⟨?_, ih hentries hrest, ?_⟩
      · split
        · rw [List.map_map]
          have hmap := hfirst.map (f := (entry.1 :: ·)) List.cons_injective
          rwa [List.map_map] at hmap
        · exact List.nodup_nil
      · -- The names that lead into different entries differ at once.
        rintro names hnames names' hnames' rfl
        split at hnames
        case isTrue =>
          obtain ⟨visit, hvisit, rfl⟩ := List.mem_map.mp hnames
          obtain ⟨⟨rest, _⟩, -, rfl⟩ := List.mem_map.mp hvisit
          obtain ⟨⟨_, inner⟩, hvisit', heq⟩ := List.mem_map.mp hnames'
          obtain ⟨name, tree, rest', hmem, -, -, hname⟩ := mem_visitsAmong.mp hvisit'
          obtain ⟨rfl, -⟩ := List.cons.inj (hname.symm.trans heq)
          exact hentry (List.mem_map.mpr ⟨_, hmem, rfl⟩)
        case isFalse => cases hnames

theorem nodup_visits (h : tree.Proper) : ((tree.visits walk enters).map (·.1)).Nodup := by
  induction h generalizing enters with
  | file bytes => simp [visits]
  | @dir entries distinct named proper ih =>
      rw [visits, List.map_cons, List.nodup_cons]
      split
      · refine ⟨?_, nodup_visitsAmong distinct fun entry hentry => ih entry hentry⟩
        intro hmem
        obtain ⟨⟨_, inner⟩, hvisit, heq⟩ := List.mem_map.mp hmem
        obtain ⟨name, tree, rest, -, -, -, hname⟩ := mem_visitsAmong.mp hvisit
        cases hname.symm.trans heq
      · exact ⟨List.not_mem_nil, List.nodup_nil⟩

theorem nodup_files (h : tree.Proper) : (tree.files walk).Nodup :=
  (nodup_visits h).sublist (List.filter_sublist.map _)

end Tree

end ApiSuite.Files
