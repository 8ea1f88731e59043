import ApiSuite.Proofs.Files.Disk
import Mathlib.Data.List.Induction

/-!
# Canonical paths

A path that leads somewhere leads there along names from the root, whatever dots stand in it. They are
found by looking at one entry after the other along the way, so all of these have to be at absolute
paths that can be opened; the path itself need not be. The absolute path along names leads to what the
tree has there, as long as it is not too long for the system.
-/

namespace ApiSuite.Files

/-! ### Absolute paths -/

section Absolute

variable {name : String} {names : List String}

theorem isAbsolute_absolute (names : List String) : isAbsolute (absolute names) = true := by
  simp [isAbsolute, absolute]

theorem getLast?_absolute (hnames : ∀ name ∈ names, IsName name) (hne : names ≠ []) :
    (absolute names).toList.getLast? ≠ some '/' := by
  obtain ⟨front, last, rfl⟩ := (List.eq_nil_or_concat names).resolve_left hne
  rw [List.concat_eq_append] at hnames ⊢
  have hlast : IsName last := hnames last (List.mem_append_right front List.mem_cons_self)
  obtain ⟨cs, c, hcs⟩ := (List.eq_nil_or_concat last.toList).resolve_left
    (mt String.toList_eq_nil_iff.mp hlast.ne_empty)
  rw [List.concat_eq_append] at hcs
  have hends : ∃ before, (absolute (front ++ [last])).toList = before ++ last.toList := by
    cases front with
    | nil => exact ⟨['/'], by simp [absolute]⟩
    | cons first rest =>
        rw [absolute, String.intercalate_append_of_ne_nil (List.cons_ne_nil _ _) (List.cons_ne_nil _ _)]
        exact ⟨('/' :: (String.intercalate "/" (first :: rest)).toList) ++ ['/'], by simp⟩
  obtain ⟨before, hends⟩ := hends
  rw [hends, hcs, ← List.append_assoc, List.getLast?_concat]
  intro hslash
  apply hlast.noSlash
  rw [hcs, Option.some.inj hslash]
  exact List.mem_append_right cs List.mem_cons_self

theorem utf8ByteSize_absolute_concat (hne : names ≠ []) :
    (absolute (names ++ [name])).utf8ByteSize =
      (absolute names).utf8ByteSize + name.utf8ByteSize + 1 := by
  have hslash : "/".utf8ByteSize = 1 := by decide
  rw [absolute, absolute, String.intercalate_append_of_ne_nil hne (List.cons_ne_nil _ _),
    String.intercalate_singleton]
  simp only [String.utf8ByteSize_append, hslash]
  omega

theorem join_absolute (hnames : ∀ name ∈ names, IsName name) (hname : IsName name) :
    join (absolute names) name = absolute (names ++ [name]) := by
  rw [join, hname.isAbsolute_eq, if_neg Bool.false_ne_true]
  by_cases hne : names = []
  · subst hne
    simp [absolute]
  · have hempty : (absolute names).isEmpty = false := by
      simp [absolute]
    rw [hempty, Bool.false_or, if_neg (by simpa using getLast?_absolute hnames hne), absolute,
      absolute, String.intercalate_append_of_ne_nil hne (List.cons_ne_nil _ _),
      String.intercalate_singleton]
    simp only [String.append_assoc]

theorem absolute_eq_foldl_join (hnames : ∀ name ∈ names, IsName name) :
    absolute names = names.foldl join "/" := by
  induction names using List.reverseRecOn with
  | nil => rfl
  | append_singleton names name ih =>
      obtain ⟨hfront, hlast⟩ := List.forall_mem_append.mp hnames
      rw [List.foldl_concat, ← ih hfront, join_absolute hfront (hlast name List.mem_cons_self)]

theorem pieces_absolute (hnames : ∀ name ∈ names, IsName name) (hname : IsName name) :
    pieces (absolute (names ++ [name])) = [] :: (names ++ [name]).map (·.toList) := by
  induction names using List.reverseRecOn generalizing name with
  | nil =>
      have hlist : (absolute [name]).toList = [] ++ '/' :: name.toList := by simp [absolute]
      rw [List.nil_append, pieces, hlist, Text.pieces_append_cons,
        Text.pieces_eq_singleton hname.noSlash]
      rfl
  | append_singleton names last ih =>
      obtain ⟨hfront, hlast⟩ := List.forall_mem_append.mp hnames
      have hlist : (absolute (names ++ [last] ++ [name])).toList =
          (absolute (names ++ [last])).toList ++ '/' :: name.toList := by
        rw [absolute, absolute, String.intercalate_append_of_ne_nil (by simp) (List.cons_ne_nil _ _)]
        simp
      have hpieces := ih hfront (hlast last List.mem_cons_self)
      rw [pieces] at hpieces
      rw [pieces, hlist, Text.pieces_append_cons, hpieces, Text.pieces_eq_singleton hname.noSlash]
      simp

theorem parent?_absolute (hnames : ∀ name ∈ names, IsName name) (hname : IsName name) :
    parent? (absolute (names ++ [name])) = some (absolute names) := by
  let component (name : String) : List Char × Option Component := (name.toList, some (.name name))
  have hbody : body (absolute (names ++ [name])) = (names ++ [name]).map component := by
    rw [body, pieces_absolute hnames hname]
    simp only [isAbsolute_absolute, if_true, List.map_map]
    apply List.map_congr_left
    intro other hother
    have hother : IsName other := by
      obtain hother | hother := List.mem_append.mp hother
      · exact hnames other hother
      · rwa [List.mem_singleton.mp hother]
    simp [component, hother.component?_eq false]
  have hall (names : List String) :
      (names.map component).dropWhile (·.2.isNone) = names.map component := by
    cases names <;> simp [component]
  rw [parent?, hbody, ← List.map_reverse, hall]
  simp only [List.reverse_append, List.reverse_singleton, List.singleton_append, List.map_cons, hall,
    isAbsolute_absolute, if_true]
  simp [component, absolute, Function.comp_def]

end Absolute

namespace Disk

variable {disk : Disk} {tree : Tree} {trail trail' : Trail}

/-! ### The way of a path -/

/-- A trail on which each entry is in the directory that the one before it leads to. -/
inductive Descends (disk : Disk) : Trail → Prop
  | nil : Descends disk []
  | cons {trail : Trail} {entries : List (String × Tree)} {name : String} {tree : Tree}
      (above : Descends disk trail) (hend : disk.endOf trail = .dir entries)
      (hlookup : entries.lookup name = some tree) : Descends disk ((name, tree) :: trail)

variable {piece : List Char} {pieces : List (List Char)}

theorem Descends.follow (h : disk.Descends trail) (hfollow : disk.follow trail piece = .ok trail') :
    disk.Descends trail' := by
  obtain ⟨entries, hdir, ⟨-, rfl⟩ | ⟨-, rfl⟩ | ⟨name, tree, -, hlookup, rfl⟩⟩ := follow_cases hfollow
  · exact h
  · cases h with
    | nil => exact .nil
    | cons above => exact above
  · exact .cons h hdir hlookup

theorem Descends.foldlM_follow (h : disk.Descends trail)
    (hfollow : pieces.foldlM disk.follow trail = .ok trail') : disk.Descends trail' := by
  induction pieces generalizing trail with
  | nil =>
      obtain rfl := Except.ok.inj hfollow
      exact h
  | cons piece pieces ih =>
      rw [List.foldlM_cons] at hfollow
      obtain ⟨next, hnext, hrest⟩ := bind_eq_ok_iff.mp hfollow
      exact ih (h.follow hnext) hrest

variable {path name : String} {names : List String}

theorem at?_append {tree : Tree} {names names' : List String} :
    tree.at? (names ++ names') = (tree.at? names).bind (·.at? names') := by
  induction names generalizing tree with
  | nil => rfl
  | cons name names ih =>
      cases tree with
      | file bytes => rfl
      | dir entries =>
          rw [List.cons_append, Tree.at?, Tree.at?, Option.bind_assoc]
          congr 1
          funext next
          exact ih

theorem Descends.at? (h : disk.Descends trail) :
    disk.root.at? (Trail.names trail) = some (disk.endOf trail) := by
  induction h with
  | nil => rfl
  | cons above hend hlookup ih =>
      rw [Trail.names, List.map_cons, List.reverse_cons, at?_append]
      change (disk.root.at? (Trail.names _)).bind _ = _
      rw [ih, hend, Option.bind_some, Tree.at?, hlookup]
      rfl

/-! ### Resolved paths -/

/-- Whether a path leads to a place on its way by one of the names in it. -/
def Passes (disk : Disk) (path : String) (place : Trail) : Prop :=
  ∃ before piece after trail entry, Files.pieces path = before ++ piece :: after
    ∧ (disk.start path ++ before).foldlM disk.follow [] = .ok trail
    ∧ disk.follow trail piece = .ok (entry :: trail) ∧ place = entry :: trail

/-- Whether the absolute path of a place can be opened. -/
def HasShortPath (place : Trail) : Prop :=
  (absolute (Trail.names place)).utf8ByteSize ≤ pathLimit

theorem length_lt_iff_of_follow (h : disk.follow trail piece = .ok trail') :
    trail.length < trail'.length ↔ ∃ entry, trail' = entry :: trail := by
  constructor
  · intro hlonger
    obtain ⟨entries, -, ⟨-, rfl⟩ | ⟨-, rfl⟩ | ⟨name, tree, -, -, rfl⟩⟩ := follow_cases h
    · exact absurd hlonger (Nat.lt_irrefl _)
    · rw [List.length_drop] at hlonger
      omega
    · exact ⟨(name, tree), rfl⟩
  · rintro ⟨entry, rfl⟩
    exact Nat.lt_succ_self _

theorem resolve_eq_ok_iff : disk.resolve trail piece = .ok trail' ↔
    disk.follow trail piece = .ok trail' ∧ ∀ entry, trail' = entry :: trail → HasShortPath trail' := by
  rw [resolve, bind_eq_ok_iff]
  constructor
  · rintro ⟨next, hfollow, h⟩
    split at h
    case isTrue hlonger =>
      obtain ⟨_, hallow, h⟩ := bind_eq_ok_iff.mp h
      obtain rfl := Except.ok.inj h
      exact ⟨hfollow, fun _ _ => allow_eq_ok_iff.mp hallow⟩
    case isFalse hlonger =>
      obtain rfl := Except.ok.inj h
      refine ⟨hfollow, fun entry heq => absurd ?_ hlonger⟩
      exact (length_lt_iff_of_follow hfollow).mpr ⟨entry, heq⟩
  · rintro ⟨hfollow, hnear⟩
    refine ⟨trail', hfollow, ?_⟩
    split
    case isTrue hlonger =>
      obtain ⟨entry, heq⟩ := (length_lt_iff_of_follow hfollow).mp hlonger
      exact bind_eq_ok_iff.mpr ⟨_, allow_eq_ok_iff.mpr (hnear entry heq), rfl⟩
    case isFalse => rfl

theorem foldlM_resolve_eq_ok_iff : pieces.foldlM disk.resolve trail = .ok trail' ↔
    pieces.foldlM disk.follow trail = .ok trail'
      ∧ ∀ before piece after next entry, pieces = before ++ piece :: after →
          before.foldlM disk.follow trail = .ok next →
          disk.follow next piece = .ok (entry :: next) → HasShortPath (entry :: next) := by
  induction pieces generalizing trail with
  | nil => simp
  | cons first pieces ih =>
      rw [List.foldlM_cons, List.foldlM_cons, bind_eq_ok_iff, bind_eq_ok_iff]
      constructor
      · rintro ⟨second, hresolve, hrest⟩
        obtain ⟨hfirst, hnear⟩ := resolve_eq_ok_iff.mp hresolve
        obtain ⟨hrest, hnears⟩ := ih.mp hrest
        refine ⟨⟨second, hfirst, hrest⟩, ?_⟩
        intro before piece after next entry hsplit hbefore hpiece
        cases before with
        | nil =>
            obtain ⟨rfl, rfl⟩ := List.cons.inj hsplit
            obtain rfl := Except.ok.inj hbefore
            obtain rfl := Except.ok.inj (hfirst.symm.trans hpiece)
            exact hnear entry rfl
        | cons first' before =>
            obtain ⟨rfl, htail⟩ := List.cons.inj hsplit
            rw [List.foldlM_cons, hfirst] at hbefore
            exact hnears before piece after next entry htail hbefore hpiece
      · rintro ⟨⟨second, hfirst, hrest⟩, hnears⟩
        refine ⟨second, resolve_eq_ok_iff.mpr ⟨hfirst, ?_⟩, ih.mpr ⟨hrest, ?_⟩⟩
        · rintro entry rfl
          exact hnears [] first pieces trail entry rfl rfl hfirst
        · intro before piece after next entry hsplit hbefore hpiece
          refine hnears (first :: before) piece after next entry ?_ ?_ hpiece
          · rw [hsplit]
            rfl
          · rw [List.foldlM_cons, hfirst]
            exact hbefore

/-- A path is resolved unless it passes a place whose absolute path cannot be opened. -/
theorem canonical_eq_ok_iff : disk.canonical path = .ok trail ↔
    IsPath path ∧ disk.reach path = .ok trail ∧ ∀ place, disk.Passes path place → HasShortPath place := by
  rw [canonical, bind_eq_ok_iff, ← check_eq_ok_iff, reach, List.foldlM_append]
  constructor
  · rintro ⟨_, hcheck, h⟩
    obtain ⟨home, hhome, hpieces⟩ := bind_eq_ok_iff.mp h
    obtain ⟨hpieces, hnear⟩ := foldlM_resolve_eq_ok_iff.mp hpieces
    refine ⟨hcheck, bind_eq_ok_iff.mpr ⟨home, hhome, hpieces⟩, ?_⟩
    rintro _ ⟨before, piece, after, next, entry, hsplit, hbefore, hpiece, rfl⟩
    rw [List.foldlM_append, hhome] at hbefore
    exact hnear before piece after next entry hsplit hbefore hpiece
  · rintro ⟨hcheck, h, hnear⟩
    obtain ⟨home, hhome, hpieces⟩ := bind_eq_ok_iff.mp h
    refine ⟨_, hcheck, bind_eq_ok_iff.mpr ⟨home, hhome, foldlM_resolve_eq_ok_iff.mpr ⟨hpieces, ?_⟩⟩⟩
    intro before piece after next entry hsplit hbefore hpiece
    refine hnear _ ⟨before, piece, after, next, entry, hsplit, ?_, hpiece, rfl⟩
    rw [List.foldlM_append, hhome]
    exact hbefore

theorem names?_eq_some_iff : (disk.system.names? path).run = some names ↔
    ∃ trail, disk.canonical path = .ok trail ∧ Trail.names trail = names := by
  change (disk.canonical path).toOption.map Trail.names = some names ↔ _
  simp only [Option.map_eq_some_iff, toOption_eq_some_iff]

/-- A path that leads somewhere has a canonical path, whose names lead there from the root. -/
theorem exists_names_of_leadsTo (h : disk.LeadsTo path tree)
    (hnear : ∀ place, disk.Passes path place → HasShortPath place) :
    ∃ names, (disk.system.names? path).run = some names ∧ disk.root.at? names = some tree := by
  obtain ⟨hpath, htarget⟩ := h
  obtain ⟨trail, hreach, rfl⟩ := map_eq_ok_iff.mp htarget
  refine ⟨Trail.names trail, ?_, (Descends.nil.foldlM_follow hreach).at?⟩
  exact names?_eq_some_iff.mpr ⟨trail, canonical_eq_ok_iff.mpr ⟨hpath, hreach, hnear⟩, rfl⟩

theorem names?_eq_none (h : (∀ tree, ¬ disk.LeadsTo path tree) ∨
    ∃ place, disk.Passes path place ∧ ¬ HasShortPath place) : (disk.system.names? path).run = none := by
  rw [Option.eq_none_iff_forall_ne_some]
  intro names hnames
  obtain ⟨trail, hcanonical, -⟩ := names?_eq_some_iff.mp hnames
  obtain ⟨hpath, hreach, hnear⟩ := canonical_eq_ok_iff.mp hcanonical
  obtain hnowhere | ⟨place, hpasses, hfar⟩ := h
  · exact hnowhere _ ⟨hpath, map_eq_ok_iff.mpr ⟨trail, hreach, rfl⟩⟩
  · exact hfar (hnear place hpasses)

theorem not_passes_of_silent (h : ∀ piece ∈ Files.pieces path, component? false piece = none)
    (place : Trail) : ¬ disk.Passes path place := by
  rintro ⟨before, piece, after, trail, entry, hsplit, -, hpiece, rfl⟩
  have hmem : piece ∈ Files.pieces path := by
    rw [hsplit]
    exact List.mem_append_right before List.mem_cons_self
  cases eq_of_follow_silent (h piece hmem) hpiece

theorem canonical_dots {entries : List (String × Tree)} (hroot : disk.root = .dir entries)
    (hhome : disk.home = []) {n : Nat} (hn : 0 < n) : disk.canonical (dots n) = .ok [] := by
  have hsilent : ∀ piece ∈ Files.pieces (dots n), component? false piece = none := by
    rw [pieces_dots, List.forall_mem_append, List.forall_mem_singleton]
    refine ⟨fun piece hdot => ?_, rfl⟩
    rw [List.eq_of_mem_replicate hdot]
    rfl
  exact canonical_eq_ok_iff.mpr ⟨isPath_dots hn, reach_dots hroot hhome n, fun place hpasses =>
    absurd hpasses (not_passes_of_silent hsilent place)⟩

/-! ### Absolute paths lead along their names -/

theorem exists_of_follow_name (hname : IsName name)
    (h : disk.follow trail name.toList = .ok trail') :
    ∃ entries tree, disk.endOf trail = .dir entries ∧ entries.lookup name = some tree
      ∧ trail' = (name, tree) :: trail := by
  have hpiece := hname.component?_eq false
  obtain ⟨entries, hdir, ⟨hnone, -⟩ | ⟨hup, -⟩ | ⟨name', tree, hsame, hlookup, rfl⟩⟩ := follow_cases h
  · cases hpiece.symm.trans hnone
  · cases hpiece.symm.trans hup
  · obtain rfl := Component.name.inj (Option.some.inj (hpiece.symm.trans hsame))
    exact ⟨entries, tree, hdir, hlookup, rfl⟩

theorem at?_of_foldlM_follow (hnames : ∀ name ∈ names, IsName name)
    (h : (names.map (·.toList)).foldlM disk.follow trail = .ok trail') :
    (disk.endOf trail).at? names = some (disk.endOf trail') := by
  induction names generalizing trail with
  | nil =>
      obtain rfl := Except.ok.inj h
      rfl
  | cons name names ih =>
      obtain ⟨hname, hnames⟩ := List.forall_mem_cons.mp hnames
      rw [List.map_cons, List.foldlM_cons] at h
      obtain ⟨next, hnext, hrest⟩ := bind_eq_ok_iff.mp h
      obtain ⟨entries, tree, hend, hlookup, rfl⟩ := exists_of_follow_name hname hnext
      rw [hend, Tree.at?, hlookup]
      exact ih hnames hrest

theorem isPath_absolute (hnames : ∀ name ∈ names, IsName name)
    (hstored : ∀ name ∈ names, IsStorable name) : IsPath (absolute names) := by
  have hroot : IsPath "/" := ⟨by decide, by decide⟩
  rw [absolute_eq_foldl_join hnames]
  exact hroot.foldl_join hnames hstored

theorem find_absolute_iff (hnames : ∀ name ∈ names, IsName name) (hname : IsName name)
    (hstored : ∀ other ∈ names ++ [name], IsStorable other) :
    disk.find (absolute (names ++ [name])) = .ok tree ↔
      disk.root.at? (names ++ [name]) = some tree
        ∧ (absolute (names ++ [name])).utf8ByteSize ≤ pathLimit := by
  have hall : ∀ other ∈ names ++ [name], IsName other :=
    List.forall_mem_append.mpr ⟨hnames, List.forall_mem_singleton.mpr hname⟩
  rw [find_eq (isPath_absolute hall hstored)]
  constructor
  · intro h
    split at h
    case isTrue => cases h
    case isFalse hshort =>
      obtain ⟨trail, hreach, rfl⟩ := map_eq_ok_iff.mp h
      refine ⟨?_, by omega⟩
      rw [reach, start, isAbsolute_absolute, if_pos rfl, pieces_absolute hnames hname, List.nil_append,
        List.foldlM_cons] at hreach
      obtain ⟨start, hstart, hreach⟩ := bind_eq_ok_iff.mp hreach
      -- The piece before the first slash is empty.
      obtain rfl := eq_of_follow_silent rfl hstart
      exact at?_of_foldlM_follow hall hreach
  · rintro ⟨hat, hshort⟩
    rw [if_neg (by omega), absolute_eq_foldl_join hall]
    have hdir : disk.reach "/" = .ok [] := by
      cases hend : disk.root with
      | file bytes =>
          rw [hend] at hat
          cases names <;> cases hat
      | dir entries =>
          have hstay : disk.follow [] [] = .ok [] := follow_silent rfl hend
          change disk.follow [] [] >>= (fun trail => disk.follow trail [] >>= pure) = _
          simp only [hstay, bind, Except.bind]
          rfl
    exact reach_foldl_join (by decide) hdir hat hall
      fun other hother => (hstored other hother).short

end Disk

end ApiSuite.Files
