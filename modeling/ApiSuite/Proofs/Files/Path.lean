import ApiSuite.Files.Path
import Mathlib.Data.List.Lex

/-!
# Paths of entries and their order

A path that goes one entry further has one component more, and its file name is the name of the
entry, however the path to the directory was spelled. Paths are in the lexicographic order of their
components, and to sort paths whose components differ is to put them in strictly increasing order.
-/

namespace ApiSuite

namespace Text

variable {mark : Char} {cs ds : List Char}

theorem pieces_eq_singleton (h : mark ∉ cs) : pieces mark cs = [cs] := by
  induction cs with
  | nil => rfl
  | cons c cs ih =>
      obtain ⟨hc, hcs⟩ := not_or.mp (mt List.mem_cons.mpr h)
      rw [pieces, if_neg (Ne.symm hc), ih hcs]
      rfl

theorem pieces_append_cons : pieces mark (cs ++ mark :: ds) = pieces mark cs ++ pieces mark ds := by
  induction cs with
  | nil => simp [pieces]
  | cons c cs ih =>
      by_cases hc : c = mark
      · simp [pieces, hc, ih]
      · obtain ⟨first, rest, hpieces⟩ := List.exists_cons_of_ne_nil (pieces_ne_nil mark cs)
        simp [pieces, hc, ih, hpieces]

end Text

namespace Files

/-! ### One entry further -/

/-- A name that an entry of a directory can have. -/
structure IsName (name : String) : Prop where
  ne_empty : name ≠ ""
  ne_here : name ≠ "."
  ne_up : name ≠ ".."
  noSlash : '/' ∉ name.toList

theorem isName_iff {name : String} :
    IsName name ↔ name ≠ "" ∧ name ≠ "." ∧ name ≠ ".." ∧ '/' ∉ name.toList :=
  ⟨fun h => ⟨h.ne_empty, h.ne_here, h.ne_up, h.noSlash⟩, fun h => ⟨h.1, h.2.1, h.2.2.1, h.2.2.2⟩⟩

instance (name : String) : Decidable (IsName name) :=
  decidable_of_iff _ isName_iff.symm

variable {base name path path' : String}

theorem IsName.component?_eq (h : IsName name) (first : Bool) :
    component? first name.toList = some (.name name) := by
  unfold component?
  split
  case h_1 hempty => exact absurd (String.toList_eq_nil_iff.mp hempty) h.ne_empty
  case h_2 hhere => exact absurd (String.toList_inj.mp hhere) h.ne_here
  case h_3 hup => exact absurd (String.toList_inj.mp hup) h.ne_up
  case h_4 => rw [String.ofList_toList]

theorem IsName.isAbsolute_eq (h : IsName name) : isAbsolute name = false := by
  rw [isAbsolute, beq_eq_false_iff_ne]
  intro hhead
  exact h.noSlash (List.mem_of_mem_head? hhead)

def leading (path : String) (first : List Char) : List Component :=
  if isAbsolute path then [.root] else (component? true first).toList

theorem components_eq {first : List Char} {rest : List (List Char)}
    (h : pieces path = first :: rest) :
    components path = leading path first ++ rest.filterMap (component? false) := by
  rw [components, body, h, leading]
  split
  · simp [List.filterMap_map]
  · cases hfirst : component? true first <;> simp [hfirst, List.filterMap_map]

theorem isAbsolute_append (hbase : base ≠ "") (rest : String) :
    isAbsolute (base ++ rest) = isAbsolute base := by
  obtain ⟨c, cs, hcs⟩ := List.exists_cons_of_ne_nil (mt String.toList_eq_nil_iff.mp hbase)
  simp [isAbsolute, hcs]

/-- The last piece of a path that ends in a slash is empty, and the name takes its place. -/
theorem pieces_join (hbase : base ≠ "") (hname : IsName name) :
    ∃ first rest ends, pieces base = first :: (rest ++ ends)
      ∧ pieces (join base name) = first :: (rest ++ [name.toList])
      ∧ ends.filterMap (component? false) = [] := by
  have hpiece : Text.pieces '/' name.toList = [name.toList] :=
    Text.pieces_eq_singleton hname.noSlash
  rw [join, hname.isAbsolute_eq, if_neg Bool.false_ne_true]
  split
  case isTrue hends =>
    have hslash : base.toList.getLast? = some '/' := by
      simpa [String.isEmpty_iff, hbase] using hends
    obtain ⟨cs, hcs⟩ := List.getLast?_eq_some_iff.mp hslash
    obtain ⟨first, rest, hpieces⟩ := List.exists_cons_of_ne_nil (Text.pieces_ne_nil '/' cs)
    refine ⟨first, rest, [[]], ?_, ?_, rfl⟩
    · rw [pieces, hcs, Text.pieces_append_cons, hpieces]
      rfl
    · rw [pieces, String.toList_append, hcs, List.append_assoc, List.singleton_append,
        Text.pieces_append_cons, hpieces, hpiece]
      rfl
  case isFalse =>
    obtain ⟨first, rest, hpieces⟩ := List.exists_cons_of_ne_nil (Text.pieces_ne_nil '/' base.toList)
    refine ⟨first, rest, [], by rw [pieces, hpieces, List.append_nil], ?_, rfl⟩
    have hlist : (base ++ "/" ++ name).toList = base.toList ++ '/' :: name.toList := by
      simp
    rw [pieces, hlist, Text.pieces_append_cons, hpieces, hpiece]
    rfl

theorem isAbsolute_join (hbase : base ≠ "") (hname : IsName name) :
    isAbsolute (join base name) = isAbsolute base := by
  rw [join, hname.isAbsolute_eq, if_neg Bool.false_ne_true]
  split
  · exact isAbsolute_append hbase name
  · rw [String.append_assoc]
    exact isAbsolute_append hbase ("/" ++ name)

theorem components_join (hbase : base ≠ "") (hname : IsName name) :
    components (join base name) = components base ++ [.name name] := by
  obtain ⟨first, rest, ends, hpieces, hjoined, hends⟩ := pieces_join hbase hname
  rw [components_eq hpieces, components_eq hjoined, leading, isAbsolute_join hbase hname]
  simp [leading, hends, hname.component?_eq false]

theorem join_ne_empty (hbase : base ≠ "") (hname : IsName name) : join base name ≠ "" := by
  rw [join, hname.isAbsolute_eq, if_neg Bool.false_ne_true]
  split <;> simp [hbase]

theorem le_utf8ByteSize_join (base : String) (hname : IsName name) :
    base.utf8ByteSize + name.utf8ByteSize ≤ (join base name).utf8ByteSize := by
  rw [join, hname.isAbsolute_eq, if_neg Bool.false_ne_true]
  split <;> simp only [String.utf8ByteSize_append] <;> omega

theorem components_foldl_join {names : List String} (hbase : base ≠ "")
    (hnames : ∀ name ∈ names, IsName name) :
    components (names.foldl join base) = components base ++ names.map .name := by
  induction names generalizing base with
  | nil => simp
  | cons name names ih =>
      obtain ⟨hname, hrest⟩ := List.forall_mem_cons.mp hnames
      rw [List.foldl_cons, ih (join_ne_empty hbase hname) hrest, components_join hbase hname]
      simp

theorem fileName?_foldl_join {names : List String} (hbase : base ≠ "")
    (hnames : ∀ name ∈ names, IsName name) :
    fileName? (names.foldl join base) = names.getLast?.or (fileName? base) := by
  rw [fileName?, components_foldl_join hbase hnames, List.getLast?_append, List.getLast?_map]
  cases names.getLast? with
  | none => rfl
  | some name => rfl

theorem components_of_isName (hname : IsName name) : components name = [.name name] := by
  rw [components_eq (Text.pieces_eq_singleton hname.noSlash), leading, hname.isAbsolute_eq,
    hname.component?_eq true]
  rfl

theorem fileName?_join (base : String) (hname : IsName name) :
    fileName? (join base name) = some name := by
  by_cases hbase : base = ""
  · have hjoin : join "" name = name := by
      rw [join, hname.isAbsolute_eq]
      simp
    rw [hbase, hjoin, fileName?, components_of_isName hname]
    rfl
  · rw [fileName?, components_join hbase hname]
    simp

/-! ### The order of paths -/

/-- The order of components: names among themselves, after all else. -/
def Component.Before (first second : Component) : Prop :=
  first.isBefore second = true

/-- The order of paths, component by component. -/
def Precedes (path path' : String) : Prop :=
  List.Lex Component.Before (components path) (components path')

theorem Component.before_iff {first second : Component} :
    first.Before second ↔ first.rank < second.rank
      ∨ ∃ name name', first = .name name ∧ second = .name name' ∧ name < name' := by
  cases first with
  | name first =>
      cases second with
      | name second =>
          rw [Before, isBefore, decide_eq_true_iff]
          constructor
          · exact fun h => .inr ⟨first, second, rfl, rfl, h⟩
          · rintro (h | ⟨_, _, ⟨⟩, ⟨⟩, h⟩)
            · exact absurd h (Nat.lt_irrefl _)
            · exact h
      | _ => simp [Before, isBefore, rank]
  | _ => cases second <;> simp [Before, isBefore, rank]

theorem Component.eq_of_rank_eq {first second : Component} (h : first.rank = second.rank) :
    first = second ∨ ∃ name name', first = .name name ∧ second = .name name' := by
  cases first <;> cases second <;> simp_all [rank]

instance : IsStrictTotalOrder Component Component.Before where
  irrefl first := by
    rw [Component.before_iff]
    rintro (h | ⟨name, name', rfl, hsame, h⟩)
    · exact Nat.lt_irrefl _ h
    · obtain rfl := Component.name.inj hsame
      exact String.lt_irrefl _ h
  trans first second third h h' := by
    rw [Component.before_iff] at *
    obtain h | ⟨name, name', rfl, rfl, h⟩ := h
    · obtain h' | ⟨name, name', rfl, rfl, -⟩ := h'
      · exact .inl (h.trans h')
      · exact .inl h
    · obtain h' | ⟨_, name'', ⟨⟩, rfl, h'⟩ := h'
      · exact .inl h'
      · exact .inr ⟨name, name'', rfl, rfl, String.lt_trans h h'⟩
  trichotomous first second h h' := by
    rw [Component.before_iff, not_or] at *
    obtain heq | ⟨name, name', rfl, rfl⟩ :=
      Component.eq_of_rank_eq (Nat.le_antisymm (Nat.not_lt.mp h'.1) (Nat.not_lt.mp h.1))
    · exact heq
    · have hname : ¬ name < name' := fun hlt => h.2 ⟨_, _, rfl, rfl, hlt⟩
      have hname' : ¬ name' < name := fun hlt => h'.2 ⟨_, _, rfl, rfl, hlt⟩
      rw [String.le_antisymm (String.not_lt.mp hname') (String.not_lt.mp hname)]

instance : IsStrictTotalOrder (List Component) (List.Lex Component.Before) :=
  { isStrictWeakOrder_of_isOrderConnected with }

theorem isUpTo_iff {first second : List Component} :
    isUpTo first second = true ↔ first = second ∨ List.Lex Component.Before first second := by
  induction first generalizing second with
  | nil =>
      cases second with
      | nil => simp [isUpTo]
      | cons head rest => simp [isUpTo]
  | cons head rest ih =>
      cases second with
      | nil => simp [isUpTo]
      | cons head' rest' =>
          rw [isUpTo, Bool.or_eq_true, Bool.and_eq_true, beq_iff_eq, ih]
          constructor
          · rintro (hbefore | ⟨rfl, rfl | hrest⟩)
            · exact .inr (.rel hbefore)
            · exact .inl rfl
            · exact .inr (.cons hrest)
          · rintro (hsame | hlex)
            · obtain ⟨rfl, rfl⟩ := List.cons.inj hsame
              exact .inr ⟨rfl, .inl rfl⟩
            · cases hlex with
              | rel hbefore => exact .inl hbefore
              | cons hrest => exact .inr ⟨rfl, .inr hrest⟩

theorem isUpTo_trans {first second third : List Component} (h : isUpTo first second = true)
    (h' : isUpTo second third = true) : isUpTo first third = true := by
  rw [isUpTo_iff] at *
  obtain rfl | h := h
  · exact h'
  · obtain rfl | h' := h'
    · exact .inr h
    · exact .inr (trans_of (List.Lex Component.Before) h h')

theorem isUpTo_total (first second : List Component) :
    (isUpTo first second || isUpTo second first) = true := by
  rw [Bool.or_eq_true, isUpTo_iff, isUpTo_iff]
  obtain h | h | h := trichotomous_of (List.Lex Component.Before) first second
  · exact .inl (.inr h)
  · exact .inl (.inl h)
  · exact .inr (.inr h)

theorem sortPaths_perm (paths : List String) : (sortPaths paths).Perm paths :=
  List.mergeSort_perm _ _

/-- Paths whose components differ are sorted in strictly increasing order. -/
theorem pairwise_precedes_sortPaths {paths : List String} (h : (paths.map components).Nodup) :
    (sortPaths paths).Pairwise Precedes := by
  have hsorted : (sortPaths paths).Pairwise
      fun path path' => isUpTo (components path) (components path') = true := by
    rw [sortPaths]
    apply List.pairwise_mergeSort
    · intro path path' path'' h h'
      exact isUpTo_trans h h'
    · intro path path'
      exact isUpTo_total (components path) (components path')
  have hdistinct : (sortPaths paths).Pairwise
      fun path path' => components path ≠ components path' := by
    rw [← List.pairwise_map]
    exact (((sortPaths_perm paths).map components).nodup_iff).mpr h
  refine (hsorted.and hdistinct).imp ?_
  rintro path path' ⟨hupTo, hne⟩
  exact (isUpTo_iff.mp hupTo).resolve_left hne

theorem not_precedes_self (path : String) : ¬ Precedes path path :=
  irrefl_of (List.Lex Component.Before) (components path)

theorem nodup_of_pairwise_precedes {paths : List String} (h : paths.Pairwise Precedes) :
    paths.Nodup := by
  apply h.imp
  rintro path path' hprecedes rfl
  exact not_precedes_self path hprecedes

theorem eq_of_pairwise_precedes {paths paths' : List String} (h : paths.Pairwise Precedes)
    (h' : paths'.Pairwise Precedes) (hmem : ∀ path, path ∈ paths ↔ path ∈ paths') :
    paths = paths' := by
  have hperm := (List.perm_ext_iff_of_nodup (nodup_of_pairwise_precedes h)
    (nodup_of_pairwise_precedes h')).mpr hmem
  refine hperm.eq_of_pairwise (fun path path' _ _ hprecedes hprecedes' => ?_) h h'
  exact absurd (trans_of (List.Lex Component.Before) hprecedes hprecedes') (not_precedes_self path)

end Files

end ApiSuite
