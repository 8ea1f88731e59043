import ApiSuite.Glob.Matcher
import ApiSuite.Proofs.Except
import ApiSuite.Proofs.Files.Path
import Mathlib.Logic.Relation

/-!
# What groups in braces stand for

One expansion step puts an alternative in the place of the first group. Every step shortens the text,
so steps come to an end whatever braces the text has, and the texts where they end have no group left.
Where the groups are written one after another, a choice is made in each of them on its own.
-/

namespace ApiSuite

namespace Text

variable {mark c : Char} {cs piece : List Char}

theorem mem_of_mem_pieces (hpiece : piece ∈ pieces mark cs) (hc : c ∈ piece) : c ∈ cs := by
  induction cs generalizing piece with
  | nil =>
      obtain rfl := List.mem_singleton.mp hpiece
      exact hc
  | cons d cs ih =>
      rw [pieces] at hpiece
      by_cases hd : d = mark
      · rw [if_pos hd] at hpiece
        rcases List.mem_cons.mp hpiece with rfl | hpiece
        · cases hc
        · exact List.mem_cons_of_mem d (ih hpiece hc)
      · rw [if_neg hd] at hpiece
        obtain ⟨first, rest, hpieces⟩ := List.exists_cons_of_ne_nil (pieces_ne_nil mark cs)
        rw [hpieces] at hpiece ih
        rcases List.mem_cons.mp hpiece with rfl | hpiece
        · rcases List.mem_cons.mp hc with rfl | hc
          · exact List.mem_cons_self
          · exact List.mem_cons_of_mem d (ih List.mem_cons_self hc)
        · exact List.mem_cons_of_mem d (ih (List.mem_cons_of_mem first hpiece) hc)

end Text

namespace Glob

variable {cs next result before group after : List Char}

/-! ### Steps -/

def HasGroup (cs : List Char) : Prop :=
  ∃ before group after, cs = before ++ '\x7b' :: group ++ '\x7d' :: after

/-- The first group of a text gives way to one of its alternatives. -/
def Chooses (cs next : List Char) : Prop :=
  ∃ before group after, firstGroup? cs = some (before, group, after)
    ∧ ∃ piece ∈ Text.pieces ',' group, next = before ++ piece ++ after

theorem dropWhile_ne_append_cons {mark : Char} (h : mark ∉ before) :
    (before ++ mark :: after).dropWhile (· != mark) = mark :: after := by
  rw [List.dropWhile_append_of_pos]
  · simp
  · intro c hc
    simpa using ne_of_mem_of_not_mem hc h

theorem takeWhile_ne_append_cons {mark : Char} (h : mark ∉ before) :
    (before ++ mark :: after).takeWhile (· != mark) = before := by
  rw [List.takeWhile_append_of_pos]
  · simp
  · intro c hc
    simpa using ne_of_mem_of_not_mem hc h

theorem firstGroup?_append (hbefore : '\x7b' ∉ before) (hgroup : '\x7d' ∉ group) :
    firstGroup? (before ++ '\x7b' :: group ++ '\x7d' :: after) = some (before, group, after) := by
  have hcs : before ++ '\x7b' :: group ++ '\x7d' :: after =
      before ++ '\x7b' :: (group ++ '\x7d' :: after) := by
    simp
  simp only [firstGroup?, hcs, dropWhile_ne_append_cons hbefore, dropWhile_ne_append_cons hgroup,
    takeWhile_ne_append_cons hbefore, takeWhile_ne_append_cons hgroup]

theorem eq_append_of_dropWhile_ne {mark c : Char} (h : cs.dropWhile (· != mark) = c :: after) :
    cs = cs.takeWhile (· != mark) ++ mark :: after := by
  have hc : c = mark := by
    have hhead := List.head?_dropWhile_not (· != mark) cs
    simpa [h] using hhead
  calc cs = cs.takeWhile (· != mark) ++ cs.dropWhile (· != mark) :=
        List.takeWhile_append_dropWhile.symm
    _ = cs.takeWhile (· != mark) ++ mark :: after := by rw [h, hc]

theorem eq_append_of_firstGroup? (h : firstGroup? cs = some (before, group, after)) :
    cs = before ++ '\x7b' :: group ++ '\x7d' :: after := by
  unfold firstGroup? at h
  split at h
  case h_1 => cases h
  case h_2 rest hrest =>
    split at h
    case h_1 => cases h
    case h_2 hafter =>
      cases h
      rw [List.append_assoc, List.cons_append, ← eq_append_of_dropWhile_ne hafter]
      exact eq_append_of_dropWhile_ne hrest

theorem exists_firstGroup?_of_hasGroup (h : HasGroup cs) : ∃ parts, firstGroup? cs = some parts := by
  obtain ⟨before, group, after, rfl⟩ := h
  have hopening : '\x7b' ∈ before ++ '\x7b' :: group ++ '\x7d' :: after := by simp
  obtain ⟨first, rest, hcs, hfirst⟩ := List.eq_append_cons_of_mem hopening
  have hclosing : '\x7d' ∈ rest := by
    rw [List.append_assoc] at hcs
    obtain ⟨middle, rfl, hrest⟩ | ⟨middle, rfl, hrest⟩ := List.append_eq_append_iff.mp hcs
    · cases middle with
      | nil =>
          obtain rfl : group ++ '\x7d' :: after = rest := by simpa using hrest
          simp
      | cons c middle =>
          obtain ⟨rfl, -⟩ := List.cons.inj hrest
          simp at hfirst
    · cases middle with
      | nil =>
          obtain rfl : rest = group ++ '\x7d' :: after := by simpa using hrest
          simp
      | cons c middle =>
          obtain ⟨-, rfl⟩ := List.cons.inj hrest
          simp
  obtain ⟨inner, further, rfl, hinner⟩ := List.eq_append_cons_of_mem hclosing
  rw [hcs, ← List.cons_append, ← List.append_assoc]
  exact ⟨_, firstGroup?_append hfirst hinner⟩

theorem firstGroup?_eq_none_iff : firstGroup? cs = none ↔ ¬ HasGroup cs := by
  constructor
  · intro hnone hgroup
    obtain ⟨parts, hparts⟩ := exists_firstGroup?_of_hasGroup hgroup
    rw [hnone] at hparts
    cases hparts
  · intro hgroup
    apply Option.eq_none_iff_forall_ne_some.mpr
    rintro ⟨before, group, after⟩ hparts
    exact hgroup ⟨before, group, after, eq_append_of_firstGroup? hparts⟩

theorem wellFounded_chooses : WellFounded fun next cs => Chooses cs next := by
  apply Subrelation.wf (r := InvImage (· < ·) List.length) ?_ (InvImage.wf _ Nat.lt_wfRel.wf)
  rintro next cs ⟨before, group, after, hparts, piece, hpiece, rfl⟩
  have hlength := length_eq_of_firstGroup? hparts
  have hshort := Text.length_le_of_mem_pieces hpiece
  simp only [InvImage, List.length_append]
  omega

theorem expand_of_firstGroup? (h : firstGroup? cs = some (before, group, after)) :
    expand cs = (Text.pieces ',' group).flatMap fun piece => expand (before ++ piece ++ after) := by
  rw [expand]
  split
  case h_1 hnone => simp [hnone] at h
  case h_2 hsome =>
    rw [h] at hsome
    cases hsome
    simp [List.flatMap_def]

theorem expand_of_not_hasGroup (h : ¬ HasGroup cs) : expand cs = [cs] := by
  rw [expand]
  split
  case h_1 => rfl
  case h_2 hsome => simp [firstGroup?_eq_none_iff.mpr h] at hsome

theorem mem_expand_of_chooses (h : Chooses cs next) (hresult : result ∈ expand next) :
    result ∈ expand cs := by
  obtain ⟨before, group, after, hparts, piece, hpiece, rfl⟩ := h
  rw [expand_of_firstGroup? hparts]
  exact List.mem_flatMap.mpr ⟨piece, hpiece, hresult⟩

/-- A text stands for the texts without groups at which its expansion can end. -/
theorem mem_expand_iff :
    result ∈ expand cs ↔ Relation.ReflTransGen Chooses cs result ∧ ¬ HasGroup result := by
  constructor
  · intro hresult
    induction cs using wellFounded_chooses.induction with
    | _ cs ih =>
      by_cases hgroup : HasGroup cs
      · obtain ⟨⟨before, group, after⟩, hparts⟩ := exists_firstGroup?_of_hasGroup hgroup
        rw [expand_of_firstGroup? hparts] at hresult
        obtain ⟨piece, hpiece, hresult⟩ := List.mem_flatMap.mp hresult
        have hstep : Chooses cs (before ++ piece ++ after) :=
          ⟨before, group, after, hparts, piece, hpiece, rfl⟩
        obtain ⟨hsteps, hends⟩ := ih _ hstep hresult
        exact ⟨.head hstep hsteps, hends⟩
      · rw [expand_of_not_hasGroup hgroup] at hresult
        obtain rfl := List.mem_singleton.mp hresult
        exact ⟨.refl, hgroup⟩
  · rintro ⟨hsteps, hends⟩
    induction hsteps using Relation.ReflTransGen.head_induction_on with
    | refl => simp [expand_of_not_hasGroup hends]
    | head hstep _ ih => exact mem_expand_of_chooses hstep ih

/-! ### One group after another -/

/-- What stands in braces, and the text up to the next opening brace. -/
structure Group where
  inside : List Char
  after : List Char

def Group.alternatives (group : Group) : List (List Char) :=
  Text.pieces ',' group.inside

def withGroups (first : List Char) (groups : List Group) : List Char :=
  first ++ groups.flatMap fun group => '\x7b' :: group.inside ++ '\x7d' :: group.after

def withPieces (first : List Char) (groups : List Group) (pieces : List (List Char)) : List Char :=
  first ++ (List.zipWith (fun group piece => piece ++ group.after) groups pieces).flatten

/-- All ways to take one item of each list, the first one varying slowest. -/
def choices {α : Type} : List (List α) → List (List α)
  | [] => [[]]
  | items :: rest => items.flatMap fun item => (choices rest).map (item :: ·)

def selections (first : List Char) (groups : List Group) : List (List Char) :=
  (choices (groups.map (·.alternatives))).map (withPieces first groups)

def Braceless (cs : List Char) : Prop :=
  '\x7b' ∉ cs ∧ '\x7d' ∉ cs

instance (cs : List Char) : Decidable (Braceless cs) :=
  inferInstanceAs (Decidable (_ ∧ _))

variable {first : List Char} {groups : List Group}

theorem Braceless.append (h : Braceless before) (h' : Braceless after) :
    Braceless (before ++ after) := by
  simp_all [Braceless]

theorem Braceless.of_mem_pieces (h : Braceless group) (hnext : next ∈ Text.pieces ',' group) :
    Braceless next :=
  ⟨fun hc => h.1 (Text.mem_of_mem_pieces hnext hc), fun hc => h.2 (Text.mem_of_mem_pieces hnext hc)⟩

theorem Braceless.not_hasGroup (h : Braceless cs) : ¬ HasGroup cs := by
  rintro ⟨before, group, after, rfl⟩
  exact h.1 (by simp)

theorem withGroups_cons (first : List Char) (group : Group) (groups : List Group) :
    withGroups first (group :: groups) =
      first ++ '\x7b' :: group.inside ++ '\x7d' :: withGroups group.after groups := by
  simp [withGroups]

theorem append_withGroups (before first : List Char) (groups : List Group) :
    before ++ withGroups first groups = withGroups (before ++ first) groups := by
  simp [withGroups]

theorem withPieces_cons (first piece : List Char) (group : Group) (groups : List Group)
    (pieces : List (List Char)) :
    withPieces first (group :: groups) (piece :: pieces) =
      withPieces (first ++ piece ++ group.after) groups pieces := by
  simp [withPieces]

theorem expand_withGroups (hfirst : Braceless first)
    (hgroups : ∀ group ∈ groups, Braceless group.inside ∧ Braceless group.after) :
    expand (withGroups first groups) = selections first groups := by
  -- A choice in the first group lengthens the text in front of the others.
  induction groups generalizing first with
  | nil =>
      have hplain : withGroups first [] = first := by simp [withGroups]
      rw [hplain, expand_of_not_hasGroup hfirst.not_hasGroup]
      simp [selections, choices, withPieces]
  | cons group groups ih =>
      obtain ⟨⟨hinside, hafter⟩, hrest⟩ := List.forall_mem_cons.mp hgroups
      rw [withGroups_cons, expand_of_firstGroup? (firstGroup?_append hfirst.1 hinside.2),
        selections, List.map_cons, choices, List.map_flatMap]
      apply List.flatMap_congr
      intro piece hpiece
      have hnext : Braceless (first ++ piece ++ group.after) :=
        (hfirst.append (hinside.of_mem_pieces hpiece)).append hafter
      rw [append_withGroups, ih hnext hrest, selections, List.map_map]
      apply List.map_congr_left
      intro pieces _
      exact (withPieces_cons first piece group groups pieces).symm

/-! ### Matchers -/

def IsGlob (cs : List Char) : Prop :=
  ∃ pattern, Pattern.ofText? (String.ofList cs) = .ok pattern

/-- The text is a glob that fits the name. -/
def Covers (cs : List Char) (name : String) : Prop :=
  ∃ pattern, Pattern.ofText? (String.ofList cs) = .ok pattern ∧ pattern.fits name.toList = true

variable {text : String} {matcher : Matcher}

theorem ofText?_ofList (cs : List Char) :
    Pattern.ofText? (String.ofList cs) = Pattern.read none 0 cs := by
  rw [Pattern.ofText?, String.toList_ofList]

theorem Matcher.exists_ofText?_eq_ok_iff :
    (∃ matcher, Matcher.ofText? text = .ok matcher) ↔ ∀ cs ∈ expand text.toList, IsGlob cs := by
  simp only [IsGlob, ofText?_ofList]
  exact exists_mapM_eq_ok_iff

theorem Matcher.fits_iff (h : Matcher.ofText? text = .ok matcher) (path : String) :
    matcher.fits path = true ↔
      ∃ name, Files.fileName? path = some name ∧ ∃ cs ∈ expand text.toList, Covers cs name := by
  have hmem (pattern : Pattern) : pattern ∈ matcher ↔
      ∃ cs ∈ expand text.toList, Pattern.ofText? (String.ofList cs) = .ok pattern := by
    simp only [ofText?_ofList]
    exact mem_iff_of_mapM_eq_ok h
  rw [Matcher.fits, Option.any_eq_true]
  refine exists_congr fun name => and_congr_right fun _ => ?_
  simp only [List.any_eq_true, hmem, Covers]
  constructor
  · rintro ⟨pattern, ⟨cs, hcs, hpattern⟩, hfits⟩
    exact ⟨cs, hcs, pattern, hpattern, hfits⟩
  · rintro ⟨cs, hcs, pattern, hpattern, hfits⟩
    exact ⟨pattern, ⟨cs, hcs, hpattern⟩, hfits⟩

/-- Expansion comes to an end where no group is left, and groups that follow one another are chosen
from independently. A matcher needs every text that its pattern stands for to be a glob, and fits the
paths whose last name one of these globs fits, whatever directories they pass. -/
theorem expand_exact :
    (WellFounded fun next cs => Chooses cs next)
    ∧ (∀ cs result, result ∈ expand cs ↔
        Relation.ReflTransGen Chooses cs result ∧ ¬ HasGroup result)
    ∧ ∀ first groups, Braceless first →
        (∀ group ∈ groups, Braceless group.inside ∧ Braceless group.after) →
        expand (withGroups first groups) = selections first groups
        ∧ ((∃ matcher, Matcher.ofText? (String.ofList (withGroups first groups)) = .ok matcher) ↔
            ∀ cs ∈ selections first groups, IsGlob cs)
        ∧ ∀ matcher, Matcher.ofText? (String.ofList (withGroups first groups)) = .ok matcher →
            (∀ path, matcher.fits path = true ↔
              ∃ name, Files.fileName? path = some name
                ∧ ∃ cs ∈ selections first groups, Covers cs name)
            ∧ ∀ dir name, Files.IsName name →
              (matcher.fits (Files.join dir name) = true ↔
                ∃ cs ∈ selections first groups, Covers cs name) := by
  refine ⟨wellFounded_chooses, fun cs result => mem_expand_iff, ?_⟩
  intro first groups hfirst hgroups
  have hexpand := expand_withGroups hfirst hgroups
  have htexts : expand (String.ofList (withGroups first groups)).toList = selections first groups := by
    rw [String.toList_ofList, hexpand]
  refine ⟨hexpand, ?_, ?_⟩
  · rw [Matcher.exists_ofText?_eq_ok_iff, htexts]
  · intro matcher hmatcher
    have hfits := Matcher.fits_iff hmatcher
    rw [htexts] at hfits
    refine ⟨hfits, fun dir name hname => ?_⟩
    rw [hfits, Files.fileName?_join dir hname]
    simp

def twoGroups : List Group :=
  [⟨"api,".toList, ".".toList⟩, ⟨"yaml,yml".toList, []⟩]

theorem expand_exact_twoGroups :
    expand "\x7bapi,\x7d.\x7byaml,yml\x7d".toList =
        ["api.yaml".toList, "api.yml".toList, ".yaml".toList, ".yml".toList]
      ∧ ∃ matcher, Matcher.ofText? "\x7bapi,\x7d.\x7byaml,yml\x7d" = .ok matcher
        ∧ ∀ dir, matcher.fits (Files.join dir "api.yml") = true := by
  obtain ⟨hexpand, hglobs, hfits⟩ := expand_exact.2.2 [] twoGroups (by decide) (by decide)
  have hmatcher : Matcher.ofText? "\x7bapi,\x7d.\x7byaml,yml\x7d" =
      .ok (["api.yaml", "api.yml", ".yaml", ".yml"].map fun text => text.toList.map .char) := by
    decide +kernel
  refine ⟨hexpand, _, hmatcher, fun dir => ?_⟩
  refine ((hfits _ hmatcher).2 dir "api.yml" ⟨by decide, by decide, by decide, by decide⟩).mpr ?_
  exact ⟨"api.yml".toList, by decide, "api.yml".toList.map .char, by decide +kernel, by decide +kernel⟩

end Glob

end ApiSuite
