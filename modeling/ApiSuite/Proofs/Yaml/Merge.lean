import ApiSuite.Proofs.Except
import ApiSuite.Proofs.Places
import ApiSuite.Proofs.Yaml.Keys
import ApiSuite.Yaml.Merge

/-!
# How far merge keys are resolved

The entries of a mapping after its merge key is resolved are its own and those that are lent to it.
What is lent is taken as it stands, a merge key among it included, so merge keys are gone if none of
the mappings that lend entries has one, and only then.
-/

namespace ApiSuite

open Yaml

variable {entries own lent : Entries} {entry : Value × Value} {key value : Value}
  {items : List Value}

namespace Entries

/-- Whether an entry stands under the merge key. -/
def HasMergeKey (entries : Entries) : Prop :=
  ∃ entry ∈ entries, entry.1 = .str mergeKey

/-- The mappings that a value stands for under a merge key. -/
def lendersIn : Value → List Entries
  | .map entries => [entries]
  | .seq items => items.filterMap fun
    | .map entries => some entries
    | _ => none
  | _ => []

/-- The mappings that lend entries to a mapping. -/
def lenders (entries : Entries) : List Entries :=
  ((entries.get? mergeKey).map lendersIn).getD []

/-- Adds the entries whose keys are not there yet. -/
def lend (entries lent : Entries) : Entries :=
  lent.foldl (fun entries entry =>
    if entries.any (·.1.same entry.1) then entries else entries ++ [entry]) entries

/-- The entries with those that are lent in place of the merge key. -/
def merged (entries : Entries) : Entries :=
  entries.lenders.foldl lend (entries.filter fun entry => !entry.1.isKey mergeKey)

theorem not_hasMergeKey_iff :
    ¬ entries.HasMergeKey ↔ ∀ entry ∈ entries, entry.1 ≠ .str mergeKey := by
  rw [HasMergeKey]
  push Not
  rfl

theorem merged_eq_self (h : ∀ entry ∈ entries, entry.1.isKey mergeKey = false) :
    entries.merged = entries := by
  have hget : entries.get? mergeKey = none := by
    rw [get?, Option.map_eq_none_iff, List.find?_eq_none]
    exact fun entry hentry => by simp [h entry hentry]
  have hfilter : (entries.filter fun entry => !entry.1.isKey mergeKey) = entries :=
    List.filter_eq_self.mpr fun entry hentry => by simp [h entry hentry]
  rw [merged, lenders, hget, hfilter]
  rfl

/-! ### What is lent -/

theorem lend_cons : own.lend (entry :: lent) =
    (if own.any (·.1.same entry.1) then own else own ++ [entry]).lend lent := rfl

theorem mem_or_mem_of_mem_lend (h : entry ∈ own.lend lent) : entry ∈ own ∨ entry ∈ lent := by
  induction lent generalizing own with
  | nil => exact .inl h
  | cons first lent ih =>
      rw [lend_cons] at h
      obtain hown | hlent := ih h
      · split at hown
        · exact .inl hown
        · obtain hown | hfirst := List.mem_append.mp hown
          · exact .inl hown
          · exact .inr (List.mem_singleton.mp hfirst ▸ List.mem_cons_self)
      · exact .inr (List.mem_cons_of_mem _ hlent)

theorem mem_or_mem_of_mem_foldl_lend {lenders : List Entries}
    (h : entry ∈ lenders.foldl lend own) :
    entry ∈ own ∨ ∃ lender ∈ lenders, entry ∈ lender := by
  induction lenders generalizing own with
  | nil => exact .inl h
  | cons first lenders ih =>
      obtain hown | ⟨lender, hlender, hentry⟩ := ih h
      · obtain hown | hfirst := mem_or_mem_of_mem_lend hown
        · exact .inl hown
        · exact .inr ⟨first, List.mem_cons_self, hfirst⟩
      · exact .inr ⟨lender, List.mem_cons_of_mem _ hlender, hentry⟩

theorem eq_str_of_same {name : String} (h : value.same (.str name) = true) :
    value = .str name := by
  cases value with
  | str s => simpa [Value.same] using h
  | _ => simp [Value.same] at h

theorem hasMergeKey_lend_iff :
    (own.lend lent).HasMergeKey ↔ own.HasMergeKey ∨ lent.HasMergeKey := by
  induction lent generalizing own with
  | nil => simp [lend, HasMergeKey]
  | cons first lent ih =>
      have hstep : (if own.any (·.1.same first.1) then own else own ++ [first]).HasMergeKey ↔
          own.HasMergeKey ∨ first.1 = .str mergeKey := by
        split
        case isTrue hany =>
          -- Only the merge key itself keeps the merge key out.
          refine ⟨.inl, fun h => h.elim id fun hfirst => ?_⟩
          obtain ⟨entry, hentry, hsame⟩ := List.any_eq_true.mp hany
          rw [hfirst] at hsame
          exact ⟨entry, hentry, eq_str_of_same hsame⟩
        case isFalse => simp [HasMergeKey, or_and_right, exists_or]
      rw [lend_cons, ih, hstep]
      simp [HasMergeKey, or_assoc]

theorem hasMergeKey_foldl_lend_iff {lenders : List Entries} :
    (lenders.foldl lend own).HasMergeKey ↔
      own.HasMergeKey ∨ ∃ lender ∈ lenders, lender.HasMergeKey := by
  induction lenders generalizing own with
  | nil => simp
  | cons first lenders ih =>
      rw [List.foldl_cons, ih, hasMergeKey_lend_iff, List.exists_mem_cons_iff, or_assoc]

theorem hasMergeKey_merged_iff :
    entries.merged.HasMergeKey ↔ ∃ lender ∈ entries.lenders, lender.HasMergeKey := by
  have hown : ¬ HasMergeKey (entries.filter fun entry => !entry.1.isKey mergeKey) := by
    rintro ⟨entry, hentry, hkey⟩
    simp [hkey, Value.isKey] at hentry
  rw [merged, hasMergeKey_foldl_lend_iff, or_iff_right hown]

theorem reaches_of_mem_lendersIn {lender : Entries} (h : lender ∈ lendersIn value) :
    value.Reaches id (.map lender) := by
  cases value with
  | map entries =>
      obtain rfl := List.mem_singleton.mp h
      exact .here _
  | seq items =>
      obtain ⟨item, hitem, hlender⟩ := List.mem_filterMap.mp h
      cases item with
      | map entries =>
          obtain rfl := Option.some.inj hlender
          exact .item hitem (.here _)
      | _ => cases hlender
  | _ => cases h

theorem reaches_of_mem_lenders {lender : Entries} (h : lender ∈ entries.lenders) :
    ∃ entry ∈ entries, entry.2.Reaches id (.map lender) := by
  rw [lenders] at h
  cases hget : entries.get? mergeKey with
  | none => simp [hget] at h
  | some value =>
      rw [hget] at h
      obtain ⟨before, after, -, hentries⟩ := exists_split_of_get? hget
      exact ⟨(.str mergeKey, value), by simp [hentries], reaches_of_mem_lendersIn h⟩

theorem reaches_of_mem_merged (h : entry ∈ entries.merged) :
    ∃ outer ∈ entries, outer.2.Reaches id entry.2 := by
  obtain hown | ⟨lender, hlender, hentry⟩ := mem_or_mem_of_mem_foldl_lend h
  · exact ⟨entry, List.mem_of_mem_filter hown, .here _⟩
  · obtain ⟨outer, houter, hreaches⟩ := reaches_of_mem_lenders hlender
    exact ⟨outer, houter, hreaches.trans (.field hentry (.here _))⟩

end Entries

/-! ### Values that may be faulty -/

namespace Yaml

theorem forall_settle {pending : Pending} {outs : Entries} (h : pending.settle = .ok outs)
    (property : Value × Value → Prop) :
    (∀ out ∈ outs, property out) ↔
      ∀ entry ∈ pending, ∃ value, entry.2 = .ok value ∧ property (entry.1, value) := by
  induction pending generalizing outs with
  | nil =>
      obtain rfl := Except.ok.inj h
      simp
  | cons entry pending ih =>
      obtain ⟨rest, hrest, h⟩ := bind_eq_ok_iff.mp h
      obtain ⟨value, hvalue, h⟩ := bind_eq_ok_iff.mp h
      obtain rfl := Except.ok.inj h
      rw [List.forall_mem_cons, List.forall_mem_cons, ih hrest]
      simp [hvalue]

theorem forall_settleItems {pending : List (Merged Value)} {outs : List Value}
    (h : settleItems pending = .ok outs) (property : Value → Prop) :
    (∀ out ∈ outs, property out) ↔ ∀ item ∈ pending, ∃ value, item = .ok value ∧ property value := by
  induction pending generalizing outs with
  | nil =>
      obtain rfl := Except.ok.inj h
      simp
  | cons item pending ih =>
      obtain ⟨rest, hrest, h⟩ := bind_eq_ok_iff.mp h
      obtain ⟨value, hvalue, h⟩ := bind_eq_ok_iff.mp h
      obtain rfl := Except.ok.inj h
      rw [List.forall_mem_cons, List.forall_mem_cons, ih hrest]
      simp [hvalue]

theorem resolveItems_eq_map (items : List Value) :
    Value.resolveItems items = items.map Value.resolveMerges := by
  induction items with
  | nil => rfl
  | cons item items ih => rw [Value.resolveItems, ih, List.map_cons]

theorem resolveEntries_eq_map (entries : Entries) :
    Value.resolveEntries entries = entries.map fun entry => (entry.1, entry.2.resolveMerges) := by
  induction entries with
  | nil => rfl
  | cons entry entries ih => rw [Value.resolveEntries, ih, List.map_cons]

theorem lendersIn_of_lentByItems {lent : List Pending} (h : Value.lentByItems items = .ok lent) :
    lent = (Entries.lendersIn (.seq items)).map Value.resolveEntries := by
  induction items generalizing lent with
  | nil =>
      obtain rfl := Except.ok.inj h
      rfl
  | cons item items ih =>
      cases item with
      | map entries =>
          obtain ⟨rest, hrest, h⟩ := bind_eq_ok_iff.mp h
          obtain rfl := Except.ok.inj h
          rw [ih hrest]
          rfl
      | _ => cases h

theorem lenders_of_lentBy {lent : List Pending} (h : Value.lentBy entries = .ok lent) :
    lent = entries.lenders.map Value.resolveEntries := by
  induction entries with
  | nil =>
      obtain rfl := Except.ok.inj h
      rfl
  | cons entry entries ih =>
      obtain ⟨key, value⟩ := entry
      rw [Entries.lenders, Entries.get?, List.find?_cons]
      cases hkey : key.isKey mergeKey with
      | false =>
          have hrest : Value.lentBy entries = .ok lent := by
            cases value <;> simpa [Value.lentBy, hkey] using h
          exact ih hrest
      | true =>
          cases value with
          | map lender =>
              rw [Value.lentBy, if_pos hkey] at h
              obtain rfl := Except.ok.inj h
              rfl
          | seq items =>
              rw [Value.lentBy, if_pos hkey] at h
              exact lendersIn_of_lentByItems h
          | _ => simp [Value.lentBy, hkey] at h

namespace Pending

theorem lend_resolveEntries (own lent : Entries) :
    Pending.lend (Value.resolveEntries own) (Value.resolveEntries lent) =
      Value.resolveEntries (own.lend lent) := by
  simp only [resolveEntries_eq_map]
  induction lent generalizing own with
  | nil => rfl
  | cons entry lent ih =>
      have hany : (own.map fun entry => (entry.1, entry.2.resolveMerges)).any (·.1.same entry.1) =
          own.any (·.1.same entry.1) := by
        simp [List.any_map, Function.comp_def]
      rw [Entries.lend_cons, List.map_cons, Pending.lend, List.foldl_cons, hany, ← ih, Pending.lend]
      split
      · rfl
      · rw [List.map_append, List.map_singleton]

theorem lend_perm {own own' : Pending} (h : own.Perm own') (lent : Pending) :
    (own.lend lent).Perm (own'.lend lent) := by
  induction lent generalizing own own' with
  | nil => exact h
  | cons entry lent ih =>
      rw [Pending.lend, Pending.lend, List.foldl_cons, List.foldl_cons, h.any_eq]
      refine ih ?_
      split
      · exact h
      · exact h.append_right _

theorem foldl_lend_perm {own : Pending} {entries : Entries}
    (h : own.Perm (Value.resolveEntries entries)) (lenders : List Entries) :
    ((lenders.map Value.resolveEntries).foldl Pending.lend own).Perm
      (Value.resolveEntries (lenders.foldl Entries.lend entries)) := by
  induction lenders generalizing own entries with
  | nil => exact h
  | cons lender lenders ih =>
      rw [List.map_cons, List.foldl_cons, List.foldl_cons]
      refine ih ?_
      rw [← lend_resolveEntries]
      exact lend_perm h _

theorem swapRemove_perm (before after : Pending) (entry : Value × Merged Value) :
    (swapRemove (before ++ entry :: after) before.length).Perm (before ++ after) := by
  obtain rfl | ⟨after, last, rfl⟩ := List.eq_nil_or_concat' after
  · simp [swapRemove]
  · have hlast : (before ++ entry :: (after ++ [last])).getLast? = some last := by
      simp [List.getLast?_cons]
    have hplace : before.length + 1 ≠ (before ++ entry :: (after ++ [last])).length := by
      simp
    rw [swapRemove, hlast]
    simp only [if_neg hplace]
    rw [List.set_append_right _ _ (Nat.le_refl _), Nat.sub_self, List.set_cons_zero,
      ← List.cons_append, ← List.append_assoc, List.dropLast_concat, ← List.append_assoc]
    rw [List.append_assoc]
    exact (List.perm_append_singleton last after).symm.append_left before

end Pending

theorem same_mergeKey {first second : Value} (hfirst : first.isKey mergeKey = true)
    (hsecond : second.isKey mergeKey = true) : first.same second = true := by
  rw [Value.isKey_eq_true_iff.mp hfirst, Value.isKey_eq_true_iff.mp hsecond]
  simp [Value.same]

theorem swapRemove_resolveEntries_perm {place : Nat} (h : entries.KeysDiffer)
    (hplace : (Value.resolveEntries entries).findIdx? (·.1.isKey mergeKey) = some place) :
    (Pending.swapRemove (Value.resolveEntries entries) place).Perm
      (Value.resolveEntries (entries.filter fun entry => !entry.1.isKey mergeKey)) := by
  rw [resolveEntries_eq_map, List.findIdx?_map] at hplace
  obtain ⟨hlt, hkey, -⟩ := List.findIdx?_eq_some_iff_getElem.mp hplace
  obtain ⟨before, after, hsplit, rfl⟩ := exists_split_of_getElem? (List.getElem?_eq_getElem hlt)
  generalize entries[before.length] = entry at hsplit hkey
  subst hsplit
  -- No other entry has the key, for keys differ.
  obtain ⟨-, hentry, hothers⟩ := List.pairwise_append.mp h
  have hkept (other : Value × Value)
      (hdiffer : other.1.same entry.1 = false ∨ entry.1.same other.1 = false) :
      (!other.1.isKey mergeKey) = true := by
    rw [Bool.not_eq_true', Bool.eq_false_iff]
    intro hmerge
    obtain hdiffer | hdiffer := hdiffer
    · simp [same_mergeKey hmerge hkey] at hdiffer
    · simp [same_mergeKey hkey hmerge] at hdiffer
  have hbefore : ∀ other ∈ before, (!other.1.isKey mergeKey) = true := fun other hother =>
    hkept other (.inl (hothers other hother entry List.mem_cons_self))
  have hafter : ∀ other ∈ after, (!other.1.isKey mergeKey) = true := fun other hother =>
    hkept other (.inr ((List.pairwise_cons.mp hentry).1 other hother))
  have hfilter : (before ++ entry :: after).filter (fun entry => !entry.1.isKey mergeKey) =
      before ++ after := by
    rw [List.filter_append, List.filter_cons_of_neg (by simpa using hkey),
      List.filter_eq_self.mpr hbefore, List.filter_eq_self.mpr hafter]
  rw [hfilter]
  simp only [resolveEntries_eq_map, List.map_append, List.map_cons]
  simpa using Pending.swapRemove_perm (before.map fun entry => (entry.1, entry.2.resolveMerges))
    (after.map fun entry => (entry.1, entry.2.resolveMerges)) (entry.1, entry.2.resolveMerges)

end Yaml

/-! ### Resolving -/

/-- The values of a mapping whose merge key is resolved are those of its merged entries. -/
theorem Value.resolveMerges_map_eq_ok (hkeys : entries.KeysDiffer)
    (h : (Value.map entries).resolveMerges = .ok value) :
    ∃ outs : Entries, value = .map outs ∧ ∀ property : Value × Value → Prop,
      (∀ out ∈ outs, property out) ↔ ∀ entry ∈ entries.merged,
        ∃ value, entry.2.resolveMerges = .ok value ∧ property (entry.1, value) := by
  have hsettle {pending : Pending} (hperm : pending.Perm (resolveEntries entries.merged))
      (h : .map <$> pending.settle = .ok value) :
      ∃ outs : Entries, value = .map outs ∧ ∀ property : Value × Value → Prop,
        (∀ out ∈ outs, property out) ↔ ∀ entry ∈ entries.merged,
          ∃ value, entry.2.resolveMerges = .ok value ∧ property (entry.1, value) := by
    obtain ⟨outs, houts, rfl⟩ := map_eq_ok_iff.mp h
    refine ⟨outs, rfl, fun property => ?_⟩
    rw [resolveEntries_eq_map] at hperm
    rw [forall_settle houts]
    simp only [hperm.mem_iff, List.forall_mem_map]
  rw [resolveMerges] at h
  split at h
  case h_1 hnone =>
    have hkeys : ∀ entry ∈ entries, entry.1.isKey mergeKey = false := by
      simpa [resolveEntries_eq_map] using hnone
    rw [← Entries.merged_eq_self hkeys] at h
    exact hsettle (.refl _) h
  case h_2 place hplace =>
    obtain ⟨lent, hlent, h⟩ := bind_eq_ok_iff.mp h
    obtain rfl := lenders_of_lentBy hlent
    exact hsettle (Pending.foldl_lend_perm (swapRemove_resolveEntries_perm hkeys hplace) _) h

theorem exists_ok_and_iff {ε α : Type} {x : Except ε α} {property : α → Prop} {q : Prop}
    (hx : ∃ a, x = .ok a ∧ True) (h : ∀ a, x = .ok a → (property a ↔ q)) :
    (∃ a, x = .ok a ∧ property a) ↔ q := by
  obtain ⟨a, rfl, -⟩ := hx
  simp [h a rfl]

/-- No mapping in the value has an entry under the merge key. -/
abbrev Value.IsResolved (value : Value) : Prop :=
  value.EachMapping id fun entries => ¬ entries.HasMergeKey

/-- No mapping that lends entries has a merge key, wherever the value leads with what is lent. -/
abbrev Value.LendsNoMergeKey (value : Value) : Prop :=
  value.EachMapping Entries.merged fun entries =>
    ∀ lender ∈ entries.lenders, ¬ lender.HasMergeKey

theorem Value.isResolved_iff_of_resolveMerges {source : Value} (hkeys : source.KeysDiffer)
    (h : source.resolveMerges = .ok value) : value.IsResolved ↔ source.LendsNoMergeKey := by
  -- By size, for what a merge key lends lies two levels down or more.
  induction hsize : sizeOf source using Nat.strongRecOn generalizing source value with
  | ind size ih =>
  subst hsize
  cases source with
  | seq items =>
      obtain ⟨outs, houts, rfl⟩ := map_eq_ok_iff.mp (by rwa [resolveMerges] at h)
      rw [resolveItems_eq_map] at houts
      have hok := (forall_settleItems houts fun _ => True).mp fun _ _ => trivial
      rw [IsResolved, LendsNoMergeKey, eachMapping_seq_iff, eachMapping_seq_iff,
        forall_settleItems houts]
      simp only [List.forall_mem_map] at hok ⊢
      refine forall₂_congr fun item hitem => exists_ok_and_iff (hok item hitem) fun out hout => ?_
      exact ih _ (sizeOf_lt_seq hitem) (eachMapping_seq_iff.mp hkeys item hitem) hout rfl
  | tagged tag content =>
      obtain ⟨out, hout, rfl⟩ := map_eq_ok_iff.mp (by rwa [resolveMerges] at h)
      rw [IsResolved, LendsNoMergeKey, eachMapping_tagged_iff, eachMapping_tagged_iff]
      exact ih _ (sizeOf_lt_tagged tag content) (eachMapping_tagged_iff.mp hkeys) hout rfl
  | map entries =>
      obtain ⟨hhere, hfields⟩ := eachMapping_map_iff.mp hkeys
      obtain ⟨outs, rfl, houts⟩ := resolveMerges_map_eq_ok hhere h
      have hok := (houts fun _ => True).mp fun _ _ => trivial
      rw [IsResolved, LendsNoMergeKey, eachMapping_map_iff, eachMapping_map_iff]
      refine and_congr ?_ ?_
      · -- Keys stay what they are, so a merge key that is left is among the merged entries.
        have hleft : ¬ outs.HasMergeKey ↔ ¬ (Entries.merged entries).HasMergeKey := by
          rw [Entries.not_hasMergeKey_iff, Entries.not_hasMergeKey_iff,
            houts fun out => out.1 ≠ .str mergeKey]
          exact forall₂_congr fun entry hentry =>
            exists_ok_and_iff (hok entry hentry) fun _ _ => .rfl
        rw [hleft, Entries.hasMergeKey_merged_iff]
        push Not
        rfl
      · rw [id, houts]
        refine forall₂_congr fun entry hentry => exists_ok_and_iff (hok entry hentry) fun out hout => ?_
        obtain ⟨outer, houter, hreaches⟩ := Entries.reaches_of_mem_merged hentry
        have hsize : sizeOf entry.2 < sizeOf (map entries) :=
          Nat.lt_of_le_of_lt (sizeOf_le_of_reaches hreaches) (sizeOf_lt_map houter)
        exact ih _ hsize ((hfields outer houter).of_reaches hreaches) hout rfl
  | _ =>
      simp only [resolveMerges, Except.ok.injEq] at h
      subst h
      constructor <;> rintro - entries ⟨⟩

namespace Yaml

/-- Merge keys are gone from what is read if no mapping that lends entries has one, and only then. -/
theorem read_isResolved_iff {bytes : List UInt8} (h : Yaml.read bytes = .ok value) :
    ∃ source, compose bytes = .ok source ∧ (value.IsResolved ↔ source.LendsNoMergeKey) := by
  obtain ⟨source, hsource, hvalue⟩ := bind_eq_ok_iff.mp h
  exact ⟨source, hsource, Value.isResolved_iff_of_resolveMerges (keysDiffer_of_compose hsource)
    (mapError_eq_ok_iff.mp hvalue)⟩

/-- A suite whose third step takes its fields from the second, and that from the first. -/
def chained : List UInt8 :=
  asciiOctets ("\x7bname: S, tests: [\x7bname: t, steps: [" ++
    "&a \x7bname: a, plugin: delay, config: \x7bduration: 1s\x7d\x7d, " ++
    "&b \x7b<<: *a, name: b\x7d, \x7b<<: *b, name: c\x7d]\x7d]\x7d").toList

theorem read_chained : ∃ (value : Value) (entries : Entries),
    Yaml.read chained = .ok value ∧ value.Reaches id (.map entries) ∧ entries.HasMergeKey := by
  let third : FieldPath := ⟨[.key "tests", .index 0, .key "steps", .index 2]⟩
  have hread : ((Yaml.read chained).toOption.bind (·.mappingAt? third)).any
      (·.any (·.1.isKey mergeKey)) = true := by
    decide +kernel
  obtain ⟨entries, hthird, hmerge⟩ := (Option.any_eq_true _ _).mp hread
  obtain ⟨value, hvalue, hentries⟩ := Option.bind_eq_some_iff.mp hthird
  obtain ⟨entry, hentry, hkey⟩ := List.any_eq_true.mp hmerge
  exact ⟨value, entries, toOption_eq_some_iff.mp hvalue, Value.reaches_of_mappingAt? hentries,
    entry, hentry, Value.isKey_eq_true_iff.mp hkey⟩

theorem read_isResolved_iff_chained : ∃ value, Yaml.read chained = .ok value ∧
    ∃ source, compose chained = .ok source ∧ (value.IsResolved ↔ source.LendsNoMergeKey) := by
  obtain ⟨value, -, hread, -⟩ := read_chained
  exact ⟨value, hread, read_isResolved_iff hread⟩

/-- The third step keeps the merge key of the second. -/
theorem read_not_isResolved_chained :
    ¬ ∀ (bytes : List UInt8) (value : Value), Yaml.read bytes = .ok value → value.IsResolved := by
  obtain ⟨value, entries, hread, hreaches, hmerge⟩ := read_chained
  exact fun h => h chained value hread entries hreaches hmerge

end Yaml

end ApiSuite
