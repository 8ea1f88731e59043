import ApiSuite.Value

/-!
The settings of a step, kept in the order of their keys with each key once.
-/

namespace ApiSuite

structure Config where
  entries : List (String × Value)
  sorted : entries.Pairwise fun a b => a.1 < b.1

namespace Config

def empty : Config :=
  ⟨[], .nil⟩

def put (key : String) (value : Value) : List (String × Value) → List (String × Value)
  | [] => [(key, value)]
  | entry :: rest =>
    if key < entry.1 then (key, value) :: entry :: rest
    else if key = entry.1 then (key, value) :: rest
    else entry :: put key value rest

theorem mem_put {key : String} {value : Value} {entries : List (String × Value)}
    {entry : String × Value} (h : entry ∈ put key value entries) :
    entry = (key, value) ∨ entry ∈ entries := by
  induction entries with
  | nil => exact .inl (List.mem_singleton.1 h)
  | cons head rest ih =>
    unfold put at h
    split at h
    · exact List.mem_cons.1 h
    · split at h
      · exact (List.mem_cons.1 h).imp_right (List.mem_cons_of_mem head)
      · rcases List.mem_cons.1 h with rfl | h
        · exact .inr List.mem_cons_self
        · exact (ih h).imp_right (List.mem_cons_of_mem head)

theorem put_sorted {key : String} {value : Value} {entries : List (String × Value)}
    (h : entries.Pairwise fun a b => a.1 < b.1) :
    (put key value entries).Pairwise fun a b => a.1 < b.1 := by
  induction entries with
  | nil => exact List.pairwise_singleton _ _
  | cons head rest ih =>
    have ⟨first, later⟩ := List.pairwise_cons.1 h
    unfold put
    split
    next below =>
      refine List.pairwise_cons.2 ⟨fun entry member => ?_, h⟩
      rcases List.mem_cons.1 member with rfl | member
      · exact below
      · exact String.lt_trans below (first entry member)
    next notBelow =>
      split
      next equal => exact List.pairwise_cons.2 ⟨fun entry member => equal ▸ first entry member, later⟩
      next different =>
        refine List.pairwise_cons.2 ⟨fun entry member => ?_, ih later⟩
        rcases mem_put member with rfl | member
        · exact Std.lt_of_le_of_ne (Std.not_lt.1 notBelow) (Ne.symm different)
        · exact first entry member

def insert (config : Config) (key : String) (value : Value) : Config :=
  ⟨put key value config.entries, put_sorted config.sorted⟩

def get? (config : Config) (key : String) : Option Value :=
  config.entries.lookup key

/-- A setting that is a string, through tags. -/
def str? (config : Config) (key : String) : Option String :=
  config.get? key >>= Value.str?

def modify (config : Config) (key : String) (change : Value → Value) : Config :=
  match config.get? key with
  | some value => config.insert key (change value)
  | none => config

end Config

end ApiSuite
