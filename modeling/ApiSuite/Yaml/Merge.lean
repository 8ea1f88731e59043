import ApiSuite.Yaml.Compose

/-!
Merge keys. The mapping under the key `<<`, or each of a sequence of mappings, lends its entries to the
mapping that has the key, where it has none of its own. The last entry takes the place of the merge key,
and what is lent follows at the end. A merge key among the lent entries stays as it is.
-/

namespace ApiSuite

namespace Yaml

def mergeKey : String :=
  "<<"

abbrev Merged := Except MergeFault

abbrev Pending := List (Value × Merged Value)

namespace Pending

/-- Adds the entries whose keys are not there yet. -/
def lend (entries lent : Pending) : Pending :=
  lent.foldl (fun entries entry =>
    if entries.any (·.1.same entry.1) then entries else entries ++ [entry]) entries

/-- Removes the entry at a place by putting the last one there. -/
def swapRemove (entries : Pending) (place : Nat) : Pending :=
  match entries.getLast? with
  | some last => if place + 1 = entries.length then entries.dropLast else (entries.set place last).dropLast
  | none => []

/-- All values, or the fault of the last one that has one. -/
def settle : Pending → Merged Entries
  | [] => .ok []
  | (key, value) :: rest => do
    let rest ← settle rest
    return (key, ← value) :: rest

end Pending

def settleItems : List (Merged Value) → Merged (List Value)
  | [] => .ok []
  | item :: rest => do
    let rest ← settleItems rest
    return (← item) :: rest

end Yaml

open Yaml

namespace Value

mutual

/-- The value with its merge keys resolved, from the outside in. -/
def resolveMerges : Value → Merged Value
  | .seq items => .seq <$> settleItems (resolveItems items)
  | .tagged tag content => .tagged tag <$> content.resolveMerges
  | .map entries => do
    let own := resolveEntries entries
    match own.findIdx? (·.1.isKey mergeKey) with
    | none => .map <$> own.settle
    | some place => do
      let lent ← lentBy entries
      .map <$> (lent.foldl Pending.lend (own.swapRemove place)).settle
  | scalar => .ok scalar

def resolveItems : List Value → List (Merged Value)
  | [] => []
  | item :: rest => item.resolveMerges :: resolveItems rest

def resolveEntries : List (Value × Value) → Pending
  | [] => []
  | (key, value) :: rest => (key, value.resolveMerges) :: resolveEntries rest

def lentBy : List (Value × Value) → Merged (List Pending)
  | [] => .ok []
  | (key, value) :: rest =>
    if key.isKey mergeKey then
      match value with
      | .map entries => .ok [resolveEntries entries]
      | .seq items => lentByItems items
      | .tagged _ _ => .error .tagged
      | _ => .error .scalar
    else lentBy rest

def lentByItems : List Value → Merged (List Pending)
  | [] => .ok []
  | .map entries :: rest => do return resolveEntries entries :: (← lentByItems rest)
  | .seq _ :: _ => .error .sequenceItem
  | .tagged _ _ :: _ => .error .tagged
  | _ :: _ => .error .scalarItem

end

end Value

def Yaml.read (bytes : List UInt8) : Except Yaml.Error Value := do
  let value ← Yaml.compose bytes
  value.resolveMerges.mapError .badMerge

end ApiSuite
