import LayoutDesigner.Fault

/-!
# Sorting by a comparison that may fail

Where two items have no order, a sorted list does not exist, and the comparison says so by failing.
Where a comparison is no order, as with what is no number, the outcome depends on which items are
compared. So the steps are fixed: the run of rising or falling items at the start is taken as it
is, a falling one turned round, and each further item is put into its place, which is found by
halving. Equal items stay in the order in which they came.
-/

namespace LayoutDesigner.Sorting

variable {α : Type} (less : α → α → Except Fault Bool)

/-- Go on with a run that ends with `last`: the items that fall, or do not fall, as the run does,
and the others after them. -/
def run (falling : Bool) (last : α) : List α → Except Fault (List α × List α)
  | [] => .ok ([], [])
  | x :: rest => do
    if (← less x last) == falling then
      let (more, others) ← run falling x rest
      return (x :: more, others)
    else return ([], x :: rest)

/-- The place of an item in a sorted list, after all that it does not come before. It is known to
be between `low` and `high`. -/
def placeOf (x : α) (sorted : List α) (low high : Nat) : Except Fault Nat :=
  if low < high then
    match sorted[(low + high) / 2]? with
    | none => .ok low
    | some y =>
      match less x y with
      | .error fault => .error fault
      | .ok true => placeOf x sorted low ((low + high) / 2)
      | .ok false => placeOf x sorted ((low + high) / 2 + 1) high
  else .ok low
termination_by high - low

/-- Put an item into its place in a sorted list. -/
def insert (sorted : List α) (x : α) : Except Fault (List α) := do
  return sorted.insertIdx (← placeOf less x sorted 0 sorted.length) x

/-- The items of a list from the first to the last. -/
def sort : List α → Except Fault (List α)
  | first :: second :: rest => do
    let falling ← less second first
    let (more, others) ← run less falling second rest
    let start := first :: second :: more
    others.foldlM (insert less) (if falling then start.reverse else start)
  | short => .ok short

end LayoutDesigner.Sorting
