/-!
# Why work has no result

Work on a text fails for one of two reasons: a count leaves its range, or the text has been replaced
meanwhile.
-/

/-!
## Bounded counters

Line and column numbers are counted in thirty-two bits, offsets in sixty-four.  An operation that would
leave its range has no result, only the reason why: `Overflow.addition` when a count grows too large,
and `Overflow.subtraction` when a length would be negative.
-/

namespace RexxService

/-- Why a count has no value. -/
inductive Overflow where
  | addition
  | subtraction
deriving DecidableEq, Repr

namespace Overflow

def message : Overflow → String
  | addition => "attempt to add with overflow"
  | subtraction => "attempt to subtract with overflow"

end Overflow

namespace Counter

/-- The first number that a line or column counter cannot hold. -/
def placeLimit : Nat := 0x100000000

/-- The first number that an offset cannot hold. -/
def offsetLimit : Nat := 0x10000000000000000

/-- The sum of two counts, which must stay below a limit. -/
def add (limit m n : Nat) : Except Overflow Nat :=
  if m + n < limit then .ok (m + n) else .error .addition

/-- The difference of two counts, which must not be negative. -/
def sub (m n : Nat) : Except Overflow Nat :=
  if n ≤ m then .ok (m - n) else .error .subtraction

theorem add_eq_ok {limit m n : Nat} (h : m + n < limit) : add limit m n = .ok (m + n) := if_pos h

theorem sub_eq_ok {m n : Nat} (h : n ≤ m) : sub m n = .ok (m - n) := if_pos h

end Counter

/-!
## Freshness

An analysis is worth finishing only while its text is the current one.  The work looks at a
`Freshness` again and again, and gives up with `Cancelled` as soon as it is stale.
-/

/-- Whether the text under analysis is still the current one. -/
inductive Freshness where
  | fresh
  | stale
deriving DecidableEq, Repr

/-- The work was given up because its text is out of date. -/
inductive Cancelled where
  | outOfDate
deriving DecidableEq, Repr

namespace Freshness

/-- Goes on with fresh work and gives up stale work. -/
def check : Freshness → Except Cancelled Unit
  | fresh => .ok ()
  | stale => .error .outOfDate

/-- The elements of a list, visited one by one as long as the work is fresh. -/
def visit {α : Type} (state : Freshness) (xs : List α) : Except Cancelled (List α) :=
  xs.mapM fun x => do
    state.check
    return x

@[simp] theorem check_fresh : fresh.check = .ok () := rfl

/-- Fresh work visits every element. -/
@[simp] theorem visit_fresh {α : Type} (xs : List α) : fresh.visit xs = .ok xs := by
  show xs.mapM (fun x => (pure x : Except Cancelled α)) = .ok xs
  rw [List.mapM_pure, List.map_id']
  rfl

end Freshness

/-!
## Failures of queries

A query about a model fails when the model is out of date or when a place cannot be counted.
-/

/-- Why a query about a model has no answer. -/
inductive Failure where
  | cancelled
  | overflow (cause : Overflow)
deriving DecidableEq, Repr

namespace Failure

def ofCount {α : Type} : Except Overflow α → Except Failure α
  | .ok a => .ok a
  | .error cause => .error (.overflow cause)

def ofVisit {α : Type} : Except Cancelled α → Except Failure α
  | .ok a => .ok a
  | .error .outOfDate => .error .cancelled

end Failure

end RexxService
