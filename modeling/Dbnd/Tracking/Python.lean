import Mathlib.Data.List.Perm.Subperm

/-! The parts of Python the composite store rests on: how a call ends, and
`list.remove`, which raises rather than skip an item the list does not hold. -/
namespace Dbnd.Tracking

open List

/-- An exception that `except Exception` catches. `_invoke` asks it one question,
whether it is a `TrackerPanicError`; `args` tells instances apart. A `BaseException`
outside `Exception` (`KeyboardInterrupt`, `SystemExit`) leaves `try_run_handler`
and `_invoke` at once, with no retry and no removal, and is not one. -/
structure Exc where
  trackerPanic : Bool
  args : String
  deriving DecidableEq, Repr

/-- What `list.remove` raises for an item the list does not hold. -/
def valueError : Exc := ⟨false, "list.remove(x): x not in list"⟩

/-- How a Python call ends, when it ends: it returns a value or raises. -/
inductive Outcome (α : Type) where
  | returned (value : α)
  | raised (exc : Exc)
  deriving DecidableEq, Repr

namespace Outcome

def isReturned : Outcome α → Bool
  | returned _ => true
  | raised _ => false

def value? : Outcome α → Option α
  | returned value => some value
  | raised _ => none

def isPanic : Outcome α → Bool
  | returned _ => false
  | raised exc => exc.trackerPanic

@[simp] theorem isReturned_returned (value : α) : (returned value).isReturned = true := rfl
@[simp] theorem isReturned_raised (exc : Exc) : (raised exc : Outcome α).isReturned = false := rfl
@[simp] theorem value?_returned (value : α) : (returned value).value? = some value := rfl
@[simp] theorem value?_raised (exc : Exc) : (raised exc : Outcome α).value? = none := rfl
@[simp] theorem isPanic_returned (value : α) : (returned value).isPanic = false := rfl
@[simp] theorem isPanic_raised (exc : Exc) : (raised exc : Outcome α).isPanic = exc.trackerPanic :=
  rfl

theorem isPanic_of_isReturned {o : Outcome α} (h : o.isReturned) : o.isPanic = false := by
  cases o <;> simp_all

theorem value?_eq_none {o : Outcome α} (h : o.isReturned = false) : o.value? = none := by
  cases o <;> simp_all

end Outcome

/-- `l.remove(x)`: drops the first item equal to `x`, or raises `ValueError`. -/
def listRemove [DecidableEq α] (l : List α) (x : α) : Outcome (List α) :=
  if x ∈ l then .returned (l.erase x) else .raised valueError

/-- `for x in xs: l.remove(x)`: the list as the loop leaves it, and the
exception that stopped the loop, if one did. -/
def removeEach [DecidableEq α] : List α → List α → List α × Option Exc
  | l, [] => (l, none)
  | l, x :: xs =>
    match listRemove l x with
    | .returned l' => removeEach l' xs
    | .raised exc => (l, some exc)

theorem removeEach_of_subperm [DecidableEq α] {xs l : List α} (h : xs <+~ l) :
    (removeEach l xs).2 = none ∧ (removeEach l xs).1 <+ l ∧
      ∀ y, (removeEach l xs).1.count y + xs.count y = l.count y := by
  induction xs generalizing l with
  | nil => simp [removeEach]
  | cons x xs ih =>
    have hx : x ∈ l := h.subset (List.mem_cons_self x xs)
    obtain ⟨hnone, hsub, hcount⟩ := ih (by simpa using h.erase x)
    simp only [removeEach, listRemove, hx, if_true]
    refine ⟨hnone, hsub.trans (List.erase_sublist x l), fun y => ?_⟩
    have hy := hcount y
    rw [List.count_erase] at hy
    rw [List.count_cons]
    by_cases hxy : x = y
    · subst hxy
      have := List.count_pos_iff.mpr hx
      simp only [beq_self_eq_true, if_true] at hy ⊢
      omega
    · simp only [beq_iff_eq, hxy, if_false] at hy ⊢
      omega

theorem removeEach_cons_of_not_mem [DecidableEq α] {x : α} {xs : List α} (hx : x ∉ xs) (l : List α) :
    removeEach (x :: l) xs = (x :: (removeEach l xs).1, (removeEach l xs).2) := by
  induction xs generalizing l with
  | nil => rfl
  | cons y ys ih =>
    have hxy : x ≠ y := fun h => hx (h ▸ List.mem_cons_self x ys)
    by_cases hy : y ∈ l
    · simp [removeEach, listRemove, hy, List.erase_cons, hxy,
        ih (fun h => hx (List.mem_cons_of_mem y h)) (l.erase y)]
    · simp [removeEach, listRemove, hy, Ne.symm hxy]

theorem removeEach_filter_not [DecidableEq α] (p : α → Bool) (l : List α) :
    removeEach l (l.filter fun x => !p x) = (l.filter p, none) := by
  induction l with
  | nil => rfl
  | cons x l ih =>
    cases hx : p x
    · simp [hx, removeEach, listRemove, ih]
    · have hnot : x ∉ l.filter fun x => !p x := by simp [hx]
      rw [List.filter_cons_of_neg (by simp [hx]), removeEach_cons_of_not_mem hnot, ih,
        List.filter_cons_of_pos hx]

end Dbnd.Tracking
