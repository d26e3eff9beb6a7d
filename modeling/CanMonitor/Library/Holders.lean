import Mathlib.Data.List.Basic
import Mathlib.Data.List.Count
import Mathlib.Logic.Function.Basic

/-!
# Locks and who holds them

The threads of a program are a list of the places they are at. A thread holds a lock exactly
as long as it is at certain places, and a step of a thread puts another place in the list.

* `Held place locked l` — a lock is held by one of the threads if it is locked, and by none if
  it is not.
* `Shift` — what the step of a thread may do to the locks: it holds what it held before, takes
  a lock that is free, or gives one back.
* `Held.shift` and `Held.holder_set` — such a step keeps `Held`, and who holds what after it.
-/

namespace CanMonitor.Library

variable {α κ : Type*} [DecidableEq κ] {place : α → Option κ} {locked locked' : κ → Bool} {l : List α} {i j : ℕ}
  {x y : α} {k : κ}

/-- How many threads hold a lock. -/
def holders (place : α → Option κ) (l : List α) (k : κ) : ℕ := l.countP fun x => place x = some k

/-- A thread that holds a lock. -/
def holder (place : α → Option κ) (l : List α) (k : κ) : Option α := l.find? fun x => place x = some k

/-- Every lock is held by one thread or by none. -/
def Held (place : α → Option κ) (locked : κ → Bool) (l : List α) : Prop := ∀ k, holders place l k = (locked k).toNat

/-- A thread goes from `x` to `y`. -/
inductive Shift (place : α → Option κ) (locked locked' : κ → Bool) (x y : α) : Prop where
  | stays (h : place y = place x) (hlocked : locked' = locked)
  | enters (k : κ) (hx : place x = none) (hy : place y = some k) (hfree : locked k = false)
      (hlocked : locked' = Function.update locked k true)
  | leaves (k : κ) (hx : place x = some k) (hy : place y = none) (hlocked : locked' = Function.update locked k false)

/-- Threads that hold nothing. -/
theorem held_of_forall (hplace : ∀ x ∈ l, place x = none) (hlocked : ∀ k, locked k = false) : Held place locked l := by
  intro k
  rw [hlocked, holders, List.countP_eq_zero.mpr]
  · rfl
  · intro x hx
    simp [hplace x hx]

theorem holders_pos (hx : l[i]? = some x) (hk : place x = some k) : 0 < holders place l k :=
  List.countP_pos_iff.mpr ⟨x, List.mem_of_getElem? hx, by simpa using hk⟩

/-- One thread goes to another place. -/
theorem holders_set (hx : l[i]? = some x) (k : κ) : holders place (l.set i y) k + (if place x = some k then 1 else 0) =
    holders place l k + if place y = some k then 1 else 0 := by
  obtain ⟨hi, rfl⟩ := List.getElem?_eq_some_iff.mp hx
  have hset := List.countP_set (p := fun x => decide (place x = some k)) (a := y) hi
  have hpos : place l[i] = some k → 0 < holders place l k := holders_pos hx
  unfold holders at hpos ⊢
  rw [hset]
  simp only [decide_eq_true_eq]
  split_ifs with hold hnew hnew
  · have := hpos hold
    omega
  · have := hpos hold
    omega
  · omega
  · omega

/-- **A step of one thread**: nobody comes to hold what another holds. -/
theorem Held.shift (h : Held place locked l) (hx : l[i]? = some x) (hs : Shift place locked locked' x y) :
    Held place locked' (l.set i y) := by
  intro k'
  have hset : holders place (l.set i y) k' + _ = _ := holders_set hx k'
  have hk' := h k'
  cases hs with
  | stays hp hlocked =>
    rw [hp] at hset
    rw [hlocked, ← hk']
    omega
  | enters k hp hq hfree hlocked =>
    rw [hp, hq] at hset
    rw [hlocked]
    by_cases hk : k' = k
    · subst hk
      rw [hfree] at hk'
      simp only [Function.update_self, Bool.toNat_true]
      simp only [reduceCtorEq, if_false, if_true, Bool.toNat_false] at hset hk'
      omega
    · rw [Function.update_of_ne hk]
      simp only [reduceCtorEq, if_false, Option.some.injEq, if_neg (Ne.symm hk)] at hset
      omega
  | leaves k hp hq hlocked =>
    rw [hp, hq] at hset
    rw [hlocked]
    by_cases hk : k' = k
    · subst hk
      have hle := Bool.toNat_le (locked k')
      simp only [Function.update_self, Bool.toNat_false]
      simp only [reduceCtorEq, if_false, if_true] at hset
      omega
    · rw [Function.update_of_ne hk]
      simp only [reduceCtorEq, if_false, Option.some.injEq, if_neg (Ne.symm hk)] at hset
      omega

/-- A lock that a thread holds is locked. -/
theorem Held.locked_of_place (h : Held place locked l) (hx : l[i]? = some x) (hk : place x = some k) :
    locked k = true := by
  have hpos := holders_pos hx hk
  rw [h k] at hpos
  by_contra hfree
  rw [Bool.eq_false_iff.mpr hfree] at hpos
  exact absurd hpos (Nat.lt_irrefl 0)

theorem Held.holders_le (h : Held place locked l) (k : κ) : holders place l k ≤ 1 := by
  rw [h k]
  exact Bool.toNat_le _

theorem holders_cons (x : α) (l : List α) (k : κ) :
    holders place (x :: l) k = holders place l k + if place x = some k then 1 else 0 := by
  simp only [holders, List.countP_cons, decide_eq_true_eq]

/-- Where one thread at most holds a lock, two that do are the same. -/
theorem eq_of_holders_le (hone : holders place l k ≤ 1) (hx : l[i]? = some x) (hy : l[j]? = some y)
    (hxk : place x = some k) (hyk : place y = some k) : i = j := by
  induction l generalizing i j with
  | nil => cases hx
  | cons z l ih =>
    rw [holders_cons] at hone
    cases i with
    | zero =>
      cases j with
      | zero => rfl
      | succ j =>
        obtain rfl : z = x := Option.some.inj hx
        have hpos := holders_pos (l := l) hy hyk
        rw [if_pos hxk] at hone
        omega
    | succ i =>
      cases j with
      | zero =>
        obtain rfl : z = y := Option.some.inj hy
        have hpos := holders_pos (l := l) hx hxk
        rw [if_pos hyk] at hone
        omega
      | succ j => exact congrArg Nat.succ (ih (by omega) hx hy)

/-- **Mutual exclusion**: two threads do not hold one lock. -/
theorem Held.eq_of_place (h : Held place locked l) (hx : l[i]? = some x) (hy : l[j]? = some y) (hxk : place x = some k)
    (hyk : place y = some k) : i = j :=
  eq_of_holders_le (h.holders_le k) hx hy hxk hyk

/-- A thread that holds a lock is the holder of it. -/
theorem Held.holder_of_place (h : Held place locked l) (hx : l[i]? = some x) (hk : place x = some k) :
    holder place l k = some x := by
  cases hfind : holder place l k with
  | none =>
    have hnone := List.find?_eq_none.mp hfind x (List.mem_of_getElem? hx)
    exact absurd hk (by simpa using hnone)
  | some y =>
    have hyk : place y = some k := by simpa using List.find?_some hfind
    obtain ⟨j, hy⟩ := List.mem_iff_getElem?.mp (List.mem_of_find?_eq_some hfind)
    obtain rfl := h.eq_of_place hx hy hk hyk
    exact hy.symm.trans hx

theorem holder_eq_none (h : ∀ x ∈ l, place x ≠ some k) : holder place l k = none :=
  List.find?_eq_none.mpr fun x hx => by simpa using h x hx

/-- **Who holds what** after a step of one thread. -/
theorem Held.holder_set (h : Held place locked l) (h' : Held place locked' (l.set i y)) (hx : l[i]? = some x) (k : κ) :
    holder place (l.set i y) k =
      if place y = some k then some y else if place x = some k then none else holder place l k := by
  obtain ⟨hi, -⟩ := List.getElem?_eq_some_iff.mp hx
  split_ifs with hy hxk
  · exact h'.holder_of_place (List.getElem?_set_self hi) hy
  · refine holder_eq_none fun z hz hzk => ?_
    obtain ⟨j, hj⟩ := List.mem_iff_getElem?.mp hz
    rw [List.getElem?_set] at hj
    split_ifs at hj with hij
    · cases hj
      exact hy hzk
    · exact hij (h.eq_of_place hx hj hxk hzk)
  · clear h h' hi
    unfold holder
    induction l generalizing i with
    | nil => rfl
    | cons z l ih =>
      cases i with
      | zero =>
        obtain rfl : z = x := Option.some.inj hx
        rw [List.set_cons_zero, List.find?_cons, List.find?_cons, decide_eq_false hy, decide_eq_false hxk]
      | succ i => rw [List.set_cons_succ, List.find?_cons, List.find?_cons, ih hx]

end CanMonitor.Library
