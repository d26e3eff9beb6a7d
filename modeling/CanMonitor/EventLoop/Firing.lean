import CanMonitor.EventLoop.Timer
import Mathlib.Data.List.Induction

/-!
# Which timers fire

What a user of `Timer` sees of it: the calls it made and what they returned. The heap with
its left-over entries does not show.

## The model

A history is the calls that were made, the newest first, each with what it returned; what
the clock says is up to each call. `standing` reads off a history which deadline of a
descriptor stands: the one set most recently, if it was neither removed nor returned since.

## What is proved

* `Agrees.perform` — the map has the standing deadlines, and every call keeps that.
* `tick_fires_due` — after any calls, `tick` returns those whose standing deadline has
  passed, each once and in the order of the deadlines, and the others keep theirs.
-/

namespace CanMonitor.EventLoop.Timer

/-- A call, with what `time(nullptr)` says in it. -/
inductive Call where
  | addTimer (fd : Fd) (timeoutSec now : ℤ)
  | updateTimer (fd : Fd) (timeoutSec now : ℤ)
  | removeTimer (fd : Fd)
  | tick (now : ℤ)
  deriving DecidableEq, Repr

/-- What a call returns, and the timer after it. -/
def perform (t : Timer) : Call → List Fd × Timer
  | .addTimer fd timeoutSec now => ([], t.addTimer fd timeoutSec now)
  | .updateTimer fd timeoutSec now => ([], t.updateTimer fd timeoutSec now)
  | .removeTimer fd => ([], t.removeTimer fd)
  | .tick now => t.tick now

/-- The calls that were made, the newest first, with what they returned. -/
abbrev History := List (Call × List Fd)

/-- One more call. -/
def call (s : Timer × History) (c : Call) : Timer × History := ((s.1.perform c).2, (c, (s.1.perform c).1) :: s.2)

/-- A new timer after some calls. -/
def afterCalls (cs : List Call) : Timer × History := cs.foldl call (empty, [])

/-- The deadline of `fd` that was set most recently, if it was neither removed nor returned since. -/
def standing (fd : Fd) : History → Option ℤ
  | [] => none
  | (.addTimer fd' timeoutSec now, _) :: earlier => if fd' = fd then some (now + timeoutSec) else standing fd earlier
  | (.updateTimer fd' timeoutSec now, _) :: earlier => if fd' = fd then some (now + timeoutSec) else standing fd earlier
  | (.removeTimer fd', _) :: earlier => if fd' = fd then none else standing fd earlier
  | (.tick _, returned) :: earlier => if fd ∈ returned then none else standing fd earlier

/-- The map has the standing deadlines, and the heap has them too. -/
structure Agrees (t : Timer) (past : History) : Prop where
  valid : t.Valid
  lookup : ∀ fd, t.fdExpireMap.lookup fd = standing fd past

theorem agrees_empty : Agrees empty [] := ⟨valid_empty, fun _ => rfl⟩

variable {t : Timer} {past : History}

theorem Agrees.addTimer (h : Agrees t past) (fd : Fd) (timeoutSec now : ℤ) (fd' : Fd) :
    (t.addTimer fd timeoutSec now).fdExpireMap.lookup fd' =
      if fd = fd' then some (now + timeoutSec) else standing fd' past := by
  split_ifs with hfd
  · subst hfd
    exact lookup_addTimer t fd timeoutSec now
  · rw [lookup_addTimer_ne t (Ne.symm hfd), h.lookup]

/-- **Every call** keeps the deadlines in agreement with the history. -/
theorem Agrees.perform (h : Agrees t past) (c : Call) : Agrees (t.perform c).2 ((c, (t.perform c).1) :: past) := by
  cases c with
  | addTimer fd timeoutSec now => exact ⟨h.valid.addTimer fd timeoutSec now, h.addTimer fd timeoutSec now⟩
  | updateTimer fd timeoutSec now => exact ⟨h.valid.addTimer fd timeoutSec now, h.addTimer fd timeoutSec now⟩
  | removeTimer fd =>
    refine ⟨h.valid.removeTimer fd, fun fd' => ?_⟩
    unfold standing
    split_ifs with hfd
    · subst hfd
      exact AList.lookup_erase fd t.fdExpireMap
    · exact (lookup_removeTimer_ne t (Ne.symm hfd)).trans (h.lookup fd')
  | tick now =>
    refine ⟨h.valid.tick now, fun fd => ?_⟩
    rw [standing, ← h.lookup]
    exact h.valid.lookup_tick now fd

theorem agrees_afterCalls (cs : List Call) : Agrees (afterCalls cs).1 (afterCalls cs).2 := by
  induction cs using List.reverseRecOn with
  | nil => exact agrees_empty
  | append_singleton cs c ih =>
    rw [afterCalls, List.foldl_append]
    exact ih.perform c

/-- **`tick` fires exactly the due timers**: after any calls, with any timeouts and whatever
the clock said, it returns the descriptors whose standing deadline has passed, each once and
in the order of these deadlines; the others keep their deadlines. -/
theorem tick_fires_due (cs : List Call) (now : ℤ) :
    ((afterCalls cs).1.tick now).1.Nodup ∧
      (∀ fd, fd ∈ ((afterCalls cs).1.tick now).1 ↔ ∃ deadline ≤ now, standing fd (afterCalls cs).2 = some deadline) ∧
      ((afterCalls cs).1.tick now).1.Pairwise (fun fd fd' =>
        ∀ d ∈ standing fd (afterCalls cs).2, ∀ e ∈ standing fd' (afterCalls cs).2, d ≤ e) ∧
      ∀ fd ∉ ((afterCalls cs).1.tick now).1,
        ((afterCalls cs).1.tick now).2.fdExpireMap.lookup fd = standing fd (afterCalls cs).2 := by
  have hagrees := agrees_afterCalls cs
  obtain ⟨fired, hfired, hnodup, hmem, horder, hlookup, -⟩ :=
    tickLoop_spec now (afterCalls cs).1.sorted hagrees.valid []
  rw [show ((afterCalls cs).1.tick now).1 = fired from hfired]
  simp only [Due, hagrees.lookup] at hmem horder hlookup
  refine ⟨hnodup, hmem, horder, fun fd hfd => ?_⟩
  exact (hlookup fd).trans (if_neg hfd)

end CanMonitor.EventLoop.Timer
