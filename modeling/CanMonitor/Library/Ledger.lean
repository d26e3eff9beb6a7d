import Mathlib.Data.List.Perm.Basic
import Mathlib.Data.List.Range

/-!
# What is given out and given back

Tokens are given out one at a time, each a new one, and are given back in any order. The
ledger counts those given out, which are so numbered, and lists those given back.

* `Balanced held` — a token is held by somebody or has been given back, and only once.
* `Balanced.issue`, `Balanced.giveBack` — giving out and giving back keep the balance.
* `Balanced.count_eq_one` — if nobody holds any, each was given back exactly once.
-/

namespace CanMonitor.Library

/-- How many tokens were given out, and which were given back. -/
structure Ledger where
  issued : ℕ := 0
  returned : List ℕ := []
  deriving DecidableEq, Repr

namespace Ledger

variable {l : Ledger} {held held' : List ℕ} {n : ℕ}

/-- The next token. -/
def issue (l : Ledger) : ℕ × Ledger := (l.issued, { l with issued := l.issued + 1 })

/-- A token comes back. -/
def giveBack (l : Ledger) (n : ℕ) : Ledger := { l with returned := l.returned ++ [n] }

/-- What was given out is held or was given back, and not twice. -/
def Balanced (l : Ledger) (held : List ℕ) : Prop := (l.returned ++ held).Perm (List.range l.issued)

theorem balanced_new : Balanced {} [] := .refl _

theorem Balanced.perm (h : l.Balanced held) (hperm : held'.Perm held) : l.Balanced held' :=
  (hperm.append_left l.returned).trans h

/-- The new token is held too. -/
theorem Balanced.issue (h : l.Balanced held) : l.issue.2.Balanced (l.issue.1 :: held) := by
  unfold Balanced Ledger.issue
  rw [List.range_succ]
  exact List.perm_middle.trans ((h.cons _).trans (List.perm_append_singleton _ _).symm)

/-- What comes back is not held any more. -/
theorem Balanced.giveBack (h : l.Balanced (n :: held)) : (l.giveBack n).Balanced held := by
  unfold Balanced Ledger.giveBack
  rw [List.append_assoc]
  exact h

/-- **Nothing is lost**: if nobody holds a token, each came back exactly once. -/
theorem Balanced.count_eq_one (h : l.Balanced []) (hn : n < l.issued) : l.returned.count n = 1 := by
  unfold Balanced at h
  rw [List.append_nil] at h
  rw [h.count_eq n]
  exact List.nodup_range.count.trans (if_pos (List.mem_range.mpr hn))

/-- What came back was issued, and all that was issued came back. -/
theorem Balanced.mem_returned (h : l.Balanced []) : n ∈ l.returned ↔ n < l.issued := by
  unfold Balanced at h
  rw [List.append_nil] at h
  rw [h.mem_iff, List.mem_range]

end Ledger

end CanMonitor.Library
