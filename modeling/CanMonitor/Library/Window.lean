import Mathlib.Data.List.DropRight
import Mathlib.Data.List.Range

/-!
# The last elements of a log

A bounded buffer keeps the last `c` elements of an unbounded log. The log is the
list of everything ever added, oldest first; what the buffer holds is
`log.rtake c`. `push` is the buffer's own way of getting there: when it is full it
drops its oldest element, then it adds the new one. `push_rtake` says the two agree
at every step, so a buffer that starts empty and only pushes holds the window of
its log for ever.
-/

namespace CanMonitor.Library

variable {α β : Type*}

/-- Add `a` to the buffer `w` of capacity `c`, dropping the oldest element when the
buffer is full. -/
def push (c : ℕ) (w : List α) (a : α) : List α :=
  if c ≤ w.length then w.tail ++ [a] else w ++ [a]

theorem length_rtake (c : ℕ) (l : List α) : (l.rtake c).length = min l.length c := by
  unfold List.rtake
  rw [List.length_drop]
  omega

/-- The window of a log that still fits is the log. -/
theorem rtake_of_length_le {c : ℕ} {l : List α} (h : l.length ≤ c) : l.rtake c = l := by
  unfold List.rtake
  rw [Nat.sub_eq_zero_of_le h, List.drop_zero]

/-- Dropping the oldest element of a full window leaves the next smaller window. -/
theorem tail_rtake_succ {c : ℕ} {l : List α} (h : c < l.length) :
    (l.rtake (c + 1)).tail = l.rtake c := by
  unfold List.rtake
  rw [List.tail_drop]
  congr 1
  omega

/-- **One push**: the window of the log moves on by one. -/
theorem push_rtake {c : ℕ} (hc : 0 < c) (l : List α) (a : α) :
    push c (l.rtake c) a = (l ++ [a]).rtake c := by
  obtain ⟨k, rfl⟩ : ∃ k, c = k + 1 := ⟨c - 1, by omega⟩
  rw [List.rtake_concat_succ]
  unfold push
  rw [length_rtake]
  split_ifs with h
  · rw [tail_rtake_succ (by omega)]
  · rw [rtake_of_length_le (by omega), rtake_of_length_le (by omega)]

/-- The window of a log and more of it. -/
theorem rtake_append (c : ℕ) (l m : List α) : (l ++ m).rtake c = l.rtake (c - m.length) ++ m.rtake c := by
  unfold List.rtake
  have hright : l.length + m.length - c - l.length = m.length - c := by omega
  rw [List.drop_append, List.length_append, hright]
  rcases Nat.le_total m.length c with h | h
  · rw [show l.length + m.length - c = l.length - (c - m.length) by omega]
  · have hall : l.drop (l.length - (c - m.length)) = [] := List.drop_eq_nil_of_le (by omega)
    rw [hall, List.drop_eq_nil_of_le (by omega)]

theorem getLast?_rtake {c : ℕ} (hc : 0 < c) (l : List α) : (l.rtake c).getLast? = l.getLast? := by
  rcases List.eq_nil_or_concat' l with rfl | ⟨l, a, rfl⟩
  · simp
  · obtain ⟨k, rfl⟩ : ∃ k, c = k + 1 := ⟨c - 1, by omega⟩
    rw [List.rtake_concat_succ, List.getLast?_concat, List.getLast?_concat]

theorem map_rtake (f : α → β) (c : ℕ) (l : List α) : (l.rtake c).map f = (l.map f).rtake c := by
  simp [List.rtake, List.map_drop]

/-- The window of a run of consecutive numbers is a run of consecutive numbers. -/
theorem rtake_range' (a n c : ℕ) :
    (List.range' a n).rtake c = List.range' (a + (n - min n c)) (min n c) := by
  unfold List.rtake
  rw [List.length_range', List.drop_range']
  congr 1 <;> omega

end CanMonitor.Library
