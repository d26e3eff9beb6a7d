import CanMonitor.Library.Text

/-!
# Positions in strings

The operations of `std::string` that take positions. `substr` and `erase` throw
`std::out_of_range` when the position is past the end; a position that a search gives is
never past it. `std::string::npos` is `none`.

A program that finds its way through a string by positions can be compared with one that
goes by what is left of it: `substr_trim`, `skip_spec` and `findFrom_le` say where the positions
are.
-/

namespace CanMonitor.Library

/-- `std::out_of_range`: the position, and the size that it is past. -/
structure OutOfRange where
  pos : ℕ
  size : ℕ
  deriving DecidableEq, Repr

/-- A call that returns. -/
@[simp] theorem ok_bind {ε : Type*} {α β : Type _} (a : α) (f : α → Except ε β) : (Except.ok a >>= f) = f a := rfl

variable {α : Type*}

/-- `s.substr(pos, count)`; without `count` to the end. -/
def substr (s : List α) (pos : ℕ) (count : Option ℕ) : Except OutOfRange (List α) :=
  if s.length < pos then .error ⟨pos, s.length⟩ else .ok (count.elim (s.drop pos) ((s.drop pos).take ·))

/-- `s.erase(pos, count)`; without `count` to the end. -/
def erase (s : List α) (pos : ℕ) (count : Option ℕ) : Except OutOfRange (List α) :=
  if s.length < pos then .error ⟨pos, s.length⟩ else .ok (s.take pos ++ count.elim [] (s.drop pos).drop)

/-- `s.find_first_not_of(…)`. -/
def findFirstNotOf (p : α → Bool) (s : List α) : Option ℕ :=
  if (s.dropWhile p).isEmpty then none else some (s.takeWhile p).length

/-- `s.find_last_not_of(…)`. -/
def findLastNotOf (p : α → Bool) (s : List α) : Option ℕ :=
  if (s.rdropWhile p).isEmpty then none else some ((s.rdropWhile p).length - 1)

/-- `s.find(pat, pos)`. -/
def findFrom [DecidableEq α] (pat s : List α) (pos : ℕ) : Option ℕ := (find pat (s.drop pos)).map (pos + ·)

/-- `while(pos < s.size() && p(s[pos])) ++pos;` -/
def skip (p : α → Bool) (s : List α) (pos : ℕ) : ℕ :=
  if h : pos < s.length then if p s[pos] then skip p s (pos + 1) else pos else pos
termination_by s.length - pos

/-! ### Positions that are not past the end -/

@[simp] theorem substr_zero (s : List α) (count : ℕ) : substr s 0 (some count) = .ok (s.take count) := rfl

theorem substr_of_le {s : List α} {pos : ℕ} (h : pos ≤ s.length) (count : Option ℕ) :
    substr s pos count = .ok (count.elim (s.drop pos) ((s.drop pos).take ·)) := by
  rw [substr, if_neg (Nat.not_lt.mpr h)]

theorem erase_zero (s : List α) (count : Option ℕ) : erase s 0 count = .ok (count.elim [] s.drop) := by
  rw [erase, if_neg (Nat.not_lt_zero _)]
  cases count <;> simp

theorem erase_toEnd {s : List α} {pos : ℕ} (h : pos ≤ s.length) : erase s pos none = .ok (s.take pos) := by
  rw [erase, if_neg (Nat.not_lt.mpr h)]
  simp

theorem drop_length_takeWhile (p : α → Bool) (s : List α) : s.drop (s.takeWhile p).length = s.dropWhile p := by
  have h : (s.takeWhile p ++ s.dropWhile p).drop (s.takeWhile p).length = s.dropWhile p := List.drop_left
  rwa [List.takeWhile_append_dropWhile] at h

/-- Erasing up to the first character that is not of the class. -/
theorem drop_findFirstNotOf (p : α → Bool) (s : List α) : (findFirstNotOf p s).elim [] s.drop = s.dropWhile p := by
  unfold findFirstNotOf
  split_ifs with h
  · exact (List.isEmpty_iff.mp h).symm
  · exact drop_length_takeWhile p s

/-- Erasing from after the last. -/
theorem take_findLastNotOf (p : α → Bool) (s : List α) :
    (findLastNotOf p s).elim 0 (· + 1) = (s.rdropWhile p).length ∧ s.take (s.rdropWhile p).length = s.rdropWhile p := by
  refine ⟨?_, (List.prefix_iff_eq_take.mp (s.rdropWhile_prefix p)).symm⟩
  unfold findLastNotOf
  split_ifs with h
  · rw [List.isEmpty_iff.mp h]
    rfl
  · have := List.length_pos_iff.mpr fun hnil => h (List.isEmpty_iff.mpr hnil)
    simp only [Option.elim_some]
    omega

/-- If there is no last, there is no first. -/
theorem findFirstNotOf_eq_none {p : α → Bool} {s : List α} (h : findLastNotOf p s = none) : findFirstNotOf p s = none := by
  have hnil : s.rdropWhile p = [] := by
    unfold findLastNotOf at h
    split_ifs at h with hnil
    exact List.isEmpty_iff.mp hnil
  rw [findFirstNotOf, if_pos]
  rw [List.isEmpty_iff, List.dropWhile_eq_nil_iff]
  exact List.rdropWhile_eq_nil_iff.mp hnil

/-- From the first to the last. -/
theorem substr_trim {p : α → Bool} {s : List α} {first last : ℕ} (hfirst : findFirstNotOf p s = some first)
    (hlast : findLastNotOf p s = some last) : substr s first (some (last - first + 1)) = .ok (trim p s) := by
  unfold findFirstNotOf at hfirst
  unfold findLastNotOf at hlast
  split_ifs at hfirst hlast with hl hf
  cases hfirst
  cases hlast
  have hsplit := List.takeWhile_append_dropWhile (p := p) (l := s)
  have hrest : s.dropWhile p ≠ [] := fun h => hl (List.isEmpty_iff.mpr h)
  have hne : trim p s ≠ [] := by
    intro hnil
    have hhead := List.head_dropWhile_not p hrest
    rw [List.rdropWhile_eq_nil_iff.mp hnil _ (List.head_mem hrest)] at hhead
    cases hhead
  -- what is cut off the end is not what is cut off the front
  have hlength : (s.rdropWhile p).length = (s.takeWhile p).length + (trim p s).length := by
    have hr : s.rdropWhile p = s.takeWhile p ++ trim p s := by
      conv_lhs => rw [← hsplit]
      rw [List.rdropWhile, List.reverse_append, List.dropWhile_append, if_neg, List.reverse_append,
        List.reverse_reverse]
      · rfl
      · intro hnil
        exact hne (List.reverse_eq_nil_iff.mpr (List.isEmpty_iff.mp hnil))
    rw [hr, List.length_append]
  have hpos := List.length_pos_iff.mpr hne
  have hle : (s.takeWhile p).length ≤ s.length := (List.takeWhile_prefix p).length_le
  rw [substr_of_le hle, Option.elim_some, drop_length_takeWhile,
    show (s.rdropWhile p).length - 1 - (s.takeWhile p).length + 1 = (trim p s).length by omega]
  exact congrArg Except.ok (List.prefix_iff_eq_take.mp (List.rdropWhile_prefix p (s.dropWhile p))).symm

/-! ### Positions of a search and of a loop -/

theorem skip_of_pos {p : α → Bool} {s : List α} {pos : ℕ} (h : pos < s.length) (hp : p s[pos] = true) :
    skip p s pos = skip p s (pos + 1) := by
  rw [skip, dif_pos h, if_pos hp]

theorem skip_of_neg {p : α → Bool} {s : List α} {pos : ℕ} (h : pos < s.length) (hp : ¬ p s[pos] = true) :
    skip p s pos = pos := by
  rw [skip, dif_pos h, if_neg hp]

/-- The loop passes over the characters of the class. -/
theorem skip_spec (p : α → Bool) {s : List α} {pos : ℕ} (h : pos ≤ s.length) :
    pos ≤ skip p s pos ∧ skip p s pos ≤ s.length ∧ s.drop (skip p s pos) = (s.drop pos).dropWhile p ∧
      (s.drop pos).take (skip p s pos - pos) = (s.drop pos).takeWhile p := by
  induction hn : s.length - pos generalizing pos with
  | zero =>
    obtain rfl : pos = s.length := by omega
    rw [skip, dif_neg (Nat.lt_irrefl _)]
    simp
  | succ n ih =>
    have hlt : pos < s.length := by omega
    rw [List.drop_eq_getElem_cons hlt]
    by_cases hp : p s[pos] = true
    · have hnext : pos + 1 ≤ s.length := hlt
      obtain ⟨hle, hsize, hdrop, htake⟩ := ih hnext (by omega)
      rw [skip_of_pos hlt hp, List.dropWhile_cons_of_pos hp, List.takeWhile_cons_of_pos hp]
      refine ⟨by omega, hsize, hdrop, ?_⟩
      rw [show skip p s (pos + 1) - pos = skip p s (pos + 1) - (pos + 1) + 1 by omega, List.take_succ_cons, htake]
    · rw [skip_of_neg hlt hp, List.dropWhile_cons_of_neg hp, List.takeWhile_cons_of_neg hp]
      refine ⟨le_rfl, h, List.drop_eq_getElem_cons hlt, by simp⟩

/-- Where `skip` stops short of the end, the character is not of the class. -/
theorem not_of_skip {p : α → Bool} {s : List α} {pos : ℕ} (h : pos ≤ s.length) (hlt : skip p s pos < s.length) :
    ¬ p s[skip p s pos] = true := by
  obtain ⟨-, -, hdrop, -⟩ := skip_spec p h
  rw [List.drop_eq_getElem_cons hlt] at hdrop
  have hne : (s.drop pos).dropWhile p ≠ [] := hdrop ▸ List.cons_ne_nil _ _
  have hhead := List.head_dropWhile_not p hne
  simp only [← hdrop, List.head_cons] at hhead
  simp [hhead]

/-- `skip` passes over a character of the class. -/
theorem lt_skip {p : α → Bool} {s : List α} {pos : ℕ} (h : pos < s.length) (hp : p s[pos] = true) :
    pos < skip p s pos := by
  rw [skip_of_pos h hp]
  exact (skip_spec p h).1

/-- A position that is found from another is not past the end. -/
theorem findFrom_le [DecidableEq α] {pat s : List α} {pos i : ℕ} (hpos : pos ≤ s.length)
    (h : findFrom pat s pos = some i) : pos ≤ i ∧ i + pat.length ≤ s.length := by
  obtain ⟨j, hj, rfl⟩ := Option.map_eq_some_iff.mp h
  have := find_add_length_le hj
  rw [List.length_drop] at this
  omega

end CanMonitor.Library
