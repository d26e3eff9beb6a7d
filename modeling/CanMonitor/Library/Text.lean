import Mathlib.Data.List.Basic
import Mathlib.Data.List.DropRight
import Mathlib.Data.List.Infix

/-!
# Searching and cutting strings

The operations of C++ strings that text parsers are made of, on lists over any
alphabet: where a pattern first occurs (`find`), the lines that repeated `getline`
reads (`lines`), the words that repeated formatted extraction reads (`words`), and
cutting characters of a class off both ends (`trim`).

A parser that is fed a stream piece by piece searches a prefix of what it will have in
the end. `find_append` says that what it has found it will go on finding at the same
place; `find_take_eq_none` says that a text cut off before the end of the first
occurrence has none.
-/

namespace CanMonitor.Library

variable {α : Type*} [DecidableEq α]

/-! ### Finding a pattern -/

/-- Where `pat` first occurs in a string. -/
def find (pat : List α) : List α → Option ℕ
  | [] => if pat = [] then some 0 else none
  | a :: s => if pat <+: a :: s then some 0 else (find pat s).map (· + 1)

theorem find_cons_of_starts {pat s : List α} {a : α} (h : pat <+: a :: s) : find pat (a :: s) = some 0 := by
  rw [find, if_pos h]

theorem find_cons_of_not_starts {pat s : List α} {a : α} (h : ¬ pat <+: a :: s) :
    find pat (a :: s) = (find pat s).map (· + 1) := by
  rw [find, if_neg h]

/-- What is found is there. -/
theorem find_spec {pat s : List α} {i : ℕ} (h : find pat s = some i) : pat <+: s.drop i := by
  induction s generalizing i with
  | nil =>
    rw [find, Option.ite_none_right_eq_some] at h
    rw [h.1]
    exact List.nil_prefix
  | cons a s ih =>
    by_cases hp : pat <+: a :: s
    · rw [find_cons_of_starts hp] at h
      cases h
      exact hp
    · rw [find_cons_of_not_starts hp] at h
      obtain ⟨j, hj, rfl⟩ := Option.map_eq_some_iff.mp h
      exact ih hj

theorem find_add_length_le {pat s : List α} {i : ℕ} (h : find pat s = some i) : i + pat.length ≤ s.length := by
  induction s generalizing i with
  | nil =>
    rw [find, Option.ite_none_right_eq_some, Option.some.injEq] at h
    simp [h.1, ← h.2]
  | cons a s ih =>
    by_cases hp : pat <+: a :: s
    · rw [find_cons_of_starts hp] at h
      cases h
      simpa using hp.length_le
    · rw [find_cons_of_not_starts hp] at h
      obtain ⟨j, hj, rfl⟩ := Option.map_eq_some_iff.mp h
      have := ih hj
      rw [List.length_cons]
      omega

/-- **Prefix stability**: what is found in a string is found at the same place in any
longer one. -/
theorem find_append {pat s : List α} {i : ℕ} (h : find pat s = some i) (t : List α) :
    find pat (s ++ t) = some i := by
  induction s generalizing i with
  | nil =>
    rw [find, Option.ite_none_right_eq_some, Option.some.injEq] at h
    obtain ⟨rfl, rfl⟩ := h
    cases t <;> simp [find]
  | cons a s ih =>
    have hlen := find_add_length_le h
    by_cases hp : pat <+: a :: s
    · rw [find_cons_of_starts hp] at h
      have hp' : pat <+: a :: (s ++ t) := hp.trans (List.prefix_append (a :: s) t)
      rw [List.cons_append, find_cons_of_starts hp', h]
    · have hp' : ¬ pat <+: a :: (s ++ t) := fun hp' =>
        hp (List.prefix_of_prefix_length_le hp' (List.prefix_append (a :: s) t) (by omega))
      rw [find_cons_of_not_starts hp] at h
      obtain ⟨j, hj, rfl⟩ := Option.map_eq_some_iff.mp h
      rw [List.cons_append, find_cons_of_not_starts hp', ih hj]
      rfl

/-- A text cut off before the end of the first occurrence has no occurrence. -/
theorem find_take_eq_none {pat s : List α} {i n : ℕ} (h : find pat s = some i) (hn : n < i + pat.length) :
    find pat (s.take n) = none := by
  by_contra hne
  obtain ⟨j, hj⟩ := Option.ne_none_iff_exists'.mp hne
  have hs := find_append hj (s.drop n)
  rw [List.take_append_drop, h, Option.some.injEq] at hs
  have := find_add_length_le hj
  rw [List.length_take] at this
  omega

/-- What is somewhere is found there or before. -/
theorem find_of_prefix {pat s : List α} (hpat : pat ≠ []) {i : ℕ} (h : pat <+: s.drop i) :
    ∃ j ≤ i, find pat s = some j := by
  induction s generalizing i with
  | nil =>
    rw [List.drop_nil, List.prefix_nil] at h
    exact absurd h hpat
  | cons a s ih =>
    by_cases hp : pat <+: a :: s
    · exact ⟨0, i.zero_le, find_cons_of_starts hp⟩
    · cases i with
      | zero => exact absurd h hp
      | succ i =>
        obtain ⟨j, hj, hfind⟩ := ih h
        exact ⟨j + 1, Nat.succ_le_succ hj, by rw [find_cons_of_not_starts hp, hfind]; rfl⟩

/-- A pattern is not found where its first character does not occur. -/
theorem find_skip {c : α} {pat l : List α} (hl : c ∉ l) (s : List α) :
    find (c :: pat) (l ++ s) = (find (c :: pat) s).map (· + l.length) := by
  induction l with
  | nil => simp
  | cons a l ih =>
    have ha : ¬ c :: pat <+: a :: (l ++ s) := by
      rw [List.cons_prefix_cons]
      rintro ⟨rfl, -⟩
      exact hl List.mem_cons_self
    rw [List.cons_append, find_cons_of_not_starts ha, ih fun h => hl (List.mem_cons_of_mem _ h), Option.map_map]
    congr 1

/-- A single character is found where it first occurs. -/
theorem find_singleton {c : α} {l : List α} (hl : c ∉ l) (s : List α) : find [c] (l ++ c :: s) = some l.length := by
  rw [find_skip hl, find_cons_of_starts (by simp)]
  simp

theorem find_singleton_eq_none {c : α} {s : List α} : find [c] s = none ↔ c ∉ s := by
  induction s with
  | nil => simp [find]
  | cons a s ih => by_cases h : c = a <;> simp [find, h, ih]

/-- What is before a character that is found. -/
theorem take_of_find {c : α} {s : List α} {i : ℕ} (h : find [c] s = some i) : s.take i = s.takeWhile (· ≠ c) := by
  induction s generalizing i with
  | nil => simp
  | cons a s ih =>
    by_cases ha : c = a
    · subst ha
      rw [find_cons_of_starts (by simp), Option.some.injEq] at h
      simp [← h]
    · rw [find_cons_of_not_starts (by simpa using ha)] at h
      obtain ⟨j, hj, rfl⟩ := Option.map_eq_some_iff.mp h
      rw [List.take_succ_cons, ih hj, List.takeWhile_cons_of_pos (by simpa using Ne.symm ha)]

/-- A text is cut where a character is found. -/
theorem split_of_find {c : α} {s : List α} {i : ℕ} (h : find [c] s = some i) :
    s = s.take i ++ c :: s.drop (i + 1) ∧ c ∉ s.take i := by
  constructor
  · obtain ⟨t, ht⟩ := find_spec h
    rw [← List.drop_drop, ← ht, List.singleton_append, List.drop_one, List.tail_cons]
    conv_lhs => rw [← List.take_append_drop i s, ← ht, List.singleton_append]
  · rw [take_of_find h]
    intro hmem
    simpa using List.mem_takeWhile_imp hmem

omit [DecidableEq α] in
/-- What follows a character. -/
theorem drop_after (l : List α) (c : α) (t : List α) : (l ++ c :: t).drop (l.length + 1) = t := by
  rw [← List.drop_drop, List.drop_left, List.drop_one, List.tail_cons]

/-- The search for a pattern passes over a text before another. -/
def PassesOver (pat l s : List α) : Prop := find pat (l ++ s) = (find pat s).map (· + l.length)

theorem PassesOver.append {pat l m s : List α} (hl : PassesOver pat l (m ++ s)) (hm : PassesOver pat m s) :
    PassesOver pat (l ++ m) s := by
  rw [PassesOver, List.append_assoc, hl, hm, Option.map_map, List.length_append]
  congr 1
  funext n
  simp only [Function.comp]
  omega

/-- A character that the pattern does not begin at. -/
theorem passesOver_singleton {pat s : List α} {a : α} (h : ¬ pat <+: a :: s) : PassesOver pat [a] s :=
  find_cons_of_not_starts h

/-- A pattern right after what is passed over is found there. -/
theorem PassesOver.find_eq {pat l s : List α} (h : PassesOver pat l s) (hs : pat <+: s) (hpat : pat ≠ []) :
    find pat (l ++ s) = some l.length := by
  obtain ⟨a, s, rfl⟩ := List.exists_cons_of_ne_nil fun hnil => hpat (List.prefix_nil.mp (hnil ▸ hs))
  rw [h, find_cons_of_starts hs, Option.map_some, Nat.zero_add]

/-! ### Lines -/

/-- One `getline`: the characters up to the separator, which is taken away, and the
rest; it fails at the end of the stream. -/
def getline (sep : α) : List α → Option (List α × List α)
  | [] => none
  | s => some (s.takeWhile (· ≠ sep), (s.dropWhile (· ≠ sep)).tail)

/-- The lines that repeated `getline` reads. -/
def lines (sep : α) : List α → List (List α)
  | [] => []
  | a :: s =>
    if a = sep then [] :: lines sep s
    else match lines sep s with
      | [] => [[a]]
      | l :: ls => (a :: l) :: ls

theorem lines_cons_of_ne {sep a : α} (h : a ≠ sep) (s : List α) :
    lines sep (a :: s) = (a :: (lines sep s).headD []) :: (lines sep s).tail := by
  rw [lines, if_neg h]
  cases lines sep s <;> rfl

/-- `lines` is what a loop of `getline` reads. -/
theorem lines_eq_getline (sep : α) (s : List α) :
    lines sep s = match getline sep s with
      | none => []
      | some (l, rest) => l :: lines sep rest := by
  induction s with
  | nil => rfl
  | cons a s ih =>
    by_cases ha : a = sep
    · subst ha
      simp [lines, getline]
    · rw [lines_cons_of_ne ha, ih]
      cases s with
      | nil => simp [getline, ha, lines]
      | cons b s => simp [getline, ha]

/-- A line that ends in the separator. -/
theorem lines_append_cons {sep : α} {l : List α} (hl : sep ∉ l) (s : List α) :
    lines sep (l ++ sep :: s) = l :: lines sep s := by
  induction l with
  | nil => simp [lines]
  | cons a l ih =>
    have ha : a ≠ sep := fun h => hl (h ▸ List.mem_cons_self)
    rw [List.cons_append, lines_cons_of_ne ha, ih fun h => hl (List.mem_cons_of_mem _ h)]
    rfl

/-- A last line without the separator. -/
theorem lines_eq_singleton {sep : α} {l : List α} (hl : sep ∉ l) (hne : l ≠ []) : lines sep l = [l] := by
  induction l with
  | nil => exact absurd rfl hne
  | cons a l ih =>
    have ha : a ≠ sep := fun h => hl (h ▸ List.mem_cons_self)
    rw [lines_cons_of_ne ha]
    cases l with
    | nil => rfl
    | cons b l => rw [ih (fun h => hl (List.mem_cons_of_mem _ h)) (List.cons_ne_nil b l)]; rfl

/-- How the last line of a text goes on when more is appended. -/
theorem lines_append_last (sep : α) (s : List α) : ∃ ls last, lines sep s = ls ++ (if last = [] then [] else [last]) ∧
    ∀ t, sep ∉ t → ∀ u, lines sep (s ++ (t ++ sep :: u)) = ls ++ (last ++ t) :: lines sep u := by
  induction s with
  | nil => exact ⟨[], [], rfl, fun t ht u => lines_append_cons ht u⟩
  | cons a s ih =>
    obtain ⟨ls, last, hs, happend⟩ := ih
    by_cases ha : a = sep
    · subst ha
      refine ⟨[] :: ls, last, by simp [lines, hs], fun t ht u => ?_⟩
      simp only [List.cons_append, lines, if_pos, happend t ht u]
    · cases ls with
      | nil =>
        refine ⟨[], a :: last, ?_, fun t ht u => ?_⟩
        · rw [lines_cons_of_ne ha, hs]
          split_ifs <;> simp_all
        · rw [List.cons_append, lines_cons_of_ne ha, happend t ht u]
          rfl
      | cons l ls =>
        refine ⟨(a :: l) :: ls, last, ?_, fun t ht u => ?_⟩
        · rw [lines_cons_of_ne ha, hs]
          rfl
        · rw [List.cons_append, lines_cons_of_ne ha, happend t ht u]
          rfl

/-- The lines up to each blank one, which is taken away; what is after the last is not whole. -/
def blocks (sep : α) (s : List α) : List (List (List α)) := ((lines sep s).splitOnP (· = [])).dropLast

/-- Lines with their separators. -/
theorem lines_flatMap {sep : α} {ls : List (List α)} (hl : ∀ l ∈ ls, sep ∉ l) (s : List α) :
    lines sep (ls.flatMap (· ++ [sep]) ++ s) = ls ++ lines sep s := by
  induction ls with
  | nil => rfl
  | cons l ls ih =>
    rw [List.flatMap_cons, List.append_assoc, List.append_assoc, List.singleton_append,
      lines_append_cons (hl l List.mem_cons_self), ih fun l' h => hl l' (List.mem_cons_of_mem _ h), List.cons_append]

/-- The first block of a text. -/
theorem blocks_append {sep : α} {ls : List (List α)} (hl : ∀ l ∈ ls, sep ∉ l ∧ l ≠ []) (s : List α) :
    blocks sep (ls.flatMap (· ++ [sep]) ++ sep :: s) = ls :: blocks sep s := by
  have hblank : ∀ l ∈ ls, decide (l = []) = false := fun l h => decide_eq_false (hl l h).2
  have hlines : lines sep (sep :: s) = [] :: lines sep s := by simp [lines]
  unfold blocks
  rw [lines_flatMap (fun l h => (hl l h).1), hlines, List.splitOnP_append_cons_of_forall_mem hblank [] (by simp),
    List.dropLast_cons_of_ne_nil (List.splitOnP_ne_nil _ _)]

/-! ### Words -/

/-- The words that repeated formatted extraction reads: the longest runs of characters
that are no space. -/
def words (space : α → Bool) (s : List α) : List (List α) := (s.splitOnP space).filter (· ≠ [])

omit [DecidableEq α] in
theorem words_append_cons {space : α → Bool} {w : List α} (hw : ∀ a ∈ w, space a = false) (hne : w ≠ []) {c : α}
    (hc : space c = true) (s : List α) : words space (w ++ c :: s) = w :: words space s := by
  unfold words
  rw [List.splitOnP_append_cons_of_forall_mem hw c hc, List.filter_cons_of_pos (by simpa using hne)]

omit [DecidableEq α] in
theorem words_eq_singleton {space : α → Bool} {w : List α} (hw : ∀ a ∈ w, space a = false) (hne : w ≠ []) :
    words space w = [w] := by
  unfold words
  rw [List.splitOnP_eq_singleton hw, List.filter_cons_of_pos (by simpa using hne), List.filter_nil]

/-! ### Trimming -/

/-- Cut the characters of a class off both ends. -/
def trim (space : α → Bool) (s : List α) : List α := (s.dropWhile space).rdropWhile space

omit [DecidableEq α] in
theorem dropWhile_eq_self {space : α → Bool} {s : List α} (h : ∀ a ∈ s.head?, space a = false) :
    s.dropWhile space = s := by
  cases s with
  | nil => rfl
  | cons a s => rw [List.dropWhile_cons_of_neg (by simpa using h a rfl)]

omit [DecidableEq α] in
/-- Nothing is cut off a string without such characters. -/
theorem trim_eq_self {space : α → Bool} {s : List α} (h : ∀ a ∈ s, space a = false) : trim space s = s := by
  unfold trim
  rw [dropWhile_eq_self fun a ha => h a (List.mem_of_head? ha), List.rdropWhile_eq_self_iff]
  intro hne
  simp [h _ (List.getLast_mem hne)]

omit [DecidableEq α] in
/-- Only what is padded is cut off. -/
theorem trim_append {space : α → Bool} {s t : List α} (hhead : ∀ a ∈ s.head?, space a = false)
    (hlast : ∀ a ∈ s.getLast?, space a = false) (ht : ∀ a ∈ t, space a = true) : trim space (s ++ t) = s := by
  unfold trim
  cases s with
  | nil =>
    rw [List.nil_append, List.dropWhile_eq_nil_iff.mpr ht]
    rfl
  | cons a s =>
    rw [dropWhile_eq_self (by simpa using hhead), List.rdropWhile, List.reverse_append,
      List.dropWhile_append_of_pos (by simpa using ht), dropWhile_eq_self (by rwa [List.head?_reverse]),
      List.reverse_reverse]

omit [DecidableEq α] in
/-- A first character that stays. -/
theorem trim_cons {space : α → Bool} {a : α} (ha : space a = false) (s : List α) :
    trim space (a :: s) = a :: s.rdropWhile space := by
  have hhead : (a :: s).dropWhile space = a :: s := dropWhile_eq_self (by simpa using ha)
  rw [trim, hhead, List.rdropWhile, List.rdropWhile, List.reverse_cons, List.dropWhile_append]
  split_ifs with h
  · rw [List.isEmpty_iff.mp h]
    simp [ha]
  · simp

omit [DecidableEq α] in
/-- A run of characters of a class ends where a character of another follows. -/
theorem run_unique {p : α → Bool} {w w' s s' : List α} (hw : ∀ c ∈ w, p c = true) (hw' : ∀ c ∈ w', p c = true)
    (hs : ∀ c ∈ s.head?, p c = false) (hs' : ∀ c ∈ s'.head?, p c = false) (h : w ++ s = w' ++ s') :
    w = w' ∧ s = s' := by
  have htake : ∀ {w s : List α}, (∀ c ∈ w, p c = true) → (∀ c ∈ s.head?, p c = false) → (w ++ s).takeWhile p = w := by
    intro w s hw hs
    have hsplit := List.takeWhile_append_dropWhile (p := p) (l := w ++ s)
    rw [List.dropWhile_append_of_pos hw, dropWhile_eq_self hs] at hsplit
    exact List.append_cancel_right hsplit
  have heq : w = w' := by rw [← htake hw hs, h, htake hw' hs']
  subst heq
  exact ⟨rfl, List.append_cancel_left h⟩

end CanMonitor.Library
