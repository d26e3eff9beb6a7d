import CanMonitor.Library.Window
import Mathlib.Data.List.Basic
import Mathlib.Data.List.Range
import Mathlib.Order.Lattice
import Mathlib.Tactic.Order

/-!
# Reading a moving window through a cursor

A reader keeps a cursor, the key of the last element it has seen. It is offered a
window of elements in ascending key order, takes the first few elements above the
cursor (`fetch`), and moves the cursor to the last of them (`advance`). Between two
reads the window may change in any way: elements may come in, and elements the reader
has not seen may go.

`Session` is any number of such reads, each of a window of its own and with a limit of
its own. What holds of every session whose windows are ascending:

* `Session.ascending` — what it read, all reads together, is ascending: no element
  twice, none out of order; and it lies between the first cursor and the last.
* `Session.passed` — the reads pass over every key between the two cursors.
* `fetch_complete` — a read passes over no wanted element of its window.
* `fetch_cons` — a read can be made one element at a time.

So an element is missed only by not being in the window of the read that passed its
key. For windows of consecutive numbers, `fetch_consecutive` says a read gives
consecutive numbers and where they start.
-/

namespace CanMonitor.Library

variable {β ι : Type*} [LinearOrder ι] (key : β → ι) (p : β → Bool)

/-- In ascending order of keys. -/
def Ascending (w : List β) : Prop := w.Pairwise fun a b => key a < key b

/-- The first `k` wanted elements of the window `w` above the cursor `c`. -/
def fetch (c : ι) (k : ℕ) (w : List β) : List β := (w.filter fun b => decide (c < key b) && p b).take k

/-- The cursor after reading `r`: the last key read, if anything was read. -/
def advance (c : ι) (r : List β) : ι := r.getLast?.elim c key

/-- A read: the window it was offered, the cursor it started from, what it gave. -/
structure Read (β ι : Type*) where
  /-- The window. -/
  window : List β
  /-- The cursor before. -/
  before : ι
  /-- What was read. -/
  result : List β

/-- The cursor after a read. -/
def Read.after (r : Read β ι) : ι := advance key r.before r.result

/-- Reads one after the other, from the cursor `c₀`. -/
inductive Session (c₀ : ι) : List (Read β ι) → ι → Prop where
  /-- Nothing read yet. -/
  | start : Session c₀ [] c₀
  /-- One more read, of the window `w` with the limit `k`. -/
  | read {rs : List (Read β ι)} {c : ι} (w : List β) (k : ℕ) : Session c₀ rs c →
      Session c₀ (rs ++ [⟨w, c, fetch key p c k w⟩]) (advance key c (fetch key p c k w))

variable {key p}

omit [LinearOrder ι] in
@[simp] theorem advance_nil (c : ι) : advance key c [] = c := rfl

omit [LinearOrder ι] in
@[simp] theorem advance_concat (c : ι) (r : List β) (b : β) : advance key c (r ++ [b]) = key b := by
  simp [advance]

/-- A list and more of it are in ascending order if each is and the last of the one is below
the first of the other. -/
theorem ascending_append_iff {l m : List β} (hl : Ascending key l) :
    Ascending key (l ++ m) ↔ Ascending key m ∧ ∀ a ∈ l.getLast?, ∀ b ∈ m.head?, key a < key b := by
  unfold Ascending at hl ⊢
  rw [List.pairwise_append]
  constructor
  · rintro ⟨-, hm, hcross⟩
    exact ⟨hm, fun a ha b hb => hcross a (List.mem_of_getLast? ha) b (List.mem_of_head? hb)⟩
  · rintro ⟨hm, hmeet⟩
    refine ⟨hl, hm, fun a ha b hb => ?_⟩
    obtain ⟨l, last, rfl⟩ := (List.eq_nil_or_concat' l).resolve_left (List.ne_nil_of_mem ha)
    obtain ⟨first, m, rfl⟩ := List.exists_cons_of_ne_nil (List.ne_nil_of_mem hb)
    have hlt : key last < key first := hmeet last List.getLast?_concat first rfl
    have hle : key a ≤ key last := by
      rcases List.mem_append.mp ha with ha | ha
      · exact ((List.pairwise_append.mp hl).2.2 a ha last (List.mem_singleton_self last)).le
      · rw [List.mem_singleton.mp ha]
    have hge : key first ≤ key b := by
      rcases List.mem_cons.mp hb with rfl | hb
      · exact le_rfl
      · exact ((List.pairwise_cons.mp hm).1 b hb).le
    exact hle.trans_lt (hlt.trans_le hge)

/-- The last of a list and more of it are in ascending order if what is new is and either
replaces the list or begins above it. -/
theorem ascending_rtake_append_iff {c : ℕ} {l m : List β} (hl : Ascending key l) (hm : m.length ≤ c) :
    Ascending key ((l ++ m).rtake c) ↔
      Ascending key m ∧ (m.length = c ∨ ∀ a ∈ l.getLast?, ∀ b ∈ m.head?, key a < key b) := by
  rw [rtake_append, rtake_of_length_le hm]
  by_cases hfull : m.length = c
  · simp [hfull]
  · have hkept : Ascending key (l.rtake (c - m.length)) := hl.sublist (List.drop_sublist _ _)
    rw [ascending_append_iff hkept, getLast?_rtake (by omega), or_iff_right hfull]

/-! ### One read -/

theorem mem_of_mem_fetch {c : ι} {k : ℕ} {w : List β} {b : β} (h : b ∈ fetch key p c k w) :
    b ∈ w ∧ c < key b ∧ p b = true := by
  have := List.mem_of_mem_take h
  simpa [List.mem_filter] using this

theorem Ascending.fetch {w : List β} (hw : Ascending key w) (c : ι) (k : ℕ) :
    Ascending key (fetch key p c k w) :=
  (hw.filter _).sublist (List.take_sublist _ _)

theorem Ascending.key_le_advance {r : List β} (hr : Ascending key r) (c : ι) {b : β} (hb : b ∈ r) :
    key b ≤ advance key c r := by
  obtain ⟨ys, y, rfl⟩ := (List.eq_nil_or_concat' r).resolve_left (List.ne_nil_of_mem hb)
  rw [advance_concat]
  rcases List.mem_append.mp hb with hb | hb
  · exact ((List.pairwise_append.mp hr).2.2 b hb y (List.mem_singleton_self y)).le
  · rw [List.mem_singleton.mp hb]

/-- A read does not move the cursor back. -/
theorem le_advance_fetch (c : ι) (k : ℕ) (w : List β) : c ≤ advance key c (fetch key p c k w) := by
  rcases List.eq_nil_or_concat' (fetch key p c k w) with h | ⟨ys, y, h⟩
  · rw [h, advance_nil]
  · rw [h, advance_concat]
    exact (mem_of_mem_fetch (h ▸ List.mem_append_right ys (List.mem_singleton_self y))).2.1.le

/-- **No holes**: a read gives every wanted element of its window between the cursor
it started from and the cursor it left. -/
theorem fetch_complete {c : ι} {k : ℕ} {w : List β} (hw : Ascending key w) {b : β} (hb : b ∈ w)
    (hp : p b = true) (hc : c < key b) (hle : key b ≤ advance key c (fetch key p c k w)) :
    b ∈ fetch key p c k w := by
  have hall : b ∈ w.filter fun b => decide (c < key b) && p b := by simp [List.mem_filter, hb, hp, hc]
  have hasc : Ascending key (w.filter fun b => decide (c < key b) && p b) := hw.filter _
  rw [← List.take_append_drop k (w.filter _)] at hall hasc
  rcases List.mem_append.mp hall with hall | hall
  · exact hall
  · exfalso
    rcases List.eq_nil_or_concat' (fetch key p c k w) with h | ⟨ys, y, h⟩
    · rw [h, advance_nil] at hle
      exact absurd hc (not_lt.mpr hle)
    · have hy : y ∈ fetch key p c k w := h ▸ List.mem_append_right ys (List.mem_singleton_self y)
      rw [h, advance_concat] at hle
      exact absurd ((List.pairwise_append.mp hasc).2.2 y hy b hall) (not_lt.mpr hle)

/-- **One at a time**: a read gives its first element as a read of one element does, and
the others as a read from there. -/
theorem fetch_cons {c : ι} {k : ℕ} {w : List β} (hw : Ascending key w) {b : β} {r : List β}
    (h : fetch key p c k w = b :: r) : fetch key p c 1 w = [b] ∧ r = fetch key p (key b) (k - 1) w := by
  obtain ⟨-, hc, -⟩ := mem_of_mem_fetch (h ▸ List.mem_cons_self : b ∈ fetch key p c k w)
  unfold fetch at h ⊢
  have hasc : Ascending key (w.filter fun b => decide (c < key b) && p b) := hw.filter _
  have hlater : (w.filter fun a => decide (key b < key a) && p a) =
      (w.filter fun a => decide (c < key a) && p a).filter fun a => decide (key b < key a) := by
    rw [List.filter_filter]
    apply List.filter_congr
    intro a _
    by_cases hb : key b < key a
    · simp [hb, hc.trans hb]
    · simp [hb]
  rw [hlater]
  generalize w.filter (fun a => decide (c < key a) && p a) = f at h hasc
  cases f with
  | nil => simp at h
  | cons a f =>
    cases k with
    | zero => simp at h
    | succ k =>
      obtain ⟨rfl, rfl⟩ := List.cons.inj h
      have hgt : ∀ a' ∈ f, decide (key a < key a') = true := by simpa using (List.pairwise_cons.mp hasc).1
      rw [List.filter_cons_of_neg (by simp), List.filter_eq_self.mpr hgt]
      exact ⟨rfl, rfl⟩

/-! ### All reads -/

/-- **What a session read**, all reads together, is ascending and lies between its
first cursor and its last. -/
theorem Session.ascending {c₀ c : ι} {rs : List (Read β ι)} (h : Session key p c₀ rs c)
    (hw : ∀ r ∈ rs, Ascending key r.window) :
    c₀ ≤ c ∧ Ascending key (rs.flatMap (·.result)) ∧
      ∀ b ∈ rs.flatMap (·.result), c₀ < key b ∧ key b ≤ c ∧ p b = true := by
  induction h with
  | start => exact ⟨le_rfl, List.Pairwise.nil, by simp⟩
  | @read rs c w k _ ih =>
    obtain ⟨hle, hasc, hmem⟩ := ih fun r hr => hw r (List.mem_append_left _ hr)
    have hw' : Ascending key w := hw ⟨w, c, _⟩ (List.mem_append_right _ (List.mem_singleton_self _))
    have hadv : c ≤ advance key c (fetch key p c k w) := le_advance_fetch c k w
    simp only [List.flatMap_append, List.flatMap_singleton]
    refine ⟨hle.trans hadv, List.pairwise_append.mpr ⟨hasc, hw'.fetch c k, fun a ha b hb => ?_⟩, fun b hb => ?_⟩
    · exact (hmem a ha).2.1.trans_lt (mem_of_mem_fetch hb).2.1
    · rcases List.mem_append.mp hb with hb | hb
      · exact ⟨(hmem b hb).1, (hmem b hb).2.1.trans hadv, (hmem b hb).2.2⟩
      · obtain ⟨-, hc, hp⟩ := mem_of_mem_fetch hb
        exact ⟨hle.trans_lt hc, (hw'.fetch c k).key_le_advance c hb, hp⟩

/-- A session passes over every key between its first cursor and its last. -/
theorem Session.passed {c₀ c : ι} {rs : List (Read β ι)} (h : Session key p c₀ rs c) {i : ι} (h₀ : c₀ < i)
    (hi : i ≤ c) : ∃ r ∈ rs, r.before < i ∧ i ≤ r.after key := by
  induction h with
  | start => exact absurd h₀ (not_lt.mpr hi)
  | @read rs c w k _ ih =>
    rcases le_or_gt i c with hic | hic
    · obtain ⟨r, hr, hri⟩ := ih hic
      exact ⟨r, List.mem_append_left _ hr, hri⟩
    · exact ⟨_, List.mem_append_right _ (List.mem_singleton_self _), hic, hi⟩

/-- The cursor of a session is where it started or the key of something it read. -/
theorem Session.cursor_mem {c₀ c : ι} {rs : List (Read β ι)} (h : Session key p c₀ rs c) :
    c = c₀ ∨ ∃ b ∈ rs.flatMap (·.result), key b = c := by
  induction h with
  | start => exact .inl rfl
  | @read rs c w k _ ih =>
    rw [List.flatMap_append, List.flatMap_singleton]
    rcases List.eq_nil_or_concat' (fetch key p c k w) with h | ⟨ys, y, h⟩
    · rw [h, advance_nil, List.append_nil]
      exact ih
    · rw [h, advance_concat]
      exact .inr ⟨y, by simp, rfl⟩

/-- The cursor that a read started from is the first one or the key of an entry that was read. -/
theorem Session.before_mem {c₀ c : ι} {rs : List (Read β ι)} (h : Session key p c₀ rs c) {r : Read β ι}
    (hr : r ∈ rs) : r.before = c₀ ∨ ∃ b ∈ rs.flatMap (·.result), key b = r.before := by
  induction h with
  | start => simp at hr
  | @read rs c w k hs ih =>
    rw [List.flatMap_append]
    have hmono : ∀ {i : ι}, (∃ b ∈ rs.flatMap (·.result), key b = i) →
        ∃ b ∈ rs.flatMap (·.result) ++ [(⟨w, c, fetch key p c k w⟩ : Read β ι)].flatMap (·.result), key b = i := by
      rintro i ⟨b, hb, hk⟩
      exact ⟨b, List.mem_append_left _ hb, hk⟩
    rcases List.mem_append.mp hr with hr | hr
    · exact (ih hr).imp_right hmono
    · rw [List.mem_singleton.mp hr]
      exact hs.cursor_mem.imp_right hmono

/-- Every read of a session is a `fetch`. -/
theorem Session.result_eq {c₀ c : ι} {rs : List (Read β ι)} (h : Session key p c₀ rs c) {r : Read β ι}
    (hr : r ∈ rs) : ∃ k, r.result = fetch key p r.before k r.window := by
  induction h with
  | start => simp at hr
  | read w k _ ih =>
    rcases List.mem_append.mp hr with hr | hr
    · exact ih hr
    · rw [List.mem_singleton.mp hr]
      exact ⟨k, rfl⟩

/-- **What a session missed** was not in the window when it was passed. -/
theorem Session.missed {c₀ c : ι} {rs : List (Read β ι)} (h : Session key p c₀ rs c)
    (hw : ∀ r ∈ rs, Ascending key r.window) {r : Read β ι} (hr : r ∈ rs) {b : β} (hp : p b = true)
    (hb : r.before < key b) (hle : key b ≤ r.after key) (hmiss : b ∉ rs.flatMap (·.result)) : b ∉ r.window := by
  intro hmem
  obtain ⟨k, hk⟩ := h.result_eq hr
  unfold Read.after at hle
  rw [hk] at hle
  refine hmiss (List.mem_flatMap.mpr ⟨r, hr, ?_⟩)
  rw [hk]
  exact fetch_complete (hw r hr) hmem hp hb hle

/-- The next higher key. -/
theorem exists_next (key : β → ι) {l : List β} {i : ι} (h : ∃ b ∈ l, i < key b) :
    ∃ b ∈ l, i < key b ∧ ∀ e ∈ l, i < key e → key b ≤ key e := by
  induction l with
  | nil => simp at h
  | cons a l ih =>
    by_cases hl : ∃ b ∈ l, i < key b
    · obtain ⟨b, hb, hib, hmin⟩ := ih hl
      by_cases hab : i < key a ∧ key a ≤ key b
      · refine ⟨a, List.mem_cons_self, hab.1, fun e he hie => ?_⟩
        rcases List.mem_cons.mp he with rfl | he
        · exact le_rfl
        · exact hab.2.trans (hmin e he hie)
      · refine ⟨b, List.mem_cons_of_mem _ hb, hib, fun e he hie => ?_⟩
        rcases List.mem_cons.mp he with rfl | he
        · exact (le_total (key b) (key e)).resolve_right fun hle => hab ⟨hie, hle⟩
        · exact hmin e he hie
    · obtain ⟨b, hb, hib⟩ := h
      rcases List.mem_cons.mp hb with rfl | hb
      · refine ⟨b, List.mem_cons_self, hib, fun e he hie => ?_⟩
        rcases List.mem_cons.mp he with rfl | he
        · exact le_rfl
        · exact absurd ⟨e, he, hie⟩ hl
      · exact absurd ⟨b, hb, hib⟩ hl

/-- **What a session skipped**, a key that nothing it read has, was not in the window of
the read that gave the next higher key. -/
theorem Session.skipped {c₀ c : ι} {rs : List (Read β ι)} (h : Session key p c₀ rs c)
    (hw : ∀ r ∈ rs, Ascending key r.window) {r : Read β ι} (hr : r ∈ rs) {b : β} (hb : b ∈ r.result) {i : ι}
    (h₀ : c₀ < i) (hi : i < key b) (hmiss : ∀ e ∈ rs.flatMap (·.result), key e ≠ i)
    (hnext : ∀ e ∈ rs.flatMap (·.result), i < key e → key b ≤ key e) :
    ∀ g ∈ r.window, p g = true → key g ≠ i := by
  obtain ⟨k, hk⟩ := h.result_eq hr
  have hbr : b ∈ fetch key p r.before k r.window := hk ▸ hb
  have hbefore : r.before < i := by
    rcases h.before_mem hr with hc | ⟨e, he, hke⟩
    · rwa [hc]
    · by_contra hle
      have hie : i < key e := lt_of_le_of_ne (hke ▸ not_lt.mp hle) (hmiss e he).symm
      exact absurd (mem_of_mem_fetch hbr).2.1 (not_lt.mpr (hke ▸ hnext e he hie))
  rintro g hg hp rfl
  have hle : key g ≤ advance key r.before (fetch key p r.before k r.window) :=
    hi.le.trans (((hw r hr).fetch r.before k).key_le_advance r.before hbr)
  have hread : g ∈ r.result := hk ▸ fetch_complete (hw r hr) hg hp hbefore hle
  exact hmiss g (List.mem_flatMap.mpr ⟨r, hr, hread⟩) rfl

/-! ### Windows of consecutive numbers -/

theorem filter_lt_range' (c a m : ℕ) :
    (List.range' a m).filter (fun i => decide (c < i)) =
      List.range' (max (c + 1) a) (a + m - max (c + 1) a) := by
  induction m generalizing a with
  | zero => simp
  | succ m ih =>
    rw [List.range'_succ, List.filter_cons]
    rcases Nat.lt_or_ge c a with h | h
    · rw [if_pos (by simpa using h), ih, max_eq_right (by omega), max_eq_right (by omega),
        show a + (m + 1) - a = m + 1 by omega, List.range'_succ]
      congr 2
      omega
    · rw [if_neg (by simpa using h), ih]
      congr 1 <;> omega

/-- **Consecutive windows**: from a window of the numbers above `o`, a read of
everything gives consecutive numbers, from the cursor or from `o`, whichever is
higher. -/
theorem fetch_consecutive {key : β → ℕ} {c k o m : ℕ} {w : List β} (hw : w.map key = List.range' (o + 1) m) :
    (fetch key (fun _ => true) c k w).map key =
      List.range' (max c o + 1) (fetch key (fun _ => true) c k w).length := by
  have hmap : (fetch key (fun _ => true) c k w).map key =
      (List.range' (max (c + 1) (o + 1)) (o + 1 + m - max (c + 1) (o + 1))).take k := by
    rw [← filter_lt_range', ← hw, List.filter_map, ← List.map_take]
    simp [fetch, Function.comp_def]
  have hlen := congrArg List.length hmap
  rw [List.length_map] at hlen
  rw [hlen, hmap, show max c o + 1 = max (c + 1) (o + 1) by omega]
  generalize max (c + 1) (o + 1) = a
  generalize o + 1 + m - a = l
  rcases Nat.le_total l k with h | h
  · rw [List.take_range'_of_length_le h, List.length_range']
  · rw [List.take_range'_of_length_ge h, List.length_range']

end CanMonitor.Library
