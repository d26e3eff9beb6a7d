import CanMonitor.Library.Runs
import Mathlib.Algebra.Order.BigOperators.Group.List
import Mathlib.Algebra.Order.Group.Nat
import Mathlib.Data.List.Pairwise
import Mathlib.Logic.Function.Basic
import Mathlib.Logic.Relation

/-!
# Threads that take locks

Threads that share variables take a lock before they access one and give it back when they
leave the block that took it. Two things can go wrong: two threads access a variable at once,
or threads wait for each other's locks in a circle.

* `Cmd` — a program as far as its locks and its variables go; `Cmd.Trace` is what it may do.
  Its tests are choices: what a program does once it finds a value is one of its traces.
* `Discipline` — a rank for every lock and a lock for every variable that has one. `Cmd.Safe`
  says that a program keeps to it: it takes locks of rising rank, and accesses no variable
  without its lock. It is defined by recursion on the program, so a program is checked part
  by part.
* `step` — any number of threads, each at its next operation, in any order. A lock can be
  taken by one thread, or by several that share it. The course of a call is fixed when the
  call begins, and it is finite.
* `Sound.no_race`, `Sound.leads_to_unblocked` and `Sound.finishes` — in every state that
  threads with safe programs come to, no two of them are about to access one variable that
  has a lock, unless both read; every thread that has something to do is not blocked, or
  waits for one that is not; and all calls can be brought to their ends.
-/

namespace CanMonitor.Library.Locking

/-! ### Programs -/

/-- How a lock is held. -/
inductive Mode where
  | shared
  | exclusive
  deriving DecidableEq

/-- What a thread does. -/
inductive Op (L X : Type*) where
  | acquire (l : L) (mode : Mode)
  | release (l : L)
  | access (x : X) (write : Bool)

/-- A program: its locks, its accesses and the order in which it may come to them. The parameter
of a part that is done for any of several objects is in `K`. -/
inductive Cmd (L X K : Type*) where
  | skip
  | access (x : X) (write : Bool)
  | seq (first second : Cmd L X K)
  | choice (first second : Cmd L X K)
  | any (body : K → Cmd L X K)
  | loop (body : Cmd L X K)
  /-- A block with a lock guard. -/
  | locked (l : L) (mode : Mode) (body : Cmd L X K)

namespace Cmd

variable {L X K : Type*}

/-- Several parts, one after the other. -/
def block : List (Cmd L X K) → Cmd L X K
  | [] => skip
  | c :: cs => seq c (block cs)

/-- A variable is read. -/
def read (x : X) : Cmd L X K := access x false

/-- A variable is written. -/
def write (x : X) : Cmd L X K := access x true

/-- What may not happen. -/
def optional (c : Cmd L X K) : Cmd L X K := choice skip c

/-- What a program may do. -/
inductive Trace : Cmd L X K → List (Op L X) → Prop where
  | skip : Trace skip []
  | access (x : X) (write : Bool) : Trace (access x write) [.access x write]
  | seq {first second : Cmd L X K} {t u : List (Op L X)} : Trace first t → Trace second u → Trace (seq first second) (t ++ u)
  | first {first second : Cmd L X K} {t : List (Op L X)} : Trace first t → Trace (choice first second) t
  | second {first second : Cmd L X K} {t : List (Op L X)} : Trace second t → Trace (choice first second) t
  | any {body : K → Cmd L X K} {t : List (Op L X)} (k : K) : Trace (body k) t → Trace (any body) t
  | done (body : Cmd L X K) : Trace (loop body) []
  | again {body : Cmd L X K} {t u : List (Op L X)} : Trace body t → Trace (loop body) u → Trace (loop body) (t ++ u)
  | locked {l : L} {mode : Mode} {body : Cmd L X K} {t : List (Op L X)} :
      Trace body t → Trace (locked l mode body) (.acquire l mode :: (t ++ [.release l]))

end Cmd

/-! ### The discipline -/

/-- The order of the locks, and the lock of each variable, if it has one. -/
structure Discipline (L X : Type*) where
  rank : L → ℕ
  guard : X → Option L

namespace Discipline

variable {L X K : Type*} (D : Discipline L X)

/-- A lock that comes after all that are held. -/
def Above (held : List (L × Mode)) (l : L) : Prop := ∀ h ∈ held, D.rank h.1 < D.rank l

/-- The lock of a variable, if it has one, is held, and not shared for writing. -/
def Covers (held : List (L × Mode)) (x : X) (write : Bool) : Prop :=
  ∀ l ∈ D.guard x, ∃ mode, (l, mode) ∈ held ∧ (write = true → mode = .exclusive)

end Discipline

/-- The program keeps to the discipline where these locks are held. -/
def Cmd.Safe {L X K : Type*} (D : Discipline L X) : List (L × Mode) → Cmd L X K → Prop
  | _, skip => True
  | held, access x write => D.Covers held x write
  | held, seq first second => first.Safe D held ∧ second.Safe D held
  | held, choice first second => first.Safe D held ∧ second.Safe D held
  | held, any body => ∀ k, (body k).Safe D held
  | held, loop body => body.Safe D held
  | held, locked l mode body => D.Above held l ∧ body.Safe D ((l, mode) :: held)

namespace Discipline

variable {L X K : Type*} (D : Discipline L X)

/-- Operations that keep to the discipline, from the locks held before to those held after. The
lock taken last is given back first. -/
inductive Keeps : List (L × Mode) → List (Op L X) → List (L × Mode) → Prop where
  | nil (held : List (L × Mode)) : Keeps held [] held
  | acquire {held held' : List (L × Mode)} {l : L} {mode : Mode} {t : List (Op L X)} (h : D.Above held l) :
      Keeps ((l, mode) :: held) t held' → Keeps held (.acquire l mode :: t) held'
  | release {held held' : List (L × Mode)} {l : L} {mode : Mode} {t : List (Op L X)} :
      Keeps held t held' → Keeps ((l, mode) :: held) (.release l :: t) held'
  | access {held held' : List (L × Mode)} {x : X} {write : Bool} {t : List (Op L X)} (h : D.Covers held x write) :
      Keeps held t held' → Keeps held (.access x write :: t) held'

variable {D}

theorem Keeps.append {held held' held'' : List (L × Mode)} {t u : List (Op L X)} (ht : D.Keeps held t held')
    (hu : D.Keeps held' u held'') : D.Keeps held (t ++ u) held'' := by
  induction ht with
  | nil held => exact hu
  | acquire h _ ih => exact .acquire h (ih hu)
  | release _ ih => exact .release (ih hu)
  | access h _ ih => exact .access h (ih hu)

/-- **A safe program** keeps to the discipline, and gives back what it took. -/
theorem keeps_of_trace {c : Cmd L X K} {t : List (Op L X)} (ht : c.Trace t) {held : List (L × Mode)}
    (hc : c.Safe D held) : D.Keeps held t held := by
  induction ht generalizing held with
  | skip => exact .nil held
  | access x write => exact .access hc (.nil held)
  | seq _ _ ih₁ ih₂ => exact (ih₁ hc.1).append (ih₂ hc.2)
  | first _ ih => exact ih hc.1
  | second _ ih => exact ih hc.2
  | any k _ ih => exact ih (hc k)
  | done body => exact .nil held
  | again _ _ ih₁ ih₂ => exact (ih₁ hc).append (ih₂ hc)
  | locked _ ih => exact .acquire hc.1 ((ih hc.2).append (.release (.nil held)))

end Discipline

/-! ### Checking a program -/

section

variable {L X K : Type*} (D : Discipline L X)

/-- The program is safe wherever the locks held are one of `S`. -/
def Cmd.SafeFor (S : Set (List (L × Mode))) (c : Cmd L X K) : Prop := ∀ held ∈ S, c.Safe D held

/-- All locks are of lower rank than `n`. -/
def Discipline.below (n : ℕ) : Set (List (L × Mode)) := {held | ∀ h ∈ held, D.rank h.1 < n}

/-- A lock was taken last. -/
def Discipline.under (l : L) (mode : Mode) : Set (List (L × Mode)) := {held | ∃ before, held = (l, mode) :: before ∧ D.Above before l}

end

namespace Cmd.SafeFor

variable {L X K : Type*} {D : Discipline L X} {S T : Set (List (L × Mode))} {c c' : Cmd L X K} {l : L} {mode : Mode} {n m : ℕ}

theorem mono (h : c.SafeFor D T) (hst : S ⊆ T) : c.SafeFor D S := fun held hheld => h held (hst hheld)

theorem nil : (block ([] : List (Cmd L X K))).SafeFor D S := fun _ _ => trivial

theorem cons {cs : List (Cmd L X K)} (hc : c.SafeFor D S) (hcs : (block cs).SafeFor D S) : (block (c :: cs)).SafeFor D S :=
  fun held hheld => ⟨hc held hheld, hcs held hheld⟩

theorem choice (hc : c.SafeFor D S) (hc' : c'.SafeFor D S) : (Cmd.choice c c').SafeFor D S :=
  fun held hheld => ⟨hc held hheld, hc' held hheld⟩

theorem optional (hc : c.SafeFor D S) : c.optional.SafeFor D S := fun held hheld => ⟨trivial, hc held hheld⟩

theorem loop (hc : c.SafeFor D S) : c.loop.SafeFor D S := fun held hheld => hc held hheld

theorem any {body : K → Cmd L X K} (h : ∀ k, (body k).SafeFor D S) : (Cmd.any body).SafeFor D S :=
  fun held hheld k => h k held hheld

/-- A block that takes a lock can be called where all that are held are of lower rank. -/
theorem locked (hn : n ≤ D.rank l) (hc : c.SafeFor D (D.under l mode)) : (Cmd.locked l mode c).SafeFor D (D.below n) :=
  fun _ hheld =>
    have habove : D.Above _ l := fun h hh => Nat.lt_of_lt_of_le (hheld h hh) hn
    ⟨habove, hc _ ⟨_, rfl, habove⟩⟩

/-- Under a lock can be called what takes locks of higher rank. -/
theorem call (hn : D.rank l < n) (hc : c.SafeFor D (D.below n)) : c.SafeFor D (D.under l mode) := by
  refine hc.mono ?_
  rintro held ⟨before, rfl, habove⟩ h hh
  rcases List.mem_cons.mp hh with rfl | hh
  · exact hn
  · exact (habove h hh).trans hn

/-- What can be called with some locks held can be called with fewer. -/
theorem lower (hnm : n ≤ m) (hc : c.SafeFor D (D.below m)) : c.SafeFor D (D.below n) :=
  hc.mono fun _ hheld h hh => Nat.lt_of_lt_of_le (hheld h hh) hnm

theorem read {x : X} (hx : D.guard x = some l) : (Cmd.read x : Cmd L X K).SafeFor D (D.under l mode) := by
  rintro held ⟨before, rfl, -⟩ l' hl'
  obtain rfl := Option.some.inj (hx.symm.trans hl')
  exact ⟨mode, List.mem_cons_self, fun hwrite => absurd hwrite Bool.false_ne_true⟩

theorem write {x : X} (hx : D.guard x = some l) : (Cmd.write x : Cmd L X K).SafeFor D (D.under l .exclusive) := by
  rintro held ⟨before, rfl, -⟩ l' hl'
  obtain rfl := Option.some.inj (hx.symm.trans hl')
  exact ⟨.exclusive, List.mem_cons_self, fun _ => rfl⟩

/-- A variable without a lock may be accessed anywhere. -/
theorem unguarded {x : X} {write : Bool} (hx : D.guard x = none) : (Cmd.access x write : Cmd L X K).SafeFor D S := by
  intro held _ l hl
  rw [hx] at hl
  exact absurd hl (Option.not_mem_none l)

/-- Where no lock is held. -/
theorem safe (hc : c.SafeFor D (D.below n)) : c.Safe D [] := hc [] fun _ hh => absurd hh List.not_mem_nil

end Cmd.SafeFor

/-! ### Threads -/

/-- What each thread has still to do of the call that it is in, and who holds which lock. -/
structure State (ι L X : Type*) where
  rest : ι → List (Op L X)
  holders : L → List (ι × Mode)

/-- What can happen. -/
inductive Act (ι L X : Type*) where
  /-- A thread that is in no call begins one. -/
  | begin (i : ι) (t : List (Op L X))
  /-- A thread does what comes next. -/
  | next (i : ι)

section

variable {ι L X K : Type*}

/-- Nobody does anything. -/
def State.start (ι L X : Type*) : State ι L X := ⟨fun _ => [], fun _ => []⟩

/-- Can the lock be taken by one more? -/
def admits (holders : List (ι × Mode)) : Mode → Bool
  | .exclusive => holders.isEmpty
  | .shared => holders.all fun h => h.2 = .shared

variable [DecidableEq ι] [DecidableEq L]

/-- A step. -/
def step (s : State ι L X) : Act ι L X → Option (State ι L X)
  | .begin i t => if (s.rest i).isEmpty then some { s with rest := Function.update s.rest i t } else none
  | .next i =>
    match s.rest i with
    | [] => none
    | .acquire l mode :: t =>
      if admits (s.holders l) mode then
        some ⟨Function.update s.rest i t, Function.update s.holders l ((i, mode) :: s.holders l)⟩
      else none
    | .release l :: t =>
      some ⟨Function.update s.rest i t, Function.update s.holders l ((s.holders l).filter fun h => h.1 ≠ i)⟩
    | .access _ _ :: t => some { s with rest := Function.update s.rest i t }

/-- **The steps**: each does what comes next. -/
theorem next_cases {s s' : State ι L X} {i : ι} (h : step s (.next i) = some s') :
    (∃ l mode t, s.rest i = .acquire l mode :: t ∧ admits (s.holders l) mode = true ∧
      s' = ⟨Function.update s.rest i t, Function.update s.holders l ((i, mode) :: s.holders l)⟩) ∨
    (∃ l t, s.rest i = .release l :: t ∧
      s' = ⟨Function.update s.rest i t, Function.update s.holders l ((s.holders l).filter fun h => h.1 ≠ i)⟩) ∨
    ∃ x write t, s.rest i = .access x write :: t ∧ s' = { s with rest := Function.update s.rest i t } := by
  rw [step] at h
  split at h
  · cases h
  · rename_i l mode t hrest
    obtain ⟨hadmits, heq⟩ := Option.ite_none_right_eq_some.mp h
    exact .inl ⟨l, mode, t, hrest, hadmits, (Option.some.inj heq).symm⟩
  · rename_i l t hrest
    exact .inr (.inl ⟨l, t, hrest, (Option.some.inj h).symm⟩)
  · rename_i x write t hrest
    exact .inr (.inr ⟨x, write, t, hrest, (Option.some.inj h).symm⟩)

end

/-! ### What every state is like -/

section

variable {ι L X K : Type*} {D : Discipline L X}

/-- The list has the locks that a thread holds. -/
def State.Holds (s : State ι L X) (i : ι) (held : List (L × Mode)) : Prop :=
  ∀ l mode, (l, mode) ∈ held ↔ (i, mode) ∈ s.holders l

/-- Each lock of the list was taken after those of lower rank. -/
def Discipline.Stacked (D : Discipline L X) (held : List (L × Mode)) : Prop :=
  held.Pairwise fun a b => D.rank b.1 < D.rank a.1

/-- Every thread holds locks of rising rank and keeps to the discipline until it holds none; a
lock that is not shared is held by one. -/
structure Sound (D : Discipline L X) (s : State ι L X) : Prop where
  thread : ∀ i, ∃ held, s.Holds i held ∧ D.Stacked held ∧ D.Keeps held (s.rest i) []
  alone : ∀ l i j mode, (i, .exclusive) ∈ s.holders l → (j, mode) ∈ s.holders l → j = i

theorem sound_start : Sound D (.start ι L X) :=
  ⟨fun _ => ⟨[], fun _ _ => iff_of_false List.not_mem_nil List.not_mem_nil, .nil, .nil []⟩,
    fun _ _ _ _ h => absurd h List.not_mem_nil⟩

variable [DecidableEq ι] {s s' : State ι L X} {i : ι}

/-- The thread that has moved keeps to the discipline. -/
theorem keeps_self {held : List (L × Mode)} {t : List (Op L X)} (h : D.Keeps held t []) (rest : ι → List (Op L X)) (i : ι) :
    D.Keeps held (Function.update rest i t i) [] := by
  rwa [Function.update_self]

/-- The threads that have not moved keep to the discipline as before. -/
theorem keeps_other {held : List (L × Mode)} {rest : ι → List (Op L X)} {j : ι} (h : D.Keeps held (rest j) []) (hij : j ≠ i)
    (t : List (Op L X)) : D.Keeps held (Function.update rest i t j) [] := by
  rwa [Function.update_of_ne hij]

/-- A thread that is in no call holds nothing. -/
theorem Sound.begin (h : Sound D s) (hrest : s.rest i = []) {t : List (Op L X)} (ht : D.Keeps [] t []) :
    Sound D { s with rest := Function.update s.rest i t } := by
  refine ⟨fun j => ?_, h.alone⟩
  obtain ⟨held, hheld, hstacked, hkeeps⟩ := h.thread j
  by_cases hij : j = i
  · subst hij
    rw [hrest] at hkeeps
    cases hkeeps
    exact ⟨[], hheld, hstacked, keeps_self ht s.rest j⟩
  · exact ⟨held, hheld, hstacked, keeps_other hkeeps hij t⟩

theorem Sound.access (h : Sound D s) {x : X} {write : Bool} {t : List (Op L X)} (hrest : s.rest i = .access x write :: t) :
    Sound D { s with rest := Function.update s.rest i t } := by
  refine ⟨fun j => ?_, h.alone⟩
  obtain ⟨held, hheld, hstacked, hkeeps⟩ := h.thread j
  by_cases hij : j = i
  · subst hij
    rw [hrest] at hkeeps
    cases hkeeps with
    | access _ hkeeps => exact ⟨held, hheld, hstacked, keeps_self hkeeps s.rest j⟩
  · exact ⟨held, hheld, hstacked, keeps_other hkeeps hij t⟩

variable [DecidableEq L]

theorem Sound.acquire (h : Sound D s) {l : L} {mode : Mode} {t : List (Op L X)} (hrest : s.rest i = .acquire l mode :: t)
    (hadmits : admits (s.holders l) mode = true) :
    Sound D ⟨Function.update s.rest i t, Function.update s.holders l ((i, mode) :: s.holders l)⟩ := by
  have hold : ∀ l' j mode', (j, mode') ∈ Function.update s.holders l ((i, mode) :: s.holders l) l' ↔
      (l' = l ∧ j = i ∧ mode' = mode) ∨ (j, mode') ∈ s.holders l' := by
    intro l' j mode'
    by_cases hl : l' = l
    · subst hl
      simp [Function.update_self]
    · simp [hl]
  refine ⟨fun j => ?_, fun l' j k mode' hj hk => ?_⟩
  · obtain ⟨held, hheld, hstacked, hkeeps⟩ := h.thread j
    by_cases hij : j = i
    · subst hij
      rw [hrest] at hkeeps
      cases hkeeps with
      | acquire habove hkeeps =>
        refine ⟨(l, mode) :: held, fun l' mode' => ?_, List.pairwise_cons.mpr ⟨habove, hstacked⟩,
          keeps_self hkeeps s.rest j⟩
        rw [hold, List.mem_cons, Prod.mk.injEq, hheld]
        simp
    · refine ⟨held, fun l' mode' => ?_, hstacked, keeps_other hkeeps hij t⟩
      rw [hold, hheld]
      simp [hij]
  · rw [hold] at hj hk
    cases mode with
    | exclusive =>
      have hnone : s.holders l = [] := List.isEmpty_iff.mp hadmits
      rcases hj with ⟨rfl, rfl, -⟩ | hj
      · rcases hk with ⟨-, rfl, -⟩ | hk
        · rfl
        · rw [hnone] at hk
          exact absurd hk List.not_mem_nil
      · rcases hk with ⟨rfl, -, -⟩ | hk
        · rw [hnone] at hj
          exact absurd hj List.not_mem_nil
        · exact h.alone l' j k mode' hj hk
    | shared =>
      rcases hj with ⟨-, -, hmode⟩ | hj
      · cases hmode
      · rcases hk with ⟨rfl, -, -⟩ | hk
        · have hshared := List.all_eq_true.mp hadmits _ hj
          simp at hshared
        · exact h.alone l' j k mode' hj hk

theorem Sound.release (h : Sound D s) {l : L} {t : List (Op L X)} (hrest : s.rest i = .release l :: t) :
    Sound D ⟨Function.update s.rest i t, Function.update s.holders l ((s.holders l).filter fun h => h.1 ≠ i)⟩ := by
  have hold : ∀ l' j mode', (j, mode') ∈ Function.update s.holders l ((s.holders l).filter fun h => h.1 ≠ i) l' ↔
      (j, mode') ∈ s.holders l' ∧ ¬ (l' = l ∧ j = i) := by
    intro l' j mode'
    by_cases hl : l' = l
    · subst hl
      simp [Function.update_self]
    · simp [hl]
  refine ⟨fun j => ?_, fun l' j k mode' hj hk => ?_⟩
  · obtain ⟨held, hheld, hstacked, hkeeps⟩ := h.thread j
    by_cases hij : j = i
    · subst hij
      rw [hrest] at hkeeps
      cases hkeeps with
      | @release held _ _ mode _ hkeeps =>
        obtain ⟨hbelow, hstacked⟩ := List.pairwise_cons.mp hstacked
        refine ⟨held, fun l' mode' => ?_, hstacked, keeps_self hkeeps s.rest j⟩
        rw [hold, ← hheld, List.mem_cons]
        constructor
        · intro hmem
          refine ⟨.inr hmem, fun hl => ?_⟩
          -- a lock is not held twice
          have hlt := hbelow _ hmem
          rw [hl.1] at hlt
          exact Nat.lt_irrefl _ hlt
        · rintro ⟨hmem | hmem, hl⟩
          · exact absurd ⟨(Prod.mk.inj hmem).1, rfl⟩ hl
          · exact hmem
    · refine ⟨held, fun l' mode' => ?_, hstacked, keeps_other hkeeps hij t⟩
      rw [hold, hheld]
      simp [hij]
  · rw [hold] at hj hk
    exact h.alone l' j k mode' hj.1 hk.1

/-- A call that a thread may begin. -/
def Calls (program : ι → Cmd L X K) : Act ι L X → Prop
  | .begin i t => (program i).Trace t
  | .next _ => True

theorem Sound.next (h : Sound D s) (hs : Locking.step s (.next i) = some s') : Sound D s' := by
  rcases next_cases hs with ⟨l, mode, t, hrest, hadmits, rfl⟩ | ⟨l, t, hrest, rfl⟩ | ⟨x, write, t, hrest, rfl⟩
  · exact h.acquire hrest hadmits
  · exact h.release hrest
  · exact h.access hrest

/-- **Every step** of threads with safe programs. -/
theorem Sound.step (h : Sound D s) {program : ι → Cmd L X K} (hsafe : ∀ i, (program i).Safe D []) {a : Act ι L X}
    (ha : Calls program a) (hs : Locking.step s a = some s') : Sound D s' := by
  cases a with
  | begin i t =>
    obtain ⟨hrest, heq⟩ := Option.ite_none_right_eq_some.mp hs
    exact Option.some.inj heq ▸ h.begin (List.isEmpty_iff.mp hrest) (Discipline.keeps_of_trace ha (hsafe i))
  | next i => exact h.next hs

/-- **Every run** of threads with safe programs. -/
theorem sound_run {program : ι → Cmd L X K} (hsafe : ∀ i, (program i).Safe D []) {as : List (Act ι L X)}
    (has : ∀ a ∈ as, Calls program a) (h : run Locking.step (.start ι L X) as = some s) : Sound D s :=
  run_guarded (C := fun _ a => Calls program a) (fun _ _ _ hI ha hs => hI.step hsafe ha hs) sound_start
    (Meets.of_forall (fun a ha _ => has a ha) _) h

end

/-! ### No races -/

section

variable {ι L X : Type*} {D : Discipline L X} {s : State ι L X}

/-- Two threads are about to access a variable, and not both to read it. -/
def State.Races (s : State ι L X) (i j : ι) (x : X) : Prop :=
  ∃ write write' t t', s.rest i = .access x write :: t ∧ s.rest j = .access x write' :: t' ∧ (write = true ∨ write' = true)

/-- Who is about to access a variable holds its lock. -/
theorem Sound.holds_guard (h : Sound D s) {i : ι} {x : X} {write : Bool} {t : List (Op L X)}
    (hrest : s.rest i = .access x write :: t) {l : L} (hx : D.guard x = some l) :
    ∃ mode, (i, mode) ∈ s.holders l ∧ (write = true → mode = .exclusive) := by
  obtain ⟨held, hheld, -, hkeeps⟩ := h.thread i
  rw [hrest] at hkeeps
  cases hkeeps with
  | access hcovers _ =>
    obtain ⟨mode, hmem, hmode⟩ := hcovers l hx
    exact ⟨mode, (hheld _ _).mp hmem, hmode⟩

/-- **No two threads race** for a variable that has a lock. -/
theorem Sound.no_race (h : Sound D s) {i j : ι} (hij : i ≠ j) {x : X} {l : L} (hx : D.guard x = some l) :
    ¬ s.Races i j x := by
  rintro ⟨write, write', t, t', hi, hj, hwrite⟩
  obtain ⟨mode, hmode, hexclusive⟩ := h.holds_guard hi hx
  obtain ⟨mode', hmode', hexclusive'⟩ := h.holds_guard hj hx
  rcases hwrite with hwrite | hwrite
  · rw [hexclusive hwrite] at hmode
    exact hij (h.alone _ i j mode' hmode hmode').symm
  · rw [hexclusive' hwrite] at hmode'
    exact hij (h.alone _ j i mode hmode' hmode)

/-! ### No deadlocks -/

/-- The thread wants a lock that another holds. -/
def State.WaitsFor (s : State ι L X) (i j : ι) : Prop :=
  ∃ l mode t, s.rest i = .acquire l mode :: t ∧ ∃ mode', (j, mode') ∈ s.holders l

/-- The thread has something to do, and whatever lock it wants is free. -/
def State.Unblocked (s : State ι L X) (i : ι) : Prop :=
  ∃ op t, s.rest i = op :: t ∧ ∀ l mode, op = .acquire l mode → s.holders l = []

/-- Who holds a lock has something to do, and wants no lock of lower rank. -/
theorem Sound.holder (h : Sound D s) {l : L} {j : ι} {mode : Mode} (hj : (j, mode) ∈ s.holders l) :
    ∃ op t, s.rest j = op :: t ∧ ∀ l' mode', op = .acquire l' mode' → D.rank l < D.rank l' := by
  obtain ⟨held, hheld, -, hkeeps⟩ := h.thread j
  have hmem := (hheld l mode).mpr hj
  generalize s.rest j = rest at hkeeps
  cases hkeeps with
  | nil => exact absurd hmem List.not_mem_nil
  | @acquire _ _ l' mode' t habove _ =>
    refine ⟨_, t, rfl, fun l'' mode'' heq => ?_⟩
    cases heq
    exact habove _ hmem
  | @release _ _ _ _ t _ => exact ⟨_, t, rfl, nofun⟩
  | @access _ _ _ _ t _ _ => exact ⟨_, t, rfl, nofun⟩

/-- **No deadlock**: a thread that has something to do is unblocked, or waits for one that is,
perhaps through others. -/
theorem Sound.leads_to_unblocked (h : Sound D s) {n : ℕ} (hbound : ∀ l, D.rank l ≤ n) {i : ι} (hi : s.rest i ≠ []) :
    ∃ j, Relation.ReflTransGen s.WaitsFor i j ∧ s.Unblocked j := by
  -- the locks wanted along a chain of waiting threads are of rising rank
  have hchain : ∀ k i l mode t, s.rest i = .acquire l mode :: t → n < D.rank l + k →
      ∃ j, Relation.ReflTransGen s.WaitsFor i j ∧ s.Unblocked j := by
    intro k
    induction k with
    | zero =>
      intro i l mode t _ hlt
      exact absurd (hbound l) (Nat.not_le.mpr hlt)
    | succ k ih =>
      intro i l mode t hrest hlt
      cases hholders : s.holders l with
      | nil =>
        refine ⟨i, .refl, _, t, hrest, fun l' mode' heq => ?_⟩
        cases heq
        exact hholders
      | cons holder others =>
        obtain ⟨j, mode'⟩ := holder
        have hj : (j, mode') ∈ s.holders l := hholders ▸ List.mem_cons_self
        have hwaits : s.WaitsFor i j := ⟨l, mode, t, hrest, mode', hj⟩
        obtain ⟨op, u, hop, hhigher⟩ := h.holder hj
        cases op with
        | acquire l' mode'' =>
          have hrank := hhigher l' mode'' rfl
          obtain ⟨j', hreach, hunblocked⟩ := ih j l' mode'' u hop (by omega)
          exact ⟨j', .head hwaits hreach, hunblocked⟩
        | release l' => exact ⟨j, .single hwaits, _, u, hop, nofun⟩
        | access x write => exact ⟨j, .single hwaits, _, u, hop, nofun⟩
  obtain ⟨op, t, hrest⟩ := List.exists_cons_of_ne_nil hi
  cases op with
  | acquire l mode => exact hchain (n + 1) i l mode t hrest (by omega)
  | release l => exact ⟨i, .refl, _, t, hrest, nofun⟩
  | access x write => exact ⟨i, .refl, _, t, hrest, nofun⟩

variable [DecidableEq ι] [DecidableEq L]

/-- An unblocked thread can take its step. -/
theorem State.Unblocked.step {i : ι} (h : s.Unblocked i) :
    ∃ op t s', s.rest i = op :: t ∧ Locking.step s (.next i) = some s' ∧ s'.rest = Function.update s.rest i t := by
  obtain ⟨op, t, hrest, hfree⟩ := h
  cases op with
  | acquire l mode =>
    have hadmits : admits (s.holders l) mode = true := by
      rw [hfree l mode rfl]
      cases mode <;> rfl
    refine ⟨_, t, ⟨Function.update s.rest i t, Function.update s.holders l ((i, mode) :: s.holders l)⟩, hrest, ?_, rfl⟩
    simp only [Locking.step, hrest, hadmits, if_true]
  | release l =>
    refine ⟨_, t, ⟨Function.update s.rest i t, Function.update s.holders l ((s.holders l).filter fun h => h.1 ≠ i)⟩, hrest, ?_, rfl⟩
    simp only [Locking.step, hrest]
  | access x write =>
    refine ⟨_, t, ⟨Function.update s.rest i t, s.holders⟩, hrest, ?_, rfl⟩
    simp only [Locking.step, hrest]

/-- **All calls can be brought to their ends**, by some order of the steps that are left of them. -/
theorem Sound.finishes (h : Sound D s) {n : ℕ} (hbound : ∀ l, D.rank l ≤ n) {active : List ι}
    (hactive : ∀ i ∉ active, s.rest i = []) :
    ∃ (js : List ι) (t : State ι L X), run Locking.step s (js.map .next) = some t ∧ (∀ i, t.rest i = []) ∧
      ∀ l, t.holders l = [] := by
  generalize hsize : (active.map fun i => (s.rest i).length).sum = size
  induction size using Nat.strong_induction_on generalizing s with
  | _ size ih =>
    by_cases hdone : ∀ i, s.rest i = []
    · refine ⟨[], s, rfl, hdone, fun l => List.eq_nil_iff_forall_not_mem.mpr fun holder hholder => ?_⟩
      obtain ⟨op, t, hrest, -⟩ := h.holder hholder
      rw [hdone] at hrest
      cases hrest
    · obtain ⟨i, hi⟩ := not_forall.mp hdone
      obtain ⟨j, -, hunblocked⟩ := h.leads_to_unblocked hbound hi
      obtain ⟨op, t, s', hrest, hstep, hrest'⟩ := hunblocked.step
      have hj : j ∈ active := by
        by_contra hnot
        rw [hactive j hnot] at hrest
        cases hrest
      have hle : ∀ i, (s'.rest i).length ≤ (s.rest i).length := fun i => by
        rw [hrest', Function.update_apply]
        split_ifs with hij
        · rw [hij, hrest]
          exact Nat.le_succ _
        · exact Nat.le_refl _
      have hlt : (active.map fun i => (s'.rest i).length).sum < size := by
        rw [← hsize]
        refine List.sum_lt_sum _ _ (fun i _ => hle i) ⟨j, hj, ?_⟩
        rw [hrest', Function.update_self, hrest]
        exact Nat.lt_succ_self _
      have hactive' : ∀ i ∉ active, s'.rest i = [] := fun i hnot =>
        List.length_eq_zero_iff.mp (Nat.le_zero.mp ((hle i).trans_eq (congrArg List.length (hactive i hnot))))
      obtain ⟨js, u, hrun, hu⟩ := ih _ hlt (h.next hstep) hactive' rfl
      refine ⟨j :: js, u, ?_, hu⟩
      rw [List.map_cons, run_cons, hstep]
      exact hrun

/-- The thread that a step is the beginning of a call of. -/
def Act.begins : Act ι L X → Option ι
  | .begin i _ => some i
  | .next _ => none

/-- Who has begun no call has nothing to do. -/
theorem idle_of_run {as : List (Act ι L X)} (h : run Locking.step (.start ι L X) as = some s) {i : ι}
    (hi : i ∉ as.filterMap Act.begins) : s.rest i = [] := by
  refine run_history (I := fun as s => i ∉ as.filterMap Act.begins → s.rest i = []) (fun _ => rfl)
    (fun as t a t' _ hI hs hi => ?_) h hi
  rw [List.filterMap_append, List.mem_append, not_or] at hi
  have hidle := hI hi.1
  cases a with
  | begin j u =>
    obtain ⟨-, heq⟩ := Option.ite_none_right_eq_some.mp hs
    have hne : i ≠ j := fun hij => hi.2 (by simp [Act.begins, hij])
    rw [← Option.some.inj heq]
    exact (Function.update_of_ne hne u t.rest).trans hidle
  | next j =>
    have hne : ∀ op u, t.rest j = op :: u → i ≠ j := fun op u hrest hij => by
      rw [← hij, hidle] at hrest
      cases hrest
    rcases next_cases hs with ⟨l, mode, u, hrest, -, rfl⟩ | ⟨l, u, hrest, rfl⟩ | ⟨x, write, u, hrest, rfl⟩
    · exact (Function.update_of_ne (hne _ u hrest) u t.rest).trans hidle
    · exact (Function.update_of_ne (hne _ u hrest) u t.rest).trans hidle
    · exact (Function.update_of_ne (hne _ u hrest) u t.rest).trans hidle

end

end CanMonitor.Library.Locking
