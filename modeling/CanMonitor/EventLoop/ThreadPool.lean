import CanMonitor.Library.Runs
import Mathlib.Data.List.Perm.Basic

/-!
# The thread pool

`ThreadPool` has a queue of tasks, which `submit` fills and the workers empty, and a flag
that the destructor sets. One mutex guards both.

## The model

An action is what one thread does between two points at which another may come in. A
worker has a `Place` in its loop: it takes the mutex, tests the predicate of `cv_.wait`,
goes on with the mutex or blocks without it, and then exits or takes the front of the
queue. `submit` and the destructor each take the mutex once and give it back. A worker that
is blocked may wake up at any time, so a notification needs no action of its own. The
constructor has returned, and tasks return. What was submitted, taken and completed is
recorded beside the state.

`front()` of an empty queue is undefined, so there is no step that takes a task from one;
`Orderly.ready` says that no worker comes to that point.

## What is proved

* `Orderly.step` — the queue is what was submitted less what was taken, what was taken runs or
  has completed, and who has exited left nothing behind; every action keeps that.
* `tasks_run_once` — in every run tasks are taken in the order of submission, each once, no
  worker exits before the queue is empty, and when all have, every task has completed.
-/

namespace CanMonitor.EventLoop

open CanMonitor.Library

/-- Where a worker is in `workerLoop`. -/
inductive Place (Task : Type*) where
  /-- At the head of the loop. -/
  | top
  /-- Blocked in `cv_.wait`, without the mutex. -/
  | waiting
  /-- In `cv_.wait`, with the mutex, before the test of the predicate. -/
  | testing
  /-- After `cv_.wait`, with the mutex. -/
  | awake
  /-- In `task()`. -/
  | running (task : Task)
  /-- It has returned. -/
  | exited
  deriving DecidableEq, Repr

/-- The task that a worker is in. -/
def Place.task {Task : Type*} : Place Task → Option Task
  | .running task => some task
  | _ => none

/-- `ThreadPool`. -/
structure ThreadPool (Task : Type*) where
  /-- `task_queue_`. -/
  queue : List Task
  /-- `stop_`. -/
  stop : Bool
  /-- The worker that holds `mtx_`. -/
  mutex : Option ℕ
  /-- `threads_`. -/
  workers : List (Place Task)
  /-- The tasks that were submitted, in order. -/
  submitted : List Task
  /-- The tasks that were taken from the queue, in order. -/
  taken : List Task
  /-- The tasks that returned, in order. -/
  completed : List Task
  deriving DecidableEq, Repr

namespace ThreadPool

variable {Task : Type*} {s s' : ThreadPool Task} {w : ℕ} {p : Place Task}

/-- A pool with `n` workers. -/
def start (n : ℕ) : ThreadPool Task := ⟨[], false, none, List.replicate n .top, [], [], []⟩

/-- The tasks that run. -/
def running (s : ThreadPool Task) : List Task := s.workers.filterMap Place.task

/-- What a thread does next. -/
inductive Action (Task : Type*) where
  /-- `submit`. -/
  | submit (task : Task)
  /-- The destructor sets the flag. -/
  | destroy
  /-- A worker takes the mutex, at the head of its loop or when it wakes up. -/
  | lock (w : ℕ)
  /-- It tests the predicate. -/
  | test (w : ℕ)
  /-- It exits, or takes a task. -/
  | take (w : ℕ)
  /-- Its task returns. -/
  | finish (w : ℕ)
  deriving DecidableEq, Repr

/-- A worker goes to another place. -/
def move (s : ThreadPool Task) (w : ℕ) (p : Place Task) : ThreadPool Task := { s with workers := s.workers.set w p }

/-- One action. -/
def step (s : ThreadPool Task) : Action Task → Option (ThreadPool Task)
  | .submit task =>
    if s.mutex = none ∧ s.stop = false then
      some { s with queue := s.queue ++ [task], submitted := s.submitted ++ [task] }
    else none
  | .destroy => if s.mutex = none ∧ s.stop = false then some { s with stop := true } else none
  | .lock w =>
    match s.workers[w]? with
    | some .top => if s.mutex = none then some ({ s with mutex := some w }.move w .testing) else none
    | some .waiting => if s.mutex = none then some ({ s with mutex := some w }.move w .testing) else none
    | _ => none
  | .test w =>
    match s.workers[w]? with
    | some .testing =>
      if s.stop = true ∨ s.queue.isEmpty = false then some (s.move w .awake)
      else some ({ s with mutex := none }.move w .waiting)
    | _ => none
  | .take w =>
    match s.workers[w]? with
    | some .awake =>
      if s.stop = true ∧ s.queue.isEmpty = true then some ({ s with mutex := none }.move w .exited)
      else match s.queue with
        | [] => none
        | task :: rest =>
          some ({ s with queue := rest, mutex := none, taken := s.taken ++ [task] }.move w (.running task))
    | _ => none
  | .finish w =>
    match s.workers[w]? with
    | some (.running task) => some ({ s with completed := s.completed ++ [task] }.move w .top)
    | _ => none

/-- **What an action does.** -/
theorem step_cases {a : Action Task} (h : step s a = some s') :
    (∃ task, a = .submit task ∧ s.mutex = none ∧ s.stop = false ∧
      s' = { s with queue := s.queue ++ [task], submitted := s.submitted ++ [task] }) ∨
    (a = .destroy ∧ s.mutex = none ∧ s' = { s with stop := true }) ∨
    (∃ w p, a = .lock w ∧ s.workers[w]? = some p ∧ p.task = none ∧ p ≠ .exited ∧ s.mutex = none ∧
      s' = { s with mutex := some w }.move w .testing) ∨
    (∃ w, a = .test w ∧ s.workers[w]? = some .testing ∧ (s.stop = true ∨ s.queue ≠ []) ∧ s' = s.move w .awake) ∨
    (∃ w, a = .test w ∧ s.workers[w]? = some .testing ∧ s.stop = false ∧ s.queue = [] ∧
      s' = { s with mutex := none }.move w .waiting) ∨
    (∃ w, a = .take w ∧ s.workers[w]? = some .awake ∧ s.stop = true ∧ s.queue = [] ∧
      s' = { s with mutex := none }.move w .exited) ∨
    (∃ w task rest, a = .take w ∧ s.workers[w]? = some .awake ∧ s.queue = task :: rest ∧
      s' = { s with queue := rest, mutex := none, taken := s.taken ++ [task] }.move w (.running task)) ∨
    (∃ w task, a = .finish w ∧ s.workers[w]? = some (.running task) ∧
      s' = { s with completed := s.completed ++ [task] }.move w .top) := by
  cases a with
  | submit task =>
    rw [step, Option.ite_none_right_eq_some, Option.some.injEq] at h
    exact .inl ⟨task, rfl, h.1.1, h.1.2, h.2.symm⟩
  | destroy =>
    rw [step, Option.ite_none_right_eq_some, Option.some.injEq] at h
    exact .inr (.inl ⟨rfl, h.1.1, h.2.symm⟩)
  | lock w =>
    refine .inr (.inr (.inl ?_))
    unfold step at h
    simp only at h
    split at h
    · rw [Option.ite_none_right_eq_some, Option.some.injEq] at h
      exact ⟨w, .top, rfl, ‹_›, rfl, nofun, h.1, h.2.symm⟩
    · rw [Option.ite_none_right_eq_some, Option.some.injEq] at h
      exact ⟨w, .waiting, rfl, ‹_›, rfl, nofun, h.1, h.2.symm⟩
    · cases h
  | test w =>
    refine .inr (.inr (.inr ?_))
    unfold step at h
    simp only at h
    split at h
    · split_ifs at h with hready
      · exact .inl ⟨w, rfl, ‹_›, by simpa using hready, (Option.some.inj h).symm⟩
      · simp only [not_or, Bool.not_eq_true, Bool.not_eq_false, List.isEmpty_iff] at hready
        exact .inr (.inl ⟨w, rfl, ‹_›, hready.1, hready.2, (Option.some.inj h).symm⟩)
    · cases h
  | take w =>
    refine .inr (.inr (.inr (.inr (.inr ?_))))
    unfold step at h
    simp only at h
    split at h
    · split_ifs at h with hdone
      · exact .inl ⟨w, rfl, ‹_›, hdone.1, List.isEmpty_iff.mp hdone.2, (Option.some.inj h).symm⟩
      · split at h
        · cases h
        · exact .inr (.inl ⟨w, _, _, rfl, ‹_›, ‹_›, (Option.some.inj h).symm⟩)
    · cases h
  | finish w =>
    refine .inr (.inr (.inr (.inr (.inr (.inr (.inr ?_))))))
    unfold step at h
    simp only at h
    split at h
    · exact ⟨w, _, rfl, ‹_›, (Option.some.inj h).symm⟩
    · cases h

/-! ### One worker moves -/

theorem getElem?_move (s : ThreadPool Task) (w w' : ℕ) (p : Place Task) (hw : w < s.workers.length) :
    (s.move w p).workers[w']? = if w = w' then some p else s.workers[w']? := by
  rw [move, List.getElem?_set]
  simp [hw]

theorem lt_of_getElem? (h : s.workers[w]? = some p) : w < s.workers.length := (List.getElem?_eq_some_iff.mp h).1

/-- The tasks that run, but for that of the worker that moves, are the same before and after. -/
theorem running_move (h : s.workers[w]? = some p) : ∃ others, s.running.Perm (p.task.toList ++ others) ∧
    ∀ q, (s.move w q).running.Perm (q.task.toList ++ others) := by
  obtain ⟨hw, hp⟩ := List.getElem?_eq_some_iff.mp h
  have hsplit : ∀ q : Place Task, (s.workers.take w ++ q :: s.workers.drop (w + 1)).filterMap Place.task =
      (s.workers.take w).filterMap Place.task ++ (q.task.toList ++ (s.workers.drop (w + 1)).filterMap Place.task) := by
    intro q
    rw [List.filterMap_append, List.filterMap_cons]
    cases q.task <;> rfl
  have hperm : ∀ q : Place Task, ((s.workers.take w).filterMap Place.task ++
      (q.task.toList ++ (s.workers.drop (w + 1)).filterMap Place.task)).Perm
        (q.task.toList ++ ((s.workers.take w).filterMap Place.task ++
          (s.workers.drop (w + 1)).filterMap Place.task)) := by
    intro q
    rw [← List.append_assoc, ← List.append_assoc]
    exact List.perm_append_comm.append_right _
  refine ⟨(s.workers.take w).filterMap Place.task ++ (s.workers.drop (w + 1)).filterMap Place.task, ?_, fun q => ?_⟩
  · have hworkers : s.workers = s.workers.take w ++ p :: s.workers.drop (w + 1) := by
      rw [← hp, List.getElem_cons_drop, List.take_append_drop]
    have hrunning := hsplit p
    rw [← hworkers] at hrunning
    rw [running, hrunning]
    exact hperm p
  · rw [running, move, List.set_eq_take_append_cons_drop, if_pos hw, hsplit]
    exact hperm q

/-! ### The invariant -/

/-- What was submitted is in the queue, runs, or has completed. -/
structure Orderly (s : ThreadPool Task) : Prop where
  /-- The queue is what was not taken yet, in order. -/
  fifo : s.taken ++ s.queue = s.submitted
  /-- What was taken runs or has completed. -/
  runs : (s.completed ++ s.running).Perm s.taken
  /-- Who is between the test and the queue holds the mutex. -/
  held : ∀ (w : ℕ) (p : Place Task), s.workers[w]? = some p → p = .testing ∨ p = .awake → s.mutex = some w
  /-- What the predicate said still holds. -/
  ready : ∀ w : ℕ, s.workers[w]? = some Place.awake → s.stop = true ∨ s.queue ≠ []
  /-- Who has exited left nothing behind. -/
  drained : ∀ w : ℕ, s.workers[w]? = some Place.exited → s.stop = true ∧ s.queue = []

theorem running_start (n : ℕ) : (start n : ThreadPool Task).running = [] := by
  rw [running, start, List.filterMap_eq_nil_iff]
  intro p hp
  rw [List.eq_of_mem_replicate hp]
  rfl

theorem orderly_start (n : ℕ) : (start n : ThreadPool Task).Orderly := by
  have htop : ∀ {w : ℕ} {p : Place Task}, (start n : ThreadPool Task).workers[w]? = some p → p = .top :=
    fun h => List.eq_of_mem_replicate (List.mem_of_getElem? h)
  refine ⟨rfl, by rw [running_start]; exact .nil, ?_, ?_, ?_⟩
  · rintro w p hw (rfl | rfl) <;> cases htop hw
  · intro w hw
    cases htop hw
  · intro w hw
    cases htop hw

/-- With the mutex free nobody is between the test and the queue. -/
theorem Orderly.not_awake (h : s.Orderly) (hfree : s.mutex = none) (w : ℕ) : s.workers[w]? ≠ some Place.awake := by
  intro hw
  have := h.held w .awake hw (.inr rfl)
  rw [hfree] at this
  cases this

/-- What runs is kept when a worker moves on that neither takes nor completes a task. -/
theorem Orderly.runs_move (h : s.Orderly) (hw : s.workers[w]? = some p) {q : Place Task} (hq : q.task = p.task) :
    (s.completed ++ (s.move w q).running).Perm s.taken := by
  obtain ⟨others, hbefore, hafter⟩ := running_move hw
  rw [← hq] at hbefore
  exact (((hafter q).trans hbefore.symm).append_left _).trans h.runs

/-- **A worker moves**: the invariant is kept if the worker has the mutex where it needs it, and the queue
is not emptied behind anybody's back. -/
theorem Orderly.move (h : s.Orderly) (hw : s.workers[w]? = some p) {q : Place Task}
    (hworkers : s'.workers = s.workers.set w q) (hstop : s'.stop = s.stop)
    (hqueue : s'.queue = s.queue ∨ (s.queue ≠ [] ∧ s.mutex = some w))
    (hmutex : s'.mutex = s.mutex ∨ s.mutex = none ∨ s.mutex = some w)
    (hfifo : s'.taken ++ s'.queue = s'.submitted) (hruns : (s'.completed ++ s'.running).Perm s'.taken)
    (hheld : q = .testing ∨ q = .awake → s'.mutex = some w) (hready : q = .awake → s'.stop = true ∨ s'.queue ≠ [])
    (hdrained : q = .exited → s'.stop = true ∧ s'.queue = []) : s'.Orderly := by
  have hplaces : ∀ w', s'.workers[w']? = if w = w' then some q else s.workers[w']? := by
    intro w'
    rw [hworkers]
    exact getElem?_move s w w' q (lt_of_getElem? hw)
  -- nobody else is between the test and the queue, unless the mutex stays with them
  have hother : ∀ w' p', w ≠ w' → s.workers[w']? = some p' → p' = .testing ∨ p' = .awake →
      s.mutex = some w' ∧ s'.mutex = s.mutex := by
    intro w' p' hne hw' hp'
    have hholder := h.held w' p' hw' hp'
    refine ⟨hholder, ?_⟩
    rcases hmutex with hsame | hnone | hself
    · exact hsame
    · rw [hnone] at hholder
      cases hholder
    · exact absurd (Option.some.inj (hself.symm.trans hholder)) hne
  refine ⟨hfifo, hruns, fun w' p' hw' hp' => ?_, fun w' hw' => ?_, fun w' hw' => ?_⟩ <;> rw [hplaces] at hw' <;>
    split_ifs at hw' with hself
  · subst hself
    cases hw'
    exact hheld hp'
  · obtain ⟨hholder, hsame⟩ := hother w' p' hself hw' hp'
    rw [hsame, hholder]
  · cases hw'
    exact hready rfl
  · obtain ⟨hholder, -⟩ := hother w' .awake hself hw' (.inr rfl)
    rcases hqueue with hsame | ⟨-, hmine⟩
    · rw [hstop, hsame]
      exact h.ready w' hw'
    · exact absurd (Option.some.inj (hmine.symm.trans hholder)) hself
  · cases hw'
    exact hdrained rfl
  · obtain ⟨hstopped, hempty⟩ := h.drained w' hw'
    rcases hqueue with hsame | ⟨hne, -⟩
    · exact ⟨hstop.trans hstopped, hsame.trans hempty⟩
    · exact absurd hempty hne

/-- **Every action** keeps the invariant. -/
theorem Orderly.step (h : s.Orderly) {a : Action Task} (ha : ThreadPool.step s a = some s') : s'.Orderly := by
  rcases step_cases ha with ⟨task, -, hfree, hstop, rfl⟩ | ⟨-, hfree, rfl⟩ |
    ⟨w, p, -, hw, hp, -, hfree, rfl⟩ | ⟨w, -, hw, hready, rfl⟩ | ⟨w, -, hw, hstop, hempty, rfl⟩ |
    ⟨w, -, hw, hstop, hempty, rfl⟩ | ⟨w, task, rest, -, hw, hqueue, rfl⟩ | ⟨w, task, -, hw, rfl⟩
  · -- `submit`, before which nobody has exited
    refine ⟨by simp [← h.fifo], h.runs, h.held, fun w hw => absurd hw (h.not_awake hfree w), fun w hw => ?_⟩
    have := (h.drained w hw).1
    rw [hstop] at this
    cases this
  · -- the destructor
    exact ⟨h.fifo, h.runs, h.held, fun w hw => .inl rfl, fun w hw => ⟨rfl, (h.drained w hw).2⟩⟩
  · -- a worker takes the mutex
    exact h.move hw rfl rfl (.inl rfl) (.inr (.inl hfree)) h.fifo (h.runs_move hw hp.symm) (fun _ => rfl) nofun nofun
  · -- it goes on
    exact h.move hw rfl rfl (.inl rfl) (.inl rfl) h.fifo (h.runs_move hw rfl) (fun _ => h.held w _ hw (.inl rfl))
      (fun _ => hready) nofun
  · -- it blocks
    exact h.move hw rfl rfl (.inl rfl) (.inr (.inr (h.held w _ hw (.inl rfl)))) h.fifo (h.runs_move hw rfl)
      nofun nofun nofun
  · -- it exits
    exact h.move hw rfl rfl (.inl rfl) (.inr (.inr (h.held w _ hw (.inr rfl)))) h.fifo (h.runs_move hw rfl)
      nofun nofun fun _ => ⟨hstop, hempty⟩
  · -- it takes a task
    have hmine := h.held w _ hw (.inr rfl)
    have hfifo := h.fifo
    rw [hqueue, List.append_cons] at hfifo
    refine h.move hw rfl rfl (.inr ⟨by simp [hqueue], hmine⟩) (.inr (.inr hmine)) hfifo ?_ nofun nofun nofun
    obtain ⟨others, hbefore, hafter⟩ := running_move hw
    have hkept : (s.completed ++ others).Perm s.taken := (hbefore.symm.append_left s.completed).trans h.runs
    have hone : (s.completed ++ (s.move w (.running task)).running).Perm (s.completed ++ task :: others) :=
      (hafter (.running task)).append_left s.completed
    exact (hone.trans List.perm_middle).trans ((hkept.cons task).trans (List.perm_append_singleton task s.taken).symm)
  · -- its task returns
    refine h.move hw rfl rfl (.inl rfl) (.inl rfl) h.fifo ?_ nofun nofun nofun
    obtain ⟨others, hbefore, hafter⟩ := running_move hw
    have hkept : (s.completed ++ task :: others).Perm s.taken := (hbefore.symm.append_left s.completed).trans h.runs
    have hsame : (s.completed ++ [task] ++ (s.move w .top).running).Perm (s.completed ++ [task] ++ others) :=
      (hafter .top).append_left _
    rw [List.append_cons] at hkept
    exact hsame.trans hkept

theorem orderly_run {n : ℕ} {as : List (Action Task)} (h : run ThreadPool.step (start n) as = some s) : s.Orderly :=
  run_invariant (fun _ _ _ hs ha => hs.step ha) (orderly_start n) h

/-- No worker is ever added or taken away. -/
theorem length_step {a : Action Task} (ha : step s a = some s') : s'.workers.length = s.workers.length := by
  rcases step_cases ha with ⟨task, -, -, -, rfl⟩ | ⟨-, -, rfl⟩ | ⟨w, p, -, -, -, -, -, rfl⟩ | ⟨w, -, -, -, rfl⟩ |
    ⟨w, -, -, -, -, rfl⟩ | ⟨w, -, -, -, -, rfl⟩ | ⟨w, task, rest, -, -, -, rfl⟩ | ⟨w, task, -, -, rfl⟩
  · rfl
  · rfl
  all_goals exact List.length_set

theorem length_run {n : ℕ} {as : List (Action Task)} (h : run step (start n) as = some s) : s.workers.length = n :=
  run_invariant (I := fun s : ThreadPool Task => s.workers.length = n) (fun _ _ _ hs ha => (length_step ha).trans hs)
    List.length_replicate h

/-- Only the test of the queue lets a worker exit. -/
theorem queue_of_exit {a : Action Task} (ha : step s a = some s') (hbefore : s.workers[w]? ≠ some Place.exited)
    (hafter : s'.workers[w]? = some Place.exited) : s.queue = [] := by
  have hmoved : ∀ {w' : ℕ} {p q : Place Task}, s.workers[w']? = some p → (s.move w' q).workers[w]? = some Place.exited →
      q = .exited := by
    intro w' p q hw' h
    rw [getElem?_move s w' w q (lt_of_getElem? hw')] at h
    split_ifs at h
    · exact Option.some.inj h
    · exact absurd h hbefore
  rcases step_cases ha with ⟨task, -, -, -, rfl⟩ | ⟨-, -, rfl⟩ | ⟨w', p, -, hw', -, -, -, rfl⟩ | ⟨w', -, hw', -, rfl⟩ |
    ⟨w', -, hw', -, -, rfl⟩ | ⟨w', -, -, -, hempty, rfl⟩ | ⟨w', task, rest, -, hw', -, rfl⟩ | ⟨w', task, -, hw', rfl⟩
  · exact absurd hafter hbefore
  · exact absurd hafter hbefore
  · cases hmoved hw' hafter
  · cases hmoved hw' hafter
  · cases hmoved hw' hafter
  · exact hempty
  · cases hmoved hw' hafter
  · cases hmoved hw' hafter

/-- When all workers have exited, nothing runs. -/
theorem running_eq_nil (h : ∀ p ∈ s.workers, p = .exited) : s.running = [] := by
  rw [running, List.filterMap_eq_nil_iff]
  intro p hp
  rw [h p hp]
  rfl

/-- **Every task runs once**: in every run of a pool with workers, tasks leave the queue in the
order of submission; what has left it runs or has completed, each task once; no worker exits
before the queue is empty, and then it stays empty; and when all have exited, every task that
was submitted has completed. -/
theorem tasks_run_once {n : ℕ} (hn : 0 < n) {as : List (Action Task)} (h : run step (start n) as = some s) :
    s.taken ++ s.queue = s.submitted ∧ (s.completed ++ s.running).Perm s.taken ∧
      s.submitted.length = s.completed.length + s.running.length + s.queue.length ∧
      (∀ (a : Action Task) (s' : ThreadPool Task) (w : ℕ), step s a = some s' →
        s.workers[w]? ≠ some Place.exited → s'.workers[w]? = some Place.exited → s.queue = []) ∧
      (.exited ∈ s.workers → s.queue = []) ∧
      ((∀ p ∈ s.workers, p = .exited) → s.completed.Perm s.submitted) := by
  have horder := orderly_run h
  have hdrained : .exited ∈ s.workers → s.queue = [] := by
    intro hexited
    obtain ⟨w, hw⟩ := List.mem_iff_getElem?.mp hexited
    exact (horder.drained w hw).2
  refine ⟨horder.fifo, horder.runs, ?_, fun a s' w => queue_of_exit, hdrained, fun hall => ?_⟩
  · rw [← horder.fifo, List.length_append, ← horder.runs.length_eq, List.length_append]
  · obtain ⟨p, hp⟩ : ∃ p, p ∈ s.workers := List.exists_mem_of_length_pos (length_run h ▸ hn)
    have hruns := horder.runs
    rw [running_eq_nil hall, List.append_nil] at hruns
    rw [← horder.fifo, hdrained (hall p hp ▸ hp), List.append_nil]
    exact hruns

/-- Two workers and three tasks, the last of which is left when the destructor comes. -/
def drainedAtStop : List (Action ℕ) :=
  [.lock 0, .test 0, .submit 10, .submit 11, .lock 0, .test 0, .take 0, .lock 1, .test 1, .take 1, .submit 12, .destroy,
    .finish 1, .lock 1, .test 1, .take 1, .finish 0, .lock 0, .test 0, .take 0, .finish 1, .lock 1, .test 1, .take 1]

theorem tasks_run_once_drained : ∃ s, run step (start 2) drainedAtStop = some s ∧ s.completed = [11, 10, 12] ∧
    (∀ p ∈ s.workers, p = .exited) ∧ s.completed.Perm s.submitted := by
  have hall : ∀ p ∈ [Place.exited, Place.exited], p = (Place.exited : Place ℕ) := by decide
  have hrun : run step (start 2) drainedAtStop = some _ := rfl
  exact ⟨_, hrun, rfl, hall, (tasks_run_once (by decide) hrun).2.2.2.2.2 hall⟩

end ThreadPool

end CanMonitor.EventLoop
