import CanMonitor.EventLoop.Timeout

/-!
# Turns of the event loop

Between two calls of `epoll_wait` the loop thread goes through what has expired, the connections,
the streams that have overflowed and the events. Meanwhile the workers remove connections, but
register none and set no timers, so what the loop thread has left only gets less.

## What is proved

* `left_of_step` — every step of the loop thread is one less that it has left, but for those that
  accept a connection.
* `comes_back` — from wherever it is it can come back to `epoll_wait` alone.
* `turn_ends` — so every turn ends, whatever the workers do in between.
-/

namespace CanMonitor.EventLoop

open CanMonitor.Library

/-- How many steps the loop thread has left in its turn, with so many timers, entries and events:
three for a number that has expired, five for an entry, three for an event. -/
def LoopState.cost (timers entries events : ℕ) : LoopState → ℕ
  | .waiting => 0
  | .ticking => 3 * timers + 5 * entries + 3 * events + 5
  | .expiring expired => 3 * expired.length + 5 * entries + 3 * events + 4
  | .judging expired _ _ => 3 * expired.length + 5 * entries + 3 * events + 6
  | .renewing expired _ | .timedOut expired _ => 3 * expired.length + 5 * entries + 3 * events + 5
  | .pumping items overflowed => 5 * items.length + overflowed.length + 3 * events + 3
  | .updating items overflowed _ _ false => 5 * items.length + overflowed.length + 3 * events + 7
  | .updating items overflowed _ _ true => 5 * items.length + overflowed.length + 3 * events + 6
  | .overflowing items overflowed _ _ => 5 * items.length + overflowed.length + 3 * events + 5
  | .dropping overflowed => overflowed.length + 3 * events + 2
  | .handling => 3 * events + 1
  | .found _ _ => 3 * events + 3
  | .submitting _ _ | .accepting | .accepted _ | .added _ => 3 * events + 2

/-- How many steps the loop thread has left. -/
def State.left (s : State) : ℕ := s.loop.cost s.timer.heap.length s.connMap.entries.length s.batch.length

/-- A step of the loop thread, if it does not accept a connection. -/
def Act.ofTurn : Act → Option LoopAct
  | .loop (.accept _) | .loop .addEvent | .loop (.addTimer _) | .work _ _ => none
  | .loop a => some a

/-- Is it a new turn? -/
def Act.Waits : Act → Prop
  | .loop (.wait _) => True
  | _ => False

/-- Is it a new turn or a new connection? -/
def LoopAct.Begins : LoopAct → Prop
  | .wait _ | .accept _ => True
  | _ => False

variable {s s' t : State} {w : ℕ} {worker : Worker}

/-! ### What the workers leave -/

/-- No timers, no entries and no events more. -/
structure Fewer (s s' : State) : Prop where
  timers : s'.timer.heap.length ≤ s.timer.heap.length
  entries : s'.connMap.entries.length ≤ s.connMap.entries.length
  batch : s'.batch = s.batch

theorem fewer_removeEvent (s : State) (fd : Fd) (expected : Option Conn) (cause : Cause) :
    Fewer s (s.removeEvent fd expected cause) := by
  unfold State.removeEvent
  split
  · exact ⟨le_rfl, le_rfl, rfl⟩
  · split_ifs
    · exact ⟨le_rfl, le_rfl, rfl⟩
    · exact ⟨le_rfl, (List.kerase_sublist fd _).length_le, rfl⟩

theorem fewer_of_work {a : WorkAct} (ht : WorkTrans s w worker a s') : Fewer s s' := by
  cases ht with
  | failed job | removeRead job | removeWrite job =>
    obtain ⟨htimers, hentries, hbatch⟩ := fewer_removeEvent s job.conn.fd job.conn job.cause
    exact ⟨htimers, hentries, hbatch⟩
  | lost job next | modify job next => cases next <;> exact ⟨le_rfl, le_rfl, rfl⟩
  | _ => exact ⟨le_rfl, le_rfl, rfl⟩

theorem LoopState.cost_mono (loop : LoopState) {timers timers' entries entries' : ℕ} (htimers : timers' ≤ timers)
    (hentries : entries' ≤ entries) (events : ℕ) :
    loop.cost timers' entries' events ≤ loop.cost timers entries events := by
  cases loop with
  | updating items overflowed fd conn looked => cases looked <;> exact le_rfl
  | _ =>
    simp only [cost]
    omega

/-- The workers leave the loop thread no more to do. -/
theorem left_of_work {a : WorkAct} (ht : WorkTrans s w worker a s') : s'.left ≤ s.left := by
  have hfewer := fewer_of_work ht
  rw [State.left, State.left, loop_of_work ht, hfewer.batch]
  exact s.loop.cost_mono hfewer.timers hfewer.entries _

/-! ### What the loop thread does -/

/-- A step that accepts a connection is part of the event. -/
theorem left_of_accept {a : LoopAct} (ht : LoopTrans s a s') (haccept : Act.ofTurn (.loop a) = none) :
    s'.left = s.left := by
  cases ht with
  | accept fd hl | addTimer now conn hl =>
    rw [State.left, State.left, hl]
    rfl
  | addEvent conn hl =>
    rw [State.left, State.left, hl]
    unfold State.addEvent
    split_ifs <;> rfl
  | _ => cases haccept

/-- **Every other step of the loop thread** is one less. -/
theorem left_of_turn {a : LoopAct} (ht : LoopTrans s a s') (hwaits : ¬ Act.Waits (.loop a))
    (hturn : (Act.ofTurn (.loop a)).isSome) : s'.left < s.left := by
  cases ht with
  | wait => exact absurd trivial hwaits
  | accept | addEvent | addTimer => cases hturn
  | tick now hl =>
    have htick := Timer.length_tickLoop now s.timer.heap s.timer.fdExpireMap []
    simp only [State.left, hl, LoopState.cost, Timer.tick, List.length_nil] at htick ⊢
    omega
  | snapshot items hl hitems =>
    simp only [State.left, hl, LoopState.cost, hitems.length_eq, List.length_nil]
    omega
  | timeOut expired fd hl =>
    obtain ⟨htimers, hentries, hbatch⟩ := fewer_removeEvent s fd none (.timeout fd)
    simp only [State.left, hl, LoopState.cost, hbatch]
    omega
  | drop fd c overflowed hl =>
    obtain ⟨htimers, hentries, hbatch⟩ := fewer_removeEvent s fd c (.stream c)
    simp only [State.left, hl, LoopState.cost, hbatch, List.length_cons]
    omega
  | failed event batch hl hbatch =>
    have hfewer := fewer_removeEvent { s with batch } event.fd none (.event event.origin)
    have hloop : (({ s with batch } : State).removeEvent event.fd none (.event event.origin)).loop = .handling :=
      (removeEvent_loop ..).trans hl
    have hleft : s.left = 3 * (batch.length + 1) + 1 := by
      rw [State.left, hl, hbatch]
      rfl
    rw [hleft, State.left, hloop, hfewer.batch]
    simp only [LoopState.cost]
    omega
  | checkOverflow items overflowed fd c hl =>
    simp only [State.left, hl, LoopState.cost]
    split_ifs
    · simp only [List.length_append, List.length_cons, List.length_nil]
      omega
    · omega
  | gone event batch hl hbatch | pass event batch hl hbatch | found event batch conn hl hbatch
  | listen event batch hl hbatch =>
    simp only [State.left, hl, hbatch, LoopState.cost, List.length_cons]
    omega
  | modify items overflowed fd c hl =>
    simp only [State.left, hl, LoopState.cost]
    exact Nat.lt_succ_self _
  | _ =>
    simp only [State.left, ‹s.loop = _›, LoopState.cost, State.setData, List.length_cons, List.length_nil]
    omega

/-- **Every step** leaves less to do, or no more. -/
theorem left_of_step {a : Act} (hs : EventLoop.step s a = some s') (hwaits : ¬ a.Waits) :
    s'.left + a.ofTurn.toList.length ≤ s.left := by
  cases trans_of_step hs with
  | work w worker a s' hw ht => exact left_of_work ht
  | loop a s' ht =>
    cases hturn : Act.ofTurn (.loop a) with
    | none => exact (left_of_accept ht hturn).le
    | some b => exact left_of_turn ht hwaits (Option.isSome_of_eq_some hturn)

/-- The loop thread can go on without waiting for anyone. -/
theorem exists_step (h : s.loop ≠ .waiting) :
    ∃ a : LoopAct, ¬ a.Begins ∧ (EventLoop.step s (.loop a)).isSome := by
  cases hl : s.loop with
  | waiting => exact absurd hl h
  | ticking => exact ⟨.tick 0, id, by simp [EventLoop.step, loopStep, hl]⟩
  | expiring expired =>
    cases expired with
    | nil => exact ⟨.snapshot s.connMap.entries, id, by simp [EventLoop.step, loopStep, hl]⟩
    | cons fd expired => exact ⟨.lookupExpired, id, by simp [EventLoop.step, loopStep, hl]⟩
  | judging expired fd conn =>
    refine ⟨.judge, id, ?_⟩
    simp only [EventLoop.step, loopStep, hl]
    split_ifs <;> rfl
  | renewing expired fd => exact ⟨.renew 0, id, by simp [EventLoop.step, loopStep, hl]⟩
  | timedOut expired fd => exact ⟨.timeOut, id, by simp [EventLoop.step, loopStep, hl]⟩
  | pumping items overflowed =>
    cases items with
    | nil => exact ⟨.drop, id, by simp [EventLoop.step, loopStep, hl]⟩
    | cons item items =>
      obtain ⟨fd, _ | conn⟩ := item
      · exact ⟨.pump false false, id, by simp [EventLoop.step, loopStep, hl]⟩
      · refine ⟨.pump false false, id, ?_⟩
        simp only [EventLoop.step, loopStep, hl]
        split_ifs <;> rfl
  | updating items overflowed fd conn looked =>
    cases looked with
    | false =>
      refine ⟨.lookup, id, ?_⟩
      simp only [EventLoop.step, loopStep, hl]
      split_ifs <;> rfl
    | true => exact ⟨.modify, id, by simp [EventLoop.step, loopStep, hl]⟩
  | overflowing items overflowed fd conn => exact ⟨.checkOverflow, id, by simp [EventLoop.step, loopStep, hl]⟩
  | dropping overflowed =>
    cases overflowed with
    | nil => exact ⟨.drop, id, by simp [EventLoop.step, loopStep, hl]⟩
    | cons entry overflowed => exact ⟨.drop, id, by simp [EventLoop.step, loopStep, hl]⟩
  | handling =>
    cases hbatch : s.batch with
    | nil => exact ⟨.handle, id, by simp [EventLoop.step, loopStep, hl, hbatch]⟩
    | cons event batch => exact ⟨.handle, id, by simp [EventLoop.step, loopStep, hl, hbatch]⟩
  | found event conn => exact ⟨.updateTimer 0, id, by simp [EventLoop.step, loopStep, hl]⟩
  | submitting event conn => exact ⟨.submit, id, by simp [EventLoop.step, loopStep, hl]⟩
  | accepting => exact ⟨.acceptFails, id, by simp [EventLoop.step, loopStep, hl]⟩
  | accepted conn => exact ⟨.addEvent, id, by simp [EventLoop.step, loopStep, hl]⟩
  | added conn => exact ⟨.addTimer 0, id, by simp [EventLoop.step, loopStep, hl]⟩

/-- The steps that `handleNewConnection` has left with a connection. -/
def LoopState.entering : LoopState → ℕ
  | .accepted _ => 2
  | .added _ => 1
  | _ => 0

/-- With no other connection, every step of the loop thread brings it nearer to `epoll_wait`. -/
theorem entering_of_loop {a : LoopAct} (ht : LoopTrans s a s') (hbegins : ¬ a.Begins) :
    3 * s'.left + s'.loop.entering < 3 * s.left + s.loop.entering := by
  cases hturn : Act.ofTurn (.loop a) with
  | none =>
    have hleft := left_of_accept ht hturn
    cases ht with
    | accept => exact absurd trivial hbegins
    | addEvent conn hl | addTimer now conn hl =>
      rw [hleft, hl]
      exact Nat.lt_succ_self _
    | _ => cases hturn
  | some b =>
    have hwaits : ¬ Act.Waits (.loop a) := by
      cases a with
      | wait => exact hbegins
      | _ => exact id
    have hleft := left_of_turn ht hwaits (Option.isSome_of_eq_some hturn)
    have hentering : s'.loop.entering ≤ 2 := by
      unfold LoopState.entering
      split <;> omega
    omega

/-- The loop thread alone comes back to `epoll_wait`. -/
theorem comes_back (s : State) : ∃ (as : List LoopAct) (t : State), (∀ a ∈ as, ¬ a.Begins) ∧
    run EventLoop.step s (as.map .loop) = some t ∧ t.loop = .waiting := by
  induction hn : 3 * s.left + s.loop.entering using Nat.strong_induction_on generalizing s with
  | h n ih =>
    by_cases hl : s.loop = .waiting
    · exact ⟨[], s, fun a ha => absurd ha List.not_mem_nil, rfl, hl⟩
    · obtain ⟨a, hbegins, hstep⟩ := exists_step hl
      obtain ⟨s', hs⟩ := Option.isSome_iff_exists.mp hstep
      have hless : 3 * s'.left + s'.loop.entering < n := by
        rw [← hn]
        cases trans_of_step hs with
        | loop a s' ht => exact entering_of_loop ht hbegins
      obtain ⟨as, t, has, hrun, hwaiting⟩ := ih _ hless s' rfl
      refine ⟨a :: as, t, fun b hb => ?_, ?_, hwaiting⟩
      · rcases List.mem_cons.mp hb with rfl | hb
        · exact hbegins
        · exact has b hb
      · rw [List.map_cons, run_cons, hs]
        exact hrun

/-! ### Whole turns -/

/-- **Every turn ends.** In any run without another `epoll_wait`, whatever the workers do in
between, the loop thread takes no more steps than it has left, those aside that accept a
connection; and at any time it can come back to `epoll_wait` by steps of its own. What is done
under a mutex is one step here, so whoever has one gives it back. -/
theorem turn_ends {as : List Act} (hturn : ∀ a ∈ as, ¬ a.Waits) (h : run EventLoop.step s as = some t) :
    t.left + (as.filterMap Act.ofTurn).length ≤ s.left ∧
    ∃ (bs : List LoopAct) (u : State), (∀ b ∈ bs, ¬ b.Begins) ∧
      run EventLoop.step t (bs.map .loop) = some u ∧ u.loop = .waiting := by
  refine ⟨?_, comes_back t⟩
  have hmeets : Meets (fun _ a => ¬ Act.Waits a) EventLoop.step s as := Meets.of_forall (fun a ha _ => hturn a ha) s
  have hstep : ∀ s a s', True → ¬ Act.Waits a → EventLoop.step s a = some s' →
      True ∧ s'.left + a.ofTurn.toList.length ≤ s.left :=
    fun s a s' _ hwaits hs => ⟨trivial, left_of_step hs hwaits⟩
  exact (run_bounded hstep trivial hmeets h).2

/-- The loop thread is back with an event for the listening socket. -/
def oneEvent : List Act := [.loop (.wait [⟨3, { epollin := true }, .listener⟩])]

/-- The rest of the turn after `oneEvent`, of at most thirteen steps: eight, and three for a connection. -/
def acceptsOne : List Act :=
  ([.tick 0, .snapshot [⟨3, none⟩], .pump false false, .drop, .drop, .handle, .accept 5, .addEvent, .addTimer 0,
    .acceptFails, .handle] : List LoopAct).map .loop

theorem turn_ends_acceptsOne : ∃ s t, run EventLoop.step (.start 3 1) oneEvent = some s ∧
    run EventLoop.step s acceptsOne = some t ∧ s.left = 13 ∧ (acceptsOne.filterMap Act.ofTurn).length = 8 ∧
    t.left + 8 ≤ 13 := by
  have h : ((run EventLoop.step (.start 3 1) oneEvent).bind fun s =>
      (run EventLoop.step s acceptsOne).map fun _ => s.left) = some 13 := by decide +kernel
  obtain ⟨s, hs, h⟩ := Option.bind_eq_some_iff.mp h
  obtain ⟨t, ht, hleft⟩ := Option.map_eq_some_iff.mp h
  have hturn : ∀ a ∈ acceptsOne, ¬ a.Waits := by simp [acceptsOne, Act.Waits]
  have hends := (turn_ends hturn ht).1
  rw [hleft] at hends
  exact ⟨s, t, hs, ht, hleft, rfl, hends⟩

end CanMonitor.EventLoop
