import CanMonitor.Connection.System

/-!
# Write wake-ups

A connection with output to write must be woken by the socket: its mask must contain
`EPOLLOUT`. Whoever queues output asks for that afterwards with `updateEvent`;
`handleWrite`, when it has found the buffer empty, asks for `EPOLLIN` alone.

The test of the buffer and the `epoll_ctl` are not one step. Between them another
thread may queue a response and make its own `epoll_ctl`, which the one of `handleWrite`
then undoes: the response stays where it is and nobody is woken (`wake_up_lost`).

In a run in which `handleWrite` never makes its last `epoll_ctl` over output whose own
`epoll_ctl` is already made (`Covered`), no wake-up is lost (`wake_up_kept`): whenever
there is output, either the mask contains `EPOLLOUT` or some handler is yet to put it
there (`Awake`).
-/

namespace CanMonitor.Connection

open CanMonitor.Library CanMonitor.Can CanMonitor.Http

/-- Some handler has queued output, or may have, and is yet to ask for `EPOLLOUT`. -/
def Owing (s : State) : Prop :=
  (∃ next found, s.reader = .updating next found) ∨ (∃ found, s.pump = .updating found) ∨
    ∃ rest seen, s.pump = .sending rest seen true

/-- The last `epoll_ctl` of `handleWrite` is made with the buffer empty, or while some
handler is yet to make its own. -/
def Covered (s : State) : Act → Prop
  | .modify .writer => s.out.sendBuf = [] ∨ Owing s
  | _ => True

instance (s : State) : Decidable (Owing s) :=
  decidable_of_iff (s.reader matches .updating _ _ ∨ s.pump matches .updating _ ∨ s.pump matches .sending _ _ true) (by
    unfold Owing
    cases s.reader <;> rcases s.pump with _ | ⟨_, _, _ | _⟩ | _ <;> simp)

instance : ∀ s a, Decidable (Covered s a) := fun s a =>
  match a with
  | .modify .writer => inferInstanceAs (Decidable (s.out.sendBuf = [] ∨ Owing s))
  | .append _ | .remove | .lockRead | .recv _ | .drained | .hangUp | .parse _ | .respond | .startSse _ | .query
  | .sendFrame | .endPump _ | .lockWrite | .copy | .write _ | .erase | .again | .fail | .lookup _
  | .modify .reader | .modify .pump => isTrue trivial

/-- Output has someone to be woken for it. -/
def Awake (s : State) : Prop :=
  s.registered = true → s.out.sendBuf ≠ [] → s.interest.epollout = true ∨ Owing s

theorem awake_start (capacity : ℕ) (hc : 0 < capacity) (hasRuntime : Bool) :
    Awake (.start capacity hc hasRuntime) := fun _ hne => absurd rfl hne

/-- The mask of a registered connection is the one asked for last. -/
theorem setInterest_interest {s : State} (h : s.registered = true) (interest : Interest) :
    (s.setInterest interest).interest = interest := by
  rw [State.setInterest, if_pos h]

@[simp] theorem interest_epollout (next : AfterUpdate) : next.interest.epollout = true := by
  cases next <;> rfl

/-- Bytes leaving the buffer wake nobody and are owed by nobody. -/
theorem Awake.shrink {s : State} (h : Awake s) {out : Output} (hout : out.sendBuf <:+ s.out.sendBuf) :
    Awake { s with out } := by
  intro hreg hne
  refine h hreg fun hnil => hne ?_
  rw [hnil] at hout
  exact List.suffix_nil.mp hout

/-- Whoever was owing before the reader moved, if it was not the reader, is owing after. -/
theorem Owing.moveReader {s : State} (h : Owing s) (hr : ∀ next found, s.reader ≠ .updating next found)
    (reader : ReaderState) : Owing { s with reader } := by
  rcases h with ⟨next, found, hu⟩ | hpump
  · exact absurd hu (hr next found)
  · exact .inr hpump

/-- The end of a pump does not leave output unowed. -/
theorem Owing.endPump {s : State} (h : Owing s) {rest : List CanFrame} {seen : FrameStore} {appended : Bool}
    (hp : s.pump = .sending rest seen appended) : Owing { s with pump := .ending appended } := by
  rcases h with hr | ⟨found, hu⟩ | ⟨rest', seen', hu⟩
  · exact .inl hr
  · rw [hp] at hu
    cases hu
  · rw [hp] at hu
    cases hu
    exact .inr (.inl ⟨false, rfl⟩)

/-- **Every covered step** leaves output awake. -/
theorem Awake.step (s : State) (a : Act) (s' : State) (h : Awake s) (hc : Covered s a)
    (hs : step s a = some s') : Awake s' := by
  cases trans_of_step hs with
  | append frame => exact h
  | remove => exact fun hreg => nomatch hreg
  | lockRead hr => exact fun hreg hne => (h hreg hne).imp_right fun ho => ho.moveReader (by simp [hr]) _
  | recv chunk hr => exact h
  | drained hr => exact fun hreg hne => (h hreg hne).imp_right fun ho => ho.moveReader (by simp [hr]) _
  | hangUp hr => exact fun hreg => nomatch hreg
  | wait around hr _ => exact fun hreg hne => (h hreg hne).imp_right fun ho => ho.moveReader (by simp [hr]) _
  | bad => exact fun _ _ => .inr (.inl ⟨_, _, rfl⟩)
  | dispatch around req _ _ hr _ _ =>
    exact fun hreg hne => (h hreg hne).imp_right fun ho => ho.moveReader (by simp [hr]) _
  | dispatchStream around req _ _ hr _ _ =>
    exact fun hreg hne => (h hreg hne).imp_right fun ho => ho.moveReader (by simp [hr]) _
  | respond => exact fun _ _ => .inr (.inl ⟨_, _, rfl⟩)
  | startSse => exact fun _ _ => .inr (.inl ⟨_, _, rfl⟩)
  | query hp _ _ =>
    intro hreg hne
    apply (h hreg hne).imp_right
    intro ho
    rcases ho with hr | ⟨found, hu⟩ | ⟨rest, seen, hu⟩
    · exact .inl hr
    · rw [hp] at hu; cases hu
    · rw [hp] at hu; cases hu
  | sent => exact fun _ _ => .inr (.inr (.inr ⟨_, _, rfl⟩))
  | unsent frame rest seen appended hp _ => exact fun hreg hne => (h hreg hne).imp_right fun ho => ho.endPump hp
  | quiet now seen appended hp => exact fun hreg hne => (h hreg hne).imp_right fun ho => ho.endPump hp
  | heartbeat => exact fun _ _ => .inr (.inr (.inl ⟨_, rfl⟩))
  | noHeartbeat now seen appended hp _ => exact fun hreg hne => (h hreg hne).imp_right fun ho => ho.endPump hp
  | writing _ b out _ hb hout => exact h.shrink (Output.step_writer hb hout).1
  | fail => exact fun hreg => nomatch hreg
  | lookupReader => exact fun _ _ => .inr (.inl ⟨_, _, rfl⟩)
  | lostReader next _ hlost =>
    intro hreg
    rw [afterUpdate_registered, hlost] at hreg
    cases hreg
  | lookupPump => exact fun _ _ => .inr (.inr (.inl ⟨_, rfl⟩))
  | lostPump _ hlost =>
    intro hreg
    rw [show s.registered = false from hlost] at hreg
    cases hreg
  | modifyReader next hr =>
    intro hreg _
    replace hreg : s.registered = true := by simpa using hreg
    rw [afterUpdate_interest, setInterest_interest hreg]
    exact .inl (interest_epollout next)
  | modifyPump hp =>
    intro hreg _
    replace hreg : s.registered = true := hreg
    exact .inl (congrArg Interest.epollout (setInterest_interest hreg _))
  | modifyWriter hw =>
    -- the mask loses `EPOLLOUT`: nothing is there, or somebody is yet to ask for it
    intro _ hne
    replace hne : s.out.sendBuf ≠ [] := hne
    rcases hc with hempty | ho
    · exact absurd hempty hne
    · exact .inr ho

/-- The condition is what it takes: a step that does not meet it leaves output for which
nobody will be woken. -/
theorem Awake.not_of_uncovered {s s' : State} (hreg : s.registered = true) (hc : ¬ Covered s (.modify .writer))
    (hs : Connection.step s (.modify .writer) = some s') : ¬ Awake s' := by
  obtain ⟨hne, ho⟩ : s.out.sendBuf ≠ [] ∧ ¬ Owing s := not_or.mp hc
  obtain ⟨-, rfl⟩ := step_modifyWriter hs
  intro hawake
  rcases hawake hreg hne with hout | ho'
  · rw [show (s.setInterest ⟨true, false⟩).interest = ⟨true, false⟩ from setInterest_interest hreg _] at hout
    cases hout
  · exact ho ho'

/-- **No wake-up is lost** in a run in which `handleWrite` makes its last `epoll_ctl` only
with the buffer empty or before the `epoll_ctl` of whoever filled it: where no handler is
at work on the connection and it is registered, output has `EPOLLOUT` in the mask. -/
theorem wake_up_kept {capacity : ℕ} {hc : 0 < capacity} {hasRuntime : Bool} {as : List Act} {s : State}
    (h : run step (.start capacity hc hasRuntime) as = some s)
    (hcovered : Meets Covered step (.start capacity hc hasRuntime) as)
    (hreader : s.reader = .idle) (hpump : s.pump = .idle) (hreg : s.registered = true)
    (hne : s.out.sendBuf ≠ []) : s.interest.epollout = true := by
  have hawake : Awake s := run_guarded Awake.step (awake_start capacity hc hasRuntime) hcovered h
  rcases hawake hreg hne with hout | ⟨next, found, hu⟩ | ⟨found, hu⟩ | ⟨rest, seen, hu⟩
  · exact hout
  · rw [hreader] at hu; cases hu
  · rw [hpump] at hu; cases hu
  · rw [hpump] at hu; cases hu

/-- A call of `handleRead` that answers one request, up to its `epoll_ctl`. -/
def answer : List Act :=
  [.lockRead, .recv pageRequest, .drained, .parse plainSurroundings, .respond, .lookup .reader, .modify .reader,
    .parse plainSurroundings]

/-- Two requests, the second answered after `handleWrite` has sent the answer to the
first and found the buffer empty, and before it makes its `epoll_ctl`. -/
def lateWriter : List Act :=
  answer ++ [.lockWrite, .copy, .write 152, .erase, .copy, .lookup .writer] ++ answer ++ [.modify .writer]

/-- The answer to the second request stays in the buffer of a connection that waits for
input alone. -/
theorem wake_up_lost : ∃ s, run step (.start 8 (by decide) true) lateWriter = some s ∧
    s.reader = .idle ∧ s.pump = .idle ∧ s.out.writer = .idle ∧ s.registered = true ∧ s.out.sendBuf ≠ [] ∧
      s.interest.epollout = false := by
  have h : (run step (.start 8 (by decide) true) lateWriter).map
      (fun s => (s.reader, s.pump, s.out.writer, s.registered, s.out.sendBuf.length, s.interest.epollout)) =
        some (.idle, .idle, .idle, true, 152, false) := by decide +kernel
  obtain ⟨s, hs, hview⟩ := Option.map_eq_some_iff.mp h
  simp only [Prod.mk.injEq] at hview
  obtain ⟨hreader, hpump, hwriter, hreg, hlen, hout⟩ := hview
  exact ⟨s, hs, hreader, hpump, hwriter, hreg, List.ne_nil_of_length_pos (by omega), hout⟩

/-- Two answers, with the `epoll_ctl` of `handleWrite` before the second request. -/
def earlyWriter : List Act :=
  answer ++ [.lockWrite, .copy, .write 152, .erase, .copy, .lookup .writer] ++ [.modify .writer] ++ answer

theorem wake_up_kept_twice : ∃ s, run step (.start 8 (by decide) true) earlyWriter = some s ∧
    s.out.sendBuf.length = 152 ∧ s.interest.epollout = true := by
  have h : (run step (.start 8 (by decide) true) earlyWriter).map
      (fun s => (s.reader, s.pump, s.registered, s.out.sendBuf.length)) = some (.idle, .idle, true, 152) := by
    decide +kernel
  obtain ⟨s, hs, hview⟩ := Option.map_eq_some_iff.mp h
  simp only [Prod.mk.injEq] at hview
  obtain ⟨hreader, hpump, hreg, hlen⟩ := hview
  have hcovered : Meets Covered step (.start 8 (by decide) true) earlyWriter := by decide +kernel
  exact ⟨s, hs, hlen, wake_up_kept hs hcovered hreader hpump hreg (List.ne_nil_of_length_pos (by omega))⟩

end CanMonitor.Connection
