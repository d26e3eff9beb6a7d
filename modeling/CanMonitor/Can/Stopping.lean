import CanMonitor.Can.Monitoring

/-!
# Stopping

`CanReceiver::stop` clears `running_` and joins the receive thread, which looks at `running_`
at the top of its loop only. So `stop` waits for at most one round of it, and a frame that is
read in that round is still stored.

* `next_told` — a step of a thread that was told takes it nearer to the end of its loop.
* `Kept.step` — the thread of a runtime that is stopping was told, and every descriptor has an
  owner, whoever calls.
* `stop_returns` — `stop` returns: at most six steps of the thread and one frame later, and
  nothing is left open or in hand.
-/

namespace CanMonitor.Can

open CanMonitor.Library

/-! ### A thread that was told -/

/-- How many steps the thread is at most from the end of its loop, when it was told. -/
def Place.stepsLeft : Place → ℕ
  | .left => 0
  | .test => 1
  | .append _ => 2
  | .record _ => 3
  | .read _ => 4
  | .poll _ => 5
  | .load => 6

/-- How many frames a thread that was told may still accept until the end of its loop. -/
def Place.readsLeft : Place → ℕ
  | .load | .poll _ | .read _ => 1
  | _ => 0

theorem Place.stepsLeft_le (place : Place) : place.stepsLeft ≤ 6 := by
  cases place <;> simp [stepsLeft]

theorem Place.readsLeft_le (place : Place) : place.readsLeft ≤ 1 := by
  cases place <;> simp [readsLeft]

/-- **A step** of a thread that was told. -/
theorem next_told {receiver : CanReceiver} (htold : receiver.running = false) {place place' : Place}
    {action : ReceiveAction} (h : receiver.next place action = some place') :
    place'.stepsLeft < place.stepsLeft ∧
      place'.readsLeft + action.accepted.toList.length ≤ place.readsLeft := by
  cases receiveTrans_of_next h with
  | goOn hrunning =>
    rw [htold] at hrunning
    cases hrunning
  | refused fd bytes kernelFrame timestampNs hframe | accepted fd bytes kernelFrame timestampNs frame hframe =>
    rw [hframe]
    simp [Place.stepsLeft, Place.readsLeft]
  | _ =>
    refine ⟨by simp [Place.stepsLeft], ?_⟩
    change _ + 0 ≤ _
    simp [Place.readsLeft]

/-- The steps that are the thread's next: what a system call answers is not its choice. -/
inductive Due : Place → ReceiveAction → Prop where
  | test : Due .test .test
  | load : Due .load .load
  | poll (fd : ℕ) (outcome : PollOutcome) : Due (.poll fd) (.poll outcome)
  | read (fd : ℕ) (outcome : ReadOutcome) : Due (.read fd) (.read outcome)
  | record (frame : CanFrame) : Due (.record frame) .record
  | append (frame : CanFrame) : Due (.append frame) .append

/-- The thread is never stuck, whatever the call answers. -/
theorem Due.next {place : Place} {action : ReceiveAction} (h : Due place action) (receiver : CanReceiver) :
    (receiver.next place action).isSome := by
  cases h with
  | load =>
    unfold CanReceiver.next
    cases receiver.socketFd <;> rfl
  | poll fd outcome => cases outcome <;> rfl
  | read fd outcome => cases outcome <;> rfl
  | _ => rfl

/-- The thread has a next step until it has left. -/
theorem exists_due {place : Place} (h : place ≠ .left) : ∃ action, Due place action := by
  cases place with
  | test => exact ⟨_, .test⟩
  | load => exact ⟨_, .load⟩
  | poll fd => exact ⟨_, .poll fd .timeout⟩
  | read fd => exact ⟨_, .read fd (.failed eagain)⟩
  | record frame => exact ⟨_, .record frame⟩
  | append frame => exact ⟨_, .append frame⟩
  | left => exact absurd rfl h

namespace Monitoring

/-- The step of the receive thread in a step, if it is one. -/
def Action.ofThread : Action → Option ReceiveAction
  | .receive action => some action
  | _ => none

/-- While `stop` waits the thread has been told, and every descriptor has an owner or is closed. -/
structure Kept (s : State) : Prop where
  told : s.stopping = true → ∀ receiver, s.runtime.receiver = some receiver → receiver.running = false
  balanced : s.sockets.ledger.Balanced s.runtime.held

theorem kept_new {runtime : CanRuntime} (h : runtime.Stopped) : Kept { runtime } :=
  ⟨nofun, h.held.symm ▸ Ledger.balanced_new⟩

/-- A step of the thread, as a step of the loop. -/
theorem receive_next {s s' : State} {action : ReceiveAction} (h : step s (.receive action) = some s') :
    ∃ receiver place place', s.runtime.receiver = some receiver ∧ receiver.thread = some place ∧
      receiver.next place action = some place' ∧
      s'.runtime.receiver = some { receiver with thread := some place' } ∧
      s'.runtime.sender = s.runtime.sender ∧ s'.sockets = s.sockets ∧ s'.stopping = s.stopping := by
  obtain ⟨receiver, hreceiver, h⟩ := Option.bind_eq_some_iff.mp h
  obtain ⟨r, hstep, rfl⟩ := Option.map_eq_some_iff.mp h
  obtain ⟨place, hplace, hmap⟩ := Option.bind_eq_some_iff.mp hstep
  obtain ⟨place', hnext, rfl⟩ := Option.map_eq_some_iff.mp hmap
  exact ⟨receiver, place, place', hreceiver, hplace, hnext, rfl, rfl, rfl, rfl⟩

/-- **Every step** keeps what holds while `stop` waits. -/
theorem Kept.step {s s' : State} {a : Action} (h : Kept s) (howned : Owned s) (hstep : step s a = some s') :
    Kept s' := by
  cases a with
  | start answers =>
    change (if s.stopping then none else some { s with
      runtime := (s.runtime.start answers s.sockets).2.1
      sockets := (s.runtime.start answers s.sockets).2.2 }) = some s' at hstep
    split_ifs at hstep with hstopping
    obtain rfl := Option.some.inj hstep
    refine ⟨fun hwaits => absurd hwaits hstopping, ?_⟩
    have hidle : s.stopping = false := by simpa using hstopping
    rcases howned.idle hidle with hstopped | ⟨hrunning, -⟩
    · exact (CanRuntime.Accounted.start ⟨.inl hstopped, h.balanced⟩ answers).balanced
    · dsimp only
      unfold CanRuntime.start
      rw [if_pos hrunning]
      exact h.balanced
  | stop =>
    obtain rfl := stop_cases hstep
    refine ⟨fun _ receiver hreceiver => ?_, (CanRuntime.held_requestStop s.runtime).symm ▸ h.balanced⟩
    obtain ⟨receiver₀, -, rfl⟩ := Option.map_eq_some_iff.mp hreceiver
    rfl
  | joined =>
    obtain ⟨-, rfl⟩ := joined_cases hstep
    obtain ⟨hstopped, hbalanced⟩ := CanRuntime.finishStop_spec s.runtime h.balanced
    exact ⟨nofun, hstopped.held.symm ▸ hbalanced⟩
  | receive action =>
    obtain ⟨receiver, place, place', hreceiver, -, -, hreceiver', hsender, hsockets, hstopping⟩ := receive_next hstep
    refine ⟨fun hwaits receiver' heq => ?_, ?_⟩
    · rw [hreceiver'] at heq
      obtain rfl := Option.some.inj heq
      exact h.told (hstopping ▸ hwaits) receiver hreceiver
    · have hheld : s'.runtime.held = s.runtime.held := by
        unfold CanRuntime.held
        rw [hsender, hreceiver, hreceiver']
        rfl
      rw [hsockets, hheld]
      exact h.balanced
  | queryFrames after idFilter limit =>
    cases hstep
    exact h
  | busStats now =>
    cases hstep
    exact ⟨h.told, h.balanced⟩

theorem Kept.run {s t : State} (h : Kept s) (howned : Owned s) {actions : List Action}
    (hrun : run Monitoring.step s actions = some t) : Kept t :=
  (run_invariant (I := fun s => Kept s ∧ Owned s) (fun _ _ _ hs hstep => ⟨hs.1.step hs.2 hstep, hs.2.step hstep⟩)
    ⟨h, howned⟩ hrun).1

/-! ### While `stop` waits -/

/-- How many steps the thread may still take. -/
def State.stepsLeft (s : State) : ℕ := s.place.elim 0 Place.stepsLeft

/-- How many frames the thread may still accept. -/
def State.readsLeft (s : State) : ℕ := s.place.elim 0 Place.readsLeft

theorem State.stepsLeft_le (s : State) : s.stepsLeft ≤ 6 := by
  unfold State.stepsLeft
  cases s.place with
  | none => exact Nat.zero_le _
  | some place => exact place.stepsLeft_le

theorem State.readsLeft_le (s : State) : s.readsLeft ≤ 1 := by
  unfold State.readsLeft
  cases s.place with
  | none => exact Nat.zero_le _
  | some place => exact place.readsLeft_le

/-- `stop` waits for the receive thread. -/
structure Waiting (s : State) : Prop where
  kept : Kept s
  owned : Owned s
  stopping : s.stopping = true

/-- **A step while `stop` waits**: of the thread, which gets nearer to the end, or of somebody who asks. -/
theorem Waiting.step {s s' : State} {a : Action} (h : Waiting s) (hjoined : a ≠ .joined)
    (hstep : step s a = some s') :
    Waiting s' ∧ s'.stepsLeft + a.ofThread.toList.length ≤ s.stepsLeft ∧
      s'.readsLeft + a.accepted.toList.length ≤ s.readsLeft := by
  have hkept := h.kept.step h.owned hstep
  have howned := h.owned.step hstep
  cases a with
  | start answers =>
    change (if s.stopping then none else _) = some s' at hstep
    rw [if_pos h.stopping] at hstep
    cases hstep
  | stop =>
    change (if s.stopping then none else _) = some s' at hstep
    rw [if_pos h.stopping] at hstep
    cases hstep
  | joined => exact absurd rfl hjoined
  | receive action =>
    obtain ⟨receiver, place, place', hreceiver, hplace, hnext, hreceiver', -, -, hstopping⟩ := receive_next hstep
    obtain ⟨hsteps, hreads⟩ := next_told (h.kept.told h.stopping receiver hreceiver) hnext
    have hs : s.place = some place := by
      unfold State.place
      rw [hreceiver]
      exact hplace
    have hs' : s'.place = some place' := by
      unfold State.place
      rw [hreceiver']
      rfl
    refine ⟨⟨hkept, howned, hstopping.trans h.stopping⟩, ?_, ?_⟩
    · unfold State.stepsLeft
      rw [hs, hs']
      exact hsteps
    · unfold State.readsLeft
      rw [hs, hs']
      exact hreads
  | queryFrames after idFilter limit =>
    cases hstep
    exact ⟨h, le_refl _, le_refl _⟩
  | busStats now =>
    cases hstep
    exact ⟨⟨hkept, howned, h.stopping⟩, le_refl _, le_refl _⟩

/-- **Any number of steps** while `stop` waits: the thread takes six at most, and accepts one frame
at most. -/
theorem Waiting.run {s t : State} (h : Waiting s) {actions : List Action} (hjoined : Action.joined ∉ actions)
    (hrun : run Monitoring.step s actions = some t) :
    Waiting t ∧ (actions.filterMap Action.ofThread).length ≤ 6 ∧ (actions.filterMap Action.accepted).length ≤ 1 := by
  have hmeets : Meets (fun _ a => a ≠ Action.joined) Monitoring.step s actions :=
    Meets.of_forall (fun a ha _ => ne_of_mem_of_not_mem ha hjoined) s
  have hsteps : ∀ s a s', Waiting s → a ≠ Action.joined → Monitoring.step s a = some s' →
      Waiting s' ∧ s'.stepsLeft + a.ofThread.toList.length ≤ s.stepsLeft := fun _ _ _ hs hjoined hstep =>
    (hs.step hjoined hstep).imp_right And.left
  have hreads : ∀ s a s', Waiting s → a ≠ Action.joined → Monitoring.step s a = some s' →
      Waiting s' ∧ s'.readsLeft + a.accepted.toList.length ≤ s.readsLeft := fun _ _ _ hs hjoined hstep =>
    (hs.step hjoined hstep).imp_right And.right
  obtain ⟨hwaiting, hsteps⟩ := run_bounded hsteps h hmeets hrun
  obtain ⟨-, hreads⟩ := run_bounded hreads h hmeets hrun
  have hsix := s.stepsLeft_le
  have hone := s.readsLeft_le
  exact ⟨hwaiting, by omega, by omega⟩

/-- While `stop` waits the thread can go on, whatever its call answers, or has left. -/
theorem due_or_left (s : State) :
    (∃ place, s.place = some place ∧ place ≠ .left ∧ ∀ action, Due place action → (step s (.receive action)).isSome) ∨
      s.place = none ∨ s.place = some .left := by
  cases hplace : s.place with
  | none => exact .inr (.inl rfl)
  | some place =>
    by_cases hleft : place = .left
    · exact .inr (.inr (congrArg some hleft))
    · refine .inl ⟨place, rfl, hleft, fun action hdue => ?_⟩
      obtain ⟨receiver, hreceiver, hthread⟩ := Option.bind_eq_some_iff.mp hplace
      obtain ⟨place', hnext⟩ := Option.isSome_iff_exists.mp (hdue.next receiver)
      change (receive s action).isSome
      unfold receive receiveStep
      rw [hreceiver, Option.bind_some]
      dsimp only
      rw [hthread, Option.bind_some, hnext]
      rfl

/-- **`stop` returns.** Once it has told the receive thread, and until it has joined it, whoever asks in between and
whatever `poll` and `read` answer: the thread takes at most six more steps and accepts at most one more frame. At any
time it can take its next step, with any answer of the call in it, or `stop` can go on; and when it does, the runtime
is stopped, each descriptor has been closed exactly once, and every frame that was accepted has been recorded and
appended. -/
theorem stop_returns {interfaceName : String} {nominalBitrate : UInt32} {frameCapacity : ℕ} {new : CanRuntime}
    (hnew : CanRuntime.make interfaceName nominalBitrate frameCapacity = .ok new) {before after : List Action}
    {s t : State} (hs : run step { runtime := new } before = some s) (hwaits : s.stopping = true)
    (hjoined : Action.joined ∉ after) (ht : run step s after = some t) :
    (after.filterMap Action.ofThread).length ≤ 6 ∧ (after.filterMap Action.accepted).length ≤ 1 ∧
    ((∃ place, t.place = some place ∧ (∃ action, Due place action) ∧
        ∀ action, Due place action → (step t (.receive action)).isSome) ∨
      ∃ u, step t .joined = some u ∧ u.runtime.Stopped ∧ CanRuntime.AllClosed u.sockets ∧
        u.appended = (before ++ after).filterMap Action.accepted ∧
        u.recorded = (before ++ after).filterMap Action.accepted) := by
  have hstopped := CanRuntime.stopped_of_make hnew
  obtain ⟨hagrees, howned⟩ := (agrees_new hnew).run (owned_new hstopped) hs
  have hkept := (kept_new hstopped).run (owned_new hstopped) hs
  obtain ⟨hwaiting, hsteps, hreads⟩ := Waiting.run ⟨hkept, howned, hwaits⟩ hjoined ht
  obtain ⟨hagrees', howned'⟩ := hagrees.run howned ht
  refine ⟨hsteps, hreads, ?_⟩
  rcases due_or_left t with ⟨place, hplace, hleft, hdue⟩ | hleft
  · exact .inl ⟨place, hplace, exists_due hleft, hdue⟩
  · have hjoin : step t .joined = some { t with
        runtime := (t.runtime.finishStop t.sockets).1
        sockets := (t.runtime.finishStop t.sockets).2
        stopping := false } := if_pos ⟨hwaiting.stopping, hleft⟩
    obtain ⟨hdone, hbalanced⟩ := CanRuntime.finishStop_spec t.runtime hwaiting.kept.balanced
    refine .inr ⟨_, hjoin, hdone, CanRuntime.allClosed_of_balanced hbalanced, ?_⟩
    have hend := hagrees'.step howned' hjoin
    obtain ⟨happended, hrecorded, -⟩ := hend.stopped (howned'.step hjoin) rfl hdone.running
    rw [List.filterMap_append, happended, hrecorded, happended]
    exact ⟨List.append_nil _, List.append_nil _⟩

/-- The thread has just looked at `running_` when it is told. -/
def toldLate : List Action := [.start {}, .receive .test, .stop]

/-- The longest way from there: six steps, in which the thread reads and stores a frame. -/
def lastRound : List Action :=
  [.receive .load, .receive (.poll (.ready pollIn)), .receive (.read (.got canMtu {} 0)), .receive .record,
    .receive .append, .receive .test]

theorem stop_returns_lastRound :
    ∃ new s t u, CanRuntime.make "vcan0" 500000 8 = .ok new ∧ run step { runtime := new } toldLate = some s ∧
      run step s lastRound = some t ∧ (lastRound.filterMap Action.ofThread).length = 6 ∧
      (lastRound.filterMap Action.accepted).length = 1 ∧
      step t .joined = some u ∧ u.runtime.Stopped ∧ CanRuntime.AllClosed u.sockets ∧ u.appended = [{}] := by
  have hnew : CanRuntime.make "vcan0" 500000 8 = .ok ⟨"vcan0", .empty 8 (by decide),
    .new 500000 1000000000 (by decide) (by decide), {}, none, false⟩ := rfl
  have hboth : (run step { runtime := ⟨"vcan0", .empty 8 (by decide),
      .new 500000 1000000000 (by decide) (by decide), {}, none, false⟩ } toldLate).bind (fun s =>
        (run step s lastRound).map fun t => (s.stopping, t.place)) = some (true, some .left) := by
    decide +kernel
  obtain ⟨s, hs, hboth⟩ := Option.bind_eq_some_iff.mp hboth
  obtain ⟨t, ht, hboth⟩ := Option.map_eq_some_iff.mp hboth
  obtain ⟨hwaits, hplace⟩ := Prod.mk.inj hboth
  have hjoined : Action.joined ∉ lastRound := by simp [lastRound]
  obtain ⟨-, -, ⟨place, hplace', ⟨action, hdue⟩, -⟩ | ⟨u, hjoin, hdone, hclosed, happended, -⟩⟩ :=
    stop_returns hnew hs hwaits hjoined ht
  · rw [hplace] at hplace'
    cases hplace'
    cases hdue
  · exact ⟨_, s, t, u, hnew, hs, ht, rfl, by decide +kernel, hjoin, hdone, hclosed, happended.trans (by decide +kernel)⟩

end Monitoring
end CanMonitor.Can
