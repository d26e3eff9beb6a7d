import CanMonitor.EventLoop.Handlers

/-!
# Streams that overflow

`pumpSse` sets `sse_overflow_` when what it has to send does not fit. `dispatchSseEvents` asks for
it after each `pumpSse`, and when it is through the connections it removes those that have it set.

## What is proved

* `Drops.step` — a stream that has overflowed was removed, or the loop thread is about to remove it.
* `overflow_removed` — in every run it was removed once, or is in hand in `dispatchSseEvents`.
-/

namespace CanMonitor.EventLoop

open CanMonitor.Library

/-- The entries that `dispatchSseEvents` is to remove. -/
def LoopState.overflowed : LoopState → List (Fd × Conn)
  | .updating _ overflowed _ _ _ | .overflowing _ overflowed _ _ | .pumping _ overflowed
  | .dropping overflowed => overflowed
  | _ => []

/-- The streams that the loop thread is to remove, with the one that it has pumped and not asked yet. -/
def LoopState.suspects : LoopState → List (Fd × Conn)
  | .updating _ overflowed fd conn _ | .overflowing _ overflowed fd conn => (fd, conn) :: overflowed
  | loop => loop.overflowed

/-- Streams that have overflowed are removed or to be removed, and no others are to be. -/
structure Drops (s : State) : Prop where
  all : ∀ conn, (s.data conn).sseOverflow = true →
    0 < s.closes conn ∨ ∃ fd, (fd, conn) ∈ s.loop.suspects ∧ s.Knows (fd, conn)
  only : ∀ entry ∈ s.loop.overflowed, (s.data entry.2).sseOverflow = true

variable {s s' : State} {w : ℕ} {worker : Worker}

theorem drops_start (listenFd numThreads : ℕ) : Drops (.start listenFd numThreads) :=
  ⟨fun conn hover => (by cases hover), fun entry hentry => absurd hentry List.not_mem_nil⟩

/-! ### The flag -/

theorem sseOverflow_setData (s : State) {c : Conn} {data : ConnData} (h : data.sseOverflow = (s.data c).sseOverflow)
    (conn : Conn) : ((s.setData c data).data conn).sseOverflow = (s.data conn).sseOverflow := by
  by_cases hc : conn = c
  · subst hc
    simp [State.setData, h]
  · simp [State.setData, hc]

/-- `removeEvent` leaves `sse_overflow_` alone. -/
theorem sseOverflow_removeEvent (s : State) (fd : Fd) (expected : Option Conn) (cause : Cause) (conn : Conn) :
    ((s.removeEvent fd expected cause).data conn).sseOverflow = (s.data conn).sseOverflow := by
  rw [removeEvent_data]

/-- The workers leave `sse_overflow_` alone. -/
theorem sseOverflow_of_work {a : WorkAct} (ht : WorkTrans s w worker a s') (conn : Conn) :
    (s'.data conn).sseOverflow = (s.data conn).sseOverflow := by
  cases ht with
  | lockRead | lockWrite | dispatch => exact sseOverflow_setData s (by rfl) conn
  | parsedAll job => exact ((Plain.refl s conn).endRead w job).sseOverflow
  | again job => exact ((Plain.refl _ conn).endWrite w job).sseOverflow
  | failed job => exact sseOverflow_removeEvent s _ _ _ conn
  | removeRead job =>
    exact ((Plain.refl _ conn).endRead w job).sseOverflow.trans (sseOverflow_removeEvent s _ _ _ conn)
  | removeWrite job =>
    exact ((Plain.refl _ conn).endWrite w job).sseOverflow.trans (sseOverflow_removeEvent s _ _ _ conn)
  | lost job next => exact ((Plain.refl s conn).afterUpdate w job next).sseOverflow
  | modify job next => exact ((Plain.refl _ conn).afterUpdate w job next).sseOverflow
  | _ => rfl

/-! ### The steps of the loop thread -/

/-- A connection that was removed stays so. -/
theorem Entered.closed_step (h : Entered s) {a : Act} (hs : EventLoop.step s a = some s') {conn : Conn}
    (hgone : 0 < s.closes conn) : 0 < s'.closes conn := by
  rw [closes_of_step h hs]
  exact Nat.lt_of_lt_of_le hgone (Nat.le_add_right _ _)

/-- What was removed or is to be removed stays so. -/
theorem Handles.settled_step (hs : Handles s) {a : Act} (hstep : EventLoop.step s a = some s') {conn : Conn}
    {entries : List (Fd × Conn)} (h : 0 < s.closes conn ∨ ∃ fd, (fd, conn) ∈ entries ∧ s.Knows (fd, conn)) :
    0 < s'.closes conn ∨ ∃ fd, (fd, conn) ∈ entries ∧ s'.Knows (fd, conn) := by
  rcases h with hgone | ⟨fd, hmem, hk⟩
  · exact .inl (hs.entered.closed_step hstep hgone)
  · exact .inr ⟨fd, hmem, hs.entered.knows_step hstep hk⟩

/-- A step that sets no flag. -/
theorem Drops.keep (h : Drops s) (hs : Handles s) {a : Act} (hstep : EventLoop.step s a = some s')
    (hflag : ∀ conn, (s'.data conn).sseOverflow = (s.data conn).sseOverflow)
    (hall : ∀ entry ∈ s.loop.suspects, (s.data entry.2).sseOverflow = true → entry ∈ s'.loop.suspects)
    (honly : ∀ entry ∈ s'.loop.overflowed, (s.data entry.2).sseOverflow = true) : Drops s' := by
  refine ⟨fun conn hover => ?_, fun entry hentry => ?_⟩
  · rw [hflag] at hover
    rcases hs.settled_step hstep (h.all conn hover) with hgone | ⟨fd, hmem, hk⟩
    · exact .inl hgone
    · exact .inr ⟨fd, hall _ hmem hover, hk⟩
  · rw [hflag]
    exact honly entry hentry

/-- A step that is not one of `dispatchSseEvents`. -/
theorem Drops.outside (h : Drops s) (hs : Handles s) {a : Act} (hstep : EventLoop.step s a = some s')
    (hflag : ∀ conn, (s'.data conn).sseOverflow = (s.data conn).sseOverflow) (hl : s.loop.suspects = [])
    (hl' : s'.loop.overflowed = []) : Drops s' := by
  refine h.keep hs hstep hflag (fun entry hentry => ?_) (fun entry hentry => ?_)
  · rw [hl] at hentry
    exact absurd hentry List.not_mem_nil
  · rw [hl'] at hentry
    exact absurd hentry List.not_mem_nil

/-- `pumpSse` may set the flag of the connection that it is called for. -/
theorem Drops.pump (h : Drops s) (hs : Handles s) {a : Act} {fd : Fd} {c : Conn} {items : List (Σ _ : Fd, Option Conn)}
    {overflowed : List (Fd × Conn)} {overflow : Bool} {loop : LoopState}
    (hstep : EventLoop.step s a =
      some { s.setData c { s.data c with sseOverflow := overflow } with loop })
    (hl : s.loop = .pumping (⟨fd, some c⟩ :: items) overflowed) (hover : (s.data c).sseOverflow = false)
    (hsuspects : loop.suspects = (fd, c) :: overflowed) (hoverflowed : loop.overflowed = overflowed) :
    Drops { s.setData c { s.data c with sseOverflow := overflow } with loop } := by
  have hknows : s.Knows (fd, c) := hs.met.loop _ (by rw [hl]; exact List.mem_cons_self)
  have hsame : ∀ conn, conn ≠ c →
      ((s.setData c { s.data c with sseOverflow := overflow }).data conn).sseOverflow = (s.data conn).sseOverflow := by
    intro conn hc
    simp [State.setData, hc]
  refine ⟨fun conn hflag => ?_, fun entry hentry => ?_⟩
  · by_cases hc : conn = c
    · subst hc
      exact .inr ⟨fd, hsuspects ▸ List.mem_cons_self, hs.entered.knows_step hstep hknows⟩
    · rcases hs.settled_step hstep (h.all conn ((hsame conn hc).symm.trans hflag)) with hgone | ⟨fd', hmem, hk⟩
      · exact .inl hgone
      · rw [hl] at hmem
        exact .inr ⟨fd', hsuspects ▸ List.mem_cons_of_mem _ hmem, hk⟩
  · have hold : (s.data entry.2).sseOverflow = true := h.only entry (by rw [hl]; exact hoverflowed ▸ hentry)
    have hne : entry.2 ≠ c := by
      rintro rfl
      cases hover.symm.trans hold
    exact (hsame entry.2 hne).trans hold

/-- **Every step** keeps the overflowed streams removed or to be removed. -/
theorem Drops.step (h : Drops s) (hs : Handles s) {a : Act} (hstep : EventLoop.step s a = some s') : Drops s' := by
  cases trans_of_step hstep with
  | work w worker a s' hw ht =>
    have hl := loop_of_work ht
    refine h.keep hs hstep (sseOverflow_of_work ht) (fun entry hentry _ => ?_) (fun entry hentry => ?_)
    · rwa [hl]
    · rw [hl] at hentry
      exact h.only entry hentry
  | loop a s' ht =>
    cases ht with
    | pumped overflow fd c items overflowed hl hsse hover => exact h.pump hs hstep hl hover rfl rfl
    | nothing overflow fd c items overflowed hl hsse hover => exact h.pump hs hstep hl hover rfl rfl
    | checkOverflow items overflowed fd c hl =>
      have hmem : ∀ entry, entry ∈ (if (s.data c).sseOverflow then overflowed ++ [(fd, c)] else overflowed) ↔
          entry ∈ overflowed ∨ (s.data c).sseOverflow = true ∧ entry = (fd, c) := by
        intro entry
        split_ifs with hover <;> simp [hover]
      refine h.keep hs hstep (fun _ => rfl) (fun entry hentry hflag => (hmem entry).mpr ?_) (fun entry hentry => ?_)
      · rw [hl] at hentry
        rcases List.mem_cons.mp hentry with rfl | hentry
        · exact .inr ⟨hflag, rfl⟩
        · exact .inl hentry
      · rcases (hmem entry).mp hentry with hentry | ⟨hflag, rfl⟩
        · exact h.only entry (by rw [hl]; exact hentry)
        · exact hflag
    | drop fd c overflowed hl =>
      have hflag := sseOverflow_removeEvent s fd c (.stream c)
      refine ⟨fun conn hover => ?_, fun entry hentry => ?_⟩
      · rcases h.all conn ((hflag conn).symm.trans hover) with hgone | ⟨fd', hmem, hk⟩
        · exact .inl (hs.entered.closed_step hstep hgone)
        · rw [hl] at hmem
          rcases List.mem_cons.mp hmem with heq | hmem
          · cases heq
            exact .inl (hs.removeEvent_known hk (.stream c)).2
          · exact .inr ⟨fd', hmem, hs.entered.knows_step hstep hk⟩
      · exact (hflag entry.2).trans (h.only entry (by rw [hl]; exact List.mem_cons_of_mem _ hentry))
    | full appended overflow fd c items overflowed hl hsse hover =>
      refine h.keep hs hstep (fun _ => rfl) (fun entry hentry _ => ?_) (fun entry hentry => ?_)
      · rw [hl] at hentry
        exact List.mem_cons_of_mem _ hentry
      · exact h.only entry (by rw [hl]; exact hentry)
    | skip appended overflow fd c items overflowed hl | lookup items overflowed fd c hl | lost items overflowed fd c hl
    | modify items overflowed fd c hl | pumpedAll overflowed hl =>
      refine h.keep hs hstep (fun _ => rfl) (fun entry hentry _ => ?_) (fun entry hentry => ?_)
      · rw [hl] at hentry
        exact hentry
      · exact h.only entry (by rw [hl]; exact hentry)
    | timeOut expired fd hl =>
      exact h.outside hs hstep (sseOverflow_removeEvent s _ _ _) (by rw [hl]; rfl) rfl
    | failed event batch hl =>
      refine h.outside hs hstep (sseOverflow_removeEvent _ _ _ _) (by rw [hl]; rfl) ?_
      rw [removeEvent_loop]
      exact congrArg LoopState.overflowed hl
    | addEvent c hl =>
      rw [hs.entered.addEvent_eq hl] at hstep ⊢
      exact h.outside hs hstep (fun _ => rfl) (by rw [hl]; rfl) rfl
    | gone event batch hl | pass event batch hl =>
      exact h.outside hs hstep (fun _ => rfl) (by rw [hl]; rfl) (congrArg LoopState.overflowed hl)
    | _ => exact h.outside hs hstep (fun _ => rfl) (by rw [‹s.loop = _›]; rfl) rfl

/-! ### Whole runs -/

theorem drops_run {listenFd numThreads : ℕ} {as : List Act}
    (h : run EventLoop.step (.start listenFd numThreads) as = some s) : Handles s ∧ Drops s := by
  have hkept : ∀ s a s', Handles s ∧ Drops s → EventLoop.step s a = some s' → Handles s' ∧ Drops s' :=
    fun s a s' hs hstep => ⟨Handles.step s a s' hs.1 hstep, hs.2.step hs.1 hstep⟩
  exact run_invariant hkept ⟨handles_start listenFd numThreads, drops_start listenFd numThreads⟩ h

/-- A stream that has overflowed was removed, once, or is about to be. -/
theorem Drops.removed (h : Drops s) (hs : Handles s) {conn : Conn} (hover : (s.data conn).sseOverflow = true) :
    s.closes conn = 1 ∨ (conn.fd, conn) ∈ s.loop.suspects := by
  rcases h.all conn hover with hgone | ⟨fd, hmem, hk⟩
  · have honce := hs.ledger.once conn
    exact .inl (by omega)
  · obtain rfl : conn.fd = fd := hs.entered.knows_fd hk
    exact .inr hmem

/-- **Streams that overflow are removed**, in every run of the loop thread and of any number of
workers: once, or the loop thread has the stream in `dispatchSseEvents`; what it removes there has
overflowed; and when it waits again all that have are gone. -/
theorem overflow_removed {listenFd numThreads : ℕ} {as : List Act}
    (h : run EventLoop.step (.start listenFd numThreads) as = some s) :
    (∀ conn, (s.data conn).sseOverflow = true → s.closes conn = 1 ∨ (conn.fd, conn) ∈ s.loop.suspects) ∧
    (∀ entry ∈ s.loop.overflowed, (s.data entry.2).sseOverflow = true) ∧
    (s.loop = .waiting → ∀ conn, (s.data conn).sseOverflow = true → s.closes conn = 1) := by
  obtain ⟨hs, hdrops⟩ := drops_run h
  refine ⟨fun conn hover => hdrops.removed hs hover, hdrops.only, fun hl conn hover => ?_⟩
  rcases hdrops.removed hs hover with hclosed | hmem
  · exact hclosed
  · rw [hl] at hmem
    exact absurd hmem List.not_mem_nil

/-- A client asks for a stream, which overflows in the next turn of the loop. -/
def overflowingStream : List Act :=
  acceptTurn 5 ++ readTurn ⟨0, 5⟩ ++
    ([.take, .begin, .lockRead, .read .data, .read .drained, .parse (.dispatch true)] : List WorkAct).map (.work 0) ++
    ([.wait [], .tick 0, .snapshot [⟨5, some ⟨0, 5⟩⟩, ⟨3, none⟩], .pump false true, .checkOverflow, .pump false false,
      .drop, .drop, .drop, .handle] : List LoopAct).map .loop

/-- The connection of an overflowed stream is closed while a worker still has the request in hand. -/
theorem overflow_removed_stream : ∃ s, run EventLoop.step (.start 3 1) overflowingStream = some s ∧
    (s.data ⟨0, 5⟩).sseOverflow = true ∧ s.closes ⟨0, 5⟩ = 1 := by
  have h : (run EventLoop.step (.start 3 1) overflowingStream).map
      (fun s => ((s.data ⟨0, 5⟩).sseOverflow, decide (s.loop = .waiting))) = some (true, true) := by
    decide +kernel
  obtain ⟨s, hs, hboth⟩ := Option.map_eq_some_iff.mp h
  obtain ⟨hover, hwaits⟩ := Prod.ext_iff.mp hboth
  exact ⟨s, hs, hover, (overflow_removed hs).2.2 (of_decide_eq_true hwaits) ⟨0, 5⟩ hover⟩

end CanMonitor.EventLoop
