import CanMonitor.EventLoop.System

/-!
# The connection table

`conn_map` has an entry for the listening socket and one for each connection that is
registered. The loop thread enters a connection under the number that `accept` returned,
and `removeEvent` erases the entry and closes the number, under `conn_mutex_`. In between
the kernel's table of open files and `conn_map` say the same (`Entered`), whatever the
workers do, and although the number of a closed connection is given out again.

## What is proved

* `change_of_step` — what a step does to the two tables: nothing, or it accepts, enters or
  removes a connection.
* `table_owned` — in every run an entry is for the socket that its number denotes; `accept`
  returns no number that has an entry; and a socket is closed once, when its entry is erased.
-/

namespace CanMonitor.EventLoop

open CanMonitor.Library

/-- The socket of an entry in the table. -/
def socketOf : Option Conn → Socket
  | some conn => .client conn
  | none => .listener

/-- The kernel's table and the connection table agree. -/
structure Entered (s : State) : Prop where
  /-- The number of an entry denotes the socket of the entry. -/
  table : ∀ fd conn, s.connMap.lookup fd = some conn → s.fdTable fd = some (socketOf conn)
  /-- A connection keeps the number that denotes its socket. -/
  numbered : ∀ fd conn, s.fdTable fd = some (.client conn) → conn.fd = fd
  /-- What was accepted and not yet registered is open, and its number has no entry. -/
  accepted : ∀ conn, s.loop = .accepted conn →
    s.fdTable conn.fd = some (.client conn) ∧ s.connMap.lookup conn.fd = none

/-! ### What a step does to the tables -/

/-- Is this the end of a client's socket? -/
def Effect.closes (conn : Conn) (e : Effect) : Bool := e.op = .close ∧ e.target = some (.client conn)

/-- How often the socket of a connection was closed. -/
def State.closes (s : State) (conn : Conn) : ℕ := s.effects.countP (Effect.closes conn)

/-- Steps that leave the tables as they are, and close nothing. -/
structure Same (s s' : State) : Prop where
  fdTable : s'.fdTable = s.fdTable
  connMap : s'.connMap = s.connMap
  accepted : s'.accepted = s.accepted
  closes : ∀ conn, s'.closes conn = s.closes conn
  loop : ∀ conn, s'.loop = .accepted conn → s.loop = .accepted conn

/-- The entry `conn` of `fd` is erased, and `fd` is closed. -/
structure Removes (s s' : State) (fd : Fd) (conn : Option Conn) : Prop where
  entry : s.connMap.lookup fd = some conn
  fdTable : s'.fdTable = Function.update s.fdTable fd none
  connMap : s'.connMap = s.connMap.erase fd
  accepted : s'.accepted = s.accepted
  closes : ∀ c, s'.closes c = s.closes c + if s.fdTable fd = some (.client c) then 1 else 0
  loop : ∀ conn, s'.loop = .accepted conn → s.loop = .accepted conn

/-- What a step does to the tables. -/
inductive Change (s s' : State) : Prop where
  | same (h : Same s s')
  | removes (fd : Fd) (conn : Option Conn) (h : Removes s s' fd conn)
  | accept (fd : Fd) (hfree : s.fdTable fd = none) (hs : s' = { s with
      fdTable := Function.update s.fdTable fd (some (.client ⟨s.accepted, fd⟩))
      accepted := s.accepted + 1
      loop := .accepted ⟨s.accepted, fd⟩ })
  | enter (conn : Conn) (hl : s.loop = .accepted conn)
      (hs : s' = { s.addEvent conn.fd { epollin := true } conn (.event .listener) with loop := .added conn })

variable {s s' s'' : State}

theorem Same.refl (s : State) : Same s s := ⟨rfl, rfl, rfl, fun _ => rfl, fun _ => id⟩

theorem Same.trans (h : Same s s') (h' : Same s' s'') : Same s s'' :=
  ⟨h'.fdTable.trans h.fdTable, h'.connMap.trans h.connMap, h'.accepted.trans h.accepted,
    fun conn => (h'.closes conn).trans (h.closes conn), fun conn hl => h.loop conn (h'.loop conn hl)⟩

/-- A system call that is no `close`. -/
theorem same_record (s : State) (cause : Cause) (op : Op) (fd : Fd) (hop : op ≠ .close) :
    Same s (s.record cause op fd) := by
  refine ⟨rfl, rfl, rfl, fun conn => ?_, fun _ => id⟩
  simp [State.closes, State.record, Effect.closes, hop]

theorem same_epollMod (s : State) (cause : Cause) (fd : Fd) (mask : Events) : Same s (s.epollMod cause fd mask) := by
  obtain ⟨hfd, hmap, hacc, hcloses, hloop⟩ := same_record s cause .epollMod fd nofun
  exact ⟨hfd, hmap, hacc, hcloses, hloop⟩

theorem same_setWorker (s : State) (w : ℕ) (worker : Worker) : Same s (s.setWorker w worker) :=
  ⟨rfl, rfl, rfl, fun _ => rfl, fun _ => id⟩

theorem same_setData (s : State) (conn : Conn) (data : ConnData) : Same s (s.setData conn data) :=
  ⟨rfl, rfl, rfl, fun _ => rfl, fun _ => id⟩

theorem same_endRead (s : State) (w : ℕ) (job : Job) : Same s (s.endRead w job) :=
  (same_setData s _ _).trans (same_setWorker _ w _)

theorem same_endWrite (s : State) (w : ℕ) (job : Job) : Same s (s.endWrite w job) :=
  (same_setData s _ _).trans (same_setWorker _ w _)

theorem same_afterUpdate (s : State) (w : ℕ) (job : Job) (next : AfterUpdate) : Same s (s.afterUpdate w job next) := by
  cases next with
  | parse => exact same_setWorker s w _
  | endRead => exact same_endRead s w job
  | endWrite => exact same_endWrite s w job

/-- An entry is erased. -/
theorem removes_erase {fd : Fd} {conn : Option Conn} (hconn : s.connMap.lookup fd = some conn) (cause : Cause) :
    Removes s (s.erase fd cause) fd conn := by
  refine ⟨hconn, rfl, rfl, rfl, fun c => ?_, fun _ => id⟩
  simp only [State.closes, State.erase, State.close, State.record, List.append_assoc, List.countP_append,
    List.countP_singleton, Effect.closes]
  simp

/-- `removeEvent` removes the entry that it finds, or does nothing. -/
theorem removeEvent_cases (s : State) (fd : Fd) (expected : Option Conn) (cause : Cause) :
    s.removeEvent fd expected cause = s ∨
      ∃ conn, Removes s (s.removeEvent fd expected cause) fd conn ∧ (expected.isSome → conn = expected) := by
  unfold State.removeEvent
  split
  · exact .inl rfl
  · rename_i conn hconn
    split_ifs with hother
    · exact .inl rfl
    · refine .inr ⟨conn, removes_erase hconn cause, fun hsome => ?_⟩
      by_contra hne
      exact hother ⟨hsome, hne⟩

theorem Removes.trans {fd : Fd} {conn : Option Conn} (h : Removes s s' fd conn) (h' : Same s' s'') :
    Removes s s'' fd conn :=
  ⟨h.entry, h'.fdTable.trans h.fdTable, h'.connMap.trans h.connMap, h'.accepted.trans h.accepted,
    fun c => (h'.closes c).trans (h.closes c), fun c hl => h.loop c (h'.loop c hl)⟩

/-- A step that removes what it finds, and leaves the tables as they are afterwards. -/
theorem change_of_removeEvent {fd : Fd} {expected : Option Conn} {cause : Cause}
    (h : Same (s.removeEvent fd expected cause) s') : Change s s' := by
  rcases removeEvent_cases s fd expected cause with hsame | ⟨conn, hremoves, _⟩
  · rw [hsame] at h
    exact .same h
  · exact .removes fd conn (hremoves.trans h)

theorem change_of_work {w : ℕ} {worker : Worker} {a : WorkAct} (ht : WorkTrans s w worker a s') : Change s s' := by
  cases ht with
  | failed job => exact change_of_removeEvent (same_setWorker _ w _)
  | removeRead job => exact change_of_removeEvent (same_endRead _ w job)
  | removeWrite job => exact change_of_removeEvent (same_endWrite _ w job)
  | take task taskQueue hqueue =>
    exact .same ⟨rfl, rfl, rfl, fun _ => rfl, fun _ => id⟩
  | toRead | toCheck | bad | lookup | toWrite | done | written => exact .same (same_setWorker s w _)
  | lockRead | dispatch | lockWrite => exact .same ((same_setData s _ _).trans (same_setWorker _ w _))
  | read job => exact .same (same_record s job.cause .read job.conn.fd nofun)
  | drained job | closed job => exact .same ((same_record s job.cause .read job.conn.fd nofun).trans (same_setWorker _ w _))
  | parsedAll job => exact .same (same_endRead s w job)
  | lost job next => exact .same (same_afterUpdate s w job next)
  | modify job next => exact .same ((same_epollMod s _ _ _).trans (same_afterUpdate _ w job next))
  | write job => exact .same (same_record s job.cause .write job.conn.fd nofun)
  | again job => exact .same ((same_record s job.cause .write job.conn.fd nofun).trans (same_endWrite _ w job))
  | writeFails job => exact .same ((same_record s job.cause .write job.conn.fd nofun).trans (same_setWorker _ w _))

theorem change_of_loop {a : LoopAct} (ht : LoopTrans s a s') : Change s s' := by
  cases ht with
  | accept fd hl hfree => exact .accept fd hfree rfl
  | addEvent conn hl => exact .enter conn hl rfl
  | timeOut expired fd hl => exact change_of_removeEvent ⟨rfl, rfl, rfl, fun _ => rfl, nofun⟩
  | drop fd conn overflowed hl => exact change_of_removeEvent ⟨rfl, rfl, rfl, fun _ => rfl, nofun⟩
  | failed event batch hl hbatch =>
    rcases removeEvent_cases { s with batch } event.fd none (.event event.origin) with hsame | ⟨conn, hremoves, _⟩
    · rw [hsame]
      exact .same ⟨rfl, rfl, rfl, fun _ => rfl, fun _ => id⟩
    · obtain ⟨hentry, hfd, hmap, hacc, hcloses, hloop⟩ := hremoves
      exact .removes event.fd conn ⟨hentry, hfd, hmap, hacc, hcloses, hloop⟩
  | modify items overflowed fd conn hl =>
    obtain ⟨hfd, hmap, hacc, hcloses, _⟩ := same_epollMod s (.stream conn) fd { epollin := true, epollout := true }
    exact .same ⟨hfd, hmap, hacc, hcloses, nofun⟩
  | gone | pass => exact .same ⟨rfl, rfl, rfl, fun _ => rfl, fun _ => id⟩
  | _ => exact .same ⟨rfl, rfl, rfl, fun _ => rfl, nofun⟩

/-- **What a step does to the tables.** -/
theorem change_of_step {a : Act} (hs : step s a = some s') : Change s s' := by
  cases trans_of_step hs with
  | loop a s' ht => exact change_of_loop ht
  | work w worker a s' hw ht => exact change_of_work ht

/-! ### The tables agree -/

theorem entered_start (listenFd numThreads : ℕ) : Entered (.start listenFd numThreads) := by
  constructor
  · intro fd conn h
    have hentry := AList.mem_lookup_iff.mp h
    simp only [State.start, AList.singleton_entries, List.mem_singleton] at hentry
    cases hentry
    simp [State.start, socketOf]
  · intro fd conn h
    have hlisten : fd = listenFd := by
      by_contra hne
      simp [State.start, Function.update_of_ne hne] at h
    simp [State.start, hlisten] at h
  · intro conn h
    cases h

theorem Entered.same (h : Entered s) (hs : Same s s') : Entered s' := by
  constructor
  · rw [hs.connMap, hs.fdTable]
    exact h.table
  · rw [hs.fdTable]
    exact h.numbered
  · intro conn hl
    rw [hs.fdTable, hs.connMap]
    exact h.accepted conn (hs.loop conn hl)

/-- An entry is erased and its number closed. -/
theorem Entered.removes (h : Entered s) {fd : Fd} {conn : Option Conn} (hs : Removes s s' fd conn) : Entered s' := by
  constructor
  · intro fd' conn' hconn'
    rw [hs.connMap] at hconn'
    have hne : fd' ≠ fd := by
      rintro rfl
      cases (AList.lookup_erase fd' s.connMap).symm.trans hconn'
    rw [hs.fdTable, Function.update_of_ne hne]
    exact h.table fd' conn' ((AList.lookup_erase_ne hne).symm.trans hconn')
  · intro fd' c hc
    rw [hs.fdTable] at hc
    by_cases hfd' : fd' = fd
    · subst hfd'
      rw [Function.update_self] at hc
      cases hc
    · exact h.numbered fd' c ((Function.update_of_ne hfd' _ _).symm.trans hc)
  · intro c hc
    obtain ⟨hopen, hnone⟩ := h.accepted c (hs.loop c hc)
    have hne : c.fd ≠ fd := by
      rintro rfl
      cases hnone.symm.trans hs.entry
    rw [hs.fdTable, hs.connMap, Function.update_of_ne hne, AList.lookup_erase_ne hne]
    exact ⟨hopen, hnone⟩

/-- A free number has no entry. -/
theorem Entered.lookup_eq_none (h : Entered s) {fd : Fd} (hfree : s.fdTable fd = none) : s.connMap.lookup fd = none := by
  cases hlookup : s.connMap.lookup fd with
  | none => rfl
  | some conn => cases hfree.symm.trans (h.table fd conn hlookup)

/-- A free number is given out. -/
theorem Entered.accept (h : Entered s) {fd : Fd} (hfree : s.fdTable fd = none) : Entered { s with
      fdTable := Function.update s.fdTable fd (some (.client ⟨s.accepted, fd⟩))
      accepted := s.accepted + 1
      loop := .accepted ⟨s.accepted, fd⟩ } := by
  constructor
  · intro fd' conn hconn
    have hopen := h.table fd' conn hconn
    have hne : fd' ≠ fd := by
      rintro rfl
      cases hfree.symm.trans hopen
    exact (Function.update_of_ne hne _ _).trans hopen
  · intro fd' conn hconn
    by_cases hfd : fd' = fd
    · subst hfd
      cases (Function.update_self fd' _ _).symm.trans hconn
      rfl
    · exact h.numbered fd' conn ((Function.update_of_ne hfd _ _).symm.trans hconn)
  · intro conn hconn
    cases hconn
    exact ⟨Function.update_self .., h.lookup_eq_none hfree⟩

/-- The state after `addEvent` of a new connection. -/
theorem Entered.addEvent_eq (h : Entered s) {conn : Conn} (hl : s.loop = .accepted conn) :
    s.addEvent conn.fd { epollin := true } conn (.event .listener) = { s with
      connMap := s.connMap.insert conn.fd (some conn)
      interest := Function.update s.interest conn.fd (some { epollin := true }) } := by
  have hnew : conn.fd ∉ s.connMap := AList.lookup_eq_none.mp (h.accepted conn hl).2
  rw [State.addEvent, if_neg hnew]

/-- The new connection is entered in the table. -/
theorem Entered.enter (h : Entered s) {conn : Conn} (hl : s.loop = .accepted conn) : Entered
    { s.addEvent conn.fd { epollin := true } conn (.event .listener) with loop := .added conn } := by
  rw [h.addEvent_eq hl]
  refine ⟨?_, h.numbered, nofun⟩
  intro fd' conn' hconn'
  by_cases hfd : fd' = conn.fd
  · subst hfd
    replace hconn' : (s.connMap.insert conn.fd (some conn)).lookup conn.fd = some conn' := hconn'
    rw [AList.lookup_insert] at hconn'
    cases hconn'
    exact (h.accepted conn hl).1
  · exact h.table fd' conn' ((AList.lookup_insert_ne hfd).symm.trans hconn')

/-- **Every step** keeps the tables in agreement. -/
theorem Entered.step (s : State) (a : Act) (s' : State) (h : Entered s) (hs : EventLoop.step s a = some s') :
    Entered s' := by
  cases change_of_step hs with
  | same hsame => exact h.same hsame
  | removes fd conn hremoves => exact h.removes hremoves
  | accept fd hfree hs => exact hs ▸ h.accept hfree
  | enter conn hl hs => exact hs ▸ h.enter hl

theorem Entered.isRegistered (h : Entered s) {fd : Fd} {conn : Conn} (hreg : s.isRegistered fd conn) :
    conn.fd = fd ∧ s.fdTable fd = some (.client conn) := by
  have hopen := h.table fd conn hreg
  exact ⟨h.numbered fd conn hopen, hopen⟩

/-! ### A socket is closed once -/

/-- How often a socket is open. -/
def State.opens (s : State) (conn : Conn) : ℕ := if s.fdTable conn.fd = some (.client conn) then 1 else 0

/-- Sockets that were not accepted are neither open nor closed, the others one of the two. -/
structure Ledger (s : State) : Prop where
  unborn : ∀ conn, s.accepted ≤ conn.serial → s.closes conn + s.opens conn = 0
  once : ∀ conn, s.closes conn + s.opens conn ≤ 1

theorem ledger_start (listenFd numThreads : ℕ) : Ledger (.start listenFd numThreads) := by
  have hnone : ∀ conn, (State.start listenFd numThreads).closes conn + (State.start listenFd numThreads).opens conn = 0 := by
    intro conn
    have hopen : (State.start listenFd numThreads).fdTable conn.fd ≠ some (.client conn) := by
      intro hopen
      by_cases hfd : conn.fd = listenFd
      · simp [State.start, hfd] at hopen
      · simp [State.start, Function.update_of_ne hfd] at hopen
    rw [State.opens, if_neg hopen]
    rfl
  exact ⟨fun conn _ => hnone conn, fun conn => (hnone conn).le.trans zero_le_one⟩

/-- What is closed was open. -/
theorem Removes.closes_add_opens (h : Entered s) {fd : Fd} {conn : Option Conn} (hs : Removes s s' fd conn) (c : Conn) :
    s'.closes c + s'.opens c = s.closes c + s.opens c := by
  rw [hs.closes, State.opens, State.opens, hs.fdTable]
  by_cases hfd : c.fd = fd
  · subst hfd
    simp
  · have hother : s.fdTable fd ≠ some (.client c) := fun hopen => hfd (h.numbered fd c hopen)
    rw [Function.update_of_ne hfd, if_neg hother, Nat.add_zero]

/-- `accept` opens one socket. -/
theorem opens_accept {fd : Fd} (hfree : s.fdTable fd = none) {conn : Conn} (hne : conn ≠ ⟨s.accepted, fd⟩) :
    State.opens { s with
      fdTable := Function.update s.fdTable fd (some (.client ⟨s.accepted, fd⟩))
      accepted := s.accepted + 1
      loop := .accepted ⟨s.accepted, fd⟩ } conn = s.opens conn := by
  unfold State.opens
  by_cases hfd : conn.fd = fd
  · subst hfd
    simp [hfree, Ne.symm hne]
  · simp [Function.update_of_ne hfd]

theorem Ledger.step (s : State) (a : Act) (s' : State) (h : Entered s ∧ Ledger s) (hs : EventLoop.step s a = some s') :
    Entered s' ∧ Ledger s' := by
  obtain ⟨hentered, hledger⟩ := h
  refine ⟨hentered.step s a s' hs, ?_⟩
  cases change_of_step hs with
  | same hsame =>
    have heq : ∀ conn, s'.closes conn + s'.opens conn = s.closes conn + s.opens conn := fun conn => by
      rw [hsame.closes, State.opens, State.opens, hsame.fdTable]
    exact ⟨fun conn hle => (heq conn).trans (hledger.unborn conn (hsame.accepted ▸ hle)),
      fun conn => (heq conn).le.trans (hledger.once conn)⟩
  | removes fd conn hremoves =>
    have heq := hremoves.closes_add_opens hentered
    exact ⟨fun conn hle => (heq conn).trans (hledger.unborn conn (hremoves.accepted ▸ hle)),
      fun conn => (heq conn).le.trans (hledger.once conn)⟩
  | accept fd hfree hs =>
    subst hs
    constructor
    · intro conn hle
      have hlt : s.accepted < conn.serial := hle
      have hne : conn ≠ ⟨s.accepted, fd⟩ := by
        rintro rfl
        exact hlt.ne rfl
      rw [opens_accept hfree hne]
      exact hledger.unborn conn hlt.le
    · intro conn
      by_cases hne : conn = ⟨s.accepted, fd⟩
      · -- it had not been accepted, so it was neither open nor closed
        subst hne
        have hzero := hledger.unborn ⟨s.accepted, fd⟩ le_rfl
        calc _ ≤ s.closes ⟨s.accepted, fd⟩ + 1 := Nat.add_le_add_left (by unfold State.opens; split_ifs <;> omega) _
          _ ≤ 1 := by omega
      · rw [opens_accept hfree hne]
        exact hledger.once conn
  | enter conn hl hs =>
    rw [hs, hentered.addEvent_eq hl]
    exact ⟨hledger.unborn, hledger.once⟩

/-! ### Whole runs -/

/-- How a step changes what is registered, and what is closed. -/
theorem closes_of_step (h : Entered s) {a : Act} (hs : step s a = some s') (conn : Conn) :
    s'.closes conn = s.closes conn +
      if s.isRegistered conn.fd conn ∧ ¬ s'.isRegistered conn.fd conn then 1 else 0 := by
  have hkept : s'.connMap.lookup conn.fd = s.connMap.lookup conn.fd →
      ¬ (s.isRegistered conn.fd conn ∧ ¬ s'.isRegistered conn.fd conn) := fun heq ⟨hreg, hgone⟩ =>
    hgone (heq.trans hreg)
  cases change_of_step hs with
  | same hsame => rw [hsame.closes, if_neg (hkept (by rw [hsame.connMap])), Nat.add_zero]
  | removes fd c hremoves =>
    rw [hremoves.closes]
    by_cases hfd : conn.fd = fd
    · subst hfd
      have hgone : ¬ s'.isRegistered conn.fd conn := by
        intro hreg
        rw [State.isRegistered, hremoves.connMap, AList.lookup_erase] at hreg
        cases hreg
      have hiff : s.fdTable conn.fd = some (.client conn) ↔ s.isRegistered conn.fd conn := by
        rw [h.table _ c hremoves.entry, State.isRegistered, hremoves.entry]
        cases c <;> simp [socketOf]
      simp only [hiff, hgone, not_false_eq_true, and_true]
    · have hother : s.fdTable fd ≠ some (.client conn) := fun hopen => hfd (h.numbered fd conn hopen)
      rw [if_neg hother, if_neg (hkept (by rw [hremoves.connMap, AList.lookup_erase_ne hfd]))]
  | accept fd hfree hs =>
    subst hs
    rw [if_neg (hkept rfl)]
    rfl
  | enter c hl hs =>
    rw [h.addEvent_eq hl] at hs
    subst hs
    have hcloses : ∀ m : AList fun _ : Fd => Option Conn, ∀ i l,
        State.closes { s with connMap := m, interest := i, loop := l } conn = s.closes conn := fun _ _ _ => rfl
    rw [hcloses, if_neg, Nat.add_zero]
    rintro ⟨hreg, hgone⟩
    by_cases hfd : conn.fd = c.fd
    · rw [State.isRegistered, hfd, (h.accepted c hl).2] at hreg
      cases hreg
    · exact hgone ((AList.lookup_insert_ne hfd).trans hreg)

/-- **The connection table is kept**, in every run of the loop thread and the workers: an
entry is for the socket that its number denotes; the number of a connection that was
accepted has no entry, so that `addEvent` enters it; `removeEvent` for a connection that is
not registered does nothing; and a socket is closed at most once, when its entry is erased. -/
theorem table_owned {listenFd numThreads : ℕ} {as : List Act} {s : State}
    (h : run step (.start listenFd numThreads) as = some s) :
    (∀ fd conn, s.connMap.lookup fd = some (some conn) → conn.fd = fd ∧ s.fdTable fd = some (.client conn)) ∧
      (∀ conn, s.loop = .accepted conn → conn.fd ∉ s.connMap ∧
        ∀ s', step s (.loop .addEvent) = some s' → s'.isRegistered conn.fd conn) ∧
      (∀ fd conn cause, ¬ s.isRegistered fd conn → s.removeEvent fd conn cause = s) ∧
      (∀ conn, s.closes conn ≤ 1) ∧
      ∀ a s', step s a = some s' → ∀ conn, s'.closes conn = s.closes conn +
        if s.isRegistered conn.fd conn ∧ ¬ s'.isRegistered conn.fd conn then 1 else 0 := by
  obtain ⟨hentered, hledger⟩ : Entered s ∧ Ledger s :=
    run_invariant Ledger.step ⟨entered_start listenFd numThreads, ledger_start listenFd numThreads⟩ h
  refine ⟨fun fd conn => hentered.isRegistered, ?_, ?_, ?_, fun a s' hs => closes_of_step hentered hs⟩
  · intro conn hl
    refine ⟨AList.lookup_eq_none.mp (hentered.accepted conn hl).2, fun s' hs => ?_⟩
    simp only [step, loopStep, hl, Option.some.injEq] at hs
    subst hs
    rw [hentered.addEvent_eq hl]
    exact AList.lookup_insert _
  · intro fd conn cause hreg
    rcases removeEvent_cases s fd conn cause with hsame | ⟨c, hremoves, hexpected⟩
    · exact hsame
    · obtain rfl : c = some conn := hexpected rfl
      exact absurd hremoves.entry hreg
  · intro conn
    have := hledger.once conn
    omega

/-- Two connections, one after the other, with one number. -/
theorem table_owned_in_turn : ∃ s, run step (.start 3 2) inTurn = some s ∧
    s.closes ⟨0, 5⟩ = 1 ∧ s.closes ⟨1, 5⟩ = 1 ∧ ∀ conn, s.closes conn ≤ 1 := by
  have h : (run step (.start 3 2) inTurn).map (fun s => (s.closes ⟨0, 5⟩, s.closes ⟨1, 5⟩)) = some (1, 1) := by
    decide +kernel
  obtain ⟨s, hs, hcloses⟩ := Option.map_eq_some_iff.mp h
  exact ⟨s, hs, congrArg Prod.fst hcloses, congrArg Prod.snd hcloses, (table_owned hs).2.2.2.1⟩

end CanMonitor.EventLoop
