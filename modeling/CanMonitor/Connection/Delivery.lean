import CanMonitor.Connection.Stream

/-!
# What a stream delivers

A client that asks once for the stream after a sequence `a` and then only listens is
given frames in ascending order, each once, each as the store numbered it. It misses a
frame only if the store had overwritten it when the loop looked for frames.

`pumpSse` takes up to a hundred frames from the store at a time, but moves its cursor
frame by frame, before it knows whether there is room for the frame. So what it queues is
a `Session` of reads of one frame each (`fetch_cons`), of the store as it was when the
pump began, and the cursor is where the session is until there is no room
(`Delivering`). After that nothing is queued any more (`nothing_after_overflow`).

Sequences are 64-bit words, so all this is about fewer than `2^64` frames
(`sse_delivers`); the stream goes back in order where they wrap (`sse_wraps`).
-/

namespace CanMonitor.Connection

open CanMonitor.Library CanMonitor.Can CanMonitor.Can.FrameStore CanMonitor.Http

/-- The number of a frame. -/
def seqNo (frame : CanFrame) : ℕ := frame.sequence.toNat

/-- The frames among items, each with the store that the pump saw. -/
def frames (items : List Item) : List (CanFrame × FrameStore) :=
  items.filterMap fun
    | .frame f seen => some (f, seen)
    | _ => none

/-- A store that the receiver's appends have led to. -/
def Seen (s : State) (store : FrameStore) : Prop := ∃ log, log <+: s.appended ∧ store.Holds log

/-- What holds after the stream after `a` is started, of the items queued since. -/
structure Delivering (a : UInt64) (base : List (Item × ℕ)) (s : State) : Prop where
  /-- The store is what its log says. -/
  holds : s.store.Holds s.appended
  /-- The stream is started. -/
  active : s.sseActive = true
  /-- No request is being answered. -/
  reader : (∀ response len, s.reader ≠ .responding response len) ∧ ∀ after len, s.reader ≠ .starting after len
  /-- What was queued since then is events and comments. -/
  queued : ∃ items : List (Item × ℕ), s.queued = base ++ items ∧ (∀ q ∈ items, q.1.IsEvent) ∧
    (∀ d ∈ frames (items.map Prod.fst), Seen s d.2) ∧
    ∃ rs c, Session seqNo (fun _ => true) a.toNat rs c ∧
      rs.map (fun r => (r.window, r.result)) = (frames (items.map Prod.fst)).map (fun d => (d.2.frames, [d.1])) ∧
      (s.out.overflow = false → c = s.sseAfterSequence.toNat)
  /-- What the pump has yet to queue are the next frames of the store it saw. -/
  pumping : ∀ rest seen appended, s.pump = .sending rest seen appended →
    s.out.overflow = false ∧ Seen s seen ∧ ∃ k, rest = fetch seqNo (fun _ => true) s.sseAfterSequence.toNat k seen.frames

theorem Seen.mono {s s' : State} {store : FrameStore} (h : Seen s store) (happ : s.appended <+: s'.appended) :
    Seen s' store := by
  obtain ⟨log, hlog, hstore⟩ := h
  exact ⟨log, hlog.trans happ, hstore⟩

/-- Steps that queue nothing. -/
theorem Delivering.of_queued_eq {a : UInt64} {base : List (Item × ℕ)} {s s' : State} (h : Delivering a base s)
    (hholds : s'.store.Holds s'.appended) (happ : s.appended <+: s'.appended) (hactive : s'.sseActive = s.sseActive)
    (hreader : s'.reader = s.reader ∨
      (∀ response len, s'.reader ≠ .responding response len) ∧ ∀ after len, s'.reader ≠ .starting after len)
    (hqueued : s'.queued = s.queued)
    (hcursor : s'.out.overflow = true ∨ s'.out.overflow = s.out.overflow ∧ s'.sseAfterSequence = s.sseAfterSequence)
    (hpump : s'.pump = s.pump ∧ s'.out.overflow = s.out.overflow ∧ s'.sseAfterSequence = s.sseAfterSequence ∨
      ∀ rest seen appended, s'.pump ≠ .sending rest seen appended) : Delivering a base s' := by
  constructor
  · exact hholds
  · exact hactive.trans h.active
  · rcases hreader with hr | hr
    · rw [hr]
      exact h.reader
    · exact hr
  · obtain ⟨items, hitems, hevents, hseen, rs, c, hsession, hreads, hc⟩ := h.queued
    refine ⟨items, hqueued.trans hitems, hevents, fun d hd => (hseen d hd).mono happ, rs, c, hsession, hreads, ?_⟩
    intro hover
    rcases hcursor with hfull | ⟨hsame, hseq⟩
    · rw [hfull] at hover
      cases hover
    · rw [hseq]
      exact hc (hsame ▸ hover)
  · intro rest seen appended hp
    rcases hpump with ⟨hsame, hover, hseq⟩ | hno
    · obtain ⟨hfalse, hseen, k, hk⟩ := h.pumping rest seen appended (hsame ▸ hp)
      exact ⟨hover ▸ hfalse, hseen.mono happ, k, hseq ▸ hk⟩
    · exact absurd hp (hno rest seen appended)

theorem frames_append (items more : List Item) : frames (items ++ more) = frames items ++ frames more :=
  List.filterMap_append

theorem frames_concat (items : List (Item × ℕ)) (q : Item × ℕ) :
    frames ((items ++ [q]).map Prod.fst) = frames (items.map Prod.fst) ++ frames [q.1] := by
  rw [List.map_append, List.map_singleton, frames_append]

theorem max_eq_right_of_lt {x y : UInt64} (h : x.toNat < y.toNat) : max x y = y := by
  show (if x ≤ y then y else x) = y
  rw [if_pos (UInt64.le_iff_toNat_le.mpr h.le)]

theorem ending_ne_sending {appended : Bool} {rest : List CanFrame} {seen : FrameStore} (appended' : Bool) :
    Pump.ending appended' ≠ .sending rest seen appended := by
  cases appended' <;> exact nofun

/-- **One frame more** is one read more of the store that the pump saw. -/
theorem Delivering.sent {a : UInt64} {base : List (Item × ℕ)} {s : State} (h : Delivering a base s)
    (hn : s.appended.length < 2 ^ 64) {frame : CanFrame} {rest : List CanFrame} {seen : FrameStore} {appended : Bool}
    (hp : s.pump = .sending (frame :: rest) seen appended) :
    Delivering a base { s.push (.frame frame seen) with
      sseAfterSequence := max s.sseAfterSequence frame.sequence
      pump := .sending rest seen true } := by
  obtain ⟨hover, hseen, k, hk⟩ := h.pumping _ _ _ hp
  have hascending : Ascending seqNo seen.frames := by
    obtain ⟨log, hlog, hstore⟩ := hseen
    exact hstore.ascending (hlog.length_le.trans_lt hn)
  obtain ⟨hone, hrest⟩ := fetch_cons hascending hk.symm
  have hlt : s.sseAfterSequence.toNat < seqNo frame := (mem_of_mem_fetch (hk ▸ List.mem_cons_self)).2.1
  have hmax : max s.sseAfterSequence frame.sequence = frame.sequence := max_eq_right_of_lt hlt
  refine ⟨h.holds, h.active, h.reader, ?_, ?_⟩
  · obtain ⟨items, hitems, hevents, hall, rs, c, hsession, hreads, hc⟩ := h.queued
    obtain rfl : c = s.sseAfterSequence.toNat := hc hover
    refine ⟨items ++ [(.frame frame seen, (s.out.push (frameToSse frame)).sendBuf.length)], ?_, ?_, ?_, _, _,
      hsession.read seen.frames 1, ?_, fun _ => ?_⟩
    · show s.queued ++ _ = _
      rw [hitems, List.append_assoc]
      rfl
    · intro q hq
      rcases List.mem_append.mp hq with hq | hq
      · exact hevents q hq
      · rw [List.mem_singleton.mp hq]
        trivial
    · intro d hd
      rw [frames_concat] at hd
      rcases List.mem_append.mp hd with hd | hd
      · exact hall d hd
      · rw [List.mem_singleton.mp hd]
        exact hseen
    · rw [frames_concat, List.map_append, List.map_append, hreads, hone]
      rfl
    · rw [hone, hmax]
      rfl
  · intro rest' seen' appended' hp'
    cases hp'
    refine ⟨hover, hseen, k - 1, ?_⟩
    rw [hmax]
    exact hrest

/-- A comment is no read. -/
theorem Delivering.heartbeat {a : UInt64} {base : List (Item × ℕ)} {s : State} (h : Delivering a base s) (now : ℤ) :
    Delivering a base { s.push .heartbeat with sseLastHeartbeat := now, pump := .updating false } := by
  refine ⟨h.holds, h.active, h.reader, ?_, nofun⟩
  obtain ⟨items, hitems, hevents, hall, rs, c, hsession, hreads, hc⟩ := h.queued
  refine ⟨items ++ [(.heartbeat, (s.out.push Item.heartbeat.payload).sendBuf.length)], ?_, ?_, ?_, rs, c, hsession,
    ?_, hc⟩
  · show s.queued ++ _ = _
    rw [hitems, List.append_assoc]
  · intro q hq
    rcases List.mem_append.mp hq with hq | hq
    · exact hevents q hq
    · rw [List.mem_singleton.mp hq]
      trivial
  · intro d hd
    rw [frames_concat] at hd
    exact hall d (by simpa [frames] using hd)
  · rw [frames_concat, hreads]
    simp [frames]

/-- The pump takes the next frames of the store. -/
theorem Delivering.query {a : UInt64} {base : List (Item × ℕ)} {s : State} (h : Delivering a base s)
    (hover : s.out.overflow = false) :
    Delivering a base
      { s with pump := .sending (s.store.queryAfter s.sseAfterSequence none 100) s.store false } := by
  refine ⟨h.holds, h.active, h.reader, h.queued, ?_⟩
  intro rest seen appended hp
  cases hp
  exact ⟨hover, ⟨s.appended, List.prefix_rfl, h.holds⟩, 100, queryAfter_eq_fetch _ _ _ _⟩

/-- What a step does to the log. -/
theorem appended_of_step {s s' : State} {a : Act} (hs : step s a = some s') : s.appended <+: s'.appended := by
  cases trans_of_step hs with
  | append frame => exact List.prefix_append _ _
  | lostReader next => cases next <;> exact List.prefix_rfl
  | modifyReader next => cases next <;> exact List.prefix_rfl
  | _ => exact List.prefix_rfl

/-- The store is what its log says. -/
theorem holds_of_step (s : State) (a : Act) (s' : State) (h : s.store.Holds s.appended) (hs : step s a = some s') :
    s'.store.Holds s'.appended := by
  cases trans_of_step hs with
  | append frame => exact h.append frame
  | lostReader next => cases next <;> exact h
  | modifyReader next => cases next <;> exact h
  | _ => exact h

/-- **Every quiet step** goes on delivering. -/
theorem Delivering.step {a : UInt64} {base : List (Item × ℕ)} (s : State) (act : Act) (s' : State)
    (h : Delivering a base s) (hn : s.appended.length < 2 ^ 64) (hq : Quiet s act)
    (hs : Connection.step s act = some s') : Delivering a base s' := by
  have hholds := holds_of_step s act s' h.holds hs
  have happ := appended_of_step hs
  cases trans_of_step hs with
  | bad around text req hr hstep => cases hstep.symm.trans (hq h.active)
  | dispatch around req len response hr hstep _ => cases hstep.symm.trans (hq h.active)
  | dispatchStream around req len after hr hstep _ => cases hstep.symm.trans (hq h.active)
  | respond response len hr => exact absurd hr (h.reader.1 response len)
  | startSse now after len hr _ => exact absurd hr (h.reader.2 after len)
  | query _ _ hover => exact h.query hover
  | sent frame rest seen appended hp _ => exact h.sent hn hp
  | heartbeat now => exact h.heartbeat now
  | lockRead | drained | hangUp | wait | lookupReader =>
    exact h.of_queued_eq hholds happ rfl (.inr ⟨nofun, nofun⟩) rfl (.inr ⟨rfl, rfl⟩) (.inl ⟨rfl, rfl, rfl⟩)
  | unsent | noHeartbeat =>
    exact h.of_queued_eq hholds happ rfl (.inl rfl) rfl (.inl rfl) (.inr fun _ _ _ => ending_ne_sending _)
  | quiet =>
    exact h.of_queued_eq hholds happ rfl (.inl rfl) rfl (.inr ⟨rfl, rfl⟩) (.inr fun _ _ _ => ending_ne_sending _)
  | lookupPump | lostPump | modifyPump =>
    exact h.of_queued_eq hholds happ rfl (.inl rfl) rfl (.inr ⟨rfl, rfl⟩) (.inr nofun)
  | writing _ b out _ hb hout =>
    have hover := (Output.step_writer hb hout).2.1
    exact h.of_queued_eq hholds happ rfl (.inl rfl) rfl (.inr ⟨hover, rfl⟩) (.inl ⟨rfl, hover, rfl⟩)
  | fail out hout =>
    have hover := (Output.step_writer (a := .leave) trivial hout).2.1
    exact h.of_queued_eq hholds happ rfl (.inl rfl) rfl (.inr ⟨hover, rfl⟩) (.inl ⟨rfl, hover, rfl⟩)
  | lostReader next | modifyReader next =>
    cases next <;>
      exact h.of_queued_eq hholds happ rfl (.inr ⟨nofun, nofun⟩) rfl (.inr ⟨rfl, rfl⟩) (.inl ⟨rfl, rfl, rfl⟩)
  | append | remove | recv | modifyWriter =>
    exact h.of_queued_eq hholds happ rfl (.inl rfl) rfl (.inr ⟨rfl, rfl⟩) (.inl ⟨rfl, rfl, rfl⟩)

/-! ### Whole runs -/

/-- `startSse` queues the head. -/
theorem queued_of_startSse {s s₁ : State} {now : ℤ} (hs : step s (.startSse now) = some s₁) :
    ∃ n, s₁.queued = s.queued ++ [(.head, n)] := by
  cases trans_of_step hs with
  | startSse => exact ⟨_, rfl⟩
  | writing _ _ _ hw => exact hw.elim

/-- `startSse` begins to deliver. -/
theorem delivering_start {s s₁ : State} {now : ℤ} {a : UInt64} {len : ℕ} (hholds : s.store.Holds s.appended)
    (ha : s.reader = .starting a len) (hs : step s (.startSse now) = some s₁) : Delivering a s₁.queued s₁ := by
  cases trans_of_step hs with
  | startSse _ _ _ hr hpump =>
    obtain ⟨rfl, rfl⟩ := ReaderState.starting.inj (hr.symm.trans ha)
    refine ⟨hholds, rfl, ⟨nofun, nofun⟩, ?_, fun rest seen appended hp => absurd hp (hpump rest seen appended)⟩
    exact ⟨[], (List.append_nil _).symm, by simp, by simp [frames], [], _, .start, rfl, fun _ => rfl⟩
  | writing _ _ _ hw => exact hw.elim

/-- What is said of quiet runs, for runs of fewer than `2^64` frames. -/
def Bounded (s : State) (act : Act) : Prop := Quiet s act ∧ s.appended.length < 2 ^ 64

theorem appended_of_run {s t : State} {as : List Act} (h : run step s as = some t) : s.appended <+: t.appended :=
  run_invariant (I := fun t => s.appended <+: t.appended) (fun _ _ _ hI hs => hI.trans (appended_of_step hs))
    List.prefix_rfl h

theorem meets_bounded {s t : State} {as : List Act} (h : run step s as = some t) (hquiet : Meets Quiet step s as)
    (hn : t.appended.length < 2 ^ 64) : Meets Bounded step s as := by
  induction as generalizing s with
  | nil => trivial
  | cons a as ih =>
    obtain ⟨s', hs, hrun⟩ := run_cons_some h
    constructor
    · exact ⟨hquiet.1, (appended_of_run h).length_le.trans_lt hn⟩
    · intro s'' hs'
      rw [hs] at hs'
      cases hs'
      exact ih hrun (hquiet.2 s' hs)

theorem Delivering.run {a : UInt64} {base : List (Item × ℕ)} {s t : State} {as : List Act} (hd : Delivering a base s)
    (h : Library.run Connection.step s as = some t) (hb : Meets Bounded Connection.step s as) : Delivering a base t :=
  run_guarded (fun s act s' hI hC hs => hI.step s act s' hC.2 hC.1 hs) hd hb h

/-- Once there was no room, a step queues nothing. -/
theorem Delivering.overflow_step {a : UInt64} {base : List (Item × ℕ)} {s s' : State} {act : Act}
    (h : Delivering a base s) (hover : s.out.overflow = true) (hq : Quiet s act)
    (hs : Connection.step s act = some s') : s'.out.overflow = true ∧ s'.queued = s.queued := by
  have hidle : ∀ rest seen appended, s.pump ≠ .sending rest seen appended := fun rest seen appended hp => by
    rw [(h.pumping rest seen appended hp).1] at hover
    cases hover
  cases trans_of_step hs with
  | bad around text req hr hstep => cases hstep.symm.trans (hq h.active)
  | respond response len hr => exact absurd hr (h.reader.1 response len)
  | startSse now after len hr _ => exact absurd hr (h.reader.2 after len)
  | sent _ _ _ _ hp => exact absurd hp (hidle _ _ _)
  | heartbeat _ _ _ hp => exact absurd hp (hidle _ _ _)
  | writing _ b out _ hb hout => exact ⟨(Output.step_writer hb hout).2.1.trans hover, rfl⟩
  | fail out hout => exact ⟨(Output.step_writer (a := .leave) trivial hout).2.1.trans hover, rfl⟩
  | unsent | noHeartbeat => exact ⟨rfl, rfl⟩
  | lostReader next | modifyReader next => cases next <;> exact ⟨hover, rfl⟩
  | _ => exact ⟨hover, rfl⟩

/-- **Once there was no room, nothing is queued** any more. -/
theorem nothing_after_overflow {a : UInt64} {base : List (Item × ℕ)} {s t : State} {as : List Act}
    (hd : Delivering a base s) (hover : s.out.overflow = true) (h : run step s as = some t)
    (hb : Meets Bounded step s as) : t.queued = s.queued := by
  have hI : Delivering a base t ∧ t.out.overflow = true ∧ t.queued = s.queued :=
    run_guarded (I := fun t => Delivering a base t ∧ t.out.overflow = true ∧ t.queued = s.queued)
      (fun u act u' hI hC hs => by
        obtain ⟨hdel, hfull, hsame⟩ := hI
        obtain ⟨hfull', hsame'⟩ := hdel.overflow_step hfull hC.1 hs
        exact ⟨hdel.step u act u' hC.2 hC.1 hs, hfull', hsame'.trans hsame⟩)
      ⟨hd, hover, rfl⟩ hb h
  exact hI.2.2

/-! ### What was delivered -/

/-- The reads of a session that give these frames one by one. -/
structure ReadsOf (s : State) (a : UInt64) (ds : List (CanFrame × FrameStore)) (rs : List (Read CanFrame ℕ)) : Prop where
  /-- They are a session from `a`. -/
  session : ∃ c, Session seqNo (fun _ => true) a.toNat rs c
  /-- Each is of the store that the pump saw. -/
  reads : rs.map (fun r => (r.window, r.result)) = ds.map fun d => (d.2.frames, [d.1])
  /-- Which was a store of this history. -/
  seen : ∀ d ∈ ds, Seen s d.2

variable {s : State} {a : UInt64} {ds : List (CanFrame × FrameStore)} {rs : List (Read CanFrame ℕ)}

theorem ReadsOf.results (h : ReadsOf s a ds rs) : rs.flatMap (·.result) = ds.map Prod.fst := by
  have hresults := congrArg (List.flatMap Prod.snd) h.reads
  rw [List.flatMap_map, List.flatMap_map] at hresults
  rw [List.map_eq_flatMap]
  exact hresults

/-- The read that gave a frame. -/
theorem ReadsOf.read_of_mem (h : ReadsOf s a ds rs) {d : CanFrame × FrameStore} (hd : d ∈ ds) :
    ∃ r ∈ rs, r.window = d.2.frames ∧ r.result = [d.1] := by
  have hmem : (d.2.frames, [d.1]) ∈ rs.map (fun r => (r.window, r.result)) := by
    rw [h.reads]
    exact List.mem_map_of_mem hd
  obtain ⟨r, hr, hrd⟩ := List.mem_map.mp hmem
  exact ⟨r, hr, congrArg Prod.fst hrd, congrArg Prod.snd hrd⟩

/-- A frame that is delivered was in the store that the pump saw. -/
theorem ReadsOf.mem_seen (h : ReadsOf s a ds rs) {d : CanFrame × FrameStore} (hd : d ∈ ds) : d.1 ∈ d.2.frames := by
  obtain ⟨c, hsession⟩ := h.session
  obtain ⟨r, hr, hwindow, hresult⟩ := h.read_of_mem hd
  obtain ⟨k, hk⟩ := hsession.result_eq hr
  have hmem : d.1 ∈ fetch seqNo (fun _ => true) r.before k r.window := by
    rw [← hk, hresult]
    exact List.mem_singleton_self _
  exact hwindow ▸ (mem_of_mem_fetch hmem).1

/-- The windows are in ascending order. -/
theorem ReadsOf.window_ascending (h : ReadsOf s a ds rs) (hn : s.appended.length < 2 ^ 64) :
    ∀ r ∈ rs, Ascending seqNo r.window := by
  intro r hr
  have hmem : (r.window, r.result) ∈ ds.map fun d => (d.2.frames, [d.1]) := by
    rw [← h.reads]
    exact List.mem_map_of_mem hr
  obtain ⟨d, hd, hrd⟩ := List.mem_map.mp hmem
  obtain ⟨log, hlog, hstore⟩ := h.seen d hd
  rw [← show d.2.frames = r.window from congrArg Prod.fst hrd]
  exact hstore.ascending (hlog.length_le.trans_lt hn)

/-- **In order, and each once.** -/
theorem ReadsOf.ascending (h : ReadsOf s a ds rs) (hn : s.appended.length < 2 ^ 64) :
    (ds.map (·.1.sequence)).Pairwise (· < ·) := by
  obtain ⟨c, hsession⟩ := h.session
  have hasc := (hsession.ascending (h.window_ascending hn)).2.1
  rw [h.results, Ascending, List.pairwise_map] at hasc
  exact List.pairwise_map.mpr (hasc.imp UInt64.lt_iff_toNat_lt.mpr)

/-- **As numbered by the store**, and above the cursor the client asked with. -/
theorem ReadsOf.stored (h : ReadsOf s a ds rs) (hn : s.appended.length < 2 ^ 64) {d : CanFrame × FrameStore}
    (hd : d ∈ ds) : a < d.1.sequence ∧ (stamp s.appended)[d.1.sequence.toNat - 1]? = some d.1 := by
  obtain ⟨c, hsession⟩ := h.session
  obtain ⟨r, hr, -, hresult⟩ := h.read_of_mem hd
  have hres : d.1 ∈ rs.flatMap (·.result) := List.mem_flatMap.mpr ⟨r, hr, by simp [hresult]⟩
  obtain ⟨log, hlog, hstore⟩ := h.seen d hd
  have hstamp : d.1 ∈ stamp s.appended := (stamp_mono hlog).subset (hstore.mem_stamp (h.mem_seen hd))
  exact ⟨UInt64.lt_iff_toNat_lt.mpr ((hsession.ascending (h.window_ascending hn)).2.2 _ hres).1,
    (getElem?_stamp hn hstamp).2.2⟩

/-- **What is missing was overwritten** when the pump that queued the next frame looked. -/
theorem ReadsOf.missing (h : ReadsOf s a ds rs) (hn : s.appended.length < 2 ^ 64) {q : UInt64} (ha : a < q)
    (hlater : ∃ d ∈ ds, q < d.1.sequence) (hmiss : ∀ d ∈ ds, d.1.sequence ≠ q) :
    ∃ d ∈ ds, q < d.1.sequence ∧ (∀ e ∈ ds, q < e.1.sequence → d.1.sequence ≤ e.1.sequence) ∧
      d.2.Evicted q := by
  obtain ⟨c, hsession⟩ := h.session
  simp only [UInt64.lt_iff_toNat_lt, UInt64.le_iff_toNat_le] at ha hlater ⊢
  obtain ⟨d, hd, hq, hnext⟩ := exists_next (fun d : CanFrame × FrameStore => seqNo d.1) hlater
  refine ⟨d, hd, hq, hnext, ?_⟩
  obtain ⟨r, hr, hwindow, hresult⟩ := h.read_of_mem hd
  have hskipped := hsession.skipped (h.window_ascending hn) hr (b := d.1) (by simp [hresult]) ha hq
    (by
      rw [h.results]
      rintro e he heq
      obtain ⟨d', hd', rfl⟩ := List.mem_map.mp he
      exact hmiss d' hd' (UInt64.toNat_inj.mp heq))
    (by
      rw [h.results]
      rintro e he hlt
      obtain ⟨d', hd', rfl⟩ := List.mem_map.mp he
      exact hnext d' hd' hlt)
  rw [hwindow] at hskipped
  obtain ⟨log, hlog, hstore⟩ := h.seen d hd
  refine hstore.evicted_of_lt (hlog.length_le.trans_lt hn) (UInt64.lt_iff_toNat_lt.mpr ?_) (h.mem_seen hd)
    (UInt64.le_iff_toNat_le.mpr hq.le) fun g hg heq => hskipped g hg rfl (congrArg UInt64.toNat heq)
  exact (Nat.zero_le _).trans_lt ha

/-- **A stream delivers every frame once, in order, and loses none but to overwriting.**
Let a stream be started after the sequence `a`, and the rest of the run be quiet, with
fewer than `2^64` frames appended. Then the bytes accepted since are the head, complete
events and complete comments. The frames in them are in strictly ascending order, above
`a`, and as the store numbered them. A sequence above `a` that was passed over had been
overwritten when the pump that queued the next frame looked: the store beside a frame is
the one that `.query` put down when that pump began, and `.sendFrame` queued with it. And
once there was no room nothing was queued any more. -/
theorem sse_delivers {capacity : ℕ} {hc : 0 < capacity} {hasRuntime : Bool} {as bs : List Act} {s₀ s₁ s : State}
    {a : UInt64} {len : ℕ} {now : ℤ} (h₀ : run step (.start capacity hc hasRuntime) as = some s₀)
    (ha : s₀.reader = .starting a len) (h₁ : step s₀ (.startSse now) = some s₁) (h : run step s₁ bs = some s)
    (hquiet : Meets Quiet step s₁ bs) (hn : s.appended.length < 2 ^ 64) :
    ∃ items : List Item, s.queued.map Prod.fst = s₁.queued.map Prod.fst ++ items ∧
      s.out.accepted.flatten = s₀.out.accepted.flatten ++ sseHead ++ items.flatMap Item.payload ∧
      (∀ i ∈ items, i.IsEvent) ∧
      ((frames items).map (·.1.sequence)).Pairwise (· < ·) ∧
      (∀ d ∈ frames items, a < d.1.sequence ∧ (stamp s.appended)[d.1.sequence.toNat - 1]? = some d.1) ∧
      (∀ q, a < q → (∃ d ∈ frames items, q < d.1.sequence) → (∀ d ∈ frames items, d.1.sequence ≠ q) →
        ∃ d ∈ frames items, q < d.1.sequence ∧
          (∀ e ∈ frames items, q < e.1.sequence → d.1.sequence ≤ e.1.sequence) ∧ d.2.Evicted q) ∧
      ∀ bs₁ bs₂ t, bs = bs₁ ++ bs₂ → run step s₁ bs₁ = some t → t.out.overflow = true → s.queued = t.queued := by
  have hholds : s₀.store.Holds s₀.appended :=
    run_invariant (I := fun s => s.store.Holds s.appended) holds_of_step (holds_empty capacity hc) h₀
  have hrecorded₀ : Recorded s₀ := run_invariant Recorded.step (recorded_start capacity hc hasRuntime) h₀
  have hrecorded₁ : Recorded s₁ := hrecorded₀.step s₀ (.startSse now) s₁ h₁
  have hrecorded : Recorded s := run_invariant Recorded.step hrecorded₁ h
  have hstart := delivering_start hholds ha h₁
  obtain ⟨n, hhead⟩ := queued_of_startSse h₁
  have hbounded := meets_bounded h hquiet hn
  obtain ⟨items, hitems, hevents, hseen, rs, c, hsession, hreads, -⟩ := (hstart.run h hbounded).queued
  have hreadsOf : ReadsOf s a (frames (items.map Prod.fst)) rs := ⟨⟨c, hsession⟩, hreads, hseen⟩
  refine ⟨items.map Prod.fst, by rw [hitems, List.map_append], ?_, ?_, hreadsOf.ascending hn,
    fun d hd => hreadsOf.stored hn hd, fun q ha hlater hmiss => hreadsOf.missing hn ha hlater hmiss, ?_⟩
  · rw [← hrecorded, hitems, hhead, ← hrecorded₀]
    simp [Item.payload, List.flatMap_map]
  · intro i hi
    obtain ⟨q, hq, rfl⟩ := List.mem_map.mp hi
    exact hevents q hq
  · rintro bs₁ bs₂ t rfl ht hover
    obtain ⟨t', ht', hrest⟩ := run_append_some h
    obtain rfl : t = t' := Option.some.inj (ht.symm.trans ht')
    have hn' := (appended_of_run hrest).length_le.trans_lt hn
    obtain ⟨hquiet₁, hquiet₂⟩ := hquiet.append ht
    exact nothing_after_overflow (hstart.run ht (meets_bounded ht hquiet₁ hn')) hover hrest
      (meets_bounded hrest hquiet₂ hn)

/-- The request for the stream is read, and the stream comes next. -/
def askStream : List Act := [.lockRead, .recv streamRequest, .drained, .parse plainSurroundings]

/-- Three frames come in before the pump looks. -/
def threeFrames : List Act :=
  [.append {}, .append {}, .append {}, .query, .sendFrame, .sendFrame, .endPump 0]

/-- A stream after the sequence `0` of a store for two frames. The first frame is
overwritten before the pump looks: the second and the third are delivered. -/
theorem sse_delivers_frame : ∃ s₀ s₁ s, ∃ items : List Item,
    run step (.start 2 (by decide) true) askStream = some s₀ ∧ step s₀ (.startSse 0) = some s₁ ∧
      run step s₁ threeFrames = some s ∧ s.queued.map Prod.fst = s₁.queued.map Prod.fst ++ items ∧
      s.out.accepted.flatten = s₀.out.accepted.flatten ++ sseHead ++ items.flatMap Item.payload ∧
      (frames items).map (·.1.sequence) = [2, 3] ∧
      ((frames items).map (·.1.sequence)).Pairwise (· < ·) ∧
      ∃ d ∈ frames items, 1 < d.1.sequence ∧
        (∀ e ∈ frames items, 1 < e.1.sequence → d.1.sequence ≤ e.1.sequence) ∧ d.2.Evicted 1 := by
  have h₀ : (run step (.start 2 (by decide) true) askStream).map (fun s => (s.reader, s.queued)) =
      some (.starting 0 32, []) := by decide +kernel
  have h : (run step (.start 2 (by decide) true) (askStream ++ .startSse 0 :: threeFrames)).map
      (fun s => (s.appended.length, (frames (s.queued.map Prod.fst)).map (·.1.sequence))) = some (3, [2, 3]) := by
    decide +kernel
  obtain ⟨s, hs, hend⟩ := Option.map_eq_some_iff.mp h
  obtain ⟨hlen, hframes⟩ := Prod.mk.inj hend
  obtain ⟨s₀, hs₀, hrest⟩ := run_append_some hs
  obtain ⟨s₁, hs₁, hbs⟩ := run_cons_some hrest
  rw [hs₀, Option.map_some, Option.some.injEq] at h₀
  obtain ⟨hreader, hempty⟩ := Prod.mk.inj h₀
  obtain ⟨items, hqueued, hbytes, -, hasc, -, hmissing, -⟩ := sse_delivers hs₀ hreader hs₁ hbs
    (Meets.of_forall (by simp [Quiet, threeFrames]) s₁) (by omega)
  have hnumbers : (frames items).map (·.1.sequence) = [2, 3] := by
    obtain ⟨n, hhead⟩ := queued_of_startSse hs₁
    rw [hqueued, hhead, hempty, frames_append] at hframes
    exact hframes
  have hmem : ∀ d ∈ frames items, d.1.sequence ∈ [(2 : UInt64), 3] := fun d hd =>
    hnumbers ▸ List.mem_map_of_mem (f := fun d : CanFrame × FrameStore => d.1.sequence) hd
  obtain ⟨d, hd, htwo⟩ := List.mem_map.mp (hnumbers ▸ List.mem_cons_self :
    (2 : UInt64) ∈ (frames items).map (·.1.sequence))
  refine ⟨s₀, s₁, s, items, hs₀, hs₁, hbs, hqueued, hbytes, hnumbers, hasc, ?_⟩
  refine hmissing 1 (by decide) ⟨d, hd, htwo ▸ by decide⟩ fun e he heq => ?_
  have hone : (1 : UInt64) ∈ [(2 : UInt64), 3] := heq ▸ hmem e he
  exact absurd hone (by decide)

/-! ### Past the wrap -/

/-- The receiver appends frames one after the other. -/
theorem run_appends (s : State) (fs : List CanFrame) :
    run step s (fs.map .append) = some { s with store := s.store.appendAll fs, appended := s.appended ++ fs } := by
  induction fs generalizing s with
  | nil => simp [appendAll]
  | cons f fs ih =>
    rw [List.map_cons, run_cons, step, Option.bind_some, ih]
    simp [appendAll]

/-- A frame for which there is room. -/
theorem sendFrame_of_fits {s : State} {frame : CanFrame} {rest : List CanFrame} {seen : FrameStore} {appended : Bool}
    (h : s.pump = .sending (frame :: rest) seen appended) (hfits : s.Fits (.frame frame seen)) :
    step s .sendFrame = some { s.push (.frame frame seen) with
      sseAfterSequence := max s.sseAfterSequence frame.sequence
      pump := .sending rest seen true } := by
  rcases queueSse_eq { s with sseAfterSequence := max s.sseAfterSequence frame.sequence } (.frame frame seen)
    (frame_payload_ne_nil frame seen) with ⟨-, hq⟩ | ⟨hfull, -⟩
  · rw [h] at hq
    simp only [step, sendFrame, h, hq]
    rfl
  · exact absurd hfits hfull

/-- Frames for all of which there is room. -/
theorem run_sendFrames {fs : List CanFrame} {seen : FrameStore} {s : State} {appended : Bool}
    (h : s.pump = .sending fs seen appended)
    (hfits : s.out.sendBuf.length + (fs.map fun f => (frameToSse f).length).sum ≤ kMaxSsePendingBytes) :
    ∃ t, run step s (fs.map fun _ => .sendFrame) = some t ∧
      frames (t.queued.map Prod.fst) = frames (s.queued.map Prod.fst) ++ fs.map (·, seen) := by
  induction fs generalizing s appended with
  | nil => exact ⟨s, rfl, (List.append_nil _).symm⟩
  | cons f fs ih =>
    rw [List.map_cons, List.sum_cons, ← Nat.add_assoc] at hfits
    have hroom : s.Fits (.frame f seen) := (Nat.le_add_right _ _).trans hfits
    obtain ⟨t, ht, hframes⟩ := ih (s := { s.push (.frame f seen) with
      sseAfterSequence := max s.sseAfterSequence f.sequence
      pump := .sending fs seen true }) rfl (by simpa [State.push, Output.push, Item.payload] using hfits)
    refine ⟨t, ?_, ?_⟩
    · rw [List.map_cons, run_cons, sendFrame_of_fits h hroom, Option.bind_some, ht]
    · rw [hframes, State.push, frames_concat, List.map_cons, List.append_assoc]
      rfl

/-- A pump that has room for all it takes. -/
theorem run_pump {s : State} {fs : List CanFrame}
    (hready : s.pump = .idle ∧ s.sseActive = true ∧ s.hasRuntime = true ∧ (!s.out.overflow) = true)
    (hquery : s.store.queryAfter s.sseAfterSequence none 100 = fs)
    (hfits : s.out.sendBuf.length + (fs.map fun f => (frameToSse f).length).sum ≤ kMaxSsePendingBytes) :
    ∃ t, run step s (.query :: fs.map fun _ => .sendFrame) = some t ∧
      frames (t.queued.map Prod.fst) = frames (s.queued.map Prod.fst) ++ fs.map (·, s.store) := by
  obtain ⟨t, ht, hframes⟩ := run_sendFrames (s := { s with pump := .sending fs s.store false }) rfl hfits
  refine ⟨t, ?_, hframes⟩
  rw [run_cons, step, if_pos hready, Option.bind_some, hquery, ht]

/-- The frames of a store of empty frames, by their sequences. -/
theorem frames_of_replicate {store : FrameStore} {n : ℕ} (h : store.Holds (List.replicate n {})) :
    store.frames = (store.frames.map (·.sequence)).map fun q => { sequence := q } := by
  have hmem : ∀ f ∈ stamp (List.replicate n ({} : CanFrame)), ({ sequence := f.sequence } : CanFrame) = f := by
    intro f hf
    obtain ⟨i, hi, rfl⟩ := List.mem_mapIdx.mp hf
    simp
  rw [List.map_map]
  exact (List.map_congr_left fun f hf => hmem f (h.mem_stamp hf)).trans (List.map_id _) |>.symm

/-- After `2^64 + 1` appends to a store of three frames, a stream after the sequence `0`
is given the frame `2^64 - 1` and then the frame `1`. -/
theorem sse_wraps : ∃ s₀ s₁ s,
    run step (.start 3 (by decide) true) [.lockRead, .recv streamRequest, .drained, .parse plainSurroundings] = some s₀ ∧
      s₀.reader = .starting 0 32 ∧ step s₀ (.startSse 0) = some s₁ ∧
      run step s₁ ((List.replicate (2 ^ 64 + 1) ({} : CanFrame)).map .append ++ [.query, .sendFrame, .sendFrame]) =
        some s ∧
      Meets Quiet step s₁
        ((List.replicate (2 ^ 64 + 1) ({} : CanFrame)).map .append ++ [.query, .sendFrame, .sendFrame]) ∧
      (frames (s.queued.map Prod.fst)).map (·.1.sequence) = [UInt64.ofNat (2 ^ 64 - 1), 1] ∧
      ¬ ((frames (s.queued.map Prod.fst)).map (·.1.sequence)).Pairwise (· < ·) := by
  have hprefix : (run step (.start 3 (by decide) true)
      ([.lockRead, .recv streamRequest, .drained, .parse plainSurroundings] ++ [.startSse 0])).map
        (fun s => decide (s.store = .empty 3 (by decide) ∧ s.sseAfterSequence = 0 ∧ s.out.sendBuf.length = 152 ∧
          s.queued = [(.head, 152)] ∧ s.pump = .idle ∧ s.sseActive = true ∧ s.hasRuntime = true ∧
          (!s.out.overflow) = true)) = some true := by decide +kernel
  have hreader : (run step (.start 3 (by decide) true)
      [.lockRead, .recv streamRequest, .drained, .parse plainSurroundings]).map (·.reader) =
        some (.starting 0 32) := by decide +kernel
  obtain ⟨s₁, hs₁, hfields⟩ := Option.map_eq_some_iff.mp hprefix
  obtain ⟨hstore, hafter, hsize, hqueued, hready⟩ := of_decide_eq_true hfields
  obtain ⟨s₀, h₀, hstart⟩ := run_append_some hs₁
  obtain ⟨s₁', hs₁', hnil⟩ := run_cons_some hstart
  obtain rfl : s₁' = s₁ := Option.some.inj hnil
  rw [h₀, Option.map_some, Option.some.injEq] at hreader
  -- what the receiver appends
  generalize hfs : List.replicate (2 ^ 64 + 1) ({} : CanFrame) = fs
  have hlen : fs.length = 2 ^ 64 + 1 := by rw [← hfs, List.length_replicate]
  have hholds := appendAll_spec 3 (by decide) fs
  have happs := run_appends s₁' fs
  rw [hstore] at happs
  generalize hst : (FrameStore.empty 3 (by decide)).appendAll fs = st at hholds happs
  have hcap : st.capacity = 3 := by rw [← hst, capacity_appendAll]; rfl
  have hseq : st.frames.map (·.sequence) = [UInt64.ofNat (2 ^ 64 - 1), 0, 1] := by
    rw [hholds.map_sequence, hcap, hlen]
    rfl
  have hframes : st.frames = [{ sequence := UInt64.ofNat (2 ^ 64 - 1) }, { sequence := 0 }, { sequence := 1 }] := by
    rw [frames_of_replicate (hfs ▸ hholds), hseq]
    rfl
  have hquery : st.queryAfter s₁'.sseAfterSequence none 100 =
      [{ sequence := UInt64.ofNat (2 ^ 64 - 1) }, { sequence := 1 }] := by
    rw [FrameStore.queryAfter, hafter, hframes]
    decide
  -- what the pump queues
  obtain ⟨t, ht, hdelivered⟩ := run_pump (s := { s₁' with store := st, appended := s₁'.appended ++ fs })
    hready hquery (by rw [hsize]; decide +kernel)
  have hsequences : (frames (t.queued.map Prod.fst)).map (·.1.sequence) = [UInt64.ofNat (2 ^ 64 - 1), 1] := by
    rw [hdelivered, hqueued]
    rfl
  refine ⟨s₀, s₁', t, h₀, hreader, hs₁', ?_, ?_, hsequences, ?_⟩
  · rw [run_append, happs, Option.bind_some]
    exact ht
  · refine Meets.of_forall (fun a ha s => ?_) s₁'
    rcases List.mem_append.mp ha with ha | ha
    · obtain ⟨f, -, rfl⟩ := List.mem_map.mp ha
      exact True.intro
    · simp only [List.mem_cons, List.not_mem_nil, or_false] at ha
      rcases ha with rfl | rfl | rfl <;> exact True.intro
  · rw [hsequences]
    decide

end CanMonitor.Connection
