import CanMonitor.Library.Cursor
import CanMonitor.Library.Runs
import CanMonitor.Can.FrameStore

/-!
# Incremental polling

A REST client of `GET /api/can/frames?after=…` keeps a cursor, the last sequence it was
given, and asks for the frames above it, while the receiver goes on appending and the
store goes on overwriting. `step` is one append or one poll; a run is any interleaving
of them.

A poll is a read of the store's buffer through a cursor (`queryAfter_eq_fetch`), so a
client's history is a `Session` of `CanMonitor.Library.Cursor`, whatever was appended
in between (`Inv.session`). The rest is what the buffer is: the window of the numbered
log (`FrameStore.Holds`), so what is not in it although it was appended has been
overwritten (`evicted_iff`).

Sequences are 64-bit words. Up to `2^64 - 1` appends they are the numbers `1, 2, 3, …`
and the client misses nothing but what was overwritten (`polling_accounts`); past that
they start again at `0`, and a buffer that straddles the wrap is not in ascending order
(`polling_wraps`).
-/

namespace CanMonitor.Can

open CanMonitor.Library

namespace Polling

open FrameStore

/-- A poll, as it happened. -/
structure Poll where
  /-- The store it was answered from. -/
  store : FrameStore
  /-- The cursor it was sent with. -/
  before : UInt64
  /-- The answer. -/
  result : List CanFrame

/-- The client's cursor after an answer: the last sequence of it, if it is not empty. -/
def moveCursor (cursor : UInt64) (r : List CanFrame) : UInt64 := r.getLast?.elim cursor (·.sequence)

/-- The client's cursor after the poll. -/
def Poll.after (p : Poll) : UInt64 := moveCursor p.before p.result

/-- The poll as a read of a window. -/
def Poll.read (p : Poll) : Read CanFrame ℕ := ⟨p.store.frames, p.before.toNat, p.result⟩

/-- The store and the client, with what was appended and polled so far. -/
structure State where
  /-- The store. -/
  store : FrameStore
  /-- The client's cursor. -/
  cursor : UInt64
  /-- The frames appended so far, as the appends were given them. -/
  log : List CanFrame
  /-- The polls so far. -/
  polls : List Poll

/-- An append by the receiver, or a poll with the limit it asks for. -/
inductive Act where
  /-- `FrameStore::append`. -/
  | append (f : CanFrame)
  /-- `queryAfter(cursor, id, limit)`. -/
  | poll (limit : ℕ)

/-- One action. The client asks for at least one frame. -/
def step (idFilter : Option UInt32) (s : State) : Act → Option State
  | .append f => some { s with store := (s.store.append f).2, log := s.log ++ [f] }
  | .poll limit =>
    if 0 < limit then
      let r := s.store.queryAfter s.cursor idFilter limit
      some { s with cursor := moveCursor s.cursor r, polls := s.polls ++ [⟨s.store, s.cursor, r⟩] }
    else none

/-- A new store of capacity `c`, and a client that starts at `c₀`. -/
def start (c : ℕ) (hc : 0 < c) (c₀ : UInt64) : State := ⟨FrameStore.empty c hc, c₀, [], []⟩

/-- Everything the polls returned. -/
def State.returned (s : State) : List CanFrame := s.polls.flatMap (·.result)

/-- What holds of a client that started at `c₀`. -/
structure Inv (idFilter : Option UInt32) (c₀ : UInt64) (s : State) : Prop where
  /-- The store is what its log says. -/
  holds : s.store.Holds s.log
  /-- So was the store at every poll. -/
  polled : ∀ p ∈ s.polls, ∃ log, log <+: s.log ∧ p.store.Holds log
  /-- The polls are reads through the cursor, one after the other. -/
  session : Session (fun f : CanFrame => f.sequence.toNat) (fun f => idFilter.all (· == f.id)) c₀.toNat
    (s.polls.map Poll.read) s.cursor.toNat

theorem toNat_moveCursor (c : UInt64) (r : List CanFrame) :
    (moveCursor c r).toNat = advance (fun f : CanFrame => f.sequence.toNat) c.toNat r := by
  unfold moveCursor advance
  cases r.getLast? <;> rfl

theorem inv_start (idFilter : Option UInt32) (c : ℕ) (hc : 0 < c) (c₀ : UInt64) :
    Inv idFilter c₀ (start c hc c₀) :=
  ⟨holds_empty c hc, by simp [start], .start⟩

/-- An append or a poll keeps the invariant. -/
theorem inv_step {idFilter : Option UInt32} {c₀ : UInt64} (s : State) (a : Act) (s' : State)
    (h : Inv idFilter c₀ s) (hs : step idFilter s a = some s') : Inv idFilter c₀ s' := by
  cases a with
  | append f =>
    simp only [step, Option.some.injEq] at hs
    subst hs
    constructor
    · exact h.holds.append f
    · intro p hp
      obtain ⟨log, hpre, hlog⟩ := h.polled p hp
      exact ⟨log, hpre.trans (List.prefix_append _ _), hlog⟩
    · exact h.session
  | poll limit =>
    simp only [step, Option.ite_none_right_eq_some, Option.some.injEq] at hs
    obtain ⟨-, rfl⟩ := hs
    constructor
    · exact h.holds
    · intro p hp
      rcases List.mem_append.mp hp with hp | hp
      · exact h.polled p hp
      · rw [List.mem_singleton.mp hp]
        exact ⟨s.log, List.prefix_rfl, h.holds⟩
    · rw [List.map_append, toNat_moveCursor]
      simp only [List.map_singleton, Poll.read, queryAfter_eq_fetch]
      exact .read _ _ h.session

/-- Every run of a client keeps the invariant. -/
theorem inv_run {idFilter : Option UInt32} {c : ℕ} {hc : 0 < c} {c₀ : UInt64} {as : List Act} {s : State}
    (h : run (step idFilter) (start c hc c₀) as = some s) : Inv idFilter c₀ s :=
  run_invariant inv_step (inv_start idFilter c hc c₀) h

/-! ### What the invariant says -/

variable {idFilter : Option UInt32} {c₀ : UInt64} {s : State}

theorem Inv.window_ascending (h : Inv idFilter c₀ s) (hn : s.log.length < 2 ^ 64) :
    ∀ r ∈ s.polls.map Poll.read, Ascending (fun f : CanFrame => f.sequence.toNat) r.window := by
  intro r hr
  obtain ⟨p, hp, rfl⟩ := List.mem_map.mp hr
  obtain ⟨log, hpre, hlog⟩ := h.polled p hp
  exact hlog.ascending (hpre.length_le.trans_lt hn)

theorem returned_eq (s : State) : (s.polls.map Poll.read).flatMap (·.result) = s.returned := by
  rw [State.returned, List.flatMap_map]
  rfl

/-- The answers are in ascending order, all of them together. -/
theorem Inv.returned_ascending (h : Inv idFilter c₀ s) (hn : s.log.length < 2 ^ 64) :
    (s.returned.map (·.sequence)).Pairwise (· < ·) := by
  have := (h.session.ascending (h.window_ascending hn)).2.1
  rw [returned_eq] at this
  rw [List.pairwise_map]
  exact this.imp UInt64.lt_iff_toNat_lt.mpr

/-- A frame that was passed over had been overwritten. -/
theorem Inv.missed_evicted (h : Inv idFilter c₀ s) (hn : s.log.length < 2 ^ 64) {f : CanFrame}
    (hf : f ∈ stamp s.log) (hid : idFilter.all (· == f.id) = true) (h₀ : c₀ < f.sequence)
    (hle : f.sequence ≤ s.cursor) (hmiss : f ∉ s.returned) :
    ∃ p ∈ s.polls, p.before < f.sequence ∧ f.sequence ≤ p.after ∧ p.store.Evicted f.sequence := by
  have hw := h.window_ascending hn
  obtain ⟨r, hr, hb, ha⟩ := h.session.passed (UInt64.lt_iff_toNat_lt.mp h₀) (UInt64.le_iff_toNat_le.mp hle)
  have hr' := hr
  obtain ⟨p, hp, rfl⟩ := List.mem_map.mp hr'
  have hafter : p.read.after (fun f : CanFrame => f.sequence.toNat) = p.after.toNat :=
    (toNat_moveCursor p.before p.result).symm
  obtain ⟨log, hpre, hlog⟩ := h.polled p hp
  have hlen := hpre.length_le
  have hout : f ∉ p.store.frames :=
    h.session.missed hw hr (b := f) hid hb ha (by rwa [returned_eq])
  -- the answer is not empty, and its last frame is not below `f`
  obtain ⟨ys, g, hg⟩ := (List.eq_nil_or_concat' p.result).resolve_left fun hnil => by
    rw [hafter, Poll.after, hnil] at ha
    exact absurd hb (not_lt.mpr ha)
  have hgmem : g ∈ p.store.frames := by
    obtain ⟨k, hk⟩ := h.session.result_eq hr
    have : g ∈ p.read.result := by simp [Poll.read, hg]
    rw [hk] at this
    exact (mem_of_mem_fetch this).1
  have hgle : f.sequence ≤ g.sequence := by
    rw [hafter, Poll.after, hg] at ha
    rw [UInt64.le_iff_toNat_le]
    simpa [moveCursor] using ha
  refine ⟨p, hp, UInt64.lt_iff_toNat_lt.mpr hb, UInt64.le_iff_toNat_le.mpr (hafter ▸ ha), ?_⟩
  refine hlog.evicted_of_lt (hlen.trans_lt hn) (UInt64.lt_of_le_of_lt UInt64.zero_le h₀) hgmem hgle fun e he heq => ?_
  have := eq_of_sequence_eq hn ((stamp_mono hpre).subset (hlog.mem_stamp he)) hf heq
  exact hout (this ▸ he)

/-- The frames that were overwritten by the time of the poll and that the client had not seen. -/
def unseen (s : State) (p : Poll) : List CanFrame :=
  (stamp s.log).filter fun g => p.before < g.sequence ∧ p.store.Evicted g.sequence

theorem length_filter_between (a o n : ℕ) :
    ((List.range' 1 n).filter fun k => decide (a < k ∧ k ≤ o)).length = min o n - a := by
  induction n with
  | zero => simp
  | succ n ih =>
    rw [List.range'_concat, List.filter_append, List.length_append, ih, List.filter_singleton]
    by_cases h : a < 1 + 1 * n ∧ 1 + 1 * n ≤ o
    · rw [decide_eq_true h]
      simp only [cond_true, List.length_singleton]
      omega
    · rw [decide_eq_false h]
      simp only [cond_false, List.length_nil]
      omega

/-- How many frames were overwritten unseen. -/
theorem Inv.length_unseen (h : Inv idFilter c₀ s) (hn : s.log.length < 2 ^ 64) {p : Poll} (hp : p ∈ s.polls) :
    (unseen s p).length = p.store.overwritten.toNat - p.before.toNat := by
  obtain ⟨log, hpre, hlog⟩ := h.polled p hp
  have hlen := hpre.length_le
  have hover := hlog.toNat_overwritten (hlen.trans_lt hn)
  have hmap : (stamp s.log).map (·.sequence.toNat) = List.range' 1 s.log.length := by
    rw [← map_toNat_range' hn, ← map_sequence_stamp, List.map_map]
    rfl
  calc (unseen s p).length
      = ((stamp s.log).filter ((fun k => decide (p.before.toNat < k ∧ k ≤ p.store.overwritten.toNat)) ∘
          fun g => g.sequence.toNat)).length := by
        unfold unseen
        congr 1
        apply List.filter_congr
        intro g _
        simp only [Function.comp, decide_eq_decide, evicted_iff hlog (hlen.trans_lt hn), UInt64.lt_iff_toNat_lt]
        omega
    _ = ((List.range' 1 s.log.length).filter fun k =>
          decide (p.before.toNat < k ∧ k ≤ p.store.overwritten.toNat)).length := by
        rw [← hmap, List.filter_map, List.length_map]
    _ = p.store.overwritten.toNat - p.before.toNat := by
        rw [length_filter_between]
        omega

/-- Without an id filter, an answer is a run of consecutive sequences, from the cursor
or from the frames overwritten, whichever is higher. -/
theorem Inv.consecutive (h : Inv none c₀ s) (hn : s.log.length < 2 ^ 64) {p : Poll} (hp : p ∈ s.polls) :
    p.result.map (·.sequence.toNat) =
      List.range' (max p.before.toNat p.store.overwritten.toNat + 1) p.result.length := by
  obtain ⟨log, hpre, hlog⟩ := h.polled p hp
  have hn' := hpre.length_le.trans_lt hn
  obtain ⟨k, hk⟩ := h.session.result_eq (List.mem_map_of_mem hp)
  have hk' : p.result =
      fetch (fun f : CanFrame => f.sequence.toNat) (fun _ => true) p.before.toNat k p.store.frames := hk
  have hwin := map_sequence_frames hlog hn'
  rw [← hlog.toNat_overwritten hn'] at hwin
  rw [hk']
  exact fetch_consecutive hwin

/-- **Incremental polling accounts for every frame**, for every interleaving of fewer
than `2^64` appends with the polls of a client: what it is given, all answers together,
is strictly increasing; a matching frame it was not given although its cursor has passed
it had been overwritten when the poll that passed it was answered; and without an id
filter an answer is a run of consecutive sequences that starts right after the cursor
or after the frames overwritten, so that it leaves a gap exactly when frames were
overwritten unseen, and as many as those. -/
theorem polling_accounts (idFilter : Option UInt32) (c : ℕ) (hc : 0 < c) (c₀ : UInt64) (as : List Act) (s : State)
    (h : run (step idFilter) (start c hc c₀) as = some s) (hn : s.log.length < 2 ^ 64) :
    (s.returned.map (·.sequence)).Pairwise (· < ·) ∧
      (∀ f ∈ stamp s.log, (∀ i, idFilter = some i → f.id = i) → c₀ < f.sequence → f.sequence ≤ s.cursor →
        f ∉ s.returned →
          ∃ p ∈ s.polls, p.before < f.sequence ∧ f.sequence ≤ p.after ∧ p.store.Evicted f.sequence) ∧
      (idFilter = none → ∀ p ∈ s.polls, ∀ f ∈ p.result.head?,
        p.result.map (·.sequence.toNat) =
          List.range' (max p.before.toNat p.store.overwritten.toNat + 1) p.result.length ∧
        f.sequence.toNat - (p.before.toNat + 1) = (unseen s p).length ∧
        (p.before.toNat + 1 < f.sequence.toNat ↔ unseen s p ≠ [])) := by
  have hI := inv_run h
  refine ⟨hI.returned_ascending hn, fun f hf hid h₀ hle hmiss => ?_, ?_⟩
  · refine hI.missed_evicted hn hf ?_ h₀ hle hmiss
    cases idFilter with
    | none => rfl
    | some i => simpa using (hid i rfl).symm
  · rintro rfl p hp f hf
    have hrun := hI.consecutive hn hp
    have hlen := hI.length_unseen hn hp
    have hfirst : f.sequence.toNat = max p.before.toNat p.store.overwritten.toNat + 1 := by
      obtain ⟨rest, hr⟩ := List.head?_eq_some_iff.mp hf
      rw [hr, List.map_cons, List.length_cons, List.range'_succ] at hrun
      exact (List.cons.inj hrun).1
    refine ⟨hrun, by omega, ?_⟩
    rw [← List.length_pos_iff_ne_nil]
    omega

/-! ### Past the wrap -/

/-- Appending frames one after the other. -/
theorem run_appends (idFilter : Option UInt32) (s : State) (fs : List CanFrame) :
    run (step idFilter) s (fs.map .append) =
      some { s with store := s.store.appendAll fs, log := s.log ++ fs } := by
  induction fs generalizing s with
  | nil => simp [appendAll]
  | cons f fs ih =>
    rw [List.map_cons, run_cons, step, Option.bind_some, ih]
    simp [appendAll]

/-- After `2^64 + 1` appends to a store of three frames, its sequences start again in
the middle of the buffer, and a poll from cursor `0` is given `2^64 - 1` before `1`. -/
theorem polling_wraps : ∃ s, run (step none) (start 3 (by decide) 0)
    ((List.replicate (2 ^ 64 + 1) ({} : CanFrame)).map .append ++ [.poll 10]) = some s ∧
      ¬ (s.returned.map (·.sequence)).Pairwise (· < ·) := by
  generalize hfs : List.replicate (2 ^ 64 + 1) ({} : CanFrame) = fs
  have hlen : fs.length = 2 ^ 64 + 1 := by rw [← hfs, List.length_replicate]
  have hs := appendAll_spec 3 (by decide) fs
  generalize hst : (FrameStore.empty 3 (by decide)).appendAll fs = st at hs
  have hcap : st.capacity = 3 := by rw [← hst, capacity_appendAll]; rfl
  have hseq : st.frames.map (·.sequence) = [UInt64.ofNat (2 ^ 64 - 1), 0, 1] := by
    rw [hs.map_sequence, hcap, hlen]
    rfl
  have hresult : (st.queryAfter 0 none 10).map (·.sequence) = [UInt64.ofNat (2 ^ 64 - 1), 1] := by
    have hw : wanted 0 none = (fun q : UInt64 => decide (0 < q)) ∘ (·.sequence) := by
      funext f
      simp [wanted]
    rw [queryAfter_eq, List.map_take, hw, ← List.filter_map, hseq]
    decide
  have hrun := run_appends none (start 3 (by decide) 0) fs
  rw [show (start 3 (by decide) 0).store.appendAll fs = st from hst] at hrun
  refine ⟨_, run_concat hrun rfl, ?_⟩
  show ¬ ((([⟨st, 0, st.queryAfter 0 none 10⟩] : List Poll).flatMap (·.result)).map (·.sequence)).Pairwise (· < ·)
  rw [List.flatMap_singleton, hresult]
  decide

/-- Two frames overwritten before the second poll of a store of capacity `2`. -/
theorem polling_accounts_gap : ∃ s, run (step none) (start 2 (by decide) 0)
    [.append {}, .poll 5, .append {}, .append {}, .append {}, .poll 5] = some s ∧
      (s.returned.map (·.sequence)).Pairwise (· < ·) := by
  have hlog : (run (step none) (start 2 (by decide) 0)
    [.append {}, .poll 5, .append {}, .append {}, .append {}, .poll 5]).map (·.log.length) = some 4 := rfl
  obtain ⟨s, hs, hlen⟩ := Option.map_eq_some_iff.mp hlog
  exact ⟨s, hs, (polling_accounts none 2 (by decide) 0 _ s hs (by omega)).1⟩

end Polling

end CanMonitor.Can
