import CanMonitor.Library.Runs
import CanMonitor.Library.Numeral

/-!
# The output of a connection

`send_buf` and the calls that touch it: `appendSendBuf` and `appendSsePayload`, from
any thread, and `handleWrite`, which copies the buffer, writes some of the copy to the
socket and erases as much from the front of the buffer.

## The model

`send_mutex_` makes an append, the test-and-copy and the erasure one step each, but not
the whole of a turn of `handleWrite`'s loop: anything may be appended between the copy,
the write and the erasure. `write_mutex_` is held from the beginning of `handleWrite`
to its end, so of any number of calls one at most is past its first line; `writer` says
where that one is.

`written` and `accepted` are what the socket took and what the appends put in the buffer
so far.

## What is proved

* `Conserved.step` — every step keeps the books.
* `output_conserved` — at any point of any interleaving, what was written followed by
  what is in the buffer, less what is written and not yet erased, is what was accepted.
-/

namespace CanMonitor.Connection

open CanMonitor.Library

/-- `kMaxSsePendingBytes`. -/
def kMaxSsePendingBytes : ℕ := 256 * 1024

/-- Where the call of `handleWrite` that holds `write_mutex_` is. -/
inductive Writer where
  /-- There is none. -/
  | idle
  /-- At the test of the buffer. -/
  | testing
  /-- It has copied the buffer. -/
  | copied (pending : Bytes)
  /-- It has written so many bytes and has them to erase. -/
  | wrote (n : ℕ)
  /-- It has found the buffer empty and is in its last `updateEvent`, which has looked the
  connection up or has yet to. -/
  | updating (found : Bool)
  deriving DecidableEq

/-- The members that output is about. -/
structure Output where
  /-- `send_buf`. -/
  sendBuf : Bytes
  /-- `sse_overflow_`. -/
  overflow : Bool
  /-- Where `handleWrite` is. -/
  writer : Writer
  /-- What the socket took. -/
  written : Bytes
  /-- What was appended, append by append. -/
  accepted : List Bytes

namespace Output

/-- The members of a new connection. -/
def new : Output := ⟨[], false, .idle, [], []⟩

/-- `send_buf += data`. -/
def push (o : Output) (data : Bytes) : Output :=
  { o with sendBuf := o.sendBuf ++ data, accepted := o.accepted ++ [data] }

/-- `appendSendBuf`. -/
def appendSendBuf (o : Output) (data : Bytes) : Output := if data = [] then o else o.push data

/-- An append adds its bytes, if any. -/
theorem appendSendBuf_accepted (o : Output) (data : Bytes) :
    (o.appendSendBuf data).accepted.flatten = o.accepted.flatten ++ data := by
  unfold appendSendBuf
  split_ifs with h
  · simp [h]
  · simp [push]

/-- `appendSsePayload`: was the payload appended, and the members afterwards. -/
def appendSsePayload (o : Output) (payload : Bytes) : Bool × Output :=
  if payload = [] then (false, o)
  else if kMaxSsePendingBytes < o.sendBuf.length + payload.length then (false, { o with overflow := true })
  else (true, o.push payload)

/-- The steps. -/
inductive Act where
  /-- A call of `appendSendBuf`. -/
  | appendSendBuf (data : Bytes)
  /-- A call of `appendSsePayload`. -/
  | appendSsePayload (payload : Bytes)
  /-- `handleWrite` gets the lock. -/
  | lock
  /-- It tests the buffer and copies it, unless it is empty. -/
  | copy
  /-- `write` takes so many bytes of the copy. -/
  | write (n : ℕ)
  /-- The bytes written are erased from the buffer. -/
  | erase
  /-- Its last `updateEvent` finds the connection. -/
  | found
  /-- `handleWrite` returns: `write` failed, or `updateEvent` is over. -/
  | leave

/-- A step of `handleWrite`. -/
def Act.IsWriter : Act → Prop
  | .appendSendBuf _ => False
  | .appendSsePayload _ => False
  | _ => True

/-- One step. -/
def step (o : Output) : Act → Option Output
  | .appendSendBuf data => some (o.appendSendBuf data)
  | .appendSsePayload payload => some (o.appendSsePayload payload).2
  | .lock =>
    match o.writer with
    | .idle => some { o with writer := .testing }
    | _ => none
  | .copy =>
    match o.writer with
    | .testing =>
      if o.sendBuf = [] then some { o with writer := .updating false }
      else some { o with writer := .copied o.sendBuf }
    | _ => none
  | .write n =>
    match o.writer with
    | .copied pending =>
      if 0 < n ∧ n ≤ pending.length then some { o with writer := .wrote n, written := o.written ++ pending.take n }
      else none
    | _ => none
  | .erase =>
    match o.writer with
    | .wrote n => some { o with writer := .testing, sendBuf := o.sendBuf.drop n }
    | _ => none
  | .found =>
    match o.writer with
    | .updating false => some { o with writer := .updating true }
    | _ => none
  | .leave =>
    match o.writer with
    | .copied _ => some { o with writer := .idle }
    | .updating _ => some { o with writer := .idle }
    | _ => none

/-- How many bytes at the front of the buffer are written and not yet erased. -/
def unerased (o : Output) : ℕ :=
  match o.writer with
  | .wrote n => n
  | _ => 0

/-- The books are right. -/
structure Conserved (o : Output) : Prop where
  /-- What was written and what is left is what was accepted. -/
  bytes : o.written ++ o.sendBuf.drop o.unerased = o.accepted.flatten
  /-- What is written and not yet erased is at the front of the buffer. -/
  front : o.unerased ≤ o.sendBuf.length ∧ o.sendBuf.take o.unerased <:+ o.written
  /-- The buffer still begins with the copy. -/
  pending : ∀ pending, o.writer = .copied pending → pending <+: o.sendBuf

theorem conserved_new : new.Conserved := ⟨rfl, by simp [new, unerased], nofun⟩

/-- Appending keeps the books: it changes nothing at the front of the buffer. -/
theorem Conserved.push {o : Output} (h : o.Conserved) (data : Bytes) : (o.push data).Conserved := by
  obtain ⟨hbytes, ⟨hle, hfront⟩, hpending⟩ := h
  have hun : (o.push data).unerased = o.unerased := rfl
  constructor
  · rw [hun]
    simp only [Output.push, List.drop_append_of_le_length hle, List.flatten_append, List.flatten_singleton]
    rw [← hbytes, List.append_assoc]
  · rw [hun]
    constructor
    · simp only [Output.push, List.length_append]
      omega
    · simpa only [Output.push, List.take_append_of_le_length hle] using hfront
  · intro pending hp
    exact (hpending pending hp).trans (List.prefix_append _ _)

theorem Conserved.appendSendBuf {o : Output} (h : o.Conserved) (data : Bytes) : (o.appendSendBuf data).Conserved := by
  unfold Output.appendSendBuf
  split_ifs
  · exact h
  · exact h.push data

theorem Conserved.appendSsePayload {o : Output} (h : o.Conserved) (payload : Bytes) :
    (o.appendSsePayload payload).2.Conserved := by
  unfold Output.appendSsePayload
  split_ifs
  · exact h
  · exact ⟨h.bytes, h.front, h.pending⟩
  · exact h.push payload

/-- Outside the write and the erasure, where `handleWrite` is does not matter to the bytes. -/
theorem Conserved.move {o : Output} (h : o.Conserved) (h₀ : o.unerased = 0) {w : Writer}
    (hw : ({ o with writer := w } : Output).unerased = 0)
    (hpending : ∀ pending, w = .copied pending → pending <+: o.sendBuf) :
    ({ o with writer := w } : Output).Conserved := by
  have hbytes := h.bytes
  rw [h₀] at hbytes
  exact ⟨by rw [hw]; exact hbytes, by simp [hw], hpending⟩

/-- The socket takes bytes of the copy, which are still at the front of the buffer. -/
theorem Conserved.write {o : Output} (h : o.Conserved) {pending : Bytes} (hp : o.writer = .copied pending) {n : ℕ}
    (hn : n ≤ pending.length) :
    ({ o with writer := .wrote n, written := o.written ++ pending.take n } : Output).Conserved := by
  have hpre := h.pending pending hp
  have hbytes := h.bytes
  rw [show o.unerased = 0 by simp [unerased, hp]] at hbytes
  have htake : o.sendBuf.take n = pending.take n := by
    obtain ⟨rest, hrest⟩ := hpre
    rw [← hrest, List.take_append_of_le_length hn]
  refine ⟨?_, ⟨hn.trans hpre.length_le, ?_⟩, nofun⟩
  · show (o.written ++ pending.take n) ++ o.sendBuf.drop n = o.accepted.flatten
    rw [← htake, List.append_assoc, List.take_append_drop]
    exact hbytes
  · show o.sendBuf.take n <:+ o.written ++ pending.take n
    rw [htake]
    exact List.suffix_append _ _

/-- Erasing what was written keeps the books. -/
theorem Conserved.erase {o : Output} (h : o.Conserved) {n : ℕ} (hn : o.writer = .wrote n) :
    ({ o with writer := .testing, sendBuf := o.sendBuf.drop n } : Output).Conserved := by
  have hbytes := h.bytes
  rw [show o.unerased = n by simp [unerased, hn]] at hbytes
  exact ⟨hbytes, by simp [unerased], nofun⟩

/-- **Every step** keeps the books. -/
theorem Conserved.step (o : Output) (a : Act) (o' : Output) (h : o.Conserved) (hs : o.step a = some o') :
    o'.Conserved := by
  cases a with
  | appendSendBuf data => cases hs; exact h.appendSendBuf data
  | appendSsePayload payload => cases hs; exact h.appendSsePayload payload
  | lock =>
    simp only [Output.step] at hs
    split at hs <;> cases hs
    exact h.move (by simp [unerased, *]) rfl nofun
  | copy =>
    simp only [Output.step] at hs
    split at hs
    · have h₀ : o.unerased = 0 := by simp [unerased, *]
      split_ifs at hs <;> cases hs
      · exact h.move h₀ rfl nofun
      · exact h.move h₀ rfl fun pending hp => by cases hp; exact List.prefix_rfl
    · cases hs
  | write n =>
    simp only [Output.step] at hs
    split at hs
    · split_ifs at hs with hn
      cases hs
      exact h.write ‹_› hn.2
    · cases hs
  | erase =>
    simp only [Output.step] at hs
    split at hs <;> cases hs
    exact h.erase ‹_›
  | found =>
    simp only [Output.step] at hs
    split at hs <;> cases hs
    exact h.move (by simp [unerased, *]) rfl nofun
  | leave =>
    simp only [Output.step] at hs
    split at hs <;> cases hs
    all_goals exact h.move (by simp [unerased, *]) rfl nofun

/-- `handleWrite` only takes bytes off the front. -/
theorem step_writer {o o' : Output} {a : Act} (ha : a.IsWriter) (hs : o.step a = some o') :
    o'.sendBuf <:+ o.sendBuf ∧ o'.overflow = o.overflow ∧ o'.accepted = o.accepted := by
  cases a with
  | appendSendBuf data => exact ha.elim
  | appendSsePayload payload => exact ha.elim
  | erase =>
    simp only [step] at hs
    split at hs <;> cases hs
    exact ⟨List.drop_suffix _ _, rfl, rfl⟩
  | _ =>
    simp only [step] at hs
    split at hs
    all_goals
      first
      | cases hs; done
      | cases hs; exact ⟨List.suffix_rfl, rfl, rfl⟩
      | split_ifs at hs <;> cases hs <;> exact ⟨List.suffix_rfl, rfl, rfl⟩

/-- **Output bytes are conserved**: at every point of every interleaving of appends with
the steps of calls of `handleWrite`, the bytes written followed by the buffer, less the
bytes at its front that are written and not yet erased, are the payloads accepted, one
after the other; and those bytes at its front are the last ones written. -/
theorem output_conserved {as : List Act} {o : Output} (h : run step new as = some o) :
    o.written ++ o.sendBuf.drop o.unerased = o.accepted.flatten ∧
      o.sendBuf.take o.unerased <:+ o.written := by
  have hconserved : o.Conserved := run_invariant Conserved.step conserved_new h
  exact ⟨hconserved.bytes, hconserved.front.2⟩

/-- Two payloads, the second of which comes between the copy and the write. -/
theorem output_conserved_two : ∃ o, run step new
    [.appendSendBuf [1, 2, 3], .lock, .copy, .appendSsePayload [4, 5], .write 2] = some o ∧
      o.written ++ o.sendBuf.drop o.unerased = o.accepted.flatten ∧ o.sendBuf.take o.unerased <:+ o.written := by
  have hlen : (run step new
    [.appendSendBuf [1, 2, 3], .lock, .copy, .appendSsePayload [4, 5], .write 2]).map (·.sendBuf.length) = some 5 := rfl
  obtain ⟨o, ho, -⟩ := Option.map_eq_some_iff.mp hlen
  exact ⟨o, ho, output_conserved ho⟩

end Output

end CanMonitor.Connection
