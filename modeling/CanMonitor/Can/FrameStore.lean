import CanMonitor.Library.Cursor
import CanMonitor.Library.Window
import Mathlib.Algebra.Order.Ring.Nat

/-!
# The frame store

`FrameStore` keeps the most recent CAN frames in a `deque` of fixed capacity, numbers
them with a 64-bit sequence, and answers incremental queries: the frames with a
sequence above a cursor, perhaps of one CAN id, at most `limit` of them.

## The model

`CanFrame` and `FrameStore` carry the fields of the C++ classes. The sequence and the
counters are 64-bit words and wrap as they do there; a `std::size_t` that is only
compared or counts elements is a natural number. The lock makes every operation
atomic, so an operation is a function of the store. The constructor throws on capacity
`0`: a store has a positive capacity by its type.

## What is proved

* `appendAll_spec` — the abstraction: whatever was appended, the buffer is the window
  of the numbered log (`stamp`), and the counters count it.
* `frame_store_refines_log` — the same read off in numbers, as long as the 64-bit
  counters have not wrapped, with what a query returns.
-/

namespace CanMonitor.Can

open CanMonitor.Library

/-- `CanFrameDirection`: whether a frame was received or sent. -/
inductive CanFrameDirection where
  /-- `Rx`. -/
  | rx
  /-- `Tx`. -/
  | tx
  deriving DecidableEq, Repr

/-- `CanFrame::kMaxDataLength`. -/
def kMaxDataLength : ℕ := 8

/-- A CAN frame, as the store keeps it. -/
structure CanFrame where
  /-- The number the store gave the frame. -/
  sequence : UInt64 := 0
  /-- When it was received. -/
  timestampNs : UInt64 := 0
  /-- The identifier. -/
  id : UInt32 := 0
  /-- The payload, of which the first `dlc` bytes count. -/
  data : Vector UInt8 kMaxDataLength := Vector.replicate kMaxDataLength 0
  /-- The payload's length. -/
  dlc : UInt8 := 0
  /-- Whether the identifier is a 29-bit one. -/
  isExtended : Bool := false
  /-- Received or sent. -/
  direction : CanFrameDirection := .rx
  deriving DecidableEq, Repr

/-- `FrameStoreStats`. -/
structure FrameStoreStats where
  /-- How many frames were ever appended. -/
  totalAppended : UInt64
  /-- How many of them were overwritten. -/
  overwritten : UInt64
  /-- How many are in the buffer. -/
  buffered : ℕ
  deriving DecidableEq, Repr

/-- The store. -/
structure FrameStore where
  /-- How many frames the buffer holds at most. -/
  capacity : ℕ
  /-- The constructor rejects `0`. -/
  capacity_pos : 0 < capacity
  /-- The number of the next frame. -/
  nextSequence : UInt64
  /-- How many frames were appended. -/
  totalAppended : UInt64
  /-- How many frames were overwritten. -/
  overwritten : UInt64
  /-- The buffer, oldest frame first. -/
  frames : List CanFrame
  deriving DecidableEq

namespace FrameStore

/-- A new store of capacity `c`. -/
def empty (c : ℕ) (hc : 0 < c) : FrameStore := ⟨c, hc, 1, 0, 0, []⟩

/-- The constructor: it throws `std::invalid_argument` on capacity `0`. -/
def make (capacity : ℕ) : Except String FrameStore :=
  if h : 0 < capacity then .ok (empty capacity h) else .error "容量至少大于0"

/-- A store is made exactly of a positive capacity. -/
theorem make_eq_ok_iff (c : ℕ) (s : FrameStore) : make c = .ok s ↔ ∃ hc : 0 < c, s = empty c hc := by
  unfold make
  split_ifs with h
  · simp [h, eq_comm]
  · simp [h]

/-- `append`: number the frame, drop the oldest one if the buffer is full, and return
the number. -/
def append (s : FrameStore) (frame : CanFrame) : UInt64 × FrameStore :=
  let assigned := s.nextSequence
  let frame := { frame with sequence := assigned }
  let s := { s with nextSequence := s.nextSequence + 1, totalAppended := s.totalAppended + 1 }
  let s := if s.capacity ≤ s.frames.length then
    { s with frames := s.frames.tail, overwritten := s.overwritten + 1 } else s
  (assigned, { s with frames := s.frames ++ [frame] })

/-- The loop of `queryAfter` over the buffer, with the result so far. -/
def queryLoop (after : UInt64) (idFilter : Option UInt32) (limit : ℕ) :
    List CanFrame → List CanFrame → List CanFrame
  | [], result => result
  | frame :: rest, result =>
    if frame.sequence ≤ after then queryLoop after idFilter limit rest result
    else if idFilter.isSome ∧ idFilter ≠ some frame.id then queryLoop after idFilter limit rest result
    else if limit ≤ (result ++ [frame]).length then result ++ [frame]
    else queryLoop after idFilter limit rest (result ++ [frame])

/-- `queryAfter`: the buffered frames above the cursor, of one id if one is given, at
most `limit` of them. -/
def queryAfter (s : FrameStore) (after : UInt64) (idFilter : Option UInt32) (limit : ℕ) :
    List CanFrame :=
  if limit = 0 then [] else queryLoop after idFilter limit s.frames []

/-- `stats`. -/
def stats (s : FrameStore) : FrameStoreStats := ⟨s.totalAppended, s.overwritten, s.frames.length⟩

/-- The appends of a history, one after the other. -/
def appendAll (s : FrameStore) (fs : List CanFrame) : FrameStore := fs.foldl (fun s f => (s.append f).2) s

/-- What the appends of a history return. -/
def returned (s : FrameStore) : List CanFrame → List UInt64
  | [] => []
  | f :: fs => (s.append f).1 :: returned (s.append f).2 fs

/-! ### What a query returns -/

/-- The frames a query looks for: above the cursor, and of the given id if there is one. -/
def wanted (after : UInt64) (idFilter : Option UInt32) (f : CanFrame) : Bool :=
  decide (after < f.sequence) && idFilter.all (· == f.id)

theorem queryLoop_eq (after : UInt64) (idFilter : Option UInt32) (limit : ℕ) (fs result : List CanFrame)
    (h : result.length < limit) :
    queryLoop after idFilter limit fs result =
      result ++ (fs.filter (wanted after idFilter)).take (limit - result.length) := by
  induction fs generalizing result with
  | nil => simp [queryLoop]
  | cons f fs ih =>
    unfold queryLoop
    split_ifs with h₁ h₂ h₃
    · have hw : wanted after idFilter f = false := by simp [wanted, h₁]
      rw [ih result h, List.filter_cons_of_neg (by simp [hw])]
    · have hw : wanted after idFilter f = false := by
        obtain ⟨hs, hne⟩ := h₂
        obtain ⟨i, rfl⟩ := Option.isSome_iff_exists.mp hs
        have hi : i ≠ f.id := fun e => hne (congrArg some e)
        simp [wanted, hi]
      rw [ih result h, List.filter_cons_of_neg (by simp [hw])]
    all_goals
      have hw : wanted after idFilter f = true := by
        simp only [wanted, Bool.and_eq_true, decide_eq_true_eq]
        refine ⟨UInt64.not_le.mp h₁, ?_⟩
        cases idFilter with
        | none => rfl
        | some i => simpa using h₂
      rw [List.filter_cons_of_pos hw]
      rw [List.length_append, List.length_singleton] at h₃
    · rw [show limit - result.length = 1 by omega]
      rfl
    · rw [ih (result ++ [f]) (by simp; omega), List.append_assoc, List.length_append, List.length_singleton,
        show limit - result.length = limit - (result.length + 1) + 1 by omega]
      rfl

/-- **Queries**: the first `limit` of the buffered frames that are wanted. -/
theorem queryAfter_eq (s : FrameStore) (after : UInt64) (idFilter : Option UInt32) (limit : ℕ) :
    s.queryAfter after idFilter limit = (s.frames.filter (wanted after idFilter)).take limit := by
  unfold queryAfter
  split_ifs with h
  · simp [h]
  · rw [queryLoop_eq _ _ _ _ _ (by simpa using Nat.pos_of_ne_zero h)]
    rfl

/-! ### The numbered log -/

/-- The log as the store numbers it: the `k`-th frame appended gets the sequence `k`,
whatever it carried. -/
def stamp (fs : List CanFrame) : List CanFrame :=
  fs.mapIdx fun i f => { f with sequence := UInt64.ofNat (i + 1) }

@[simp] theorem length_stamp (fs : List CanFrame) : (stamp fs).length = fs.length := by simp [stamp]

theorem stamp_concat (fs : List CanFrame) (f : CanFrame) :
    stamp (fs ++ [f]) = stamp fs ++ [{ f with sequence := UInt64.ofNat (fs.length + 1) }] := by
  simp [stamp, List.mapIdx_append]

theorem map_sequence_stamp (fs : List CanFrame) :
    (stamp fs).map (·.sequence) = (List.range' 1 fs.length).map UInt64.ofNat := by
  apply List.ext_getElem
  · simp
  · intro i h₁ h₂
    simp [stamp, Nat.add_comm]

/-- The store is what its log says: the buffer is the window of the numbered log, and
the counters count the log. -/
structure Holds (s : FrameStore) (log : List CanFrame) : Prop where
  /-- The buffer. -/
  frames : s.frames = (stamp log).rtake s.capacity
  /-- The next number. -/
  next : s.nextSequence = UInt64.ofNat (log.length + 1)
  /-- The frames appended. -/
  total : s.totalAppended = UInt64.ofNat log.length
  /-- The frames overwritten. -/
  overwritten : s.overwritten = UInt64.ofNat (log.length - min log.length s.capacity)

theorem holds_empty (c : ℕ) (hc : 0 < c) : (empty c hc).Holds [] := by
  refine ⟨?_, rfl, rfl, ?_⟩ <;> simp [empty, stamp]

@[simp] theorem capacity_append (s : FrameStore) (f : CanFrame) : (s.append f).2.capacity = s.capacity := by
  unfold append
  dsimp only
  split_ifs <;> rfl

/-- What `append` does to the buffer is a `push`. -/
theorem frames_append (s : FrameStore) (f : CanFrame) :
    (s.append f).2.frames = push s.capacity s.frames { f with sequence := s.nextSequence } := by
  unfold append push
  dsimp only
  split_ifs <;> rfl

/-- **One append** keeps the store what its log says. -/
theorem Holds.append {s : FrameStore} {log : List CanFrame} (h : s.Holds log) (f : CanFrame) :
    (s.append f).2.Holds (log ++ [f]) := by
  have hlen : s.frames.length = min log.length s.capacity := by
    rw [h.frames, length_rtake, length_stamp]
  have hpos := s.capacity_pos
  constructor
  · rw [frames_append, capacity_append, h.frames, h.next, push_rtake hpos, stamp_concat]
  · have : (s.append f).2.nextSequence = s.nextSequence + 1 := by unfold FrameStore.append; dsimp only; split_ifs <;> rfl
    rw [this, h.next]
    simp
  · have : (s.append f).2.totalAppended = s.totalAppended + 1 := by unfold FrameStore.append; dsimp only; split_ifs <;> rfl
    rw [this, h.total]
    simp
  · have : (s.append f).2.overwritten = if s.capacity ≤ s.frames.length then s.overwritten + 1 else s.overwritten := by
      unfold FrameStore.append; dsimp only; split_ifs <;> rfl
    rw [this, capacity_append, h.overwritten, List.length_append, List.length_singleton]
    split_ifs with hc
    · rw [show log.length + 1 - min (log.length + 1) s.capacity = log.length - min log.length s.capacity + 1 by omega]
      simp
    · rw [show log.length + 1 - min (log.length + 1) s.capacity = log.length - min log.length s.capacity by omega]

/-- **All appends**: a store that started empty is what the log of its appends says. -/
theorem appendAll_spec (c : ℕ) (hc : 0 < c) (fs : List CanFrame) : ((empty c hc).appendAll fs).Holds fs := by
  induction fs using List.reverseRecOn with
  | nil => exact holds_empty c hc
  | append_singleton fs f ih =>
    unfold appendAll at ih ⊢
    rw [List.foldl_append]
    exact ih.append f

@[simp] theorem capacity_appendAll (s : FrameStore) (fs : List CanFrame) : (s.appendAll fs).capacity = s.capacity := by
  induction fs generalizing s with
  | nil => rfl
  | cons f fs ih => exact (ih (s.append f).2).trans (capacity_append s f)

theorem returned_concat (s : FrameStore) (fs : List CanFrame) (f : CanFrame) :
    s.returned (fs ++ [f]) = s.returned fs ++ [((s.appendAll fs).append f).1] := by
  induction fs generalizing s with
  | nil => rfl
  | cons g fs ih => simpa [returned, appendAll] using ih (s.append g).2

/-- The `k`-th append returns `k`. -/
theorem returned_empty (c : ℕ) (hc : 0 < c) (fs : List CanFrame) :
    (empty c hc).returned fs = (List.range' 1 fs.length).map UInt64.ofNat := by
  induction fs using List.reverseRecOn with
  | nil => rfl
  | append_singleton fs f ih =>
    have hnext : ((empty c hc).appendAll fs).nextSequence = UInt64.ofNat (fs.length + 1) :=
      (appendAll_spec c hc fs).next
    rw [returned_concat, ih, List.length_append, List.length_singleton, List.range'_concat, List.map_append]
    congr 1
    show [((empty c hc).appendAll fs).nextSequence] = _
    rw [hnext]
    simp [Nat.add_comm]

/-- The first `2^64 - 1` numbers fit in a word. -/
theorem map_toNat_range' {n : ℕ} (hn : n < 2 ^ 64) :
    ((List.range' 1 n).map UInt64.ofNat).map UInt64.toNat = List.range' 1 n := by
  rw [List.map_map]
  conv_rhs => rw [← List.map_id (List.range' 1 n)]
  apply List.map_congr_left
  intro k hk
  rw [List.mem_range'_1] at hk
  simp only [Function.comp, UInt64.toNat_ofNat', id]
  exact Nat.mod_eq_of_lt (by omega)

/-- The sequences in the buffer, as words. -/
theorem Holds.map_sequence {s : FrameStore} {log : List CanFrame} (h : s.Holds log) :
    s.frames.map (·.sequence) =
      (List.range' (log.length - min log.length s.capacity + 1) (min log.length s.capacity)).map UInt64.ofNat := by
  rw [h.frames, map_rtake, map_sequence_stamp, ← map_rtake, rtake_range', Nat.add_comm 1]

/-- The sequences in the buffer are consecutive numbers, while they have not wrapped. -/
theorem map_sequence_frames {s : FrameStore} {log : List CanFrame} (h : s.Holds log) (hn : log.length < 2 ^ 64) :
    s.frames.map (·.sequence.toNat) =
      List.range' (log.length - min log.length s.capacity + 1) (min log.length s.capacity) := by
  calc s.frames.map (·.sequence.toNat)
      = (((stamp log).map (·.sequence)).map UInt64.toNat).rtake s.capacity := by
        rw [h.frames, map_rtake, List.map_map]
        rfl
    _ = (List.range' 1 log.length).rtake s.capacity := by rw [map_sequence_stamp, map_toNat_range' hn]
    _ = _ := by rw [rtake_range', Nat.add_comm 1]

/-- **`FrameStore` refines an unbounded log.** After the appends `fs` to a new store of
capacity `c`, fewer than `2^64 - 1` of them, the buffer holds the last `c` of the frames,
numbered consecutively up to `fs.length`; the `k`-th append returned `k`; the statistics
count the log; and a query gives the first `limit` of the buffered frames it wants. -/
theorem frame_store_refines_log (c : ℕ) (hc : 0 < c) (fs : List CanFrame) (hn : fs.length < 2 ^ 64 - 1) :
    let s := (empty c hc).appendAll fs
    let n := fs.length
    s.frames = (stamp fs).rtake c ∧
      s.frames.map (·.sequence.toNat) = List.range' (n - min n c + 1) (min n c) ∧
      ((empty c hc).returned fs).map (·.toNat) = List.range' 1 n ∧
      s.stats.totalAppended.toNat = n ∧ s.stats.buffered = min n c ∧
      s.stats.overwritten.toNat = n - min n c ∧
      ∀ after idFilter limit, s.queryAfter after idFilter limit =
        (s.frames.filter fun f => after < f.sequence && idFilter.all (f.id == ·)).take limit := by
  intro s n
  have hs : s.Holds fs := appendAll_spec c hc fs
  have hcap : s.capacity = c := capacity_appendAll _ fs
  have hmap := map_sequence_frames hs (by omega)
  rw [hcap] at hmap
  refine ⟨by rw [hs.frames, hcap], hmap, ?_, ?_, ?_, ?_, ?_⟩
  · rw [returned_empty, map_toNat_range' (by omega)]
  · show s.totalAppended.toNat = n
    rw [hs.total, UInt64.toNat_ofNat']
    exact Nat.mod_eq_of_lt (by omega)
  · show s.frames.length = min n c
    rw [← List.length_map, hmap, List.length_range']
  · show s.overwritten.toNat = n - min n c
    rw [hs.overwritten, hcap, UInt64.toNat_ofNat']
    exact Nat.mod_eq_of_lt (by omega)
  · intro after idFilter limit
    rw [queryAfter_eq]
    congr 1
    apply List.filter_congr
    intro f _
    cases idFilter <;> simp [wanted, beq_eq_decide, eq_comm]

/-- The store of capacity `2` with three frames. -/
theorem frame_store_refines_log_three :
    let fs : List CanFrame := [{ id := 0x100, sequence := 7 }, { id := 0x200 }, { id := 0x300 }]
    let s := (empty 2 (by decide)).appendAll fs
    s.frames.map (·.sequence.toNat) = [2, 3] ∧ s.frames.map (·.id) = [0x200, 0x300] ∧
      s.stats.overwritten.toNat = 1 := by
  intro fs s
  obtain ⟨hframes, hseq, -, -, -, hover, -⟩ := frame_store_refines_log 2 (by decide) fs (by decide)
  exact ⟨hseq, by rw [hframes]; rfl, hover⟩

/-! ### The buffer as a window to read -/

/-- What a query is: a read of the buffer through the cursor. -/
theorem queryAfter_eq_fetch (s : FrameStore) (after : UInt64) (idFilter : Option UInt32) (limit : ℕ) :
    s.queryAfter after idFilter limit =
      fetch (fun f : CanFrame => f.sequence.toNat) (fun f => idFilter.all (· == f.id)) after.toNat limit
        s.frames := by
  rw [queryAfter_eq]
  unfold fetch
  congr 1

/-- While the counters have not wrapped the buffer is in ascending order. -/
theorem Holds.ascending {s : FrameStore} {log : List CanFrame} (h : s.Holds log) (hn : log.length < 2 ^ 64) :
    Ascending (fun f : CanFrame => f.sequence.toNat) s.frames := by
  have : (List.range' (log.length - min log.length s.capacity + 1) (min log.length s.capacity)).Pairwise (· < ·) :=
    List.pairwise_lt_range'
  rw [← map_sequence_frames h hn] at this
  exact List.pairwise_map.mp this

/-- What is in the buffer is in the log. -/
theorem Holds.mem_stamp {s : FrameStore} {log : List CanFrame} (h : s.Holds log) {f : CanFrame}
    (hf : f ∈ s.frames) : f ∈ stamp log := by
  rw [h.frames] at hf
  exact List.mem_of_mem_drop hf

/-- A frame keeps its number as the log grows. -/
theorem stamp_mono {log log' : List CanFrame} (h : log <+: log') : stamp log <+: stamp log' := by
  obtain ⟨t, rfl⟩ := h
  unfold stamp
  rw [List.mapIdx_append]
  exact List.prefix_append _ _

/-- The number of a frame in the log says where it is. -/
theorem getElem?_stamp {log : List CanFrame} (hn : log.length < 2 ^ 64) {f : CanFrame} (hf : f ∈ stamp log) :
    0 < f.sequence.toNat ∧ f.sequence.toNat ≤ log.length ∧ (stamp log)[f.sequence.toNat - 1]? = some f := by
  obtain ⟨i, hi, rfl⟩ := List.getElem_of_mem hf
  have hi' : i < log.length := by simpa using hi
  have hseq : (stamp log)[i].sequence.toNat = i + 1 := by
    simp only [stamp, List.getElem_mapIdx, UInt64.toNat_ofNat']
    exact Nat.mod_eq_of_lt (by omega)
  rw [hseq, Nat.add_sub_cancel, List.getElem?_eq_getElem hi]
  exact ⟨by omega, by omega, rfl⟩

/-- Two frames of the log with one number are the same frame. -/
theorem eq_of_sequence_eq {log : List CanFrame} (hn : log.length < 2 ^ 64) {f g : CanFrame}
    (hf : f ∈ stamp log) (hg : g ∈ stamp log) (h : f.sequence = g.sequence) : f = g := by
  have h₁ := (getElem?_stamp hn hf).2.2
  rw [h, (getElem?_stamp hn hg).2.2] at h₁
  exact (Option.some.inj h₁).symm

theorem Holds.toNat_total {s : FrameStore} {log : List CanFrame} (h : s.Holds log) (hn : log.length < 2 ^ 64) :
    s.totalAppended.toNat = log.length := by
  rw [h.total, UInt64.toNat_ofNat', Nat.mod_eq_of_lt hn]

theorem Holds.toNat_overwritten {s : FrameStore} {log : List CanFrame} (h : s.Holds log) (hn : log.length < 2 ^ 64) :
    s.overwritten.toNat = log.length - min log.length s.capacity := by
  rw [h.overwritten, UInt64.toNat_ofNat', Nat.mod_eq_of_lt (by omega)]

/-- Sequence `q` was given to a frame and no frame in the buffer has it. -/
def Evicted (s : FrameStore) (q : UInt64) : Prop :=
  0 < q ∧ q ≤ s.totalAppended ∧ ∀ f ∈ s.frames, f.sequence ≠ q

instance (s : FrameStore) (q : UInt64) : Decidable (s.Evicted q) :=
  inferInstanceAs (Decidable (0 < q ∧ q ≤ s.totalAppended ∧ ∀ f ∈ s.frames, f.sequence ≠ q))

/-- The frames overwritten are the first ones. -/
theorem evicted_iff {s : FrameStore} {log : List CanFrame} (h : s.Holds log) (hn : log.length < 2 ^ 64)
    (q : UInt64) : s.Evicted q ↔ 0 < q.toNat ∧ q.toNat ≤ s.overwritten.toNat := by
  have hmem : (∃ f ∈ s.frames, f.sequence = q) ↔
      q.toNat ∈ List.range' (log.length - min log.length s.capacity + 1) (min log.length s.capacity) := by
    rw [← map_sequence_frames h hn, List.mem_map]
    simp only [UInt64.toNat_inj]
  have hiff : s.Evicted q ↔ 0 < q.toNat ∧ q.toNat ≤ log.length ∧ ¬∃ f ∈ s.frames, f.sequence = q := by
    unfold Evicted
    rw [UInt64.lt_iff_toNat_lt, UInt64.le_iff_toNat_le, h.toNat_total hn]
    simp
  rw [hiff, hmem, List.mem_range'_1, h.toNat_overwritten hn]
  omega

/-- A frame of the log, below one of the buffer and not in the buffer, is overwritten. -/
theorem Holds.evicted_of_lt {s : FrameStore} {log : List CanFrame} (h : s.Holds log) (hn : log.length < 2 ^ 64)
    {q : UInt64} (hq : 0 < q) {f : CanFrame} (hf : f ∈ s.frames) (hle : q ≤ f.sequence)
    (hout : ∀ g ∈ s.frames, g.sequence ≠ q) : s.Evicted q := by
  have htotal : f.sequence ≤ s.totalAppended := by
    rw [UInt64.le_iff_toNat_le, h.toNat_total hn]
    exact (getElem?_stamp hn (h.mem_stamp hf)).2.1
  exact ⟨hq, UInt64.le_trans hle htotal, hout⟩

end FrameStore

end CanMonitor.Can
