import CanMonitor.Can.FrameStore
import Mathlib.Algebra.BigOperators.Group.List.Basic
import Mathlib.Algebra.Order.Field.Rat

/-!
# Bus statistics

`CanBusStatistics` counts the frames received, in all and for each identifier, and
estimates the load of the bus from the frames of the last `window_ns_` nanoseconds: a
`deque` of samples and a running sum of their bits. Samples leave the window at the front,
when a frame is recorded or a snapshot is made, even though `snapshot` is `const`.

## The model

The counters are 64-bit words and wrap as they do there. `std::map` is `Std.TreeMap`, which
is traversed in the order of its keys. A `double` is the number that is rounded to it. The
lock makes every operation atomic. The constructor throws on `0`: a bit rate and a window
are positive by their types.

## What is proved

* `Holds.apply` — the abstraction: after any history the counters, the map and the window
  are what the history says, if the timestamps recorded in it do not decrease.
* `statistics_refine_history` — the same read off in a snapshot.
-/

namespace CanMonitor.Can

open CanMonitor.Library

/-- `CanIdStatistics`. -/
structure CanIdStatistics where
  id : UInt32 := 0
  isExtended : Bool := false
  frameCount : UInt64 := 0
  payloadBytes : UInt64 := 0
  lastTimestampNs : UInt64 := 0
  deriving DecidableEq

/-- `CanBusStatisticsSnapshot`. -/
structure CanBusStatisticsSnapshot where
  totalReceivedFrames : UInt64
  totalReceivedPayloadBytes : UInt64
  receiveRateFps : ℚ
  estimatedBusLoadPercent : ℚ
  perId : List CanIdStatistics

/-- `WindowSample`. -/
structure WindowSample where
  timestampNs : UInt64
  estimatedBits : UInt32
  deriving DecidableEq

/-- A key of `per_id_`. -/
abbrev Key := Bool × UInt32

/-- The order of the keys, which is that of `std::pair`. -/
def compareKey : Key → Key → Ordering := compareLex (compareOn Prod.fst) (compareOn Prod.snd)

instance : Std.TransCmp compareKey :=
  inferInstanceAs (Std.TransCmp (compareLex (compareOn Prod.fst) (compareOn Prod.snd)))

instance : Std.LawfulEqCmp compareKey where
  eq_of_compare h := by
    simp only [compareKey, compareLex, compareOn, Ordering.then_eq_eq, Std.compare_eq_iff_eq] at h
    exact Prod.ext h.1 h.2

/-- `CanBusStatistics`. -/
structure CanBusStatistics where
  nominalBitrate : UInt32
  /-- The constructor rejects `0`. -/
  nominalBitrate_pos : 0 < nominalBitrate
  windowNs : UInt64
  /-- So it does here. -/
  windowNs_pos : 0 < windowNs
  totalReceivedFrames : UInt64
  totalReceivedPayloadBytes : UInt64
  perId : Std.TreeMap Key CanIdStatistics compareKey
  /-- The window, oldest sample first. -/
  windowSamples : List WindowSample
  windowEstimatedBits : UInt64

/-- The key of a frame. -/
def CanFrame.key (frame : CanFrame) : Key := (frame.isExtended, frame.id)

/-- The key of an entry. -/
def CanIdStatistics.key (item : CanIdStatistics) : Key := (item.isExtended, item.id)

namespace CanBusStatistics

/-- New statistics. -/
def new (nominalBitrate : UInt32) (windowNs : UInt64) (hb : 0 < nominalBitrate) (hw : 0 < windowNs) :
    CanBusStatistics := ⟨nominalBitrate, hb, windowNs, hw, 0, 0, ∅, [], 0⟩

/-- The constructor: it throws `std::invalid_argument` on a bit rate or a window of `0`. -/
def make (nominalBitrate : UInt32) (windowNs : UInt64) : Except String CanBusStatistics :=
  if hb : 0 < nominalBitrate then
    if hw : 0 < windowNs then .ok (new nominalBitrate windowNs hb hw)
    else .error "statistics window must be greater than zero"
  else .error "CAN nominal bitrate must be greater than zero"

/-- `estimateClassicCanBits`: the bits of a frame with the most stuff bits it can have. -/
def estimateClassicCanBits (frame : CanFrame) : UInt32 :=
  let dataLength := min frame.dlc.toUInt32 (UInt32.ofNat kMaxDataLength)
  let unstuffedBits := (if frame.isExtended then 67 else 47) + dataLength * 8
  unstuffedBits + (unstuffedBits + 4) / 5

/-- The sample of a frame. -/
def sample (frame : CanFrame) : WindowSample := ⟨frame.timestampNs, estimateClassicCanBits frame⟩

/-- The loop of `removeExpiredSamplesLocked`. -/
def removeExpired (windowNs now : UInt64) : List WindowSample → UInt64 → List WindowSample × UInt64
  | [], bits => ([], bits)
  | oldest :: rest, bits =>
    if now < oldest.timestampNs ∨ now - oldest.timestampNs < windowNs then (oldest :: rest, bits)
    else removeExpired windowNs now rest (bits - oldest.estimatedBits.toUInt64)

/-- `removeExpiredSamplesLocked`. -/
def removeExpiredSamples (s : CanBusStatistics) (now : UInt64) : CanBusStatistics :=
  let (windowSamples, windowEstimatedBits) := removeExpired s.windowNs now s.windowSamples s.windowEstimatedBits
  { s with windowSamples, windowEstimatedBits }

/-- The frame is counted, and its sample pushed. -/
def push (s : CanBusStatistics) (frame : CanFrame) : CanBusStatistics :=
  { s with
    totalReceivedFrames := s.totalReceivedFrames + 1
    totalReceivedPayloadBytes := s.totalReceivedPayloadBytes + frame.dlc.toUInt64
    perId := s.perId.alter frame.key fun entry =>
      let idStatistics := entry.getD {}
      some {
        id := frame.id
        isExtended := frame.isExtended
        frameCount := idStatistics.frameCount + 1
        payloadBytes := idStatistics.payloadBytes + frame.dlc.toUInt64
        lastTimestampNs := frame.timestampNs }
    windowSamples := s.windowSamples ++ [sample frame]
    windowEstimatedBits := s.windowEstimatedBits + (estimateClassicCanBits frame).toUInt64 }

/-- `recordReceived`. -/
def recordReceived (s : CanBusStatistics) (frame : CanFrame) : CanBusStatistics :=
  (s.push frame).removeExpiredSamples frame.timestampNs

/-- `snapshot`. -/
def snapshot (s : CanBusStatistics) (now : UInt64) : CanBusStatisticsSnapshot × CanBusStatistics :=
  let s := s.removeExpiredSamples now
  let windowSeconds : ℚ := s.windowNs.toNat / 1000000000
  ({ totalReceivedFrames := s.totalReceivedFrames
     totalReceivedPayloadBytes := s.totalReceivedPayloadBytes
     receiveRateFps := s.windowSamples.length / windowSeconds
     estimatedBusLoadPercent := 100 * s.windowEstimatedBits.toNat / (s.nominalBitrate.toNat * windowSeconds)
     perId := s.perId.toList.map Prod.snd }, s)

/-! ### Histories -/

/-- A call. -/
inductive Op where
  /-- `recordReceived`. -/
  | record (frame : CanFrame)
  /-- `snapshot`. -/
  | snapshot (now : UInt64)

/-- The time that a call is told. -/
def Op.time : Op → UInt64
  | .record frame => frame.timestampNs
  | .snapshot now => now

/-- The frame that a call records. -/
def Op.frame? : Op → Option CanFrame
  | .record frame => some frame
  | .snapshot _ => none

/-- What a call does to the statistics. -/
def apply (s : CanBusStatistics) : Op → CanBusStatistics
  | .record frame => s.recordReceived frame
  | .snapshot now => (s.snapshot now).2

/-- The calls of a history, one after the other. -/
def after (s : CanBusStatistics) (h : List Op) : CanBusStatistics := h.foldl apply s

/-- The frames recorded in a history. -/
def recorded (h : List Op) : List CanFrame := h.filterMap Op.frame?

/-- The frames whose samples are in the window: no call since (nor the one that recorded the
frame) was told a time at which the window had passed. -/
def live (windowNs : UInt64) : List Op → List CanFrame
  | [] => []
  | .snapshot _ :: h => live windowNs h
  | .record frame :: h =>
    if ∀ op ∈ Op.record frame :: h, op.time.toNat < frame.timestampNs.toNat + windowNs.toNat then
      frame :: live windowNs h
    else live windowNs h

/-- The frames of one key. -/
def group (fs : List CanFrame) (key : Key) : List CanFrame := fs.filter (·.key = key)

/-- The bytes of payload of some frames. -/
def payload (fs : List CanFrame) : ℕ := (fs.map (·.dlc.toNat)).sum

/-- The bits of some samples. -/
def bits (samples : List WindowSample) : ℕ := (samples.map (·.estimatedBits.toNat)).sum

/-- The entry of a key with these frames, if there are any. -/
def entryOf (fs : List CanFrame) (key : Key) : Option CanIdStatistics :=
  (group fs key).getLast?.map fun last => {
    id := key.2
    isExtended := key.1
    frameCount := UInt64.ofNat (group fs key).length
    payloadBytes := UInt64.ofNat (payload (group fs key))
    lastTimestampNs := last.timestampNs }

/-! ### The window -/

/-- The time has not passed a sample's window. -/
def Fresh (windowNs now timestampNs : UInt64) : Prop := now.toNat < timestampNs.toNat + windowNs.toNat

instance (windowNs now timestampNs : UInt64) : Decidable (Fresh windowNs now timestampNs) :=
  inferInstanceAs (Decidable (_ < _))

/-- The test of `removeExpiredSamplesLocked` does not wrap. -/
theorem fresh_iff (windowNs now timestampNs : UInt64) :
    now < timestampNs ∨ now - timestampNs < windowNs ↔ Fresh windowNs now timestampNs := by
  unfold Fresh
  rw [UInt64.lt_iff_toNat_lt, UInt64.lt_iff_toNat_lt]
  by_cases h : now.toNat < timestampNs.toNat
  · simp only [h, true_or, true_iff]
    omega
  · rw [UInt64.toNat_sub_of_le now timestampNs (UInt64.le_iff_toNat_le.mpr (Nat.le_of_not_lt h))]
    omega

theorem bits_cons (first : WindowSample) (rest : List WindowSample) :
    bits (first :: rest) = first.estimatedBits.toNat + bits rest := by
  simp [bits]

/-- **What expires** is at the front, if the timestamps do not decrease: the fresh samples stay,
and the sum is theirs. -/
theorem removeExpired_eq (windowNs now : UInt64) {samples : List WindowSample}
    (hsorted : (samples.map (·.timestampNs)).Pairwise (· ≤ ·)) :
    removeExpired windowNs now samples (UInt64.ofNat (bits samples)) =
      (samples.filter fun sample => Fresh windowNs now sample.timestampNs,
        UInt64.ofNat (bits (samples.filter fun sample => Fresh windowNs now sample.timestampNs))) := by
  induction samples with
  | nil => rfl
  | cons oldest rest ih =>
    rw [List.map_cons, List.pairwise_cons] at hsorted
    obtain ⟨holdest, hrest⟩ := hsorted
    unfold removeExpired
    simp only [fresh_iff]
    split_ifs with hfresh
    · -- the oldest sample is fresh, so the others are
      have hall : (oldest :: rest).filter (fun sample => Fresh windowNs now sample.timestampNs) = oldest :: rest := by
        refine List.filter_eq_self.mpr fun sample hmem => decide_eq_true ?_
        rcases List.mem_cons.mp hmem with rfl | hmem
        · exact hfresh
        · have hle := UInt64.le_iff_toNat_le.mp (holdest _ (List.mem_map_of_mem hmem))
          exact Nat.lt_of_lt_of_le hfresh (Nat.add_le_add_right hle _)
      rw [hall]
    · have hbits : UInt64.ofNat (bits (oldest :: rest)) - oldest.estimatedBits.toUInt64 = UInt64.ofNat (bits rest) := by
        rw [bits_cons, Nat.add_comm, UInt64.ofNat_add, UInt64.ofNat_uInt32ToNat, UInt64.add_sub_cancel]
      rw [hbits, ih hrest, List.filter_cons_of_neg (by simpa using hfresh)]

theorem recorded_concat (h : List Op) (op : Op) : recorded (h ++ [op]) = recorded h ++ op.frame?.toList := by
  unfold recorded
  rw [List.filterMap_append]
  cases op <;> rfl

/-- Who was in the window stays in it as long as it is fresh. -/
theorem live_concat {windowNs : UInt64} (hw : 0 < windowNs) (h : List Op) (op : Op) :
    live windowNs (h ++ [op]) =
      (live windowNs h).filter (fun frame => Fresh windowNs op.time frame.timestampNs) ++ op.frame?.toList := by
  induction h with
  | nil =>
    cases op with
    | record frame =>
      have hpos : 0 < windowNs.toNat := UInt64.lt_iff_toNat_lt.mp hw
      simp [live, Op.time, Op.frame?, hpos]
    | snapshot now => rfl
  | cons first h ih =>
    cases first with
    | snapshot now => exact ih
    | record frame =>
      rw [List.cons_append, live, live, ih, ← List.cons_append]
      have hlast : (∀ op' ∈ .record frame :: h ++ [op], op'.time.toNat < frame.timestampNs.toNat + windowNs.toNat) ↔
          (∀ op' ∈ .record frame :: h, op'.time.toNat < frame.timestampNs.toNat + windowNs.toNat) ∧
            Fresh windowNs op.time frame.timestampNs := by
        simp only [List.mem_append, List.mem_singleton, or_imp, forall_and, forall_eq, Fresh]
      by_cases hold : ∀ op' ∈ .record frame :: h, op'.time.toNat < frame.timestampNs.toNat + windowNs.toNat
      · by_cases hfresh : Fresh windowNs op.time frame.timestampNs
        · rw [if_pos (hlast.mpr ⟨hold, hfresh⟩), if_pos hold, List.filter_cons_of_pos (by simpa using hfresh),
            List.cons_append]
        · rw [if_neg (fun hall => hfresh (hlast.mp hall).2), if_pos hold,
            List.filter_cons_of_neg (by simpa using hfresh)]
      · rw [if_neg (fun hall => hold (hlast.mp hall).1), if_neg hold]

theorem live_sublist (windowNs : UInt64) (h : List Op) : (live windowNs h).Sublist (recorded h) := by
  induction h with
  | nil => exact .slnil
  | cons op h ih =>
    cases op with
    | snapshot now => exact ih
    | record frame =>
      rw [live]
      split_ifs
      · exact ih.cons_cons frame
      · exact ih.cons frame

/-! ### The entries -/

theorem payload_concat (fs : List CanFrame) (frame : CanFrame) :
    UInt64.ofNat (payload (fs ++ [frame])) = UInt64.ofNat (payload fs) + frame.dlc.toUInt64 := by
  unfold payload
  rw [List.map_append, List.sum_append, UInt64.ofNat_add]
  simp

/-- The entry of a frame's key when the frame is recorded. -/
theorem entryOf_concat_self (fs : List CanFrame) (frame : CanFrame) :
    entryOf (fs ++ [frame]) frame.key =
      some {
        id := frame.id
        isExtended := frame.isExtended
        frameCount := ((entryOf fs frame.key).getD {}).frameCount + 1
        payloadBytes := ((entryOf fs frame.key).getD {}).payloadBytes + frame.dlc.toUInt64
        lastTimestampNs := frame.timestampNs } := by
  have hgroup : group (fs ++ [frame]) frame.key = group fs frame.key ++ [frame] := by simp [group]
  have hold : ((entryOf fs frame.key).getD {}).frameCount = UInt64.ofNat (group fs frame.key).length ∧
      ((entryOf fs frame.key).getD {}).payloadBytes = UInt64.ofNat (payload (group fs frame.key)) := by
    unfold entryOf
    cases hlast : (group fs frame.key).getLast? with
    | none =>
      rw [List.getLast?_eq_none_iff.mp hlast]
      exact ⟨rfl, rfl⟩
    | some last => exact ⟨rfl, rfl⟩
  rw [hold.1, hold.2, ← payload_concat]
  unfold entryOf
  rw [hgroup, List.getLast?_concat, Option.map_some, List.length_append, List.length_singleton, UInt64.ofNat_add]
  rfl

/-- A frame leaves the entries of other identifiers as they are. -/
theorem entryOf_concat_of_ne (fs : List CanFrame) {frame : CanFrame} {key : Key} (h : frame.key ≠ key) :
    entryOf (fs ++ [frame]) key = entryOf fs key := by
  have hgroup : group (fs ++ [frame]) key = group fs key := by simp [group, h]
  unfold entryOf
  rw [hgroup]

/-! ### The abstraction -/

/-- The statistics are what their history says. -/
structure Holds (s : CanBusStatistics) (h : List Op) : Prop where
  frames : s.totalReceivedFrames = UInt64.ofNat (recorded h).length
  payload : s.totalReceivedPayloadBytes = UInt64.ofNat (payload (recorded h))
  perId : ∀ key, s.perId[key]? = entryOf (recorded h) key
  window : s.windowSamples = (live s.windowNs h).map sample
  bits : s.windowEstimatedBits = UInt64.ofNat (bits s.windowSamples)

/-- The timestamps recorded do not decrease. -/
def Monotone (h : List Op) : Prop := ((recorded h).map (·.timestampNs)).Pairwise (· ≤ ·)

theorem holds_new (nominalBitrate : UInt32) (windowNs : UInt64) (hb : 0 < nominalBitrate) (hw : 0 < windowNs) :
    (new nominalBitrate windowNs hb hw).Holds [] := by
  refine ⟨rfl, rfl, fun key => ?_, rfl, rfl⟩
  exact Std.TreeMap.getElem?_emptyc

theorem Monotone.left {h : List Op} {op : Op} (hmono : Monotone (h ++ [op])) : Monotone h := by
  unfold Monotone at hmono ⊢
  rw [recorded_concat, List.map_append] at hmono
  exact (List.pairwise_append.mp hmono).1

/-- The samples in the window, with the one that a call pushes, are in the order of time. -/
theorem Monotone.window {h : List Op} {op : Op} (hmono : Monotone (h ++ [op])) (windowNs : UInt64) :
    (((live windowNs h ++ op.frame?.toList).map sample).map (·.timestampNs)).Pairwise (· ≤ ·) := by
  have hsub : (live windowNs h ++ op.frame?.toList).Sublist (recorded (h ++ [op])) := by
    rw [recorded_concat]
    exact (live_sublist windowNs h).append_right _
  rw [List.map_map]
  exact hmono.sublist (hsub.map _)

theorem filter_map_sample (windowNs now : UInt64) (fs : List CanFrame) :
    (fs.map sample).filter (fun sample => Fresh windowNs now sample.timestampNs) =
      (fs.filter fun frame => Fresh windowNs now frame.timestampNs).map sample := List.filter_map

/-- **A snapshot** takes out what has expired. -/
theorem Holds.snapshot {s : CanBusStatistics} {h : List Op} (hs : s.Holds h) {now : UInt64}
    (hmono : Monotone (h ++ [.snapshot now])) : (s.snapshot now).2.Holds (h ++ [.snapshot now]) := by
  have hsorted := hmono.window s.windowNs
  simp only [Op.frame?, Option.toList_none, List.append_nil] at hsorted
  rw [← hs.window] at hsorted
  have hremove : removeExpired s.windowNs now s.windowSamples s.windowEstimatedBits = _ :=
    hs.bits ▸ removeExpired_eq s.windowNs now hsorted
  have hrecorded : recorded (h ++ [.snapshot now]) = recorded h := by simp [recorded_concat, Op.frame?]
  have hlive : live s.windowNs (h ++ [.snapshot now]) =
      (live s.windowNs h).filter fun frame => Fresh s.windowNs now frame.timestampNs := by
    rw [live_concat s.windowNs_pos]
    exact List.append_nil _
  unfold CanBusStatistics.snapshot removeExpiredSamples
  simp only [hremove]
  refine ⟨?_, ?_, ?_, ?_, rfl⟩
  · rw [hrecorded]
    exact hs.frames
  · rw [hrecorded]
    exact hs.payload
  · rw [hrecorded]
    exact hs.perId
  · rw [hlive, hs.window, filter_map_sample]

/-- The sum is still that of the samples when a frame's has been pushed. -/
theorem Holds.bits_push {s : CanBusStatistics} {h : List Op} (hs : s.Holds h) (frame : CanFrame) :
    (s.push frame).windowEstimatedBits = UInt64.ofNat (CanBusStatistics.bits (s.push frame).windowSamples) := by
  unfold push CanBusStatistics.bits
  rw [hs.bits, List.map_append, List.sum_append, UInt64.ofNat_add]
  simp [CanBusStatistics.bits, sample]

/-- **A frame** is counted, put in the window, and what has expired taken out. -/
theorem Holds.recordReceived {s : CanBusStatistics} {h : List Op} (hs : s.Holds h) {frame : CanFrame}
    (hmono : Monotone (h ++ [.record frame])) : (s.recordReceived frame).Holds (h ++ [.record frame]) := by
  have hpushed : (live s.windowNs h ++ (Op.record frame).frame?.toList).map sample =
      s.windowSamples ++ [sample frame] := by
    rw [List.map_append, ← hs.window]
    rfl
  have hsorted := hmono.window s.windowNs
  rw [hpushed] at hsorted
  have hbits : s.windowEstimatedBits + (estimateClassicCanBits frame).toUInt64 = _ := hs.bits_push frame
  have hremove : removeExpired s.windowNs frame.timestampNs (s.windowSamples ++ [sample frame])
      (s.windowEstimatedBits + (estimateClassicCanBits frame).toUInt64) = _ :=
    hbits ▸ removeExpired_eq s.windowNs frame.timestampNs hsorted
  have hrecorded : recorded (h ++ [.record frame]) = recorded h ++ [frame] := by simp [recorded_concat, Op.frame?]
  have hpos : 0 < s.windowNs.toNat := UInt64.lt_iff_toNat_lt.mp s.windowNs_pos
  have hlive : live s.windowNs (h ++ [.record frame]) =
      (live s.windowNs h ++ [frame]).filter fun f => Fresh s.windowNs frame.timestampNs f.timestampNs := by
    have hself : Fresh s.windowNs frame.timestampNs frame.timestampNs := Nat.lt_add_of_pos_right hpos
    rw [List.filter_append, List.filter_cons_of_pos (by simpa using hself), live_concat s.windowNs_pos]
    rfl
  unfold CanBusStatistics.recordReceived removeExpiredSamples push
  simp only [hremove]
  refine ⟨?_, ?_, ?_, ?_, rfl⟩
  · rw [hrecorded, hs.frames, List.length_append, List.length_singleton, UInt64.ofNat_add]
    rfl
  · rw [hrecorded, hs.payload, ← payload_concat]
  · intro key
    rw [hrecorded, Std.TreeMap.getElem?_alter]
    split_ifs with hkey
    · obtain rfl : frame.key = key := Std.LawfulEqCmp.eq_of_compare hkey
      rw [entryOf_concat_self, hs.perId]
    · have hne : frame.key ≠ key := fun heq => hkey (heq ▸ Std.ReflCmp.compare_self)
      rw [entryOf_concat_of_ne _ hne]
      exact hs.perId key
  · rw [hlive, hs.window, ← List.map_singleton (f := sample), ← List.map_append, filter_map_sample]

/-- **One call**, of either kind. -/
theorem Holds.apply {s : CanBusStatistics} {h : List Op} (hs : s.Holds h) {op : Op} (hmono : Monotone (h ++ [op])) :
    (s.apply op).Holds (h ++ [op]) := by
  cases op with
  | record frame => exact hs.recordReceived hmono
  | snapshot now => exact hs.snapshot hmono

theorem apply_windowNs (s : CanBusStatistics) (op : Op) : (s.apply op).windowNs = s.windowNs := by
  cases op <;> rfl

theorem apply_nominalBitrate (s : CanBusStatistics) (op : Op) : (s.apply op).nominalBitrate = s.nominalBitrate := by
  cases op <;> rfl

theorem after_concat (s : CanBusStatistics) (h : List Op) (op : Op) : s.after (h ++ [op]) = (s.after h).apply op := by
  simp [after]

theorem after_windowNs (s : CanBusStatistics) (h : List Op) : (s.after h).windowNs = s.windowNs := by
  induction h using List.reverseRecOn with
  | nil => rfl
  | append_singleton h op ih => rw [after_concat, apply_windowNs, ih]

theorem after_nominalBitrate (s : CanBusStatistics) (h : List Op) : (s.after h).nominalBitrate = s.nominalBitrate := by
  induction h using List.reverseRecOn with
  | nil => rfl
  | append_singleton h op ih => rw [after_concat, apply_nominalBitrate, ih]

/-- **Any history** of calls whose recorded timestamps do not decrease. -/
theorem Holds.after {s : CanBusStatistics} (hs : s.Holds []) (h : List Op) (hmono : Monotone h) :
    (s.after h).Holds h := by
  induction h using List.reverseRecOn with
  | nil => exact hs
  | append_singleton h op ih =>
    rw [after_concat]
    exact (ih hmono.left).apply hmono

/-- The frames are counted whatever their timestamps. -/
theorem totalReceivedFrames_after (s : CanBusStatistics) (h : List Op) :
    (s.after h).totalReceivedFrames = s.totalReceivedFrames + UInt64.ofNat (recorded h).length := by
  induction h using List.reverseRecOn with
  | nil => exact (UInt64.add_zero _).symm
  | append_singleton h op ih =>
    rw [after_concat, recorded_concat, List.length_append, UInt64.ofNat_add, ← UInt64.add_assoc, ← ih]
    cases op with
    | record frame => rfl
    | snapshot now => exact (UInt64.add_zero _).symm

/-! ### The entries of a snapshot -/

/-- `<` of the keys. -/
def Before (a b : Key) : Prop := a.1 < b.1 ∨ a.1 = b.1 ∧ a.2 < b.2

/-- The sum of some words. -/
def total (words : List UInt64) : UInt64 := words.foldr (· + ·) 0

/-- A snapshot's counters and entries are those of the frames recorded. -/
structure Reports (r : CanBusStatisticsSnapshot) (fs : List CanFrame) : Prop where
  frames : r.totalReceivedFrames = UInt64.ofNat fs.length
  payload : r.totalReceivedPayloadBytes = UInt64.ofNat (payload fs)
  ordered : (r.perId.map (·.key)).Pairwise Before
  keys : ∀ key, key ∈ r.perId.map (·.key) ↔ ∃ frame ∈ fs, frame.key = key
  entries : ∀ item ∈ r.perId, entryOf fs item.key = some item
  sumFrames : total (r.perId.map (·.frameCount)) = r.totalReceivedFrames
  sumPayload : total (r.perId.map (·.payloadBytes)) = r.totalReceivedPayloadBytes

theorem before_iff (a b : Key) : compareKey a b = .lt ↔ Before a b := by
  simp only [compareKey, compareLex, compareOn, Ordering.then_eq_lt, Std.compare_eq_iff_eq, compare_lt_iff_lt,
    Std.compare_eq_lt, Before]

theorem Before.ne {a b : Key} (h : Before a b) : a ≠ b := by
  rintro rfl
  simp [Before] at h

/-- The groups of some keys make up the whole, if no key is missing or occurs twice. -/
theorem sum_groups {α β : Type} [DecidableEq β] (key : α → β) (g : α → ℕ) {keys : List β} (hnodup : keys.Nodup)
    {xs : List α} (hall : ∀ x ∈ xs, key x ∈ keys) :
    (keys.map fun k => ((xs.filter (key · = k)).map g).sum).sum = (xs.map g).sum := by
  induction xs with
  | nil => simp
  | cons x xs ih =>
    have hcons : ∀ k, (((x :: xs).filter (key · = k)).map g).sum =
        (if k = key x then g x else 0) + ((xs.filter (key · = k)).map g).sum := by
      intro k
      by_cases hk : k = key x
      · simp [hk]
      · simp [hk, Ne.symm hk]
    have hone : (keys.map fun k => if k = key x then g x else 0).sum = g x := by
      rw [List.sum_map_eq_nsmul_single (key x) _ fun k hne _ => if_neg hne, hnodup.count,
        if_pos (hall x List.mem_cons_self), one_nsmul, if_pos rfl]
    simp only [hcons]
    rw [List.sum_map_add, hone, ih fun y hy => hall y (List.mem_cons_of_mem x hy), List.map_cons, List.sum_cons]

/-- A sum of words is the word of the sum. -/
theorem total_ofNat {α : Type} (g : α → ℕ) (xs : List α) :
    total (xs.map fun x => UInt64.ofNat (g x)) = UInt64.ofNat (xs.map g).sum := by
  induction xs with
  | nil => rfl
  | cons x xs ih =>
    rw [List.map_cons, List.map_cons, List.sum_cons, UInt64.ofNat_add, ← ih]
    rfl

theorem entryOf_eq_some {fs : List CanFrame} {key : Key} {item : CanIdStatistics} (h : entryOf fs key = some item) :
    item.key = key ∧ item.frameCount = UInt64.ofNat (group fs key).length ∧
      item.payloadBytes = UInt64.ofNat (payload (group fs key)) := by
  obtain ⟨last, -, rfl⟩ := Option.map_eq_some_iff.mp h
  exact ⟨rfl, rfl, rfl⟩

theorem entryOf_isSome_iff (fs : List CanFrame) (key : Key) :
    (entryOf fs key).isSome ↔ ∃ frame ∈ fs, frame.key = key := by
  unfold entryOf
  rw [Option.isSome_map, List.getLast?_isSome]
  simp [group, List.filter_eq_nil_iff]

/-- **The map** lists the groups of the frames, each once, in the order of the keys. -/
theorem Holds.mem_perId {s : CanBusStatistics} {h : List Op} (hs : s.Holds h) (item : CanIdStatistics) :
    item ∈ s.perId.toList.map Prod.snd ↔ entryOf (recorded h) item.key = some item := by
  rw [List.mem_map]
  constructor
  · rintro ⟨⟨key, item⟩, hmem, rfl⟩
    have hentry := hs.perId key ▸ Std.TreeMap.mem_toList_iff_getElem?_eq_some.mp hmem
    exact (entryOf_eq_some hentry).1 ▸ hentry
  · intro hentry
    exact ⟨(item.key, item), Std.TreeMap.mem_toList_iff_getElem?_eq_some.mpr ((hs.perId _).trans hentry), rfl⟩

/-- The keys in the entries are those of the map. -/
theorem Holds.map_key {s : CanBusStatistics} {h : List Op} (hs : s.Holds h) :
    (s.perId.toList.map Prod.snd).map (·.key) = s.perId.toList.map Prod.fst := by
  rw [List.map_map]
  refine List.map_congr_left ?_
  rintro ⟨key, item⟩ hmem
  exact (entryOf_eq_some (hs.perId key ▸ Std.TreeMap.mem_toList_iff_getElem?_eq_some.mp hmem)).1

theorem Holds.ordered {s : CanBusStatistics} {h : List Op} (hs : s.Holds h) :
    ((s.perId.toList.map Prod.snd).map (·.key)).Pairwise Before := by
  rw [hs.map_key, List.pairwise_map]
  exact Std.TreeMap.ordered_keys_toList.imp fun hlt => (before_iff _ _).mp hlt

/-- The counts of the entries, summed, are the count of the frames. -/
theorem Holds.sum_perId {s : CanBusStatistics} {h : List Op} (hs : s.Holds h) (g : CanFrame → ℕ)
    (f : CanIdStatistics → UInt64)
    (hf : ∀ item ∈ s.perId.toList.map Prod.snd, f item = UInt64.ofNat ((group (recorded h) item.key).map g).sum) :
    total ((s.perId.toList.map Prod.snd).map f) = UInt64.ofNat ((recorded h).map g).sum := by
  have hnodup : ((s.perId.toList.map Prod.snd).map (·.key)).Nodup := hs.ordered.imp fun hlt => hlt.ne
  have hall : ∀ frame ∈ recorded h, frame.key ∈ (s.perId.toList.map Prod.snd).map (·.key) := by
    intro frame hmem
    obtain ⟨item, hitem⟩ := Option.isSome_iff_exists.mp ((entryOf_isSome_iff _ _).mpr ⟨frame, hmem, rfl⟩)
    have hkey := (entryOf_eq_some hitem).1
    exact List.mem_map.mpr ⟨item, (hs.mem_perId item).mpr (hkey.symm ▸ hitem), hkey⟩
  rw [List.map_congr_left hf, total_ofNat fun item : CanIdStatistics => ((group (recorded h) item.key).map g).sum,
    ← sum_groups CanFrame.key g hnodup hall]
  simp only [List.map_map]
  rfl

/-- **A snapshot** reports the frames recorded. -/
theorem Holds.reports {s : CanBusStatistics} {h : List Op} (hs : s.Holds h) (now : UInt64) :
    Reports (s.snapshot now).1 (recorded h) where
  frames := hs.frames
  payload := hs.payload
  ordered := hs.ordered
  keys key := by
    rw [← entryOf_isSome_iff, Option.isSome_iff_exists]
    constructor
    · rintro hmem
      obtain ⟨item, hitem, rfl⟩ := List.mem_map.mp hmem
      exact ⟨item, (hs.mem_perId item).mp hitem⟩
    · rintro ⟨item, hitem⟩
      obtain ⟨rfl, -, -⟩ := entryOf_eq_some hitem
      exact List.mem_map_of_mem ((hs.mem_perId item).mpr hitem)
  entries item hmem := (hs.mem_perId item).mp hmem
  sumFrames := by
    have hlength : ∀ fs : List CanFrame, (fs.map fun _ => 1).sum = fs.length := by simp
    refine (hs.sum_perId (fun _ => 1) _ fun item hmem => ?_).trans (hlength _ ▸ hs.frames.symm)
    rw [hlength]
    exact (entryOf_eq_some ((hs.mem_perId item).mp hmem)).2.1
  sumPayload := by
    refine (hs.sum_perId (·.dlc.toNat) _ fun item hmem => ?_).trans hs.payload.symm
    exact (entryOf_eq_some ((hs.mem_perId item).mp hmem)).2.2

/-! ### The subtractions -/

/-- The subtractions of the loop: from what, and what. -/
def subtractions (windowNs now : UInt64) : List WindowSample → UInt64 → List (UInt64 × UInt64)
  | [], _ => []
  | oldest :: rest, bits =>
    if now < oldest.timestampNs ∨ now - oldest.timestampNs < windowNs then []
    else (bits, oldest.estimatedBits.toUInt64) ::
      subtractions windowNs now rest (bits - oldest.estimatedBits.toUInt64)

/-- The statistics when a call comes to its loop. -/
def pushed (s : CanBusStatistics) : Op → CanBusStatistics
  | .record frame => s.push frame
  | .snapshot _ => s

/-- The subtractions that a call makes. -/
def Op.subtractions (s : CanBusStatistics) (op : Op) : List (UInt64 × UInt64) :=
  CanBusStatistics.subtractions s.windowNs op.time (s.pushed op).windowSamples (s.pushed op).windowEstimatedBits

/-- No subtraction from the sum goes below `0`, if the sum has not wrapped. -/
theorem subtractions_le (windowNs now : UInt64) {samples : List WindowSample} (hbits : bits samples < 2 ^ 64) :
    ∀ p ∈ subtractions windowNs now samples (UInt64.ofNat (bits samples)), p.2 ≤ p.1 := by
  induction samples with
  | nil => intro p hp; cases hp
  | cons oldest rest ih =>
    rw [bits_cons] at hbits ⊢
    unfold subtractions
    split_ifs
    · intro p hp; cases hp
    · rw [List.forall_mem_cons]
      constructor
      · rw [UInt64.le_iff_toNat_le, UInt64.toNat_ofNat_of_lt' hbits, UInt32.toNat_toUInt64]
        exact Nat.le_add_right _ _
      · rw [Nat.add_comm, UInt64.ofNat_add, UInt64.ofNat_uInt32ToNat, UInt64.add_sub_cancel]
        exact ih (by omega)

theorem Holds.bits_pushed {s : CanBusStatistics} {h : List Op} (hs : s.Holds h) (op : Op) :
    (s.pushed op).windowEstimatedBits = UInt64.ofNat (CanBusStatistics.bits (s.pushed op).windowSamples) := by
  cases op with
  | snapshot now => exact hs.bits
  | record frame => exact hs.bits_push frame

/-! ### More snapshots -/

/-- What no snapshot changes. -/
def counters (s : CanBusStatistics) : UInt64 × UInt64 × Std.TreeMap Key CanIdStatistics compareKey :=
  (s.totalReceivedFrames, s.totalReceivedPayloadBytes, s.perId)

theorem counters_recordReceived {s t : CanBusStatistics} (h : s.counters = t.counters) (frame : CanFrame) :
    (s.recordReceived frame).counters = (t.recordReceived frame).counters := by
  simp only [counters, Prod.mk.injEq] at h
  obtain ⟨hframes, hpayload, hperId⟩ := h
  simp only [counters, recordReceived, removeExpiredSamples, push, hframes, hpayload, hperId]

/-- The counters depend on the frames recorded only. -/
theorem counters_after (s : CanBusStatistics) (h : List Op) :
    (s.after h).counters = (s.after ((recorded h).map .record)).counters := by
  induction h using List.reverseRecOn with
  | nil => rfl
  | append_singleton h op ih =>
    rw [after_concat, recorded_concat]
    cases op with
    | snapshot now =>
      rw [Op.frame?, Option.toList_none, List.append_nil]
      exact ih
    | record frame =>
      rw [Op.frame?, Option.toList_some, List.map_append, List.map_singleton, after_concat]
      exact counters_recordReceived ih frame

/-- Earlier snapshots leave the window of a snapshot as it is, if none of them was told a later time. -/
theorem live_of_nows (windowNs : UInt64) {h : List Op} {now : UInt64}
    (hnow : ∀ op ∈ h, op.frame? = none → op.time ≤ now) :
    live windowNs (h ++ [.snapshot now]) = live windowNs ((recorded h).map .record ++ [.snapshot now]) := by
  induction h with
  | nil => rfl
  | cons op h ih =>
    rw [List.forall_mem_cons] at hnow
    obtain ⟨-, hnow⟩ := hnow
    cases op with
    | snapshot n => exact ih hnow
    | record frame =>
      have hiff : (∀ op ∈ Op.record frame :: (h ++ [.snapshot now]),
            op.time.toNat < frame.timestampNs.toNat + windowNs.toNat) ↔
          ∀ op ∈ Op.record frame :: ((recorded h).map .record ++ [.snapshot now]),
            op.time.toNat < frame.timestampNs.toNat + windowNs.toNat := by
        simp only [List.forall_mem_cons, List.forall_mem_append, List.forall_mem_map]
        refine and_congr_right fun _ => and_congr_left fun hlast => ?_
        constructor
        · intro hall f hf
          obtain ⟨op, hop, hframe⟩ := List.mem_filterMap.mp hf
          cases op with
          | snapshot n => cases hframe
          | record f' =>
            cases hframe
            exact hall _ hop
        · intro hall op hop
          cases op with
          | record f => exact hall f (List.mem_filterMap.mpr ⟨_, hop, rfl⟩)
          | snapshot n =>
            have hle := UInt64.le_iff_toNat_le.mp (hnow _ hop rfl)
            exact Nat.lt_of_le_of_lt hle (hlast.1)
      change live windowNs (.record frame :: (h ++ [.snapshot now])) =
        live windowNs (.record frame :: ((recorded h).map .record ++ [.snapshot now]))
      rw [live, live, ih hnow]
      exact if_congr hiff rfl rfl

/-- The result of a snapshot, read off the statistics before it and after it. -/
theorem snapshot_fst (s : CanBusStatistics) (now : UInt64) :
    (s.snapshot now).1 = {
      totalReceivedFrames := s.totalReceivedFrames
      totalReceivedPayloadBytes := s.totalReceivedPayloadBytes
      receiveRateFps := (s.snapshot now).2.windowSamples.length / ((s.windowNs.toNat : ℚ) / 1000000000)
      estimatedBusLoadPercent := 100 * (s.snapshot now).2.windowEstimatedBits.toNat /
        (s.nominalBitrate.toNat * ((s.windowNs.toNat : ℚ) / 1000000000))
      perId := s.perId.toList.map Prod.snd } := rfl

theorem Monotone.snapshot {h : List Op} (hmono : Monotone h) (now : UInt64) : Monotone (h ++ [.snapshot now]) := by
  unfold Monotone
  rw [recorded_concat, Op.frame?, Option.toList_none, List.append_nil]
  exact hmono

/-- Two histories that recorded the same frames give the same snapshot, if no snapshot in them was told a
later time. -/
theorem snapshot_congr {s : CanBusStatistics} (hs : s.Holds []) {h h' : List Op} {now : UInt64} (hmono : Monotone h)
    (hrecorded : recorded h' = recorded h) (hnow : ∀ op ∈ h, op.frame? = none → op.time ≤ now)
    (hnow' : ∀ op ∈ h', op.frame? = none → op.time ≤ now) :
    ((s.after h').snapshot now).1 = ((s.after h).snapshot now).1 := by
  have hmono' : Monotone h' := by
    unfold Monotone
    rw [hrecorded]
    exact hmono
  have hholds := (hs.after h hmono).snapshot (hmono.snapshot now)
  have hholds' := (hs.after h' hmono').snapshot (hmono'.snapshot now)
  -- the window
  have hw : ((s.after h).snapshot now).2.windowNs = s.windowNs := after_windowNs s h
  have hw' : ((s.after h').snapshot now).2.windowNs = s.windowNs := after_windowNs s h'
  have hwindow : ((s.after h').snapshot now).2.windowSamples = ((s.after h).snapshot now).2.windowSamples := by
    rw [hholds.window, hholds'.window, hw, hw', live_of_nows s.windowNs hnow, live_of_nows s.windowNs hnow', hrecorded]
  have hbits : ((s.after h').snapshot now).2.windowEstimatedBits = ((s.after h).snapshot now).2.windowEstimatedBits := by
    rw [hholds.bits, hholds'.bits, hwindow]
  -- the counters
  have hcounters : (s.after h').counters = (s.after h).counters := by
    rw [counters_after s h', counters_after s h, hrecorded]
  simp only [counters, Prod.mk.injEq] at hcounters
  obtain ⟨hframes, hpayload, hperId⟩ := hcounters
  rw [snapshot_fst, snapshot_fst, hwindow, hbits, hframes, hpayload, hperId, after_windowNs, after_windowNs,
    after_nominalBitrate, after_nominalBitrate]

/-- **The statistics are those of the history.** For every history whose recorded timestamps do not decrease, with
snapshots of any times between: a snapshot reports the frames recorded; the window that is left holds the samples
that no call has passed; the running sum is the sum of their bits, and no subtraction from it goes below `0` while
that sum has not wrapped; and more snapshots, of no later times, do not change it. The counters are those of the
history modulo `2 ^ 64`. -/
theorem statistics_refine_history {nominalBitrate : UInt32} {windowNs : UInt64} (hb : 0 < nominalBitrate)
    (hw : 0 < windowNs) {h : List Op} (hmono : Monotone h) :
    (∀ now r s', ((new nominalBitrate windowNs hb hw).after h).snapshot now = (r, s') →
      Reports r (recorded h) ∧
      s'.windowSamples = (live windowNs (h ++ [.snapshot now])).map sample ∧
      s'.windowEstimatedBits = UInt64.ofNat (bits s'.windowSamples) ∧
      r.receiveRateFps = s'.windowSamples.length / ((windowNs.toNat : ℚ) / 1000000000) ∧
      r.estimatedBusLoadPercent =
        100 * s'.windowEstimatedBits.toNat / (nominalBitrate.toNat * ((windowNs.toNat : ℚ) / 1000000000)) ∧
      ∀ h', recorded h' = recorded h → (∀ op ∈ h ++ h', op.frame? = none → op.time ≤ now) →
        (((new nominalBitrate windowNs hb hw).after h').snapshot now).1 = r) ∧
    ∀ op s, (new nominalBitrate windowNs hb hw).after h = s → bits (s.pushed op).windowSamples < 2 ^ 64 →
      ∀ p ∈ op.subtractions s, p.2 ≤ p.1 := by
  have hholds := (holds_new nominalBitrate windowNs hb hw).after h hmono
  have hwindowNs : ((new nominalBitrate windowNs hb hw).after h).windowNs = windowNs := after_windowNs _ h
  have hbitrate : ((new nominalBitrate windowNs hb hw).after h).nominalBitrate = nominalBitrate :=
    after_nominalBitrate _ h
  constructor
  · intro now r s' heq
    obtain rfl : (((new nominalBitrate windowNs hb hw).after h).snapshot now).1 = r := congrArg Prod.fst heq
    obtain rfl : (((new nominalBitrate windowNs hb hw).after h).snapshot now).2 = s' := congrArg Prod.snd heq
    have hsnap := hholds.snapshot (hmono.snapshot now)
    have hwindowNs' : (((new nominalBitrate windowNs hb hw).after h).snapshot now).2.windowNs = windowNs := hwindowNs
    refine ⟨hholds.reports now, ?_, hsnap.bits, ?_, ?_, ?_⟩
    · rw [hsnap.window, hwindowNs']
    · rw [snapshot_fst, hwindowNs]
    · rw [snapshot_fst, hwindowNs, hbitrate]
    · intro h' hrecorded hnow
      rw [List.forall_mem_append] at hnow
      exact snapshot_congr (holds_new nominalBitrate windowNs hb hw) hmono hrecorded hnow.1 hnow.2
  · rintro op s rfl hbits
    unfold Op.subtractions
    rw [hholds.bits_pushed op]
    exact subtractions_le _ op.time hbits

/-- Three frames with two snapshots between, the second of them far ahead: it empties the window. -/
def threeFrames : List Op :=
  [.record { id := 5, dlc := 2, timestampNs := 100 }, .snapshot 50,
    .record { id := 3, dlc := 8, timestampNs := 200, isExtended := true }, .snapshot 2000000000,
    .record { id := 5, dlc := 1, timestampNs := 1000000150 }]

/-- The last frame alone is in the window, though the second is not a second old. -/
theorem statistics_refine_history_three :
    Reports (((new 500000 1000000000 (by decide) (by decide)).after threeFrames).snapshot 1000000160).1
        (recorded threeFrames) ∧
      (((new 500000 1000000000 (by decide) (by decide)).after threeFrames).snapshot 1000000160).2.windowSamples =
        [⟨1000000150, 66⟩] := by
  have hmono : Monotone threeFrames := by
    unfold Monotone
    decide
  obtain ⟨hreports, hwindow, -⟩ :=
    (@statistics_refine_history 500000 1000000000 (by decide) (by decide) threeFrames hmono).1 1000000160 _ _ rfl
  exact ⟨hreports, hwindow.trans (by decide)⟩

/-- The counters wrap: `2 ^ 64` frames are counted as none. -/
theorem statistics_wrap : Monotone (List.replicate (2 ^ 64) (.record {})) ∧
    (recorded (List.replicate (2 ^ 64) (.record {}))).length = 2 ^ 64 ∧
    (((new 500000 1000000000 (by decide) (by decide)).after
      (List.replicate (2 ^ 64) (.record {}))).snapshot 0).1.totalReceivedFrames = 0 := by
  have hrecorded : ∀ n, recorded (List.replicate n (.record {})) = List.replicate n {} := fun n =>
    List.filterMap_replicate_of_some rfl
  have hmono : Monotone (List.replicate (2 ^ 64) (.record {})) := by
    unfold Monotone
    rw [hrecorded, List.map_replicate, List.pairwise_replicate]
    exact Or.inr (UInt64.le_refl _)
  have hframes := ((holds_new 500000 1000000000 (by decide) (by decide)).after _ hmono).frames
  rw [hrecorded, List.length_replicate] at hframes
  refine ⟨hmono, by rw [hrecorded, List.length_replicate], ?_⟩
  rw [snapshot_fst, hframes]
  decide

end CanBusStatistics

end CanMonitor.Can
