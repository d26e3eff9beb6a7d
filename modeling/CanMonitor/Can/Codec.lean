import CanMonitor.Can.FrameStore

/-!
# Frames on the wire

The kernel's `struct can_frame` packs the identifier and three flags into one 32-bit word.
`CanSender::sendRaw` packs it, `CanReceiver::receiveLoop` takes it apart, each with masks
of its own, and the range of an identifier is checked in a third place,
`CanRuntime::sendFrame`.

## The model

A `KernelFrame` has the fields of `struct can_frame` without its padding. A pointer to data
is the bytes it points to, `none` if it is null; a descriptor `-1` is `none`. `write` is
told by what it answers: an error (as `strerror` says it) or a number of bytes.

## What is proved

* `decode_eq_some_iff` — what is received: data frames of at most 8 bytes, with the
  identifier, the payload and zeros after it.
* `decode_encode` — what is sent of a frame whose identifier is in range is received as that
  frame.
* `codec_round_trip` — both directions.
-/

namespace CanMonitor.Can

/-! ### Kernel frames -/

/-- `CAN_EFF_FLAG`: the identifier is a 29-bit one. -/
def canEffFlag : UInt32 := 0x80000000

/-- `CAN_RTR_FLAG`: a remote transmission request. -/
def canRtrFlag : UInt32 := 0x40000000

/-- `CAN_ERR_FLAG`: an error message. -/
def canErrFlag : UInt32 := 0x20000000

/-- `CAN_SFF_MASK`: the bits of an 11-bit identifier. -/
def canSffMask : UInt32 := 0x000007FF

/-- `CAN_EFF_MASK`: the bits of a 29-bit identifier. -/
def canEffMask : UInt32 := 0x1FFFFFFF

/-- `CAN_MTU`: the size of a `struct can_frame`. -/
def canMtu : ℕ := 16

/-- The payload of a frame. -/
abbrev Payload := Vector UInt8 kMaxDataLength

/-- No payload. -/
def zeros : Payload := Vector.replicate kMaxDataLength 0

/-- `struct can_frame`. -/
structure KernelFrame where
  canId : UInt32 := 0
  canDlc : UInt8 := 0
  data : Payload := zeros
  deriving DecidableEq, Repr

/-- The bits of an identifier of either kind. -/
def idMask (isExtended : Bool) : UInt32 := if isExtended then canEffMask else canSffMask

/-- `std::copy_n` to the front of a payload. -/
def copyN (source : List UInt8) (count : ℕ) (target : Payload) : Payload :=
  Vector.ofFn fun i => if i < count then source.getD i 0 else target[i]

/-! ### Sending -/

/-- The `can_id` that `sendRaw` makes. -/
def packId (id : UInt32) (isExtended : Bool) : UInt32 :=
  if isExtended then canEffFlag ||| (id &&& canEffMask) else id &&& canSffMask

/-- `CanSender`. -/
structure CanSender where
  socketFd : Option ℕ := none
  deriving DecidableEq, Repr

namespace CanSender

/-- `isOpen`. -/
def isOpen (sender : CanSender) : Bool := sender.socketFd.isSome

/-- `sendRaw`: the frame that is written, if it comes to that, and what is returned. -/
def sendRaw (sender : CanSender) (id : UInt32) (isExtended : Bool) (data : Option (List UInt8)) (dlc : UInt8)
    (write : KernelFrame → Except String ℕ) : Option KernelFrame × Except String Unit :=
  match sender.socketFd with
  | none => (none, .error "CAN sender is not open")
  | some _ =>
    if kMaxDataLength < dlc.toNat then (none, .error "CAN data length must be between 0 and 8")
    else if 0 < dlc ∧ data = none then (none, .error "data pointer cannot be null when dlc is not zero")
    else
      let kernelFrame : KernelFrame := {
        canId := packId id isExtended
        canDlc := dlc
        data := if 0 < dlc then copyN (data.getD []) dlc.toNat zeros else zeros }
      (some kernelFrame,
        match write kernelFrame with
        | .error message => .error ("cannot send CAN frame: " ++ message)
        | .ok written => if written ≠ canMtu then .error "CAN frame was only partially written" else .ok ())

/-- `send`. -/
def send (sender : CanSender) (frame : CanFrame) (write : KernelFrame → Except String ℕ) :
    Option KernelFrame × Except String Unit :=
  sender.sendRaw frame.id frame.isExtended (some frame.data.toList) frame.dlc write

end CanSender

/-- `CanRuntime::sendFrame`, of which the runtime's sender is all that it uses. -/
def sendFrame (sender : CanSender) (id : UInt32) (isExtended : Bool) (data : List UInt8)
    (write : KernelFrame → Except String ℕ) : Option KernelFrame × Except String Unit :=
  let maximumId : UInt32 := if isExtended then 0x1FFFFFFF else 0x7FF
  if maximumId < id then (none, .error "CAN ID is out of range for the selected frame type")
  else if kMaxDataLength < data.length then (none, .error "CAN data length must be between 0 and 8")
  else if !sender.isOpen then (none, .error "CAN sender is not open")
  else
    sender.sendRaw id isExtended (if data.isEmpty then none else some data) (UInt8.ofNat data.length) write

/-! ### Receiving -/

/-- What `receiveLoop` makes of a frame that it has read: nothing, or what it records and
appends. -/
def decode (kernelFrame : KernelFrame) (timestampNs : UInt64) : Option CanFrame :=
  if kernelFrame.canId &&& (canErrFlag ||| canRtrFlag) ≠ 0 then none
  else if kMaxDataLength < kernelFrame.canDlc.toNat then none
  else
    some {
      timestampNs
      id := kernelFrame.canId &&& if kernelFrame.canId &&& canEffFlag ≠ 0 then canEffMask else canSffMask
      isExtended := kernelFrame.canId &&& canEffFlag ≠ 0
      dlc := kernelFrame.canDlc
      direction := .rx
      data := copyN kernelFrame.data.toList kernelFrame.canDlc.toNat zeros }

/-! ### Masks -/

theorem and_or_right (a b c : UInt32) : (a ||| b) &&& c = a &&& c ||| b &&& c := by
  apply UInt32.toBitVec_inj.mp
  simp only [UInt32.toBitVec_and, UInt32.toBitVec_or]
  exact BitVec.and_or_distrib_right

/-- A mask of the low bits keeps the small numbers. -/
theorem and_idMask_eq_self_iff (id : UInt32) (isExtended : Bool) :
    id &&& idMask isExtended = id ↔ id ≤ idMask isExtended := by
  rw [← UInt32.toNat_inj, UInt32.toNat_and, UInt32.le_iff_toNat_le]
  cases isExtended with
  | true =>
    have hmod : id.toNat &&& 0x1FFFFFFF = id.toNat % 2 ^ 29 := Nat.and_two_pow_sub_one_eq_mod id.toNat 29
    change id.toNat &&& 0x1FFFFFFF = id.toNat ↔ id.toNat ≤ 0x1FFFFFFF
    omega
  | false =>
    have hmod : id.toNat &&& 0x7FF = id.toNat % 2 ^ 11 := Nat.and_two_pow_sub_one_eq_mod id.toNat 11
    change id.toNat &&& 0x7FF = id.toNat ↔ id.toNat ≤ 0x7FF
    omega

theorem packId_and (id : UInt32) (isExtended : Bool) (mask : UInt32) :
    packId id isExtended &&& mask =
      (if isExtended then canEffFlag &&& mask else 0) ||| id &&& (idMask isExtended &&& mask) := by
  cases isExtended with
  | true => simp [packId, idMask, and_or_right, UInt32.and_assoc]
  | false => simp [packId, idMask, UInt32.and_assoc]

/-- No flag but the one for the kind is set. -/
theorem packId_and_flags (id : UInt32) (isExtended : Bool) :
    packId id isExtended &&& (canErrFlag ||| canRtrFlag) = 0 := by
  rw [packId_and]
  cases isExtended with
  | true => simp [idMask, show canEffFlag &&& (canErrFlag ||| canRtrFlag) = 0 from rfl,
      show canEffMask &&& (canErrFlag ||| canRtrFlag) = 0 from rfl]
  | false => simp [idMask, show canSffMask &&& (canErrFlag ||| canRtrFlag) = 0 from rfl]

/-- The flag for the kind is set as the kind is. -/
theorem packId_and_effFlag (id : UInt32) (isExtended : Bool) :
    packId id isExtended &&& canEffFlag = if isExtended then canEffFlag else 0 := by
  rw [packId_and]
  cases isExtended with
  | true => simp [idMask, show canEffMask &&& canEffFlag = 0 from rfl]
  | false => simp [idMask, show canSffMask &&& canEffFlag = 0 from rfl]

/-- The bits of the identifier are those that are in the mask. -/
theorem packId_and_idMask (id : UInt32) (isExtended : Bool) :
    packId id isExtended &&& idMask isExtended = id &&& idMask isExtended := by
  rw [packId_and]
  cases isExtended with
  | true => simp [idMask, show canEffFlag &&& canEffMask = 0 from rfl]
  | false => simp [idMask]

/-! ### Payloads -/

theorem getElem_copyN (source : List UInt8) (count : ℕ) (target : Payload) (i : ℕ) (h : i < kMaxDataLength) :
    (copyN source count target)[i] = if i < count then source.getD i 0 else target[i] := by
  simp [copyN]

theorem getElem_zeros (i : ℕ) (h : i < kMaxDataLength) : zeros[i] = 0 := by
  simp [zeros]

/-- A payload is copied with the zeros after it. -/
theorem copyN_toList {data : Payload} {count : ℕ} (h : ∀ i (hi : i < kMaxDataLength), count ≤ i → data[i] = 0) :
    copyN data.toList count zeros = data := by
  refine Vector.ext fun i hi => ?_
  rw [getElem_copyN, getElem_zeros]
  split_ifs with hcount
  · simp [List.getD_eq_getElem?_getD, hi]
  · exact (h i hi (Nat.le_of_not_lt hcount)).symm

/-- Bytes that fit, with zeros after them. -/
theorem toList_copyN {data : List UInt8} (h : data.length ≤ kMaxDataLength) :
    (copyN data data.length zeros).toList = data ++ List.replicate (kMaxDataLength - data.length) 0 := by
  apply List.ext_getElem
  · simp only [Vector.length_toList, List.length_append, List.length_replicate]
    omega
  · intro i hi hi'
    rw [Vector.getElem_toList, getElem_copyN, getElem_zeros, List.getElem_append]
    split_ifs with hcount
    · simp [List.getD_eq_getElem?_getD, hcount]
    · rw [List.getElem_replicate]

/-! ### What is received -/

/-- What every received frame is. -/
structure CanFrame.WellFormed (frame : CanFrame) : Prop where
  dlc : frame.dlc.toNat ≤ kMaxDataLength
  id : frame.id ≤ idMask frame.isExtended
  data : ∀ i (h : i < kMaxDataLength), frame.dlc.toNat ≤ i → frame.data[i] = 0

/-- A frame not yet numbered, as it was received at a time. -/
def CanFrame.receivedAt (frame : CanFrame) (timestampNs : UInt64) : CanFrame :=
  { frame with sequence := 0, timestampNs, direction := .rx }

theorem and_idMask_le (id : UInt32) (isExtended : Bool) : id &&& idMask isExtended ≤ idMask isExtended := by
  rw [UInt32.le_iff_toNat_le, UInt32.toNat_and]
  exact Nat.and_le_right

/-- **Accepted** are the frames without a flag for another kind of message and with at most
eight bytes. -/
theorem decode_eq_some_iff (kernelFrame : KernelFrame) (timestampNs : UInt64) (frame : CanFrame) :
    decode kernelFrame timestampNs = some frame ↔
      kernelFrame.canId &&& (canErrFlag ||| canRtrFlag) = 0 ∧ kernelFrame.canDlc.toNat ≤ kMaxDataLength ∧
        frame = {
          timestampNs
          id := kernelFrame.canId &&& idMask (kernelFrame.canId &&& canEffFlag ≠ 0)
          isExtended := kernelFrame.canId &&& canEffFlag ≠ 0
          dlc := kernelFrame.canDlc
          data := copyN kernelFrame.data.toList kernelFrame.canDlc.toNat zeros } := by
  have hmask : (if kernelFrame.canId &&& canEffFlag ≠ 0 then canEffMask else canSffMask) =
      idMask (kernelFrame.canId &&& canEffFlag ≠ 0) := by
    simp only [idMask, decide_eq_true_eq]
  unfold decode
  rw [hmask]
  split_ifs with hflags hdlc
  · simp [hflags]
  · simp [hdlc]
  · simp only [not_not.mp hflags, Nat.le_of_not_lt hdlc, true_and, Option.some.injEq]
    exact eq_comm

theorem decode_wellFormed {kernelFrame : KernelFrame} {timestampNs : UInt64} {frame : CanFrame}
    (h : decode kernelFrame timestampNs = some frame) : frame.WellFormed ∧ frame.receivedAt timestampNs = frame := by
  obtain ⟨-, hdlc, rfl⟩ := (decode_eq_some_iff _ _ _).mp h
  refine ⟨⟨hdlc, and_idMask_le _ _, fun i hi hle => ?_⟩, rfl⟩
  rw [getElem_copyN, if_neg (Nat.not_lt.mpr hle), getElem_zeros]

/-! ### What is sent -/

/-- The kernel frame for a frame. -/
def CanFrame.encode (frame : CanFrame) : KernelFrame := ⟨packId frame.id frame.isExtended, frame.dlc, frame.data⟩

/-- **Round trip**: a frame in range is received as it was sent. -/
theorem decode_encode {frame : CanFrame} (h : frame.WellFormed) (timestampNs : UInt64) :
    decode frame.encode timestampNs = some (frame.receivedAt timestampNs) := by
  have hext : (decide (packId frame.id frame.isExtended &&& canEffFlag ≠ 0)) = frame.isExtended := by
    rw [packId_and_effFlag]
    cases frame.isExtended <;> rfl
  refine (decode_eq_some_iff _ _ _).mpr ⟨packId_and_flags _ _, h.dlc, ?_⟩
  unfold CanFrame.receivedAt CanFrame.encode
  simp only [hext, packId_and_idMask, (and_idMask_eq_self_iff _ _).mpr h.id, copyN_toList h.data]

/-- What `sendRaw` writes on an open sender. -/
theorem sendRaw_fst {sender : CanSender} (hopen : sender.isOpen) (id : UInt32) (isExtended : Bool)
    {data : Option (List UInt8)} {dlc : UInt8} (hdlc : dlc.toNat ≤ kMaxDataLength) (hdata : 0 < dlc → data.isSome)
    (write : KernelFrame → Except String ℕ) :
    (sender.sendRaw id isExtended data dlc write).1 =
      some ⟨packId id isExtended, dlc, copyN (data.getD []) dlc.toNat zeros⟩ := by
  obtain ⟨fd, hfd⟩ := Option.isSome_iff_exists.mp hopen
  unfold CanSender.sendRaw
  rw [hfd]
  simp only [Nat.not_lt.mpr hdlc, if_false]
  have hnull : ¬ (0 < dlc ∧ data = none) := by
    rintro ⟨hpos, rfl⟩
    cases hdata hpos
  rw [if_neg hnull]
  simp only [Option.some.injEq, KernelFrame.mk.injEq, true_and]
  split_ifs with hpos
  · rfl
  · obtain rfl : dlc = 0 := UInt8.le_zero_iff.mp (UInt8.not_lt.mp hpos)
    refine Vector.ext fun i hi => ?_
    rw [getElem_copyN, if_neg (by exact Nat.not_lt_zero i)]

/-- What `send` writes of a frame on an open sender. -/
theorem send_fst {sender : CanSender} (hopen : sender.isOpen) {frame : CanFrame} (h : frame.WellFormed)
    (write : KernelFrame → Except String ℕ) : (sender.send frame write).1 = some frame.encode := by
  unfold CanSender.send CanFrame.encode
  rw [sendRaw_fst hopen _ _ h.dlc (fun _ => rfl), Option.getD_some, copyN_toList h.data]

/-- The frame that `sendFrame` is asked to send. -/
def requested (id : UInt32) (isExtended : Bool) (data : List UInt8) : CanFrame :=
  { id, isExtended, dlc := UInt8.ofNat data.length, data := copyN data data.length zeros }

theorem requested_wellFormed {id : UInt32} {isExtended : Bool} {data : List UInt8} (hid : id ≤ idMask isExtended)
    (hdata : data.length ≤ kMaxDataLength) : (requested id isExtended data).WellFormed := by
  have hlength : (UInt8.ofNat data.length).toNat = data.length :=
    UInt8.toNat_ofNat_of_lt' (Nat.lt_of_le_of_lt hdata (by decide))
  refine ⟨hlength.symm ▸ hdata, hid, fun i hi hle => ?_⟩
  have hle : data.length ≤ i := hlength ▸ hle
  exact (getElem_copyN data data.length zeros i hi).trans ((if_neg (Nat.not_lt.mpr hle)).trans (getElem_zeros i hi))

/-- **What `sendFrame` writes** on an open sender: a frame if the identifier is in range and
the data are not too long. -/
theorem sendFrame_fst {sender : CanSender} (hopen : sender.isOpen) (id : UInt32) (isExtended : Bool)
    (data : List UInt8) (write : KernelFrame → Except String ℕ) :
    (sendFrame sender id isExtended data write).1 =
      if id ≤ idMask isExtended ∧ data.length ≤ kMaxDataLength then some (requested id isExtended data).encode
      else none := by
  have hmaximum : (if isExtended then 0x1FFFFFFF else 0x7FF : UInt32) = idMask isExtended := rfl
  unfold sendFrame
  rw [hmaximum, hopen]
  simp only [Bool.not_true, Bool.false_eq_true, if_false]
  by_cases hid : id ≤ idMask isExtended
  · by_cases hdata : data.length ≤ kMaxDataLength
    · have hlength : (UInt8.ofNat data.length).toNat = data.length :=
        UInt8.toNat_ofNat_of_lt' (Nat.lt_of_le_of_lt hdata (by decide))
      rw [if_neg (UInt32.not_lt.mpr hid), if_neg (Nat.not_lt.mpr hdata), if_pos (And.intro hid hdata)]
      cases data with
      | nil => exact sendRaw_fst hopen id isExtended (by exact Nat.zero_le _) (by exact nofun) write
      | cons first rest =>
        rw [List.isEmpty_cons, if_neg Bool.false_ne_true,
          sendRaw_fst hopen id isExtended (hlength.symm ▸ hdata) (fun _ => rfl) write, hlength]
        rfl
    · rw [if_neg (UInt32.not_lt.mpr hid), if_pos (Nat.lt_of_not_le hdata), if_neg fun h => hdata h.2]
  · rw [if_pos (UInt32.not_le.mp hid), if_neg fun h => hid h.1]

/-- **Encoding and decoding are inverse.** On an open sender `sendFrame` writes a frame exactly
if the identifier is in the range of its kind and there are at most eight bytes, and what it
writes is received with that identifier, kind and payload and zeros after it. What is received
of any kernel frame is sent so that it is received again. -/
theorem codec_round_trip {sender : CanSender} (hopen : sender.isOpen) (write : KernelFrame → Except String ℕ) :
    (∀ id isExtended data,
      ((sendFrame sender id isExtended data write).1.isSome ↔
        id ≤ (if isExtended then 0x1FFFFFFF else 0x7FF) ∧ data.length ≤ 8) ∧
      ∀ kernelFrame, (sendFrame sender id isExtended data write).1 = some kernelFrame →
        ∀ timestampNs, ∃ frame, decode kernelFrame timestampNs = some frame ∧
          frame.id = id ∧ frame.isExtended = isExtended ∧ frame.dlc.toNat = data.length ∧
          frame.data.toList = data ++ List.replicate (8 - data.length) 0) ∧
    ∀ kernelFrame timestampNs frame, decode kernelFrame timestampNs = some frame →
      ∃ kernelFrame', (sender.send frame write).1 = some kernelFrame' ∧
        ∀ timestampNs', ∃ frame', decode kernelFrame' timestampNs' = some frame' ∧
          frame'.id = frame.id ∧ frame'.isExtended = frame.isExtended ∧ frame'.dlc = frame.dlc ∧
          frame'.data = frame.data := by
  constructor
  · intro id isExtended data
    rw [sendFrame_fst hopen]
    constructor
    · rw [Option.isSome_ite]
      rfl
    · intro kernelFrame heq timestampNs
      obtain ⟨⟨hid, hdata⟩, heq⟩ := Option.ite_none_right_eq_some.mp heq
      obtain rfl := Option.some.inj heq
      refine ⟨_, decode_encode (requested_wellFormed hid hdata) timestampNs, rfl, rfl, ?_, toList_copyN hdata⟩
      exact UInt8.toNat_ofNat_of_lt' (Nat.lt_of_le_of_lt hdata (by decide))
  · intro kernelFrame timestampNs frame h
    have hframe := (decode_wellFormed h).1
    exact ⟨_, send_fst hopen hframe write, fun timestampNs' =>
      ⟨_, decode_encode hframe timestampNs', rfl, rfl, rfl, rfl⟩⟩

/-- A 29-bit identifier with all its bits set, and three bytes. -/
theorem codec_round_trip_three :
    ∃ kernelFrame, (sendFrame ⟨some 3⟩ 0x1FFFFFFF true [1, 2, 3] fun _ => .ok 16).1 = some kernelFrame ∧
      ∃ frame, decode kernelFrame 5 = some frame ∧ frame.id = 0x1FFFFFFF ∧ frame.isExtended = true ∧
        frame.dlc.toNat = 3 ∧ frame.data.toList = [1, 2, 3, 0, 0, 0, 0, 0] := by
  obtain ⟨hwritten, hreceived⟩ :=
    (@codec_round_trip ⟨some 3⟩ rfl fun _ => .ok 16).1 0x1FFFFFFF true [1, 2, 3]
  obtain ⟨kernelFrame, heq⟩ := Option.isSome_iff_exists.mp (hwritten.mpr (by decide))
  exact ⟨kernelFrame, heq, hreceived kernelFrame heq 5⟩

end CanMonitor.Can
