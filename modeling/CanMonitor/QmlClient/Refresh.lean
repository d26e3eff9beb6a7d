import CanMonitor.Library.Cursor
import CanMonitor.Library.Runs
import CanMonitor.Connection.Encoding
import CanMonitor.Connection.Parameters
import CanMonitor.Connection.Query

/-!
# The refreshes of the QML client

Twice a second the client asks for the frames after the last one it has seen, whether or not
its earlier requests have been answered. An answer is appended to the frames that are shown,
and the last sequence is moved on by `Math.max`; nothing looks at whether a frame is shown
already.

## The model

The client keeps an `int` property, of 32 bits, and a list model. A sequence that it is sent
is a JavaScript number (`number`). Between the client and the server are the requests that the
server has not answered and the answers that have not been delivered, each list in no
particular order: `step` may take any of them at any time, and frames may be appended at any
time. The request for the statistics has no part in this.

## What is proved

* `framesResponse_refreshPath` — a request is answered with what `queryAfter` returns for the
  client's last sequence.
* `refresh_increasing` — if every answer that is delivered begins above the last row, or is a
  full one, then the sequences shown are increasing at any time; any other answer ends that.
* `sequential_fits` — so they are if no request is sent before the last one is answered, for
  the first `2^31 - 1` frames.
* `refresh_repeats` — two requests sent before the first answer show a frame twice.
-/

namespace CanMonitor.QmlClient

open CanMonitor.Library CanMonitor.Can CanMonitor.Http CanMonitor.Connection

/-! ### The client -/

/-- The JavaScript number that an integer is rounded to: of 53 bits, and even if there are two. -/
def number (z : ℤ) : ℤ :=
  let unit := 2 ^ (Nat.log2 z.natAbs - 52)
  let below := z.natAbs / unit
  let rest := z.natAbs % unit
  z.sign * ((if 2 * rest < unit ∨ 2 * rest = unit ∧ below % 2 = 0 then below else below + 1) * unit : ℕ)

/-- A row of `frameModel`. -/
structure Row where
  sequence : ℤ
  idHex : Bytes
  dlc : ℤ
  dataText : Bytes
  deriving DecidableEq

/-- `Number(byteValue).toString(16).padStart(2, "0")`. -/
def byteText (byteValue : ℤ) : Bytes := ((Nat.toDigits 16 byteValue.toNat).map fun c => c.toUInt8).leftpad 2 48

/-- What is appended for a frame. -/
def row (frame : FrameFields) : Row where
  sequence := number frame.sequence
  idHex := frame.idHex
  dlc := frame.dlc
  dataText := ((frame.data.map byteText).intersperse [32]).flatten

/-- What the client keeps. -/
structure Window where
  lastSequence : Int32 := 0
  frameModel : List Row := []
  deriving DecidableEq

/-- One turn of the loop over the frames of an answer. The property keeps the low 32 bits. -/
def Window.append (window : Window) (frame : FrameFields) : Window where
  lastSequence := Int32.ofInt (max window.lastSequence.toInt (number frame.sequence))
  frameModel := window.frameModel ++ [row frame]

/-- `while(frameModel.count > 100) frameModel.remove(0)`. -/
def removeOldest : List Row → List Row
  | [] => []
  | oldest :: rest => if 100 < (oldest :: rest).length then removeOldest rest else oldest :: rest

/-- What is done with an answer. -/
def Window.receive (window : Window) (frames : List FrameFields) : Window :=
  let window := frames.foldl Window.append window
  { window with frameModel := removeOldest window.frameModel }

/-- An integer as JavaScript writes it. -/
def integerText (z : ℤ) : Bytes := if z < 0 then 45 :: decimal z.natAbs else decimal z.natAbs

/-- The path of a request. -/
def refreshPath (lastSequence : Int32) : Bytes :=
  bytes "/api/can/frames?after=" ++ integerText lastSequence.toInt ++ bytes "&limit=100"

/-! ### The client and the server -/

/-- What the server answers, as the client reads it. -/
def answer (store : FrameStore) (lastSequence : Int32) : List FrameFields :=
  (store.queryAfter (UInt64.ofInt lastSequence.toInt) none 100).map fields

/-- The server, the client and what is between them. -/
structure State where
  store : FrameStore
  /-- The frames appended so far, as the appends were given them. -/
  log : List CanFrame
  window : Window
  /-- The last sequences of the requests that the server has not answered. -/
  requests : List Int32
  /-- The answers that have not been delivered. -/
  responses : List (List FrameFields)

/-- What happens next. -/
inductive Act where
  /-- The timer is triggered. -/
  | tick
  /-- `FrameStore::append`. -/
  | append (frame : CanFrame)
  /-- The server answers a request. -/
  | answer (i : ℕ)
  /-- An answer is delivered. -/
  | deliver (i : ℕ)
  /-- A request fails. -/
  | fail (i : ℕ)

/-- One action. -/
def step (s : State) : Act → Option State
  | .tick => some { s with requests := s.requests ++ [s.window.lastSequence] }
  | .append frame => some { s with store := (s.store.append frame).2, log := s.log ++ [frame] }
  | .answer i =>
    (s.requests[i]?).map fun lastSequence =>
      { s with requests := s.requests.eraseIdx i, responses := s.responses ++ [answer s.store lastSequence] }
  | .deliver i =>
    (s.responses[i]?).map fun frames =>
      { s with window := s.window.receive frames, responses := s.responses.eraseIdx i }
  | .fail i => (s.requests[i]?).map fun _ => { s with requests := s.requests.eraseIdx i }

/-- A client that was just started, and a store of capacity `c`. -/
def start (c : ℕ) (hc : 0 < c) : State := ⟨FrameStore.empty c hc, [], {}, [], []⟩

/-- The answer begins above the last row or replaces all rows, and is in order. -/
def Fits (rows : List Row) (frames : List FrameFields) : Prop :=
  Ascending (fun f => number f.sequence) frames ∧
    (frames.length = 100 ∨ ∀ last ∈ rows.getLast?, ∀ first ∈ frames.head?, last.sequence < number first.sequence)

instance (rows : List Row) (frames : List FrameFields) : Decidable (Fits rows frames) := by
  unfold Fits Ascending
  infer_instance

/-- An answer fits when it is delivered. -/
def Fitting (s : State) : Act → Prop
  | .deliver i => ∀ frames ∈ s.responses[i]?, Fits s.window.frameModel frames
  | _ => True

instance (s : State) : ∀ a, Decidable (Fitting s a)
  | .deliver i => inferInstanceAs (Decidable (∀ frames ∈ s.responses[i]?, Fits s.window.frameModel frames))
  | .tick | .append _ | .answer _ | .fail _ => isTrue trivial

/-! ### What the client is answered -/

theorem integerText_no_ampersand (z : ℤ) : (38 : UInt8) ∉ integerText z := by
  have hdecimal : (38 : UInt8) ∉ decimal z.natAbs := fun h =>
    absurd ((isDecimal_decimal z.natAbs).2.1 38 h) (by decide)
  unfold integerText
  split_ifs
  · rw [List.mem_cons, not_or]
    exact ⟨by decide, hdecimal⟩
  · exact hdecimal

/-- The last sequence is taken for a word, modulo `2^64`. -/
theorem parseUnsigned_integerText (lastSequence : Int32) :
    parseUnsigned (integerText lastSequence.toInt) = some (UInt64.ofInt lastSequence.toInt).toNat := by
  have hlow := lastSequence.le_toInt
  have hhigh := lastSequence.toInt_lt
  have hliteral := unsignedLiteral_decimal lastSequence.toInt.natAbs
  have hword : (UInt64.ofInt lastSequence.toInt).toNat = (lastSequence.toInt % 2 ^ 64).toNat := by
    rw [UInt64.ofInt, UInt64.toNat_ofNat']
    omega
  rw [parseUnsigned_iff, hword]
  unfold integerText
  split_ifs with hneg
  · refine ⟨[45], _, _, ⟨[], [45], rfl, List.forall_mem_nil _, by simp⟩, rfl, hliteral, by omega, ?_⟩
    rw [if_pos (List.mem_singleton_self 45)]
    omega
  · refine ⟨[], _, _, isPadding_nil, rfl, hliteral, by omega, ?_⟩
    rw [if_neg List.not_mem_nil]
    omega

/-- The parameters of a request. -/
theorem parseQuery_refreshPath (lastSequence : Int32) :
    parseQuery (refreshPath lastSequence) = Function.update (Function.update (fun _ => none) (bytes "after")
      (some (integerText lastSequence.toInt))) (bytes "limit") (some (bytes "100")) := by
  have hfirst : bytes "/api/can/frames?after=" = bytes "/api/can/frames" ++ 63 :: (bytes "after" ++ [61]) := by
    decide +kernel
  have hlast : bytes "&limit=100" = 38 :: (bytes "limit" ++ 61 :: bytes "100") := by decide +kernel
  have hpath : refreshPath lastSequence = bytes "/api/can/frames" ++ 63 ::
      queryText [.pair (bytes "after") (integerText lastSequence.toInt) (by decide) (integerText_no_ampersand _),
        .pair (bytes "limit") (bytes "100") (by decide) (by decide)] := by
    rw [refreshPath, hfirst, hlast]
    simp [queryText, QueryItem.text]
  rw [hpath, parseQuery_append (by decide), queryItems_queryText]
  rfl

/-- **A request is answered** with what a query for the last sequence returns. -/
theorem framesResponse_refreshPath (lastSequence : Int32) (runtime : Connection.CanRuntime) :
    framesResponse (refreshPath lastSequence) (some runtime) = jsonResponse 200
      (framesToJson (runtime.store.queryAfter (UInt64.ofInt lastSequence.toInt) none 100)) := by
  have hquery := parseQuery_refreshPath lastSequence
  have hafter : numberParameter (parseQuery (refreshPath lastSequence)) (bytes "after") 0 =
      some (UInt64.ofInt lastSequence.toInt).toNat := by
    rw [numberParameter, hquery, Function.update_of_ne (by decide), Function.update_self]
    exact parseUnsigned_integerText lastSequence
  have hlimit : numberParameter (parseQuery (refreshPath lastSequence)) (bytes "limit") 50 = some 100 := by
    rw [numberParameter, hquery, Function.update_self]
    decide +kernel
  have hid : parseQuery (refreshPath lastSequence) (bytes "id") = none := by
    rw [hquery, Function.update_of_ne (by decide), Function.update_of_ne (by decide)]
  unfold framesResponse
  simp only [hafter, hlimit, hid, UInt64.ofNat_toNat]
  rfl

/-- The text of the answer says what the client reads. -/
theorem answer_decodes (lastSequence : Int32) {runtime : Connection.CanRuntime}
    (h : ∀ frame ∈ runtime.store.frames, frame.dlc.toNat ≤ kMaxDataLength) : ∃ d : Json.Document,
      framesResponse (refreshPath lastSequence) (some runtime) = jsonResponse 200 d.text ∧
        decodeFrames d.value = some (answer runtime.store lastSequence) := by
  refine ⟨framesDocument (runtime.store.queryAfter (UInt64.ofInt lastSequence.toInt) none 100), ?_, ?_⟩
  · rw [framesResponse_refreshPath, framesDocument_text]
  · refine decodeFrames_framesDocument fun frame hframe => h frame ?_
    rw [FrameStore.queryAfter_eq_fetch] at hframe
    exact (mem_of_mem_fetch hframe).1

/-! ### Sequences -/

/-- Integers up to `2^53` are numbers. -/
theorem number_eq {z : ℤ} (h₀ : 0 ≤ z) (hz : z ≤ 2 ^ 53) : number z = z := by
  obtain ⟨n, rfl⟩ := Int.eq_ofNat_of_zero_le h₀
  rcases Nat.lt_or_ge n (2 ^ 53) with hn | hn
  · have hlog : Nat.log2 n - 52 = 0 := by
      rcases Nat.eq_zero_or_pos n with rfl | hpos
      · rfl
      · have hlt := (Nat.log2_lt hpos.ne').mpr hn
        omega
    simp only [number, Int.natAbs_natCast, hlog, pow_zero, Nat.mod_one, Nat.div_one, mul_zero, zero_lt_one, true_or,
      if_true, mul_one]
    exact Int.sign_mul_natAbs n
  · obtain rfl : n = 2 ^ 53 := by omega
    decide +kernel

theorem length_answer (store : FrameStore) (lastSequence : Int32) : (answer store lastSequence).length ≤ 100 := by
  rw [answer, List.length_map, FrameStore.queryAfter_eq_fetch]
  exact List.length_take_le _ _

section Answer

variable {store : FrameStore} {log : List CanFrame} (hs : store.Holds log) {lastSequence : Int32}

include hs

theorem mem_answer (hn : log.length < 2 ^ 64) {f : FrameFields} (hf : f ∈ answer store lastSequence) :
    ((UInt64.ofInt lastSequence.toInt).toNat : ℤ) < f.sequence ∧ f.sequence ≤ log.length := by
  obtain ⟨frame, hframe, rfl⟩ := List.mem_map.mp hf
  rw [FrameStore.queryAfter_eq_fetch] at hframe
  obtain ⟨hmem, hafter, -⟩ := mem_of_mem_fetch hframe
  have hle := (FrameStore.getElem?_stamp hn (hs.mem_stamp hmem)).2.1
  exact ⟨Int.ofNat_lt.mpr hafter, Int.ofNat_le.mpr hle⟩

/-- An answer is in order. -/
theorem ascending_answer (hn : log.length < 2 ^ 64) : Ascending FrameFields.sequence (answer store lastSequence) := by
  rw [answer, FrameStore.queryAfter_eq_fetch, Ascending, List.pairwise_map]
  exact ((hs.ascending hn).fetch _ _).imp fun h => Int.ofNat_lt.mpr h

/-- The numbers that are read from an answer are in order, while no sequence is rounded. -/
theorem ascending_number_answer (hn : log.length ≤ 2 ^ 53) :
    Ascending (fun f => number f.sequence) (answer store lastSequence) := by
  refine (ascending_answer hs (by omega)).imp_of_mem fun {f g} hf hg hlt => ?_
  obtain ⟨hf₀, hfn⟩ := mem_answer hs (by omega) hf
  obtain ⟨hg₀, hgn⟩ := mem_answer hs (by omega) hg
  change number f.sequence < number g.sequence
  rw [number_eq (by omega) (by omega), number_eq (by omega) (by omega)]
  exact hlt

end Answer

/-! ### What is shown -/

theorem frameModel_foldl (frames : List FrameFields) (window : Window) :
    (frames.foldl Window.append window).frameModel = window.frameModel ++ frames.map row := by
  induction frames generalizing window with
  | nil => simp
  | cons frame frames ih => simp [ih, Window.append]

theorem removeOldest_eq (rows : List Row) : removeOldest rows = rows.rtake 100 := by
  induction rows with
  | nil => rfl
  | cons oldest rest ih =>
    rw [removeOldest]
    split_ifs with h
    · rw [ih, List.rtake, List.rtake, List.length_cons, Nat.succ_sub (by simpa [Nat.lt_succ_iff] using h), List.drop_succ_cons]
    · rw [rtake_of_length_le (by omega)]

theorem frameModel_receive (window : Window) (frames : List FrameFields) :
    (window.receive frames).frameModel = (window.frameModel ++ frames.map row).rtake 100 := by
  rw [Window.receive, removeOldest_eq, frameModel_foldl]

/-- **One answer** leaves what is shown in order exactly when it fits. -/
theorem ascending_receive_iff {window : Window} (h : Ascending Row.sequence window.frameModel) {frames : List FrameFields}
    (hframes : frames.length ≤ 100) :
    Ascending Row.sequence (window.receive frames).frameModel ↔ Fits window.frameModel frames := by
  rw [frameModel_receive, ascending_rtake_append_iff h (by simpa using hframes), Ascending, List.pairwise_map,
    List.length_map, List.head?_map]
  simp only [Option.mem_map, forall_exists_index, and_imp, forall_apply_eq_imp_iff₂]
  rfl

/-! ### Runs -/

/-- **What an action does.** -/
theorem step_cases {s s' : State} {a : Act} (h : step s a = some s') :
    (a = .tick ∧ s' = { s with requests := s.requests ++ [s.window.lastSequence] }) ∨
    (∃ frame, a = .append frame ∧ s' = { s with store := (s.store.append frame).2, log := s.log ++ [frame] }) ∨
    (∃ i lastSequence, a = .answer i ∧ s.requests[i]? = some lastSequence ∧
      s' = { s with requests := s.requests.eraseIdx i, responses := s.responses ++ [answer s.store lastSequence] }) ∨
    (∃ i frames, a = .deliver i ∧ s.responses[i]? = some frames ∧
      s' = { s with window := s.window.receive frames, responses := s.responses.eraseIdx i }) ∨
    (∃ i lastSequence, a = .fail i ∧ s.requests[i]? = some lastSequence ∧
      s' = { s with requests := s.requests.eraseIdx i }) := by
  cases a with
  | tick => exact .inl ⟨rfl, (Option.some.inj h).symm⟩
  | append frame => exact .inr (.inl ⟨frame, rfl, (Option.some.inj h).symm⟩)
  | answer i =>
    obtain ⟨lastSequence, hget, rfl⟩ := Option.map_eq_some_iff.mp h
    exact .inr (.inr (.inl ⟨i, lastSequence, rfl, hget, rfl⟩))
  | deliver i =>
    obtain ⟨frames, hget, rfl⟩ := Option.map_eq_some_iff.mp h
    exact .inr (.inr (.inr (.inl ⟨i, frames, rfl, hget, rfl⟩)))
  | fail i =>
    obtain ⟨lastSequence, hget, rfl⟩ := Option.map_eq_some_iff.mp h
    exact .inr (.inr (.inr (.inr ⟨i, lastSequence, rfl, hget, rfl⟩)))

/-- The answers are such as a store of numbered frames gives. -/
structure Sound (s : State) : Prop where
  holds : s.store.Holds s.log
  length_le : ∀ frames ∈ s.responses, frames.length ≤ 100
  ascending : s.log.length ≤ 2 ^ 53 → ∀ frames ∈ s.responses, Ascending (fun f => number f.sequence) frames

theorem sound_start (c : ℕ) (hc : 0 < c) : Sound (start c hc) := ⟨FrameStore.holds_empty c hc, nofun, fun _ => nofun⟩

theorem Sound.step {s s' : State} {a : Act} (h : Sound s) (hs : step s a = some s') : Sound s' := by
  have hmem : ∀ {i frames}, frames ∈ s.responses.eraseIdx i → frames ∈ s.responses := List.mem_of_mem_eraseIdx
  rcases step_cases hs with ⟨-, rfl⟩ | ⟨frame, -, rfl⟩ | ⟨i, lastSequence, -, -, rfl⟩ | ⟨i, frames, -, -, rfl⟩ |
    ⟨i, lastSequence, -, -, rfl⟩
  · exact ⟨h.holds, h.length_le, h.ascending⟩
  · refine ⟨h.holds.append frame, h.length_le, fun hn => h.ascending ?_⟩
    rw [List.length_append] at hn
    omega
  · refine ⟨h.holds, List.forall_mem_append.mpr ⟨h.length_le, ?_⟩, fun hn => List.forall_mem_append.mpr ⟨h.ascending hn, ?_⟩⟩
    · exact List.forall_mem_singleton.mpr (length_answer _ _)
    · exact List.forall_mem_singleton.mpr (ascending_number_answer h.holds hn)
  · exact ⟨h.holds, fun f hf => h.length_le f (hmem hf), fun hn f hf => h.ascending hn f (hmem hf)⟩
  · exact ⟨h.holds, h.length_le, h.ascending⟩

/-- A delivery leaves what is shown in order exactly when the answer fits. -/
theorem Sound.deliver_iff {s s' : State} {i : ℕ} (h : Sound s) (hrows : Ascending Row.sequence s.window.frameModel)
    (hs : QmlClient.step s (.deliver i) = some s') :
    Ascending Row.sequence s'.window.frameModel ↔ Fitting s (.deliver i) := by
  obtain ⟨frames, hget, rfl⟩ := Option.map_eq_some_iff.mp hs
  rw [ascending_receive_iff hrows (h.length_le frames (List.mem_of_getElem? hget)), Fitting, hget]
  simp

/-- **The sequences shown are increasing** at any time of a run in which every answer that is
delivered begins above the last row or replaces all rows, and is in order; a delivery leaves
them so in no other case. Answers are in order until a sequence is rounded. -/
theorem refresh_increasing {c : ℕ} {hc : 0 < c} {as : List Act} {s : State} (h : run step (start c hc) as = some s)
    (hfits : Meets Fitting step (start c hc) as) :
    Ascending Row.sequence s.window.frameModel ∧
      (∀ i s', step s (.deliver i) = some s' → (Ascending Row.sequence s'.window.frameModel ↔ Fitting s (.deliver i))) ∧
        (s.log.length ≤ 2 ^ 53 → ∀ frames ∈ s.responses, Ascending (fun f => number f.sequence) frames) := by
  have hgood : Sound s ∧ Ascending Row.sequence s.window.frameModel := by
    refine run_guarded (I := fun s => Sound s ∧ Ascending Row.sequence s.window.frameModel) ?_
      ⟨sound_start c hc, List.Pairwise.nil⟩ hfits h
    rintro s a s' ⟨hsound, hrows⟩ hfit hs
    refine ⟨hsound.step hs, ?_⟩
    rcases step_cases hs with ⟨-, rfl⟩ | ⟨frame, -, rfl⟩ | ⟨i, lastSequence, -, -, rfl⟩ | ⟨i, frames, rfl, -, -⟩ |
      ⟨i, lastSequence, -, -, rfl⟩
    · exact hrows
    · exact hrows
    · exact hrows
    · exact (hsound.deliver_iff hrows hs).mpr hfit
    · exact hrows
  obtain ⟨hsound, hrows⟩ := hgood
  exact ⟨hrows, fun i s' hs => hsound.deliver_iff hrows hs, hsound.ascending⟩

/-- Two frames, each delivered before the next request. -/
theorem refresh_increasing_twice : ∃ s, run step (start 8 (by decide))
    [.append {}, .tick, .answer 0, .deliver 0, .append {}, .tick, .answer 0, .deliver 0] = some s ∧
      Ascending Row.sequence s.window.frameModel ∧ s.window.frameModel.map Row.sequence = [1, 2] := by
  have hrows : (run step (start 8 (by decide)) [.append {}, .tick, .answer 0, .deliver 0, .append {}, .tick, .answer 0,
      .deliver 0]).map (fun s => s.window.frameModel.map Row.sequence) = some [1, 2] := by decide +kernel
  obtain ⟨s, hs, hshown⟩ := Option.map_eq_some_iff.mp hrows
  exact ⟨s, hs, (refresh_increasing hs (by decide +kernel)).1, hshown⟩

/-- Two requests are sent before the first answer comes, and the frame is shown twice. -/
theorem refresh_repeats : ∃ s, run step (start 8 (by decide))
    [.append {}, .tick, .tick, .answer 0, .answer 0, .deliver 0, .deliver 0] = some s ∧
      s.window.frameModel.map Row.sequence = [1, 1] ∧ ¬ Ascending Row.sequence s.window.frameModel := by
  have hrows : (run step (start 8 (by decide)) [.append {}, .tick, .tick, .answer 0, .answer 0, .deliver 0,
      .deliver 0]).map (fun s => s.window.frameModel.map Row.sequence) = some [1, 1] := by decide +kernel
  obtain ⟨s, hs, hshown⟩ := Option.map_eq_some_iff.mp hrows
  refine ⟨s, hs, hshown, fun hascending => ?_⟩
  have hpairs : (s.window.frameModel.map Row.sequence).Pairwise (· < ·) := List.pairwise_map.mpr hascending
  rw [hshown] at hpairs
  exact absurd hpairs (by decide)

/-! ### One request at a time -/

/-- A request is sent when nothing is under way, and the sequences fit in the property. -/
def OneByOne (s : State) : Act → Prop
  | .tick => s.requests = [] ∧ s.responses = []
  | .append _ => s.log.length + 1 < 2 ^ 31
  | _ => True

/-- What is under way is after the last sequence, and what is shown is not. -/
structure Following (s : State) : Prop where
  holds : s.store.Holds s.log
  length_lt : s.log.length < 2 ^ 31
  rows : Ascending Row.sequence s.window.frameModel
  nonneg : 0 ≤ s.window.lastSequence.toInt
  shown : ∀ r ∈ s.window.frameModel, r.sequence ≤ s.window.lastSequence.toInt
  alone : s.requests.length + s.responses.length ≤ 1
  asked : ∀ lastSequence ∈ s.requests, lastSequence = s.window.lastSequence
  answered : ∀ frames ∈ s.responses, frames.length ≤ 100 ∧ Ascending (fun f => number f.sequence) frames ∧
    ∀ f ∈ frames, s.window.lastSequence.toInt < f.sequence ∧ f.sequence < 2 ^ 31

/-- The last sequence is above everything the loop has been over. -/
theorem lastSequence_foldl {frames : List FrameFields} {window : Window} (h₀ : 0 ≤ window.lastSequence.toInt)
    (hframes : ∀ f ∈ frames, 0 ≤ f.sequence ∧ f.sequence < 2 ^ 31) :
    window.lastSequence.toInt ≤ (frames.foldl Window.append window).lastSequence.toInt ∧
      ∀ f ∈ frames, f.sequence ≤ (frames.foldl Window.append window).lastSequence.toInt := by
  induction frames generalizing window with
  | nil => exact ⟨le_rfl, nofun⟩
  | cons frame frames ih =>
    obtain ⟨⟨hpos, hlt⟩, hrest⟩ := List.forall_mem_cons.mp hframes
    have hhigh := window.lastSequence.toInt_lt
    have hnext : (window.append frame).lastSequence.toInt = max window.lastSequence.toInt frame.sequence := by
      rw [Window.append, number_eq hpos (by omega), Int32.toInt_ofInt_of_le (by omega) (by omega)]
    have hnonneg : 0 ≤ (window.append frame).lastSequence.toInt := by omega
    obtain ⟨hle, hall⟩ := ih hnonneg hrest
    exact ⟨by rw [List.foldl_cons]; omega, List.forall_mem_cons.mpr ⟨by rw [List.foldl_cons]; omega, hall⟩⟩

/-- An answer that is delivered to a client that follows fits. -/
theorem Following.fitting {s : State} (h : Following s) (a : Act) : Fitting s a := by
  cases a with
  | deliver i =>
    intro frames hget
    obtain ⟨-, hascending, hafter⟩ := h.answered frames (List.mem_of_getElem? hget)
    refine ⟨hascending, .inr fun last hlast first hfirst => ?_⟩
    have hshown := h.shown last (List.mem_of_getLast? hlast)
    obtain ⟨hlt, hsmall⟩ := hafter first (List.mem_of_head? hfirst)
    have hnonneg := h.nonneg
    rw [number_eq (by omega) (by omega)]
    omega
  | _ => trivial

/-- A client goes on following when the one answer under way is delivered. -/
theorem Following.deliver {s : State} (h : Following s) {i : ℕ} {frames : List FrameFields}
    (hget : s.responses[i]? = some frames) :
    Following { s with window := s.window.receive frames, responses := s.responses.eraseIdx i } := by
  obtain ⟨hlength, -, hafter⟩ := h.answered frames (List.mem_of_getElem? hget)
  have hfits : Fits s.window.frameModel frames := h.fitting (.deliver i) frames hget
  have hnonneg := h.nonneg
  have halone := h.alone
  have hi : i < s.responses.length := (List.getElem?_eq_some_iff.mp hget).1
  have hrequests : s.requests = [] := List.eq_nil_of_length_eq_zero (by omega)
  have hresponses : s.responses.eraseIdx i = [] :=
    List.eq_nil_of_length_eq_zero (by rw [List.length_eraseIdx_of_lt hi]; omega)
  have hbounds : ∀ f ∈ frames, 0 ≤ f.sequence ∧ f.sequence < 2 ^ 31 := by
    intro f hf
    obtain ⟨hlt, hsmall⟩ := hafter f hf
    exact ⟨by omega, hsmall⟩
  obtain ⟨hle, hall⟩ := lastSequence_foldl hnonneg hbounds
  have hlast : (s.window.receive frames).lastSequence = (frames.foldl Window.append s.window).lastSequence := rfl
  refine ⟨h.holds, h.length_lt, (ascending_receive_iff h.rows hlength).mpr hfits, ?_, ?_, ?_, ?_, ?_⟩
  · rw [hlast]
    omega
  · intro r hr
    rw [hlast]
    rw [frameModel_receive] at hr
    rcases List.mem_append.mp (List.mem_of_mem_drop hr) with hr | hr
    · exact (h.shown r hr).trans hle
    · obtain ⟨f, hf, rfl⟩ := List.mem_map.mp hr
      obtain ⟨hpos, hlt⟩ := hbounds f hf
      rw [row, number_eq hpos (by omega)]
      exact hall f hf
  · rw [hrequests, hresponses]
    exact Nat.zero_le 1
  · rw [hrequests]
    exact nofun
  · rw [hresponses]
    exact nofun

theorem Following.step {s s' : State} {a : Act} (h : Following s) (hone : OneByOne s a) (hs : step s a = some s') :
    Following s' := by
  have halone := h.alone
  rcases step_cases hs with ⟨rfl, rfl⟩ | ⟨frame, rfl, rfl⟩ | ⟨i, lastSequence, -, hget, rfl⟩ |
    ⟨i, frames, -, hget, rfl⟩ | ⟨i, lastSequence, -, hget, rfl⟩
  · obtain ⟨hrequests, hresponses⟩ : s.requests = [] ∧ s.responses = [] := hone
    refine ⟨h.holds, h.length_lt, h.rows, h.nonneg, h.shown, ?_, ?_, h.answered⟩
    · simp [hrequests, hresponses]
    · simp [hrequests]
  · have hlt : s.log.length + 1 < 2 ^ 31 := hone
    refine ⟨h.holds.append frame, ?_, h.rows, h.nonneg, h.shown, halone, h.asked, h.answered⟩
    rw [List.length_append, List.length_singleton]
    exact hlt
  · -- the answer is what was asked for with the last sequence
    have hi : i < s.requests.length := (List.getElem?_eq_some_iff.mp hget).1
    have hlt := h.length_lt
    have hlow := h.nonneg
    have hhigh := s.window.lastSequence.toInt_lt
    obtain rfl : lastSequence = s.window.lastSequence := h.asked lastSequence (List.mem_of_getElem? hget)
    have hword : (UInt64.ofInt s.window.lastSequence.toInt).toNat = s.window.lastSequence.toInt.toNat := by
      rw [UInt64.ofInt, UInt64.toNat_ofNat']
      omega
    refine ⟨h.holds, hlt, h.rows, hlow, h.shown, ?_, ?_, List.forall_mem_append.mpr ⟨h.answered, ?_⟩⟩
    · rw [List.length_eraseIdx_of_lt hi, List.length_append, List.length_singleton]
      omega
    · exact fun lastSequence hmem => h.asked lastSequence (List.mem_of_mem_eraseIdx hmem)
    · refine List.forall_mem_singleton.mpr ⟨length_answer _ _, ascending_number_answer h.holds (by omega), fun f hf => ?_⟩
      obtain ⟨hafter, hle⟩ := mem_answer h.holds (by omega) hf
      rw [hword] at hafter
      change s.window.lastSequence.toInt < f.sequence ∧ f.sequence < 2 ^ 31
      omega
  · exact h.deliver hget
  · have hi : i < s.requests.length := (List.getElem?_eq_some_iff.mp hget).1
    refine ⟨h.holds, h.length_lt, h.rows, h.nonneg, h.shown, ?_, ?_, h.answered⟩
    · change (s.requests.eraseIdx i).length + s.responses.length ≤ 1
      rw [List.length_eraseIdx_of_lt hi]
      omega
    · exact fun lastSequence hmem => h.asked lastSequence (List.mem_of_mem_eraseIdx hmem)

theorem following_start (c : ℕ) (hc : 0 < c) : Following (start c hc) :=
  ⟨FrameStore.holds_empty c hc, Nat.two_pow_pos 31, List.Pairwise.nil, le_rfl, nofun, Nat.zero_le 1, nofun, nofun⟩

/-- **One request at a time** keeps the sequences shown increasing, and fits every answer. -/
theorem sequential_fits {c : ℕ} {hc : 0 < c} {as : List Act} {s : State} (h : run step (start c hc) as = some s)
    (hone : Meets OneByOne step (start c hc) as) :
    Ascending Row.sequence s.window.frameModel ∧ ∀ a, Fitting s a := by
  have hfollowing : Following s :=
    run_guarded (fun _ _ _ hs hone hstep => Following.step hs hone hstep) (following_start c hc) hone h
  exact ⟨hfollowing.rows, hfollowing.fitting⟩

end CanMonitor.QmlClient
