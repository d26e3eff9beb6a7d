import CanMonitor.Connection.Encoding
import CanMonitor.Connection.Parameters
import CanMonitor.Connection.Pipelining

/-!
# What the routes say

Every answer of a route under `/api/can` that is not a stream is JSON: frames, statistics, the
confirmation that a frame was sent, or an error.

## The model

* `decodeStatistics` — the members of the statistics, by their names; a `double` is the text
  of a number.
* `decodeSaid` — which of the four a JSON value is, and what it says.

## What is proved

* `statisticsDocument_text`, `decodeStatistics_statisticsDocument` — the JSON of statistics is
  the text of one tree, which says what they are.
* `said_of_filledIn` — so it is with every answer: its text is that of one tree, and an answer
  is an error exactly when its status is not `200`. Frames are those that the store has for the
  parameters that the query is parsed to (`Asks`).
-/

namespace CanMonitor.Connection

open CanMonitor.Library CanMonitor.Library.Json CanMonitor.Can CanMonitor.Http

/-! ### What JSON says about statistics -/

/-- The members of an entry of `per_id`. -/
structure IdFields where
  id : ℤ
  idHex : Bytes
  isExtended : Bool
  frameCount : ℤ
  payloadBytes : ℤ
  deriving DecidableEq

/-- The members of the statistics. -/
structure StatisticsFields where
  totalReceivedFrames : ℤ
  totalReceivedPayloadBytes : ℤ
  /-- The text of a number. -/
  receiveRateFps : Bytes
  /-- The text of a number. -/
  estimatedBusLoadPercent : Bytes
  perId : List IdFields
  deriving DecidableEq

/-- What the members of an entry should be. -/
def idFields (item : CanIdStatistics) : IdFields where
  id := item.id.toNat
  idHex := bytes "0x" ++ upperHex item.id.toNat
  isExtended := item.isExtended
  frameCount := item.frameCount.toNat
  payloadBytes := item.payloadBytes.toNat

/-- What the members of the statistics should be. -/
def statisticsFields (statistics : CanBusStatisticsSnapshot) : StatisticsFields where
  totalReceivedFrames := statistics.totalReceivedFrames.toNat
  totalReceivedPayloadBytes := statistics.totalReceivedPayloadBytes.toNat
  receiveRateFps := statistics.receiveRateFps
  estimatedBusLoadPercent := statistics.estimatedBusLoadPercent
  perId := statistics.perId.map idFields

/-- What a value says about an identifier. -/
def decodeId (v : Value) : Option IdFields := do
  let id ← (v.member (bytes "id")).bind Value.integer
  let idHex ← (v.member (bytes "id_hex")).bind Value.content
  let isExtended ← (v.member (bytes "extended")).bind Value.truth
  let frameCount ← (v.member (bytes "frame_count")).bind Value.integer
  let payloadBytes ← (v.member (bytes "payload_bytes")).bind Value.integer
  some ⟨id, idHex, isExtended, frameCount, payloadBytes⟩

/-- What a value says about the bus. -/
def decodeStatistics (v : Value) : Option StatisticsFields := do
  let totalReceivedFrames ← (v.member (bytes "total_received_frames")).bind Value.integer
  let totalReceivedPayloadBytes ← (v.member (bytes "total_received_payload_bytes")).bind Value.integer
  let receiveRateFps ← (v.member (bytes "receive_rate_fps")).bind Value.numeral
  let estimatedBusLoadPercent ← (v.member (bytes "estimated_bus_load_percent")).bind Value.numeral
  let elements ← (v.member (bytes "per_id")).bind Value.elements
  let perId ← elements.mapM decodeId
  some ⟨totalReceivedFrames, totalReceivedPayloadBytes, receiveRateFps, estimatedBusLoadPercent, perId⟩

/-! ### The tree of an entry -/

/-- The members after the first. -/
def laterIdMembers (item : CanIdStatistics) : List (Bytes × Value) :=
  [(bytes "id_hex", .string (.plain (bytes "0x" ++ upperHex item.id.toNat))), (bytes "extended", .bool item.isExtended),
    (bytes "frame_count", natural item.frameCount.toNat), (bytes "payload_bytes", natural item.payloadBytes.toNat)]

/-- The tree of an entry. -/
def entryValue (item : CanIdStatistics) : Value :=
  .object (.ofList (bytes "id", natural item.id.toNat) (laterIdMembers item))

/-- The names are plain and distinct. -/
theorem id_names (item : CanIdStatistics) :
    (∀ m ∈ (bytes "id", natural item.id.toNat) :: laterIdMembers item, IsPlain m.1) ∧
      (((bytes "id", natural item.id.toNat) :: laterIdMembers item).map (·.1)).Nodup := by
  have hnames : ((bytes "id", natural item.id.toNat) :: laterIdMembers item).map (·.1) =
      [bytes "id", bytes "id_hex", bytes "extended", bytes "frame_count", bytes "payload_bytes"] := rfl
  rw [hnames]
  refine ⟨fun m hm => ?_, by decide +kernel⟩
  have hplain : ∀ name ∈ [bytes "id", bytes "id_hex", bytes "extended", bytes "frame_count", bytes "payload_bytes"],
      IsPlain name := by decide +kernel
  exact hplain m.1 (hnames ▸ List.mem_map_of_mem hm)

theorem bool_text (b : Bool) : (Value.bool b).text = if b then bytes "true" else bytes "false" := by
  cases b <;> rfl

theorem string_text (s : Str) : (Value.string s).text = 34 :: (s.text ++ [34]) := by rw [Value.text]

theorem idKeys_text : bytes "\"id\":" = 34 :: (bytes "id" ++ [34, 58]) ∧
    bytes ",\"frame_count\":" = 44 :: 34 :: (bytes "frame_count" ++ [34, 58]) ∧
    bytes ",\"payload_bytes\":" = 44 :: 34 :: (bytes "payload_bytes" ++ [34, 58]) ∧ bytes "," = [44] := by decide +kernel

theorem entryValue_text (item : CanIdStatistics) : (entryValue item).text = idStatisticsToJson item := by
  have hnatural : ∀ n, (natural n).text = decimal n := Number.ofNat_text
  obtain ⟨-, -, -, h₄, h₅, -⟩ := keys_text
  obtain ⟨h₁, h₂, h₃, -⟩ := idKeys_text
  rw [entryValue, Value.text, Members.ofList_text (id_names item).1]
  simp only [laterIdMembers, List.map_cons, List.map_nil, bool_text, hnatural, string_text,
    (Str.plain_text (plain_hex _)).1, idStatisticsToJson, h₁, h₂, h₃, h₄, h₅]
  simp

theorem decodeId_entryValue (item : CanIdStatistics) : decodeId (entryValue item) = some (idFields item) := by
  have hmember : ∀ {name : Bytes} {v : Value}, (name, v) ∈ (bytes "id", natural item.id.toNat) :: laterIdMembers item →
      (entryValue item).member name = some v := fun hmem => Members.ofList_member (id_names item).1 (id_names item).2 hmem
  have hnatural : ∀ n, (natural n).integer = some (n : ℤ) := Number.ofNat_integer
  have h₁ : (entryValue item).member (bytes "id") = some (natural item.id.toNat) := hmember List.mem_cons_self
  have h₂ : (entryValue item).member (bytes "id_hex") = some (.string (.plain (bytes "0x" ++ upperHex item.id.toNat))) :=
    hmember (by simp [laterIdMembers])
  have h₃ : (entryValue item).member (bytes "extended") = some (.bool item.isExtended) := hmember (by simp [laterIdMembers])
  have h₄ : (entryValue item).member (bytes "frame_count") = some (natural item.frameCount.toNat) :=
    hmember (by simp [laterIdMembers])
  have h₅ : (entryValue item).member (bytes "payload_bytes") = some (natural item.payloadBytes.toNat) :=
    hmember (by simp [laterIdMembers])
  simp only [decodeId, h₁, h₂, h₃, h₄, h₅, Option.bind_eq_bind, Option.bind_some, hnatural, Value.content, Value.truth,
    (Str.plain_text (plain_hex _)).2]
  rfl

/-! ### The tree of the statistics -/

/-- The members after the first, with what the two `double`s are printed as. -/
def laterStatisticsMembers (statistics : CanBusStatisticsSnapshot) (rate load : Number) : List (Bytes × Value) :=
  [(bytes "total_received_payload_bytes", natural statistics.totalReceivedPayloadBytes.toNat),
    (bytes "receive_rate_fps", .number rate), (bytes "estimated_bus_load_percent", .number load),
    (bytes "per_id", .ofList (statistics.perId.map entryValue))]

/-- The tree of the statistics. -/
def statisticsDocument (statistics : CanBusStatisticsSnapshot) (rate load : Number) : Document :=
  ⟨.none, .object (.ofList (bytes "total_received_frames", natural statistics.totalReceivedFrames.toNat)
    (laterStatisticsMembers statistics rate load)), .none⟩

/-- The names, which are plain and distinct. -/
def statisticsNames : List Bytes :=
  [bytes "total_received_frames", bytes "total_received_payload_bytes", bytes "receive_rate_fps",
    bytes "estimated_bus_load_percent", bytes "per_id"]

theorem statisticsNames_plain : (∀ name ∈ statisticsNames, IsPlain name) ∧ statisticsNames.Nodup := by decide +kernel

section

variable (statistics : CanBusStatisticsSnapshot) (rate load : Number)

theorem statistics_names :
    ((bytes "total_received_frames", natural statistics.totalReceivedFrames.toNat) ::
      laterStatisticsMembers statistics rate load).map (·.1) = statisticsNames := rfl

theorem statistics_plain : ∀ m ∈ (bytes "total_received_frames", natural statistics.totalReceivedFrames.toNat) ::
    laterStatisticsMembers statistics rate load, IsPlain m.1 := fun _ hm =>
  statisticsNames_plain.1 _ (statistics_names statistics rate load ▸ List.mem_map_of_mem hm)

theorem statisticsKeys_text :
    bytes "\"total_received_frames\":" = 34 :: (bytes "total_received_frames" ++ [34, 58]) ∧
    bytes ",\"total_received_payload_bytes\":" = 44 :: 34 :: (bytes "total_received_payload_bytes" ++ [34, 58]) ∧
    bytes ",\"receive_rate_fps\":" = 44 :: 34 :: (bytes "receive_rate_fps" ++ [34, 58]) ∧
    bytes ",\"estimated_bus_load_percent\":" = 44 :: 34 :: (bytes "estimated_bus_load_percent" ++ [34, 58]) ∧
    bytes ",\"per_id\":[" = 44 :: 34 :: (bytes "per_id" ++ [34, 58, 91]) ∧ bytes "]" = [93] := by decide +kernel

variable {statistics rate load}

theorem statisticsDocument_text (hrate : rate.text = statistics.receiveRateFps)
    (hload : load.text = statistics.estimatedBusLoadPercent) :
    (statisticsDocument statistics rate load).text = statisticsToJson statistics := by
  have hnatural : ∀ n, (natural n).text = decimal n := Number.ofNat_text
  have hnumber : ∀ n : Number, (Value.number n).text = n.text := fun n => by rw [Value.text]
  have hitems : (statistics.perId.map entryValue).map Value.text = statistics.perId.map idStatisticsToJson := by
    rw [List.map_map]
    exact List.map_congr_left fun item _ => entryValue_text item
  obtain ⟨h₁, h₂, h₃, h₄, h₅, h₆⟩ := statisticsKeys_text
  obtain ⟨-, -, -, hcomma⟩ := idKeys_text
  rw [statisticsDocument, Document.text, Value.text, Members.ofList_text (statistics_plain statistics rate load)]
  simp only [laterStatisticsMembers, List.map_cons, List.map_nil, hnatural, hnumber, Value.ofList_text, hitems, hrate, hload,
    statisticsToJson, commaSeparated, hcomma, h₁, h₂, h₃, h₄, h₅, h₆]
  simp [White.none]

/-- The tree of the statistics says what they are. -/
theorem decodeStatistics_statisticsDocument (hrate : rate.text = statistics.receiveRateFps)
    (hload : load.text = statistics.estimatedBusLoadPercent) :
    decodeStatistics (statisticsDocument statistics rate load).value = some (statisticsFields statistics) := by
  have hmember : ∀ {name : Bytes} {v : Value},
      (name, v) ∈ (bytes "total_received_frames", natural statistics.totalReceivedFrames.toNat) ::
        laterStatisticsMembers statistics rate load →
      (statisticsDocument statistics rate load).value.member name = some v := fun hmem =>
    Members.ofList_member (statistics_plain statistics rate load) statisticsNames_plain.2 hmem
  have hnatural : ∀ n, (natural n).integer = some (n : ℤ) := Number.ofNat_integer
  have hitems : (statistics.perId.map entryValue).mapM decodeId = some (statistics.perId.map idFields) := by
    generalize statistics.perId = items
    induction items with
    | nil => rfl
    | cons item items ih => simp [decodeId_entryValue, ih]
  have h₁ : (statisticsDocument statistics rate load).value.member (bytes "total_received_frames") =
      some (natural statistics.totalReceivedFrames.toNat) := hmember List.mem_cons_self
  have h₂ : (statisticsDocument statistics rate load).value.member (bytes "total_received_payload_bytes") =
      some (natural statistics.totalReceivedPayloadBytes.toNat) := hmember (by simp [laterStatisticsMembers])
  have h₃ : (statisticsDocument statistics rate load).value.member (bytes "receive_rate_fps") = some (.number rate) :=
    hmember (by simp [laterStatisticsMembers])
  have h₄ : (statisticsDocument statistics rate load).value.member (bytes "estimated_bus_load_percent") =
      some (.number load) := hmember (by simp [laterStatisticsMembers])
  have h₅ : (statisticsDocument statistics rate load).value.member (bytes "per_id") =
      some (.ofList (statistics.perId.map entryValue)) := hmember (by simp [laterStatisticsMembers])
  simp only [decodeStatistics, h₁, h₂, h₃, h₄, h₅, Option.bind_eq_bind, Option.bind_some, hnatural, Value.numeral, hrate, hload,
    Value.ofList_elements, hitems]
  rfl

end

/-! ### What an answer says -/

/-- What the answer of a route can say. -/
inductive Said where
  | error (message : Bytes)
  | frames (listed : List FrameFields)
  | statistics (reported : StatisticsFields)
  | sent
  deriving DecidableEq

/-- What a value says, by the members that it has. -/
def decodeSaid (v : Value) : Option Said :=
  (((v.member (bytes "error")).bind Value.content).map .error).or <| ((decodeFrames v).map .frames).or <|
    ((decodeStatistics v).map .statistics).or <|
      if (v.member (bytes "sent")).bind Value.truth = some true then some .sent else none

/-- The tree of an error. -/
def errorDocument (message : Bytes) : Document :=
  ⟨.none, .object (.ofList (bytes "error", .string (.plain message)) []), .none⟩

/-- The tree of a confirmation. -/
def sentDocument : Document := ⟨.none, .object (.ofList (bytes "sent", .bool true) []), .none⟩

/-- An object with one member: its text. -/
theorem member_text {name : Bytes} (h : IsPlain name) (v : Value) :
    (⟨.none, .object (.ofList (name, v) []), .none⟩ : Document).text = 123 :: 34 :: (name ++ 34 :: 58 :: (v.text ++ [125])) := by
  have hplain : ∀ m ∈ [(name, v)], IsPlain m.1 := fun m hm => (List.mem_singleton.mp hm).symm ▸ h
  rw [Document.text, Value.text, Members.ofList_text hplain]
  simp [White.none]

theorem errorDocument_said {message : Bytes} (h : IsPlain message) :
    (errorDocument message).text = errorBody message ∧
      decodeSaid (errorDocument message).value = some (.error message) := by
  obtain ⟨htext, hcontent⟩ := Str.plain_text h
  have hname : IsPlain (bytes "error") := by decide +kernel
  have hkey : bytes "\"error\":\"" = 34 :: (bytes "error" ++ [34, 58, 34]) ∧ bytes "\"" = [34] := by decide +kernel
  constructor
  · rw [errorDocument, member_text hname, string_text, htext, errorBody, hkey.1, hkey.2]
    simp
  · have hmember : (errorDocument message).value.member (bytes "error") = some (.string (.plain message)) :=
      Members.ofList_member (by simpa using hname) (by simp) List.mem_cons_self
    rw [decodeSaid, hmember, Option.bind_some, Value.content, hcontent]
    rfl

theorem sentDocument_said : sentDocument.text = 123 :: bytes "\"sent\":true" ++ [125] ∧
    decodeSaid sentDocument.value = some .sent := by decide +kernel

/-- A member that an object lacks. -/
theorem no_error {m : Bytes × Value} {ms : List (Bytes × Value)} (h : ∀ m' ∈ m :: ms, IsPlain m'.1)
    (hno : bytes "error" ∉ (m :: ms).map (·.1)) :
    decodeSaid (.object (.ofList m ms)) = ((decodeFrames (.object (.ofList m ms))).map .frames).or
      (((decodeStatistics (.object (.ofList m ms))).map .statistics).or
        (if ((Value.object (.ofList m ms)).member (bytes "sent")).bind Value.truth = some true then some .sent else none)) := by
  rw [decodeSaid, Members.ofList_no_member h hno]
  rfl

theorem framesDocument_said {frames : List CanFrame} (h : ∀ frame ∈ frames, frame.dlc.toNat ≤ kMaxDataLength) :
    decodeSaid (framesDocument frames).value = some (.frames (frames.map fields)) := by
  have hno : bytes "error" ∉ [bytes "frames"] := by decide +kernel
  have hdecode := decodeFrames_framesDocument h
  rw [framesDocument] at hdecode ⊢
  dsimp only at hdecode ⊢
  rw [no_error (frames_name frames) hno, hdecode]
  rfl

theorem statisticsDocument_said {statistics : CanBusStatisticsSnapshot} {rate load : Number}
    (hrate : rate.text = statistics.receiveRateFps) (hload : load.text = statistics.estimatedBusLoadPercent) :
    decodeSaid (statisticsDocument statistics rate load).value = some (.statistics (statisticsFields statistics)) := by
  have hno : bytes "error" ∉ statisticsNames ∧ bytes "frames" ∉ statisticsNames := by decide +kernel
  have hplain := statistics_plain statistics rate load
  have hdecode := decodeStatistics_statisticsDocument hrate hload
  rw [statisticsDocument] at hdecode ⊢
  dsimp only at hdecode ⊢
  rw [no_error hplain (statistics_names statistics rate load ▸ hno.1), hdecode, decodeFrames,
    Members.ofList_no_member hplain (statistics_names statistics rate load ▸ hno.2)]
  rfl

/-! ### The routes -/

/-- Is the request one for one of the four routes under `/api/can`? -/
def IsApi (req : HttpRequest) : Prop :=
  (req.method = .get ∧
    pathWithoutQuery req.path ∈ [bytes "/api/can/frames", bytes "/api/can/stats", bytes "/api/can/stream"]) ∨
  (req.method = .post ∧ pathWithoutQuery req.path = bytes "/api/can/send")

/-- The frames of a runtime have as many bytes as they say, and its numbers are printed as numbers. -/
structure Printable (runtime : CanRuntime) : Prop where
  dlc : ∀ frame ∈ runtime.store.frames, frame.dlc.toNat ≤ kMaxDataLength
  rate : ∃ n : Number, n.text = runtime.busStats.receiveRateFps
  load : ∃ n : Number, n.text = runtime.busStats.estimatedBusLoadPercent

/-- The query asks for so many frames after a sequence, with an id or with any. -/
structure Asks (query : Bytes → Option Bytes) (after : ℕ) (id : Option ℕ) (limit : ℕ) : Prop where
  after_eq : numberParameter query (bytes "after") 0 = some after
  limit_eq : numberParameter query (bytes "limit") 50 = some limit
  limit_range : 0 < limit ∧ limit ≤ 1000
  id_eq : (query (bytes "id")).map parseUnsigned = id.map some
  id_range : ∀ n ∈ id, n ≤ kMaxId

/-- What a request is told when there is no error. -/
inductive Tells (req : HttpRequest) (runtime : CanRuntime) : Said → Prop where
  | frames {after : ℕ} {id : Option ℕ} {limit : ℕ} (hroute : pathWithoutQuery req.path = bytes "/api/can/frames")
      (hasks : Asks (parseQuery req.path) after id limit) :
      Tells req runtime
        (.frames ((runtime.store.queryAfter (UInt64.ofNat after) (id.map UInt32.ofNat) limit).map fields))
  | statistics (hroute : pathWithoutQuery req.path = bytes "/api/can/stats") :
      Tells req runtime (.statistics (statisticsFields runtime.busStats))
  | sent (hroute : pathWithoutQuery req.path = bytes "/api/can/send") : Tells req runtime .sent

/-- The answer is the text of one tree: with the status `200` it tells what was asked for, and
otherwise it is an error. -/
def Says (req : HttpRequest) (canRuntime : Option CanRuntime) (resp : HttpResponse) : Prop :=
  ∃ (d : Document) (said : Said), d.text = resp.body ∧ decodeSaid d.value = some said ∧
    ((resp.statusCode = 200 ∧ ∃ runtime, canRuntime = some runtime ∧ Tells req runtime said) ∨
      (resp.statusCode = 503 ∧ canRuntime = none ∨ resp.statusCode = 400 ∨ resp.statusCode = 500) ∧
        ∃ message, said = .error message)

section

variable {req : HttpRequest} {canRuntime : Option CanRuntime} {runtime : CanRuntime}

theorem says_error {statusCode : ℕ} {message : Bytes}
    (hstatus : statusCode = 503 ∧ canRuntime = none ∨ statusCode = 400 ∨ statusCode = 500) (hplain : IsPlain message) :
    Says req canRuntime (jsonResponse statusCode (errorBody message)) :=
  ⟨_, _, (errorDocument_said hplain).1, (errorDocument_said hplain).2, .inr ⟨hstatus, _, rfl⟩⟩

theorem says_frames (hprint : Printable runtime) (hroute : pathWithoutQuery req.path = bytes "/api/can/frames")
    {after : ℕ} {id : Option ℕ} {limit : ℕ} (hasks : Asks (parseQuery req.path) after id limit) :
    Says req (some runtime) (jsonResponse 200
      (framesToJson (runtime.store.queryAfter (UInt64.ofNat after) (id.map UInt32.ofNat) limit))) := by
  have hdlc : ∀ frame ∈ runtime.store.queryAfter (UInt64.ofNat after) (id.map UInt32.ofNat) limit,
      frame.dlc.toNat ≤ kMaxDataLength := fun frame hframe => by
    rw [FrameStore.queryAfter_eq_fetch] at hframe
    exact hprint.dlc frame (mem_of_mem_fetch hframe).1
  exact ⟨_, _, framesDocument_text _, framesDocument_said hdlc, .inl ⟨rfl, runtime, rfl, .frames hroute hasks⟩⟩

theorem says_framesResponse (hprint : ∀ runtime, canRuntime = some runtime → Printable runtime)
    (hroute : pathWithoutQuery req.path = bytes "/api/can/frames") :
    Says req canRuntime (framesResponse req.path canRuntime) := by
  have hplain : IsPlain (bytes "CAN runtime unavailable") ∧ IsPlain (bytes "invalid after") ∧
      IsPlain (bytes "invalid limit") ∧ IsPlain (bytes "invalid id") := by decide +kernel
  obtain ⟨hunavailable, hafter, hlimit, hid⟩ := hplain
  unfold framesResponse
  cases canRuntime with
  | none => exact says_error (.inl ⟨rfl, rfl⟩) hunavailable
  | some runtime =>
    dsimp only
    cases hafterIs : numberParameter (parseQuery req.path) (bytes "after") 0 with
    | none => exact says_error (.inr (.inl rfl)) hafter
    | some after =>
      cases hlimitIs : numberParameter (parseQuery req.path) (bytes "limit") 50 with
      | none => exact says_error (.inr (.inl rfl)) hlimit
      | some limit =>
        dsimp only
        split_ifs with hrange
        · exact says_error (.inr (.inl rfl)) hlimit
        · have hlimits : 0 < limit ∧ limit ≤ 1000 := by omega
          cases htext : parseQuery req.path (bytes "id") with
          | none =>
            have hasks : Asks (parseQuery req.path) after none limit :=
              ⟨hafterIs, hlimitIs, hlimits, by rw [htext]; rfl, fun n hn => absurd hn (Option.not_mem_none n)⟩
            have hframes := says_frames (hprint runtime rfl) hroute hasks
            rw [Option.map_none] at hframes
            exact hframes
          | some text =>
            dsimp only
            cases hidIs : parseUnsigned text with
            | none => exact says_error (.inr (.inl rfl)) hid
            | some id =>
              dsimp only
              split_ifs with hlarge
              · exact says_error (.inr (.inl rfl)) hid
              · have hasks : Asks (parseQuery req.path) after (some id) limit :=
                  ⟨hafterIs, hlimitIs, hlimits, by rw [htext, Option.map_some, hidIs]; rfl,
                    fun n hn => Option.mem_some.mp hn ▸ not_lt.mp hlarge⟩
                have hframes := says_frames (hprint runtime rfl) hroute hasks
                rw [Option.map_some] at hframes
                exact hframes

theorem says_statsResponse (hprint : ∀ runtime, canRuntime = some runtime → Printable runtime)
    (hroute : pathWithoutQuery req.path = bytes "/api/can/stats") : Says req canRuntime (statsResponse canRuntime) := by
  unfold statsResponse
  cases canRuntime with
  | none => exact says_error (.inl ⟨rfl, rfl⟩) (by decide +kernel)
  | some runtime =>
    obtain ⟨-, ⟨rate, hrate⟩, load, hload⟩ := hprint runtime rfl
    exact ⟨_, _, statisticsDocument_text hrate hload, statisticsDocument_said hrate hload,
      .inl ⟨rfl, runtime, rfl, .statistics hroute⟩⟩

theorem says_sendResponse (hroute : pathWithoutQuery req.path = bytes "/api/can/send") :
    Says req canRuntime (sendResponse req.body canRuntime) := by
  unfold sendResponse
  cases canRuntime with
  | none => exact says_error (.inl ⟨rfl, rfl⟩) (by decide +kernel)
  | some runtime =>
    dsimp only
    cases parseSendBody req.body with
    | none => exact says_error (.inr (.inl rfl)) (by decide +kernel)
    | some described =>
      obtain ⟨id, isExtended, data⟩ := described
      dsimp only
      split_ifs
      · exact says_error (.inr (.inr rfl)) (by decide +kernel)
      · exact ⟨_, _, sentDocument_said.1, sentDocument_said.2, .inl ⟨rfl, runtime, rfl, .sent hroute⟩⟩

/-- **What the routes say**: every answer that is filled in for one of the four routes is the
text of one tree, which says what was asked for or what is wrong. -/
theorem said_of_filledIn {env : Environment} {resp : HttpResponse} (hapi : IsApi req) (hfilled : filledIn req env = some resp)
    (hprint : ∀ runtime, env.canRuntime = some runtime → Printable runtime) : Says req env.canRuntime resp := by
  have hroutes : bytes "/api/can/stats" ≠ bytes "/api/can/frames" ∧ bytes "/api/can/stream" ≠ bytes "/api/can/frames" ∧
      bytes "/api/can/stream" ≠ bytes "/api/can/stats" := by decide +kernel
  obtain ⟨hstats, hstream, hstream'⟩ := hroutes
  unfold filledIn at hfilled
  rcases hapi with ⟨hget, hroute⟩ | ⟨hpost, hroute⟩
  · simp only [List.mem_cons, List.not_mem_nil, or_false] at hroute
    rcases hroute with hroute | hroute | hroute
    · simp only [hget, hroute, true_and, if_true, Option.some.injEq] at hfilled
      exact hfilled ▸ says_framesResponse hprint hroute
    · simp only [hget, hroute, true_and, if_true, if_neg hstats, Option.some.injEq] at hfilled
      exact hfilled ▸ says_statsResponse hprint hroute
    · simp only [hget, hroute, true_and, if_true, if_neg hstream, if_neg hstream'] at hfilled
      cases hruntime : env.canRuntime with
      | none =>
        rw [hruntime] at hfilled
        obtain rfl := Option.some.inj hfilled
        exact says_error (.inl ⟨rfl, rfl⟩) (by decide +kernel)
      | some runtime =>
        rw [hruntime] at hfilled
        cases hafter : numberParameter (parseQuery req.path) (bytes "after") 0 with
        | none =>
          rw [hafter] at hfilled
          obtain rfl := Option.some.inj hfilled
          exact says_error (.inr (.inl rfl)) (by decide +kernel)
        | some after =>
          rw [hafter] at hfilled
          cases hfilled
  · simp only [hpost, hroute, true_and, if_true, reduceCtorEq, false_and, if_false, Option.some.injEq] at hfilled
    exact hfilled ▸ says_sendResponse hroute

end

end CanMonitor.Connection
