import CanMonitor.Connection.Encoding
import CanMonitor.Library.Text
import Mathlib.Data.List.Nodup

/-!
# The clients of the stress test

`receive_client` in `sse_stress.py` and `receive_sse` in `sse_benchmark.py` read an event stream
line by line. A line that begins with `data: ` is taken for the JSON of a frame; what it says of
the frames with one id is recorded.

## The model

A `Turn` is what the outside answers in one turn of the loop: whether the deadline has passed,
what `readline` does, and the time when the line is there. `Reads` says that `readline` returns
the lines of what there is to be read, one after the other, the last one without its line feed
when the connection is closed in the middle of it. `decode`, `json.loads` and `int` are
parameters (`Python`), and `Python.Documented` is what is relied on.

Latencies are in nanoseconds, before the division. What comes before the loop, the connection
and the barrier, is left out.

## What is proved

* `receiveLoop_lines` — of a stream that is cut off anywhere, the frames recorded are the
  beginning of the frames with the id, in order, each with the time of the turn that read its
  line (`Turn.Brings`).
-/

namespace CanMonitor.SseClient

open CanMonitor.Library CanMonitor.Library.Json CanMonitor.Can CanMonitor.Connection

/-! ### The client -/

/-- A `str`. -/
abbrev Text := List Char

/-- Bytes below 128 as characters. -/
def ascii (text : Bytes) : Text := text.map fun c => Char.ofNat c.toNat

/-- `str.isspace`. -/
def isspace (c : Char) : Bool :=
  let n := c.toNat
  (9 ≤ n && n ≤ 13) || (28 ≤ n && n ≤ 32) || n == 0x85 || n == 0xA0 || n == 0x1680 || (0x2000 ≤ n && n ≤ 0x200A) ||
    n == 0x2028 || n == 0x2029 || n == 0x202F || n == 0x205F || n == 0x3000

/-- `str.strip`. -/
def strip (text : Text) : Text := trim isspace text

/-- What the client calls. -/
structure Python where
  /-- `line.decode("utf-8", errors="replace")`. -/
  decode : Bytes → Text
  /-- `json.loads`, and `none` for a `JSONDecodeError`. -/
  loads : Text → Option Value
  /-- `int`, and `none` when it raises. -/
  int : Value → Option ℤ

/-- What a client records. -/
structure Result where
  sequences : List ℤ := []
  /-- `latencies_ms`, before the division. -/
  latencies : List ℤ := []
  arrivalNs : List ℤ := []
  /-- Was there an exception? -/
  error : Bool := false
  deriving DecidableEq

/-- What `readline` does. -/
inductive Readline where
  | line (bytes : Bytes)
  | timedOut
  | failed

/-- What the outside answers in a turn of the loop. -/
structure Turn where
  /-- `time.monotonic() >= deadline`. -/
  late : Bool
  line : Readline
  /-- `time.monotonic_ns()`. -/
  arrivalNs : ℤ

/-- `frame.get(name, default)` and `int` of it. Of members of one name the last counts; what is
not an object has no `get`. -/
def Python.get (py : Python) (frame : Value) (name : Bytes) (default : ℤ) : Option ℤ :=
  match frame with
  | .object members =>
    match members.list.reverse.find? (·.1 = name) with
    | none => some default
    | some (_, value) => py.int value
  | .emptyObject _ => some default
  | _ => none

/-- What a turn does with a line. An exception keeps what was recorded before it. -/
def handleLine (py : Python) (canId : ℤ) (line : Bytes) (arrivalNs : ℤ) (result : Result) : Except Result Result :=
  let text := strip (py.decode line)
  if ascii (bytes "data: ") <+: text then
    match py.loads (text.drop 6) with
    | none => .ok result
    | some frame =>
      match py.get frame (bytes "id") (-1) with
      | none => .error result
      | some id =>
        if id = canId then
          match py.get frame (bytes "timestamp_ns") 0 with
          | none => .error result
          | some timestampNs =>
            let result := if 0 < timestampNs then
                { result with latencies := result.latencies ++ [max 0 (arrivalNs - timestampNs)] }
              else result
            match py.get frame (bytes "sequence") 0 with
            | none => .error result
            | some sequence => .ok { result with
                sequences := result.sequences ++ [sequence]
                arrivalNs := result.arrivalNs ++ [arrivalNs] }
        else .ok result
  else .ok result

/-- The loop, which goes on while `progress` is below `count`; with no turns left it has not ended. -/
def receiveLoop (py : Python) (progress : Result → ℕ) (canId : ℤ) (count : ℕ) (result : Result) : List Turn → Result
  | [] => result
  | turn :: turns =>
    if count ≤ progress result then result
    else if turn.late then result
    else
      match turn.line with
      | .timedOut => receiveLoop py progress canId count result turns
      | .failed => { result with error := true }
      | .line [] => result
      | .line (c :: line) =>
        match handleLine py canId (c :: line) turn.arrivalNs result with
        | .ok result => receiveLoop py progress canId count result turns
        | .error result => { result with error := true }

/-- `receive_client`, from its loop on. -/
def receiveClient (py : Python) (canId : ℤ) (count : ℕ) (turns : List Turn) : Result :=
  receiveLoop py (·.sequences.length) canId count {} turns

/-- `receive_sse`, from its loop on. -/
def receiveSse (py : Python) (canId : ℤ) (count : ℕ) (turns : List Turn) : Result :=
  receiveLoop py (·.latencies.length) canId count {} turns

/-! ### What is relied on -/

/-- A value as there are in the JSON of frames. -/
inductive Flat : Value → Prop where
  | number (n : ℕ) (h : n < 2 ^ 64) : Flat (natural n)
  | string (t : Bytes) (h : IsPlain t) (hascii : ∀ c ∈ t, c < 128) : Flat (.string (.plain t))
  | truth (b : Bool) : Flat (.bool b)
  | numbers (ns : List ℕ) (h : ∀ n ∈ ns, n < 2 ^ 64) : Flat (.ofList (ns.map natural))

/-- An object of flat values. -/
inductive FlatObject : Value → Prop where
  | mk (m : Bytes × Value) (ms : List (Bytes × Value))
      (h : ∀ x ∈ m :: ms, IsPlain x.1 ∧ (∀ c ∈ x.1, c < 128) ∧ Flat x.2) : FlatObject (.object (.ofList m ms))

/-- What is documented of Python's strings and of its `json`. -/
structure Python.Documented (py : Python) : Prop where
  decode : ∀ line, (∀ c ∈ line, c < 128) → py.decode line = ascii line
  loads : ∀ v, FlatObject v → py.loads (ascii v.text) = some v
  /-- A text that is cut off is not JSON. -/
  loads_cut : ∀ v, FlatObject v → ∀ t, t <+: v.text → t ≠ v.text → py.loads (ascii t) = none
  int : ∀ n : ℕ, n < 2 ^ 64 → py.int (natural n) = some (n : ℤ)

/-- `readline` returns the lines of the bytes. After a time-out Python's socket answers with
failures only; here lines may still come. -/
inductive Reads : Bytes → List Turn → Prop where
  | nil (p : Bytes) : Reads p []
  | timedOut {p : Bytes} {turn : Turn} {turns : List Turn} (hline : turn.line = .timedOut) (h : Reads p turns) :
      Reads p (turn :: turns)
  | failed {p : Bytes} {turn : Turn} {turns : List Turn} (hline : turn.line = .failed) (h : Reads p turns) :
      Reads p (turn :: turns)
  | line {l p : Bytes} {turn : Turn} {turns : List Turn} (hl : (10 : UInt8) ∉ l) (hline : turn.line = .line (l ++ [10]))
      (h : Reads p turns) : Reads (l ++ 10 :: p) (turn :: turns)
  /-- The end of the connection. -/
  | last {l : Bytes} {turn : Turn} {turns : List Turn} (hl : (10 : UInt8) ∉ l) (hline : turn.line = .line l)
      (h : Reads [] turns) : Reads l (turn :: turns)

/-! ### Text -/

theorem ascii_append (s t : Bytes) : ascii (s ++ t) = ascii s ++ ascii t := List.map_append

theorem ascii_injective : Function.Injective ascii := by
  have hchar : ∀ c d : UInt8, Char.ofNat c.toNat = Char.ofNat d.toNat → c = d := by
    intro c d h
    have hvalid : ∀ c : UInt8, (Char.ofNat c.toNat).toNat = c.toNat := forall_byte (by decide +kernel)
    have hnat := congrArg Char.toNat h
    rw [hvalid, hvalid] at hnat
    exact UInt8.toNat_inj.mp hnat
  exact List.map_injective_iff.mpr hchar

/-- A beginning of an ASCII text is the text of a beginning. -/
theorem prefix_ascii {t : Text} {s : Bytes} (h : t <+: ascii s) : ∃ u, u <+: s ∧ t = ascii u := by
  obtain ⟨u, hu, rfl⟩ := List.prefix_map_iff.mp h
  exact ⟨u, hu, rfl⟩

/-- A byte that is neither a space nor a control character. -/
def Visible (c : UInt8) : Prop := 33 ≤ c ∧ c < 127

instance : DecidablePred Visible := fun c => inferInstanceAs (Decidable (33 ≤ c ∧ c < 127))

theorem Visible.isspace : ∀ c : UInt8, Visible c → isspace (Char.ofNat c.toNat) = false := forall_byte (by decide +kernel)

theorem Visible.ascii {c : UInt8} (h : Visible c) : c < 128 := UInt8.lt_trans h.2 (by decide)

/-- The line feed at the end of a line is cut off. -/
theorem strip_line {l : Bytes} (hhead : ∀ c ∈ l.head?, Visible c) (hlast : ∀ c ∈ l.getLast?, Visible c) {t : Bytes}
    (ht : t = [] ∨ t = [10]) : strip (ascii (l ++ t)) = ascii l := by
  rw [ascii_append]
  refine trim_append (fun a ha => ?_) (fun a ha => ?_) (fun a ha => ?_)
  · rw [ascii, List.head?_map, Option.mem_map] at ha
    obtain ⟨c, hc, rfl⟩ := ha
    exact Visible.isspace c (hhead c hc)
  · rw [ascii, List.getLast?_map, Option.mem_map] at ha
    obtain ⟨c, hc, rfl⟩ := ha
    exact Visible.isspace c (hlast c hc)
  · rcases ht with rfl | rfl
    · cases ha
    · rw [List.mem_singleton.mp ha]
      decide

/-- What is left of a text that begins with no space is a beginning of it. -/
theorem strip_beginning {l : Bytes} (hhead : ∀ c ∈ l.head?, Visible c) : strip (ascii l) <+: ascii l := by
  have hdrop : (ascii l).dropWhile isspace = ascii l := dropWhile_eq_self fun a ha => by
    rw [ascii, List.head?_map, Option.mem_map] at ha
    obtain ⟨c, hc, rfl⟩ := ha
    exact Visible.isspace c (hhead c hc)
  rw [strip, trim, hdrop]
  exact List.rdropWhile_prefix _ _

open Classical in
/-- Enough of a `json` module: it reads flat objects and nothing else. -/
noncomputable def plainPython : Python where
  decode := ascii
  loads text := if h : ∃ v, FlatObject v ∧ ascii v.text = text then some h.choose else none
  int := Value.integer

/-- This Python does what is documented: an object has one text, and the text of none goes on as
that of another. -/
theorem documented_plain : plainPython.Documented := by
  refine ⟨fun _ _ => rfl, fun v hv => ?_, fun v hv t ht hne => dif_neg fun ⟨v', hv', htext⟩ => ?_, fun n _ =>
    Number.ofNat_integer n⟩
  · have hex : ∃ v', FlatObject v' ∧ ascii v'.text = ascii v.text := ⟨v, hv, rfl⟩
    have hsame : (⟨.none, hex.choose, .none⟩ : Document).text = (⟨.none, v, .none⟩ : Document).text := by
      rw [Document.text, Document.text, ascii_injective hex.choose_spec.2]
    have hvalue := congrArg Document.value (Document.text_injective hsame)
    simp only [plainPython, dif_pos hex]
    exact congrArg some hvalue
  · obtain ⟨rest, hrest⟩ := ht
    rw [← ascii_injective htext] at hrest hne
    cases hv with
    | mk m ms _ =>
      cases hv' with
      | mk m' ms' _ =>
        simp only [Value.text, List.cons_append, List.append_assoc, List.cons.injEq, true_and] at hrest
        have hsame := (Members.unique _ _ hrest).1
        rw [hsame] at hne
        exact hne rfl

/-! ### The JSON of a frame -/

theorem upperHex_visible (n : ℕ) : ∀ c ∈ upperHex n, Visible c := by
  have hdigit : ∀ c : UInt8, isDigit 16 c = true → Visible c := forall_byte (by decide +kernel)
  exact fun c hc => hdigit c ((upperHex_spec n).2.1 c hc)

/-- There are no spaces in the JSON of a frame. -/
theorem frameToJson_visible (frame : CanFrame) : ∀ c ∈ frameToJson frame, Visible c := by
  have hdecimal : ∀ n, ∀ c ∈ decimal n, Visible c := fun n c hc => by
    have hdigit : ∀ c : UInt8, isDigit 10 c = true → Visible c := forall_byte (by decide +kernel)
    exact hdigit c ((isDecimal_decimal n).2.1 c hc)
  have hhex : ∀ c ∈ upperHex frame.id.toNat, Visible c := upperHex_visible _
  have hdata : ∀ c ∈ commaSeparated ((frame.data.toList.take frame.dlc.toNat).map fun byte => decimal byte.toNat),
      Visible c := by
    intro c hc
    rcases mem_commaSeparated hc with rfl | ⟨t, ht, hc⟩
    · decide
    · obtain ⟨byte, -, rfl⟩ := List.mem_map.mp ht
      exact hdecimal _ c hc
  have hbool : ∀ c ∈ if frame.isExtended then bytes "true" else bytes "false", Visible c := by
    cases frame.isExtended <;> decide +kernel
  intro c hc
  simp only [frameToJson, List.mem_append, List.mem_cons] at hc
  have hkeys : ∀ c ∈ bytes "\"sequence\":" ++ bytes ",\"timestamp_ns\":" ++ bytes ",\"id\":" ++ bytes ",\"id_hex\":\"0x" ++
      bytes "\",\"extended\":" ++ bytes ",\"dlc\":" ++ bytes ",\"data\":[" ++ bytes "]" ++ [123, 125], Visible c := by
    decide +kernel
  simp only [List.mem_append, List.mem_cons] at hkeys
  grind

theorem flatObject_frame (frame : CanFrame) : FlatObject (frameValue frame) := by
  have hlarge : ∀ {n}, n < 2 ^ 32 → n < 2 ^ 64 := fun h => h.trans (by decide)
  refine .mk _ _ fun x hx => ⟨(frame_names frame).1 x hx, ?_, ?_⟩
  · have hnames : ∀ name ∈ [bytes "sequence", bytes "timestamp_ns", bytes "id", bytes "id_hex", bytes "extended",
        bytes "dlc", bytes "data"], ∀ c ∈ name, c < 128 := by decide +kernel
    exact hnames x.1 (List.mem_map_of_mem (f := Prod.fst) hx)
  · simp only [laterMembers, List.mem_cons, List.not_mem_nil, or_false] at hx
    rcases hx with rfl | rfl | rfl | rfl | rfl | rfl | rfl
    · exact .number _ frame.sequence.toNat_lt
    · exact .number _ frame.timestampNs.toNat_lt
    · exact .number _ (hlarge frame.id.toNat_lt)
    · refine .string _ (plain_hex _) fun c hc => ?_
      rcases List.mem_append.mp hc with hc | hc
      · have hmark : ∀ c ∈ bytes "0x", c < 128 := by decide +kernel
        exact hmark c hc
      · exact (upperHex_visible _ c hc).ascii
    · exact .truth _
    · exact .number _ (hlarge (frame.dlc.toNat_lt.trans (by decide)))
    · have hmap : ((frame.data.toList.take frame.dlc.toNat).map fun byte => natural byte.toNat) =
          ((frame.data.toList.take frame.dlc.toNat).map fun byte => byte.toNat).map natural := by
        rw [List.map_map]
        rfl
      rw [hmap]
      refine .numbers _ fun n hn => ?_
      obtain ⟨byte, -, rfl⟩ := List.mem_map.mp hn
      exact hlarge (byte.toNat_lt.trans (by decide))

/-- A name that is there once is found. -/
theorem Python.get_of_mem (py : Python) {m : Bytes × Value} {ms : List (Bytes × Value)} (h : ∀ x ∈ m :: ms, IsPlain x.1)
    (hdistinct : ((m :: ms).map (·.1)).Nodup) {name : Bytes} {v : Value} (hmem : (name, v) ∈ m :: ms) (default : ℤ) :
    py.get (.object (.ofList m ms)) name default = py.int v := by
  have hreverse : ((m :: ms).reverse.map Prod.fst).Nodup := by
    rw [List.map_reverse, List.nodup_reverse]
    exact hdistinct
  have hfind := find?_of_nodup Prod.fst hreverse (List.mem_reverse.mpr hmem)
  rw [Python.get, Members.ofList_list h, hfind]

/-- What a frame says. -/
theorem Python.get_frame {py : Python} (hpy : py.Documented) (frame : CanFrame) :
    py.get (frameValue frame) (bytes "id") (-1) = some (frame.id.toNat : ℤ) ∧
      py.get (frameValue frame) (bytes "timestamp_ns") 0 = some (frame.timestampNs.toNat : ℤ) ∧
      py.get (frameValue frame) (bytes "sequence") 0 = some (frame.sequence.toNat : ℤ) := by
  obtain ⟨hplain, hdistinct⟩ := frame_names frame
  have hget : ∀ (name : Bytes) (n : ℕ) (default : ℤ), n < 2 ^ 64 →
      (name, natural n) ∈ (bytes "sequence", natural frame.sequence.toNat) :: laterMembers frame →
        py.get (frameValue frame) name default = some (n : ℤ) := fun name n default hn hmem => by
    rw [frameValue, py.get_of_mem hplain hdistinct hmem, hpy.int n hn]
  exact ⟨hget _ _ _ (frame.id.toNat_lt.trans (by decide)) (by simp [laterMembers]),
    hget _ _ _ frame.timestampNs.toNat_lt (by simp [laterMembers]),
    hget _ _ _ frame.sequence.toNat_lt (by simp)⟩

/-! ### Lines -/

/-- A frame is recorded. -/
def record (result : Result) (x : CanFrame × ℤ) : Result :=
  { result with
    sequences := result.sequences ++ [(x.1.sequence.toNat : ℤ)]
    latencies := result.latencies ++
      (if 0 < x.1.timestampNs.toNat then [max 0 (x.2 - (x.1.timestampNs.toNat : ℤ))] else [])
    arrivalNs := result.arrivalNs ++ [x.2] }

/-- What is recorded of a line. -/
def recordLine (canId : ℤ) (o : Option CanFrame) (arrivalNs : ℤ) (result : Result) : Result :=
  match o with
  | none => result
  | some frame => if (frame.id.toNat : ℤ) = canId then record result (frame, arrivalNs) else result

/-- The line of a frame. -/
def dataLine (frame : CanFrame) : Bytes := bytes "data: " ++ frameToJson frame

/-- The turn reads the line of the frame, with its line feed or without, at the time that is recorded. -/
def Turn.Brings (turn : Turn) (x : CanFrame × ℤ) : Prop :=
  turn.arrivalNs = x.2 ∧ (turn.line = .line (dataLine x.1 ++ [10]) ∨ turn.line = .line (dataLine x.1))

/-- A line that is the frame `o`, or none, whole with its end or without, and nothing when it is cut off. -/
structure IsLine (py : Python) (canId : ℤ) (l : Bytes) (o : Option CanFrame) : Prop where
  no_feed : (10 : UInt8) ∉ l
  spelled : ∀ frame ∈ o, l = dataLine frame
  whole : ∀ t, t = [] ∨ t = [10] → ∀ arrivalNs result,
    handleLine py canId (l ++ t) arrivalNs result = .ok (recordLine canId o arrivalNs result)
  cut : ∀ t, t <+: l → t ≠ l → ∀ arrivalNs result, handleLine py canId t arrivalNs result = .ok result

/-- A line without data is passed over. -/
theorem handleLine_other {py : Python} {line : Bytes} (h : ¬ ascii (bytes "data: ") <+: strip (py.decode line))
    (canId arrivalNs : ℤ) (result : Result) : handleLine py canId line arrivalNs result = .ok result := if_neg h

/-- A line of another kind. -/
theorem isLine_other {py : Python} (hpy : py.Documented) (canId : ℤ) {l : Bytes} (hhead : ∀ c ∈ l.head?, Visible c)
    (hlast : ∀ c ∈ l.getLast?, Visible c) (hascii : ∀ c ∈ l, c < 128 ∧ c ≠ 10) (hdata : ¬ bytes "data: " <+: l) :
    IsLine py canId l none := by
  have hprefix : ¬ ascii (bytes "data: ") <+: ascii l := fun h => by
    obtain ⟨u, hu, heq⟩ := prefix_ascii h
    exact hdata (ascii_injective heq ▸ hu)
  refine ⟨fun h => (hascii 10 h).2 rfl, fun frame hframe => absurd hframe (Option.not_mem_none frame),
    fun t ht arrivalNs result => ?_, fun t ht _ arrivalNs result => ?_⟩
  · have hdecode : py.decode (l ++ t) = ascii (l ++ t) := hpy.decode _ fun c hc => by
      rcases List.mem_append.mp hc with hc | hc
      · exact (hascii c hc).1
      · rcases ht with rfl | rfl
        · cases hc
        · rw [List.mem_singleton.mp hc]
          decide
    refine handleLine_other ?_ canId arrivalNs result
    rwa [hdecode, strip_line hhead hlast ht]
  · have hdecode : py.decode t = ascii t := hpy.decode _ fun c hc => (hascii c (ht.subset hc)).1
    have hhead' : ∀ c ∈ t.head?, Visible c := fun c hc => hhead c (by
      obtain ⟨u, rfl⟩ := ht
      rw [List.head?_append, hc]
      rfl)
    refine handleLine_other (fun h => hprefix ?_) canId arrivalNs result
    rw [hdecode] at h
    exact h.trans ((strip_beginning hhead').trans (ht.map _))

theorem drop_data (j : Bytes) : (ascii (bytes "data: " ++ j)).drop 6 = ascii j := by
  have hlength : (ascii (bytes "data: ")).length = 6 := by decide +kernel
  rw [ascii_append, ← hlength, List.drop_left]

theorem starts_data (j : Bytes) : ascii (bytes "data: ") <+: ascii (bytes "data: " ++ j) := by
  rw [ascii_append]
  exact List.prefix_append _ _

/-- A line with a frame. -/
theorem handleLine_frame {py : Python} (hpy : py.Documented) {frame : CanFrame} {line : Bytes}
    (h : strip (py.decode line) = ascii (bytes "data: " ++ frameToJson frame)) (canId arrivalNs : ℤ) (result : Result) :
    handleLine py canId line arrivalNs result = .ok (recordLine canId (some frame) arrivalNs result) := by
  obtain ⟨hid, htimestamp, hsequence⟩ := Python.get_frame hpy frame
  have hloads := hpy.loads _ (flatObject_frame frame)
  rw [frameValue_text] at hloads
  simp only [handleLine, h, if_pos (starts_data _), drop_data, hloads, hid, htimestamp, hsequence, recordLine]
  by_cases hmatch : (frame.id.toNat : ℤ) = canId
  · simp only [if_pos hmatch, record]
    by_cases hpositive : 0 < frame.timestampNs.toNat
    · simp only [if_pos hpositive, if_pos (Int.natCast_pos.mpr hpositive)]
    · simp only [if_neg hpositive, if_neg (fun h => hpositive (Int.natCast_pos.mp h)), List.append_nil]
  · simp only [if_neg hmatch]

/-- The line of a frame. -/
theorem isLine_frame {py : Python} (hpy : py.Documented) (canId : ℤ) (frame : CanFrame) :
    IsLine py canId (dataLine frame) (some frame) := by
  unfold dataLine
  have hvisible := frameToJson_visible frame
  have hascii : ∀ c ∈ bytes "data: " ++ frameToJson frame, c < 128 ∧ c ≠ 10 := by
    have hmark : ∀ c ∈ bytes "data: ", c < 128 ∧ c ≠ 10 := by decide +kernel
    intro c hc
    rcases List.mem_append.mp hc with hc | hc
    · exact hmark c hc
    · refine ⟨(hvisible c hc).ascii, fun h => ?_⟩
      rw [h] at hc
      exact absurd (hvisible 10 hc).1 (by decide)
  have hhead : ∀ c ∈ (bytes "data: " ++ frameToJson frame).head?, Visible c := by
    intro c hc
    obtain rfl : 100 = c := Option.some.inj hc
    decide
  have hlast : ∀ c ∈ (bytes "data: " ++ frameToJson frame).getLast?, Visible c := by
    intro c hc
    obtain ⟨before, hend⟩ : ∃ before, frameToJson frame = before ++ [125] := ⟨_, rfl⟩
    rw [hend, ← List.append_assoc, List.getLast?_concat] at hc
    obtain rfl : 125 = c := Option.some.inj hc
    decide
  refine ⟨fun h => (hascii 10 h).2 rfl, fun other hother => Option.mem_some.mp hother ▸ rfl,
    fun t ht arrivalNs result => ?_, fun t ht hne _ result => ?_⟩
  · have hdecode : py.decode (bytes "data: " ++ frameToJson frame ++ t) = ascii (bytes "data: " ++ frameToJson frame ++ t) :=
      hpy.decode _ fun c hc => by
        rcases List.mem_append.mp hc with hc | hc
        · exact (hascii c hc).1
        · rcases ht with rfl | rfl
          · cases hc
          · rw [List.mem_singleton.mp hc]
            decide
    exact handleLine_frame hpy (by rw [hdecode, strip_line hhead hlast ht]) canId arrivalNs result
  · have hdecode : py.decode t = ascii t := hpy.decode _ fun c hc => (hascii c (ht.subset hc)).1
    have hhead' : ∀ c ∈ t.head?, Visible c := fun c hc => hhead c (by
      obtain ⟨u, hu⟩ := ht
      rw [← hu, List.head?_append, hc]
      rfl)
    obtain ⟨u, hu, hstrip⟩ := prefix_ascii (strip_beginning hhead')
    by_cases hdata : ascii (bytes "data: ") <+: strip (py.decode t)
    · -- what is after the mark is cut off before the end of the JSON
      rw [hdecode, hstrip] at hdata
      obtain ⟨mark, ⟨j, rfl⟩, hmark⟩ := prefix_ascii hdata
      obtain rfl := ascii_injective hmark
      have hj : j <+: (frameValue frame).text := by
        rw [frameValue_text]
        exact (List.prefix_append_right_inj _).mp (hu.trans ht)
      have hshort : j ≠ (frameValue frame).text := fun heq => by
        rw [heq, frameValue_text] at hu
        exact hne (ht.eq_of_length_le hu.length_le)
      have hloads := hpy.loads_cut _ (flatObject_frame frame) j hj hshort
      simp only [handleLine, hdecode, hstrip, if_pos (starts_data j), drop_data, hloads]
    · exact handleLine_other hdata canId _ result

/-! ### Streams -/

/-- The frames with an id. -/
def withId (canId : ℤ) (frames : List CanFrame) : List CanFrame := frames.filter fun frame => (frame.id.toNat : ℤ) = canId

/-- Lines as they are sent. -/
def sentLines (ls : List (Bytes × Option CanFrame)) : Bytes := ls.flatMap fun l => l.1 ++ [10]

/-- The line that is read from a beginning of lines is the first of them. -/
theorem first_line {l p : Bytes} (hl : (10 : UInt8) ∉ l) {ls : List (Bytes × Option CanFrame)}
    (hls : ∀ x ∈ ls, (10 : UInt8) ∉ x.1) (h : l ++ 10 :: p <+: sentLines ls) :
    ∃ o ls', ls = (l, o) :: ls' ∧ p <+: sentLines ls' := by
  cases ls with
  | nil =>
    have hlength := h.length_le
    simp [sentLines] at hlength
  | cons x ls =>
    obtain ⟨rest, hrest⟩ := h
    have hsplit : l ++ 10 :: (p ++ rest) = x.1 ++ 10 :: sentLines ls := by
      simpa [sentLines] using hrest
    have hfeed : ∀ {l : Bytes}, (10 : UInt8) ∉ l → ∀ c ∈ l, (c != 10) = true := fun hl c hc =>
      bne_iff_ne.mpr fun heq => hl (heq ▸ hc)
    obtain ⟨rfl, htail⟩ := run_unique (p := (· != 10)) (hfeed hl) (hfeed (hls x List.mem_cons_self)) (by simp) (by simp) hsplit
    exact ⟨x.2, ls, rfl, rest, (List.cons.inj htail).2⟩

/-- What is read without a line feed is a beginning of the first line. -/
theorem last_line {l : Bytes} (hl : (10 : UInt8) ∉ l) (hne : l ≠ []) {ls : List (Bytes × Option CanFrame)}
    (h : l <+: sentLines ls) : ∃ x ls', ls = x :: ls' ∧ l <+: x.1 := by
  cases ls with
  | nil => exact absurd (List.prefix_nil.mp h) hne
  | cons x ls =>
    refine ⟨x, ls, rfl, ?_⟩
    have hsplit : l <+: x.1 ++ ([10] ++ sentLines ls) := by simpa [sentLines] using h
    rcases List.prefix_or_prefix_of_prefix hsplit (List.prefix_append _ _) with hle | ⟨rest, rfl⟩
    · exact hle
    · cases rest with
      | nil => simp
      | cons c rest =>
        have hc := (List.prefix_append_right_inj _).mp hsplit
        rw [List.singleton_append, List.cons_prefix_cons] at hc
        exact absurd (hc.1 ▸ List.mem_append_right _ List.mem_cons_self) hl

/-- What a loop has recorded of these frames: some of the first, each at the time of the turn that
read its line, and an error only if reading failed. -/
structure Kept (canId : ℤ) (frames : List CanFrame) (turns : List Turn) (result result' : Result)
    (xs : List (CanFrame × ℤ)) : Prop where
  eq : result' = { xs.foldl record result with error := result'.error }
  frames : xs.map Prod.fst <+: withId canId frames
  timed : ∃ ts, List.Sublist ts turns ∧ List.Forall₂ Turn.Brings ts xs
  error : result'.error = true → result.error = true ∨ ∃ turn ∈ turns, turn.line = .failed

theorem sequences_foldl_record (xs : List (CanFrame × ℤ)) (result : Result) :
    (xs.foldl record result).sequences = result.sequences ++ xs.map fun x => (x.1.sequence.toNat : ℤ) := by
  induction xs generalizing result with
  | nil => exact (List.append_nil _).symm
  | cons x xs ih =>
    rw [List.foldl_cons, ih, record, List.append_assoc]
    rfl

/-- How long a frame took, from its time stamp to the turn that read its line. -/
def latency (x : CanFrame × ℤ) : ℤ := max 0 (x.2 - (x.1.timestampNs.toNat : ℤ))

theorem latencies_foldl_record (xs : List (CanFrame × ℤ)) (result : Result) :
    (xs.foldl record result).latencies =
      result.latencies ++ (xs.filter fun x => 0 < x.1.timestampNs.toNat).map latency := by
  induction xs generalizing result with
  | nil => exact (List.append_nil _).symm
  | cons x xs ih =>
    rw [List.foldl_cons, ih, record, List.append_assoc]
    by_cases hpositive : 0 < x.1.timestampNs.toNat
    · rw [if_pos hpositive, List.filter_cons_of_pos (by simpa using hpositive)]
      rfl
    · rw [if_neg hpositive, List.filter_cons_of_neg (by simpa using hpositive), List.nil_append]

/-- A loop that ends has recorded nothing more. -/
theorem kept_self (canId : ℤ) (frames : List CanFrame) (turns : List Turn) (result : Result) :
    Kept canId frames turns result result [] :=
  ⟨rfl, List.nil_prefix, ⟨[], List.nil_sublist turns, .nil⟩, .inl⟩

theorem Kept.turn {canId : ℤ} {frames : List CanFrame} {turns : List Turn} {result result' : Result}
    {xs : List (CanFrame × ℤ)} (h : Kept canId frames turns result result' xs) (turn : Turn) :
    Kept canId frames (turn :: turns) result result' xs := by
  obtain ⟨ts, hts, hbrings⟩ := h.timed
  exact ⟨h.eq, h.frames, ⟨ts, hts.cons turn, hbrings⟩,
    fun he => (h.error he).imp_right fun ⟨t, ht, hline⟩ => ⟨t, List.mem_cons_of_mem _ ht, hline⟩⟩

/-- The loop goes on after a line. -/
theorem Kept.line {canId : ℤ} {o : Option CanFrame} {frames : List CanFrame} {turns : List Turn} {turn : Turn}
    {result result' : Result} {xs : List (CanFrame × ℤ)}
    (h : Kept canId frames turns (recordLine canId o turn.arrivalNs result) result' xs)
    (hbrings : ∀ frame ∈ o, turn.Brings (frame, turn.arrivalNs)) :
    ∃ xs, Kept canId (o.toList ++ frames) (turn :: turns) result result' xs := by
  cases o with
  | none => exact ⟨xs, h.turn turn⟩
  | some frame =>
    by_cases hid : (frame.id.toNat : ℤ) = canId
    · rw [recordLine, if_pos hid] at h
      refine ⟨(frame, turn.arrivalNs) :: xs, h.eq, ?_, ?_, (h.turn turn).error⟩
      · have hcons : withId canId (frame :: frames) = frame :: withId canId frames :=
          List.filter_cons_of_pos (by simpa using hid)
        rw [Option.toList_some, List.singleton_append, hcons, List.map_cons, List.cons_prefix_cons]
        exact ⟨rfl, h.frames⟩
      · obtain ⟨ts, hts, htimes⟩ := h.timed
        exact ⟨turn :: ts, hts.cons_cons turn, .cons (hbrings frame rfl) htimes⟩
    · rw [recordLine, if_neg hid] at h
      refine ⟨xs, h.eq, ?_, (h.turn turn).timed, (h.turn turn).error⟩
      have hcons : withId canId (frame :: frames) = withId canId frames := List.filter_cons_of_neg (by simpa using hid)
      rw [Option.toList_some, List.singleton_append, hcons]
      exact h.frames

/-- **The loop on a stream that is cut off anywhere**: what is recorded are the first of the frames
with the id, in order, each with the time of the turn that read its line; and there is an error
only if reading failed. -/
theorem receiveLoop_lines {py : Python} {progress : Result → ℕ} {canId : ℤ} {count : ℕ}
    {ls : List (Bytes × Option CanFrame)} (hls : ∀ l ∈ ls, IsLine py canId l.1 l.2) {p : Bytes} (hp : p <+: sentLines ls)
    {turns : List Turn} (hreads : Reads p turns) (result : Result) :
    ∃ xs, Kept canId (ls.filterMap (·.2)) turns result (receiveLoop py progress canId count result turns) xs := by
  induction hreads generalizing ls result with
  | nil p => exact ⟨[], kept_self _ _ _ _⟩
  | @timedOut p turn turns hline h ih =>
    rw [receiveLoop, hline]
    split_ifs
    · exact ⟨[], kept_self _ _ _ _⟩
    · exact ⟨[], kept_self _ _ _ _⟩
    · obtain ⟨xs, hxs⟩ := ih hls hp result
      exact ⟨xs, hxs.turn turn⟩
  | @failed p turn turns hline h ih =>
    rw [receiveLoop, hline]
    split_ifs
    · exact ⟨[], kept_self _ _ _ _⟩
    · exact ⟨[], kept_self _ _ _ _⟩
    · exact ⟨[], rfl, List.nil_prefix, ⟨[], List.nil_sublist _, .nil⟩, fun _ => .inr ⟨turn, List.mem_cons_self, hline⟩⟩
  | @line l p turn turns hl hline h ih =>
    obtain ⟨o, ls', rfl, hp'⟩ := first_line hl (fun x hx => (hls x hx).no_feed) hp
    obtain ⟨c, rest, hcons⟩ := List.exists_cons_of_ne_nil (l := l ++ [10]) (by simp)
    have hwhole := (hls (l, o) List.mem_cons_self).whole [10] (.inr rfl) turn.arrivalNs result
    have hframes : ((l, o) :: ls').filterMap (·.2) = o.toList ++ ls'.filterMap (·.2) := by cases o <;> rfl
    rw [receiveLoop, hline, hcons, hframes]
    split_ifs
    · exact ⟨[], kept_self _ _ _ _⟩
    · exact ⟨[], kept_self _ _ _ _⟩
    · dsimp only at hwhole ⊢
      rw [← hcons, hwhole]
      obtain ⟨xs, hxs⟩ := ih (fun x hx => hls x (List.mem_cons_of_mem _ hx)) hp' (recordLine canId o turn.arrivalNs result)
      have hspelled := (hls (l, o) List.mem_cons_self).spelled
      exact hxs.line fun frame hframe => ⟨rfl, .inl (hspelled frame hframe ▸ hline)⟩
  | @last l turn turns hl hline h ih =>
    rw [receiveLoop, hline]
    split_ifs
    · exact ⟨[], kept_self _ _ _ _⟩
    · exact ⟨[], kept_self _ _ _ _⟩
    · cases hcons : l with
      | nil => exact ⟨[], kept_self _ _ _ _⟩
      | cons c rest =>
        dsimp only
        rw [← hcons]
        obtain ⟨⟨l', o⟩, ls', rfl, hle⟩ := last_line hl (by rw [hcons]; exact List.cons_ne_nil c rest) hp
        have hline' := hls (l', o) List.mem_cons_self
        by_cases heq : l = l'
        · -- the whole line is there, without its end
          have hwhole := hline'.whole [] (.inl rfl) turn.arrivalNs result
          have hframes : ((l', o) :: ls').filterMap (·.2) = o.toList ++ ls'.filterMap (·.2) := by cases o <;> rfl
          rw [List.append_nil, ← heq] at hwhole
          rw [hwhole, hframes]
          obtain ⟨xs, hxs⟩ := ih (fun x hx => hls x (List.mem_cons_of_mem _ hx)) List.nil_prefix
            (recordLine canId o turn.arrivalNs result)
          exact hxs.line fun frame hframe => ⟨rfl, .inr (hline'.spelled frame hframe ▸ heq ▸ hline)⟩
        · rw [hline'.cut l hle heq turn.arrivalNs result]
          obtain ⟨xs, hxs⟩ := ih hls List.nil_prefix result
          exact ⟨xs, hxs.turn turn⟩

/-! ### The lines of the server -/

/-- The lines of what is written to a stream, with the blank one after it. -/
def itemLines : StreamItem → List (Bytes × Option CanFrame)
  | .comment => [(bytes ": heartbeat", none), ([], none)]
  | .event frame => [(bytes "event: can_frame", none), (bytes "id: " ++ decimal frame.sequence.toNat, none),
      (bytes "data: " ++ frameToJson frame, some frame), ([], none)]

/-- The lines after the head of a stream. -/
def streamLines (items : List StreamItem) : List (Bytes × Option CanFrame) :=
  (bytes ": connected", none) :: ([], none) :: items.flatMap itemLines

/-- The head of a stream as a response: `getresponse` reads it. -/
def responseHead : Bytes :=
  bytes "HTTP/1.1 200 OK\r\n" ++ bytes "Content-Type: text/event-stream; charset=utf-8\r\n" ++
    bytes "Cache-Control: no-cache\r\n" ++ bytes "Connection: keep-alive\r\n" ++
    bytes "X-Accel-Buffering: no\r\n" ++ bytes "\r\n"

theorem sentLines_item (item : StreamItem) : sentLines (itemLines item) = item.text := by
  cases item with
  | comment => decide +kernel
  | event frame =>
    have hevent : bytes "event: can_frame\n" = bytes "event: can_frame" ++ [10] := by decide +kernel
    have hline : bytes "\n" = [10] := by decide +kernel
    have hblank : bytes "\n\n" = [10, 10] := by decide +kernel
    simp [sentLines, itemLines, StreamItem.text, frameToSse, hevent, hline, hblank]

theorem sentLines_stream (items : List StreamItem) :
    responseHead ++ sentLines (streamLines items) = sseHead ++ items.flatMap StreamItem.text := by
  have hitems : sentLines (items.flatMap itemLines) = items.flatMap StreamItem.text := by
    rw [sentLines, List.flatMap_assoc]
    exact List.flatMap_congr fun item _ => sentLines_item item
  have hhead : sseHead = responseHead ++ (bytes ": connected" ++ [10] ++ [10]) := by decide +kernel
  rw [← hitems, hhead]
  simp [sentLines, streamLines]

/-- The frames among items. -/
def eventFrames (items : List StreamItem) : List CanFrame :=
  items.filterMap fun
    | .comment => none
    | .event frame => some frame

theorem filterMap_streamLines (items : List StreamItem) : (streamLines items).filterMap (·.2) = eventFrames items := by
  have hitems : (items.flatMap itemLines).filterMap (·.2) = eventFrames items := by
    induction items with
    | nil => rfl
    | cons item items ih =>
      rw [List.flatMap_cons, List.filterMap_append, ih]
      cases item <;> rfl
  exact hitems

theorem isLine_stream {py : Python} (hpy : py.Documented) (canId : ℤ) (items : List StreamItem) :
    ∀ l ∈ streamLines items, IsLine py canId l.1 l.2 := by
  have hblank : IsLine py canId [] none := isLine_other hpy canId (by simp) (by simp) (by simp) (by decide +kernel)
  have hfixed : ∀ l ∈ [bytes ": connected", bytes ": heartbeat", bytes "event: can_frame"],
      (∀ c ∈ l.head?, Visible c) ∧ (∀ c ∈ l.getLast?, Visible c) ∧ (∀ c ∈ l, c < 128 ∧ c ≠ 10) ∧ ¬ bytes "data: " <+: l := by
    decide +kernel
  have hline : ∀ l ∈ [bytes ": connected", bytes ": heartbeat", bytes "event: can_frame"], IsLine py canId l none :=
    fun l hl => isLine_other hpy canId (hfixed l hl).1 (hfixed l hl).2.1 (hfixed l hl).2.2.1 (hfixed l hl).2.2.2
  have hid : ∀ n, IsLine py canId (bytes "id: " ++ decimal n) none := fun n => by
    obtain ⟨hne, hdigits, -⟩ := isDecimal_decimal n
    have hdigit : ∀ c : UInt8, isDigit 10 c = true → Visible c ∧ c < 128 ∧ c ≠ 10 := forall_byte (by decide +kernel)
    have hmark : ∀ c ∈ bytes "id: ", c < 128 ∧ c ≠ 10 := by decide +kernel
    refine isLine_other hpy canId (fun c hc => ?_) (fun c hc => ?_) (fun c hc => ?_) (fun h => ?_)
    · obtain rfl : 105 = c := Option.some.inj hc
      decide
    · rw [List.getLast?_append_of_ne_nil _ hne] at hc
      exact (hdigit c (hdigits c (List.mem_of_mem_getLast? hc))).1
    · exact (List.mem_append.mp hc).elim (hmark c) fun hc => (hdigit c (hdigits c hc)).2
    · exact absurd (List.cons_prefix_cons.mp h).1 (by decide)
  intro l hl
  simp only [streamLines, List.mem_cons, List.mem_flatMap] at hl
  rcases hl with rfl | rfl | ⟨item, -, hl⟩
  · exact hline _ (by simp)
  · exact hblank
  · cases item with
    | comment =>
      simp only [itemLines, List.mem_cons, List.not_mem_nil, or_false] at hl
      rcases hl with rfl | rfl
      · exact hline _ (by simp)
      · exact hblank
    | event frame =>
      simp only [itemLines, List.mem_cons, List.not_mem_nil, or_false] at hl
      rcases hl with rfl | rfl | rfl | rfl
      · exact hline _ (by simp)
      · exact hid _
      · exact isLine_frame hpy canId frame
      · exact hblank

/-- **A client of a stream**, cut off anywhere, records the first of its frames with the id, each at
the time of the turn that read its line. -/
theorem receiveLoop_stream {py : Python} (hpy : py.Documented) {progress : Result → ℕ} {canId : ℤ} {count : ℕ}
    {items : List StreamItem} {p : Bytes} (hp : responseHead ++ p <+: sseHead ++ items.flatMap StreamItem.text)
    {turns : List Turn} (hreads : Reads p turns) :
    ∃ xs, Kept canId (eventFrames items) turns {} (receiveLoop py progress canId count {} turns) xs := by
  rw [← sentLines_stream, List.prefix_append_right_inj] at hp
  rw [← filterMap_streamLines]
  exact receiveLoop_lines (isLine_stream hpy canId items) hp hreads {}

end CanMonitor.SseClient
