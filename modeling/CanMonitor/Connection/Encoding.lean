import CanMonitor.Connection.Json
import CanMonitor.Library.JsonUnique
import Mathlib.Data.List.Forall2

/-!
# Frames as JSON and as events

What the JSON of frames says, and what a stream of events says. Both are read without
knowing how they are written: JSON by the syntax trees of its grammar, of which a text has
only one, and a stream by its blank lines.

## The model

* `decodeFrames` — the fields of the frames of a JSON value, by the names of its members.
* `blocks` — the lines of a stream up to each blank one. `ReadsAs` says what the lines of a
  block are: a comment, or an event with an id, and the JSON of one frame in its data.

## What is proved

* `encodings_faithful` — the JSON of frames is that of one tree, which says what the frames
  are; the blocks of a stream are what was written to it, one by one, and can be read in no
  other way.
-/

namespace CanMonitor.Connection

open CanMonitor.Library CanMonitor.Library.Json CanMonitor.Can

/-! ### What JSON says about a frame -/

/-- The members of the JSON of a frame. -/
structure FrameFields where
  sequence : ℤ
  timestampNs : ℤ
  id : ℤ
  idHex : Bytes
  isExtended : Bool
  dlc : ℤ
  data : List ℤ
  deriving DecidableEq

/-- What the members of the JSON of a frame should be. -/
def fields (frame : CanFrame) : FrameFields where
  sequence := frame.sequence.toNat
  timestampNs := frame.timestampNs.toNat
  id := frame.id.toNat
  idHex := bytes "0x" ++ upperHex frame.id.toNat
  isExtended := frame.isExtended
  dlc := frame.dlc.toNat
  data := (frame.data.toList.take frame.dlc.toNat).map fun byte => (byte.toNat : ℤ)

/-- What a value says about a frame; the `dlc` is the number of data bytes. -/
def decodeFrame (v : Value) : Option FrameFields := do
  let sequence ← (v.member (bytes "sequence")).bind Value.integer
  let timestampNs ← (v.member (bytes "timestamp_ns")).bind Value.integer
  let id ← (v.member (bytes "id")).bind Value.integer
  let idHex ← (v.member (bytes "id_hex")).bind Value.content
  let isExtended ← (v.member (bytes "extended")).bind Value.truth
  let dlc ← (v.member (bytes "dlc")).bind Value.integer
  let elements ← (v.member (bytes "data")).bind Value.elements
  let data ← elements.mapM Value.integer
  if dlc = data.length then some ⟨sequence, timestampNs, id, idHex, isExtended, dlc, data⟩ else none

/-- What a value says about frames. -/
def decodeFrames (v : Value) : Option (List FrameFields) :=
  ((v.member (bytes "frames")).bind Value.elements).bind (·.mapM decodeFrame)

/-! ### The tree of a frame -/

/-- A number as a value. -/
def natural (n : ℕ) : Value := .number (.ofNat n)

/-- The members after the first. -/
def laterMembers (frame : CanFrame) : List (Bytes × Value) :=
  [(bytes "timestamp_ns", natural frame.timestampNs.toNat), (bytes "id", natural frame.id.toNat),
    (bytes "id_hex", .string (.plain (bytes "0x" ++ upperHex frame.id.toNat))),
    (bytes "extended", .bool frame.isExtended), (bytes "dlc", natural frame.dlc.toNat),
    (bytes "data", .ofList ((frame.data.toList.take frame.dlc.toNat).map fun byte => natural byte.toNat))]

/-- The tree of a frame. -/
def frameValue (frame : CanFrame) : Value :=
  .object (.ofList (bytes "sequence", natural frame.sequence.toNat) (laterMembers frame))

theorem plain_hex (n : ℕ) : IsPlain (bytes "0x" ++ upperHex n) := by
  have hhex : ∀ c : UInt8, isDigit 16 c = true → c ≠ 34 ∧ c ≠ 92 ∧ 32 ≤ c := forall_byte (by decide +kernel)
  intro c hc
  rcases List.mem_append.mp hc with hc | hc
  · have hmark : ∀ c ∈ bytes "0x", c ≠ 34 ∧ c ≠ 92 ∧ 32 ≤ c := by decide +kernel
    exact hmark c hc
  · exact hhex c ((upperHex_spec n).2.1 c hc)

/-- The names are plain and distinct. -/
theorem frame_names (frame : CanFrame) :
    (∀ m ∈ (bytes "sequence", natural frame.sequence.toNat) :: laterMembers frame, IsPlain m.1) ∧
      (((bytes "sequence", natural frame.sequence.toNat) :: laterMembers frame).map (·.1)).Nodup := by
  have hnames : ((bytes "sequence", natural frame.sequence.toNat) :: laterMembers frame).map (·.1) =
      [bytes "sequence", bytes "timestamp_ns", bytes "id", bytes "id_hex", bytes "extended", bytes "dlc", bytes "data"] := rfl
  rw [hnames]
  refine ⟨fun m hm => ?_, by decide +kernel⟩
  have hplain : ∀ name ∈ [bytes "sequence", bytes "timestamp_ns", bytes "id", bytes "id_hex", bytes "extended",
      bytes "dlc", bytes "data"], IsPlain name := by decide +kernel
  exact hplain m.1 (hnames ▸ List.mem_map_of_mem hm)

/-- A key as it is written. -/
theorem keys_text : bytes "\"sequence\":" = 34 :: (bytes "sequence" ++ [34, 58]) ∧
    bytes ",\"timestamp_ns\":" = 44 :: 34 :: (bytes "timestamp_ns" ++ [34, 58]) ∧
    bytes ",\"id\":" = 44 :: 34 :: (bytes "id" ++ [34, 58]) ∧
    bytes ",\"id_hex\":\"0x" = 44 :: 34 :: (bytes "id_hex" ++ 34 :: 58 :: 34 :: bytes "0x") ∧
    bytes "\",\"extended\":" = 34 :: 44 :: 34 :: (bytes "extended" ++ [34, 58]) ∧
    bytes ",\"dlc\":" = 44 :: 34 :: (bytes "dlc" ++ [34, 58]) ∧
    bytes ",\"data\":[" = 44 :: 34 :: (bytes "data" ++ [34, 58, 91]) ∧ bytes "]" = [93] := by decide +kernel

theorem frameValue_text (frame : CanFrame) : (frameValue frame).text = frameToJson frame := by
  have hdata : ((frame.data.toList.take frame.dlc.toNat).map fun byte => natural byte.toNat).map Value.text =
      (frame.data.toList.take frame.dlc.toNat).map fun byte => decimal byte.toNat := by
    rw [List.map_map]
    exact List.map_congr_left fun byte _ => Number.ofNat_text byte.toNat
  have hbool : ∀ b : Bool, (Value.bool b).text = if b then bytes "true" else bytes "false" := by
    rintro (_ | _) <;> rfl
  have hnatural : ∀ n, (natural n).text = decimal n := Number.ofNat_text
  have hstring : ∀ s : Str, (Value.string s).text = 34 :: (s.text ++ [34]) := fun s => by rw [Value.text]
  have hcomma : bytes "," = [44] := by decide +kernel
  obtain ⟨h₁, h₂, h₃, h₄, h₅, h₆, h₇, h₈⟩ := keys_text
  rw [frameValue, Value.text, Members.ofList_text (frame_names frame).1]
  simp only [laterMembers, List.map_cons, List.map_nil, Value.ofList_text, hdata, hbool, hnatural, hstring,
    (Str.plain_text (plain_hex _)).1, frameToJson, commaSeparated, hcomma, h₁, h₂, h₃, h₄, h₅, h₆, h₇, h₈]
  simp

/-- The tree of a frame says what the frame is. -/
theorem decodeFrame_frameValue {frame : CanFrame} (h : frame.dlc.toNat ≤ kMaxDataLength) :
    decodeFrame (frameValue frame) = some (fields frame) := by
  have hmember : ∀ {name : Bytes} {v : Value},
      (name, v) ∈ (bytes "sequence", natural frame.sequence.toNat) :: laterMembers frame →
        (frameValue frame).member name = some v :=
    fun hmem => Members.ofList_member (frame_names frame).1 (frame_names frame).2 hmem
  have hnatural : ∀ n, (natural n).integer = some (n : ℤ) := Number.ofNat_integer
  have hdata : ((frame.data.toList.take frame.dlc.toNat).map fun byte => natural byte.toNat).mapM Value.integer =
      some ((frame.data.toList.take frame.dlc.toNat).map fun byte => (byte.toNat : ℤ)) := by
    generalize frame.data.toList.take frame.dlc.toNat = data
    induction data with
    | nil => rfl
    | cons byte data ih => simp [hnatural, ih]
  have hlength : (frame.dlc.toNat : ℤ) = ((frame.data.toList.take frame.dlc.toNat).map fun byte => (byte.toNat : ℤ)).length := by
    simp [h]
  have h₁ : (frameValue frame).member (bytes "sequence") = some (natural frame.sequence.toNat) := hmember (by simp)
  have h₂ : (frameValue frame).member (bytes "timestamp_ns") = some (natural frame.timestampNs.toNat) :=
    hmember (by simp [laterMembers])
  have h₃ : (frameValue frame).member (bytes "id") = some (natural frame.id.toNat) := hmember (by simp [laterMembers])
  have h₄ : (frameValue frame).member (bytes "id_hex") = some (.string (.plain (bytes "0x" ++ upperHex frame.id.toNat))) :=
    hmember (by simp [laterMembers])
  have h₅ : (frameValue frame).member (bytes "extended") = some (.bool frame.isExtended) := hmember (by simp [laterMembers])
  have h₆ : (frameValue frame).member (bytes "dlc") = some (natural frame.dlc.toNat) := hmember (by simp [laterMembers])
  have h₇ : (frameValue frame).member (bytes "data") = some (.ofList
      ((frame.data.toList.take frame.dlc.toNat).map fun byte => natural byte.toNat)) := hmember (by simp [laterMembers])
  simp only [decodeFrame, h₁, h₂, h₃, h₄, h₅, h₆, h₇, Option.bind_eq_bind, Option.bind_some, hnatural, Value.content,
    Value.truth, Value.ofList_elements, hdata, (Str.plain_text (plain_hex _)).2]
  exact if_pos hlength

/-! ### Lists of frames -/

/-- The tree of frames. -/
def framesDocument (frames : List CanFrame) : Document :=
  ⟨.none, .object (.ofList (bytes "frames", .ofList (frames.map frameValue)) []), .none⟩

theorem frames_name (frames : List CanFrame) :
    ∀ m ∈ [(bytes "frames", Value.ofList (frames.map frameValue))], IsPlain m.1 := by
  have hplain : IsPlain (bytes "frames") := by decide +kernel
  intro m hm
  rw [List.mem_singleton.mp hm]
  exact hplain

theorem framesDocument_text (frames : List CanFrame) : (framesDocument frames).text = framesToJson frames := by
  have hkey : bytes "\"frames\":[" = 34 :: (bytes "frames" ++ [34, 58, 91]) := by decide +kernel
  have hclose : bytes "]" = [93] := by decide +kernel
  have hcomma : bytes "," = [44] := by decide +kernel
  have hframes : (frames.map frameValue).map Value.text = frames.map frameToJson := by
    rw [List.map_map]
    exact List.map_congr_left fun frame _ => frameValue_text frame
  rw [framesDocument, Document.text, Value.text, Members.ofList_text (frames_name frames)]
  simp only [List.map_cons, List.map_nil, Value.ofList_text, hframes, framesToJson, commaSeparated, hkey, hclose, hcomma]
  simp [White.none]

theorem decodeFrames_framesDocument {frames : List CanFrame} (h : ∀ frame ∈ frames, frame.dlc.toNat ≤ kMaxDataLength) :
    decodeFrames (framesDocument frames).value = some (frames.map fields) := by
  have hdecode : (frames.map frameValue).mapM decodeFrame = some (frames.map fields) := by
    induction frames with
    | nil => rfl
    | cons frame frames ih =>
      have hframe := decodeFrame_frameValue (h frame List.mem_cons_self)
      have hrest := ih fun f hf => h f (List.mem_cons_of_mem _ hf)
      simp [hframe, hrest]
  have hmember : (framesDocument frames).value.member (bytes "frames") = some (.ofList (frames.map frameValue)) :=
    Members.ofList_member (frames_name frames) (by simp) (by simp)
  rw [decodeFrames, hmember, Option.bind_some, Value.ofList_elements, Option.bind_some, hdecode]

/-! ### Events -/

/-- What is written to a stream. -/
inductive StreamItem where
  | comment
  | event (frame : CanFrame)

/-- How an item of a stream is written. -/
def StreamItem.text : StreamItem → Bytes
  | .comment => heartbeat
  | .event frame => frameToSse frame

/-- What there is to see of an item of a stream. -/
def StreamItem.fields : StreamItem → Option FrameFields
  | .comment => none
  | .event frame => some (Connection.fields frame)

/-- What the lines of a block are. -/
inductive ReadsAs : List Bytes → Option FrameFields → Prop
  /-- A comment. -/
  | comment : ReadsAs [bytes ": heartbeat"] none
  /-- An event, whose id is the sequence in its data. -/
  | event {d : Document} {f : FrameFields} {n : ℕ} : decodeFrame d.value = some f → f.sequence = n →
      ReadsAs [bytes "event: can_frame", bytes "id: " ++ decimal n, bytes "data: " ++ d.text] (some f)

/-- A block can be read in one way only. -/
theorem ReadsAs.unique {block : List Bytes} {o o' : Option FrameFields} (h : ReadsAs block o) (h' : ReadsAs block o') :
    o = o' := by
  cases h with
  | comment =>
    cases h'
    rfl
  | @event d f n hf hn =>
    generalize hblock : [bytes "event: can_frame", bytes "id: " ++ decimal n, bytes "data: " ++ d.text] = block at h'
    cases h' with
    | comment => cases hblock
    | @event d' f' n' hf' hn' =>
      simp only [List.cons.injEq, List.append_cancel_left_eq, and_true] at hblock
      rw [Document.text_injective hblock.2.2, hf'] at hf
      exact hf.symm

/-- The lines of an item. -/
def StreamItem.lines : StreamItem → List Bytes
  | .comment => [bytes ": heartbeat"]
  | .event frame =>
    [bytes "event: can_frame", bytes "id: " ++ decimal frame.sequence.toNat, bytes "data: " ++ frameToJson frame]

theorem StreamItem.text_eq (item : StreamItem) : item.text = item.lines.flatMap (· ++ [10]) ++ [10] := by
  cases item with
  | comment => decide +kernel
  | event frame =>
    have hevent : bytes "event: can_frame\n" = bytes "event: can_frame" ++ [10] := by decide +kernel
    have hline : bytes "\n" = [10] := by decide +kernel
    have hblank : bytes "\n\n" = [10, 10] := by decide +kernel
    simp [StreamItem.text, StreamItem.lines, frameToSse, hevent, hline, hblank]

theorem mem_commaSeparated {texts : List Bytes} {c : UInt8} (h : c ∈ commaSeparated texts) :
    c = 44 ∨ ∃ t ∈ texts, c ∈ t := by
  have hcomma : bytes "," = [44] := by decide +kernel
  induction texts with
  | nil => cases h
  | cons t texts ih =>
    cases texts with
    | nil => exact .inr ⟨t, List.mem_cons_self, by simpa [commaSeparated] using h⟩
    | cons t' texts =>
      have hcons : commaSeparated (t :: t' :: texts) = t ++ 44 :: commaSeparated (t' :: texts) := by
        simp [commaSeparated, hcomma]
      rw [hcons, List.mem_append, List.mem_cons] at h
      rcases h with h | h | h
      · exact .inr ⟨t, List.mem_cons_self, h⟩
      · exact .inl h
      · exact (ih h).imp_right fun ⟨u, hu, hc⟩ => ⟨u, List.mem_cons_of_mem _ hu, hc⟩

theorem decimal_line_feed (n : ℕ) : (10 : UInt8) ∉ decimal n :=
  fun h => absurd ((isDecimal_decimal n).2.1 10 h) (by decide)

/-- There is no line feed in the JSON of a frame. -/
theorem frameToJson_line_feed (frame : CanFrame) : (10 : UInt8) ∉ frameToJson frame := by
  have hhex : (10 : UInt8) ∉ upperHex frame.id.toNat := fun h =>
    absurd ((upperHex_spec frame.id.toNat).2.1 10 h) (by decide)
  have hdata : (10 : UInt8) ∉ commaSeparated
      ((frame.data.toList.take frame.dlc.toNat).map fun byte => decimal byte.toNat) := by
    intro h
    rcases mem_commaSeparated h with h | ⟨t, ht, h⟩
    · cases h
    · obtain ⟨byte, -, rfl⟩ := List.mem_map.mp ht
      exact decimal_line_feed _ h
  have hbool : (10 : UInt8) ∉ if frame.isExtended then bytes "true" else bytes "false" := by
    cases frame.isExtended <;> decide +kernel
  simp only [frameToJson, List.mem_append, List.mem_cons, not_or]
  and_intros
  all_goals first | exact decimal_line_feed _ | exact hhex | exact hbool | exact hdata | decide +kernel

/-- The lines of an item are lines, and not blank. -/
theorem StreamItem.lines_spec (item : StreamItem) : ∀ l ∈ item.lines, (10 : UInt8) ∉ l ∧ l ≠ [] := by
  cases item with
  | comment =>
    intro l hl
    rw [List.mem_singleton.mp hl]
    decide +kernel
  | event frame =>
    have hevent : (10 : UInt8) ∉ bytes "event: can_frame" ∧ bytes "event: can_frame" ≠ [] := by decide +kernel
    have hid : (10 : UInt8) ∉ bytes "id: " ∧ bytes "id: " ≠ [] := by decide +kernel
    have hdata : (10 : UInt8) ∉ bytes "data: " ∧ bytes "data: " ≠ [] := by decide +kernel
    intro l hl
    simp only [StreamItem.lines, List.mem_cons, List.not_mem_nil, or_false] at hl
    rcases hl with rfl | rfl | rfl
    · exact hevent
    · exact ⟨by simp [hid.1, decimal_line_feed], by simp [hid.2]⟩
    · exact ⟨by simp [hdata.1, frameToJson_line_feed], by simp [hdata.2]⟩

theorem StreamItem.readsAs {item : StreamItem}
    (h : ∀ frame, item = .event frame → frame.dlc.toNat ≤ kMaxDataLength) : ReadsAs item.lines item.fields := by
  cases item with
  | comment => exact .comment
  | event frame =>
    have htext : frameToJson frame = (⟨.none, frameValue frame, .none⟩ : Document).text := by
      simp [Document.text, frameValue_text, White.none]
    rw [StreamItem.lines, htext]
    exact .event (decodeFrame_frameValue (h frame rfl)) rfl

/-- The blocks of a stream are the lines of its items. -/
theorem blocks_stream (items : List StreamItem) : blocks 10 (items.flatMap StreamItem.text) = items.map StreamItem.lines := by
  induction items with
  | nil => rfl
  | cons item items ih =>
    rw [List.flatMap_cons, StreamItem.text_eq, List.append_assoc, List.singleton_append, blocks_append item.lines_spec, ih,
      List.map_cons]

/-- **The encodings are faithful.** The JSON of frames is the text of one tree, which says what
the frames are, and the hexadecimal form of an id is that of the id. A stream of events and
comments falls apart at its blank lines into what was written, and can be read in no other
way. -/
theorem encodings_faithful :
    (∀ frames : List CanFrame, (∀ frame ∈ frames, frame.dlc.toNat ≤ kMaxDataLength) → ∃ d : Document,
      d.text = framesToJson frames ∧ (∀ d' : Document, d'.text = framesToJson frames → d' = d) ∧
        decodeFrames d.value = some (frames.map fields)) ∧
    (∀ id : UInt32, UnsignedLiteral (bytes "0x" ++ upperHex id.toNat) id.toNat) ∧
    ∀ items : List StreamItem, (∀ frame, .event frame ∈ items → frame.dlc.toNat ≤ kMaxDataLength) →
      List.Forall₂ ReadsAs (blocks 10 (items.flatMap StreamItem.text)) (items.map StreamItem.fields) ∧
        ∀ readings, List.Forall₂ ReadsAs (blocks 10 (items.flatMap StreamItem.text)) readings →
          readings = items.map StreamItem.fields := by
  refine ⟨fun frames h => ?_, fun id => ?_, fun items h => ?_⟩
  · have htext := framesDocument_text frames
    exact ⟨framesDocument frames, htext, fun d' h' => Document.text_injective (h'.trans htext.symm),
      decodeFrames_framesDocument h⟩
  · obtain ⟨hne, hdigits, hvalue⟩ := upperHex_spec id.toNat
    have hliteral := UnsignedLiteral.hexadecimal (.inl rfl) hne hdigits
    rwa [hvalue] at hliteral
  · have hreads : List.Forall₂ ReadsAs (items.map StreamItem.lines) (items.map StreamItem.fields) := by
      rw [List.forall₂_map_left_iff, List.forall₂_map_right_iff, List.forall₂_same]
      exact fun item hitem => StreamItem.readsAs fun frame heq => h frame (heq ▸ hitem)
    have hunique : Relator.RightUnique ReadsAs := fun _ _ _ h h' => h.unique h'
    rw [blocks_stream]
    exact ⟨hreads, fun readings hreadings => List.right_unique_forall₂' hunique hreadings hreads⟩

/-- A frame of two bytes. -/
def twoByteFrame : CanFrame := { sequence := 7, timestampNs := 1, id := 0x1FF, data := #v[17, 34, 0, 0, 0, 0, 0, 0], dlc := 2 }

theorem encodings_faithful_two :
    (∃ d : Document, d.text = framesToJson [twoByteFrame] ∧ (∀ d' : Document, d'.text = framesToJson [twoByteFrame] → d' = d) ∧
      decodeFrames d.value = some [⟨7, 1, 511, bytes "0x1FF", false, 2, [17, 34]⟩]) ∧
    List.Forall₂ ReadsAs (blocks 10 (heartbeat ++ frameToSse twoByteFrame)) [none, some (fields twoByteFrame)] := by
  have hfields : [fields twoByteFrame] = [⟨7, 1, 511, bytes "0x1FF", false, 2, [17, 34]⟩] := by decide +kernel
  have hframes := encodings_faithful.1 [twoByteFrame] (by decide)
  rw [List.map_singleton, hfields] at hframes
  have hitems := (encodings_faithful.2.2 [.comment, .event twoByteFrame] (by
    intro frame hframe
    obtain rfl : frame = twoByteFrame := by simpa using hframe
    decide)).1
  refine ⟨hframes, ?_⟩
  simpa [StreamItem.text, StreamItem.fields] using hitems

end CanMonitor.Connection
