import CanMonitor.Http.Whole

/-!
# Encoding and decoding

What a client sends and what `handleRead` makes of it. A client renders requests with
`CRLF` line ends one after the other; the network cuts the stream where it likes.

## The model

`Message` is a well-formed request: the conditions under which its rendering means it
are fields. A length header, if there is one, has the length of the body, and there is
one if there is a body. `Message.toHttpRequest` is what the object should hold.

## What is proved

* `parseStep_render` — a rendering is dispatched as the message it renders, whatever
  follows it; so it is a `Whole`.
* `serve_decodes` — any cutting of the stream into calls of `handleRead` dispatches the
  messages, in order and once each, and leaves the incomplete one in the buffer.
-/

namespace CanMonitor.Http

open CanMonitor.Library

/-! ### Messages -/

/-- `CRLF`. -/
def crlf : Bytes := [13, 10]

/-- How a method is written. -/
def methodText : Method → Bytes
  | .get => bytes "GET"
  | .post => bytes "POST"
  | .put => bytes "PUT"
  | .delete => bytes "DELETE"
  | .unknown => []

/-- How a version is written. -/
def versionText : Version → Bytes
  | .http10 => bytes "HTTP/1.0"
  | .http11 => bytes "HTTP/1.1"
  | .unknown => []

/-- Can the character stand in the name of a header? Those of a token can. -/
def isNameChar (c : UInt8) : Bool := !isspace c && c != 58

/-- The parts of a request. -/
structure Parts where
  method : Method
  path : Bytes
  version : Version
  headers : List (Bytes × Bytes)
  body : Bytes

namespace Parts

/-- The request line. -/
def startLine (p : Parts) : Bytes := methodText p.method ++ 32 :: (p.path ++ 32 :: versionText p.version)

/-- A header line. -/
def headerLine (h : Bytes × Bytes) : Bytes := h.1 ++ 58 :: 32 :: h.2

/-- The lines of the head. -/
def headLines (p : Parts) : List Bytes := p.startLine :: p.headers.map headerLine

/-- The head, with the blank line that ends it. -/
def head (p : Parts) : Bytes := p.headLines.flatMap (· ++ crlf) ++ crlf

/-- The whole request. -/
def render (p : Parts) : Bytes := p.head ++ p.body

/-- The request object that holds these parts. -/
def toHttpRequest (p : Parts) : HttpRequest :=
  ⟨p.method, p.path, p.version, p.body, fun name => p.headers.lookup name⟩

end Parts

/-- A well-formed request. -/
structure Message extends Parts where
  method_ok : method = .get ∨ method = .post
  version_ok : version = .http10 ∨ version = .http11
  path_ne : path ≠ []
  path_nospace : ∀ c ∈ path, isspace c = false
  name_ne : ∀ h ∈ headers, h.1 ≠ []
  name_chars : ∀ h ∈ headers, ∀ c ∈ h.1, isNameChar c = true
  names_distinct : (headers.map Prod.fst).Nodup
  value_line : ∀ h ∈ headers, (13 : UInt8) ∉ h.2 ∧ (10 : UInt8) ∉ h.2
  value_noblank : ∀ h ∈ headers, h.2.head? ≠ some 32
  /-- A length header is a decimal numeral of the length of the body. -/
  length_eq : ∀ v, (contentLengthName, v) ∈ headers → IsDecimal v body.length
  /-- A body comes with a length header. -/
  length_mem : body ≠ [] → ∃ v, (contentLengthName, v) ∈ headers
  /-- A `size_t` can hold the length of the request. -/
  fits : toParts.render.length < 2 ^ 64

/-! ### Blocks of lines -/

/-- The first blank line of a text of lines ended with `CRLF` is the one after the lines. -/
theorem find_blankLine {l : Bytes} {ls : List Bytes} (h : ∀ l' ∈ l :: ls, (13 : UInt8) ∉ l') (hne : ∀ l' ∈ ls, l' ≠ [])
    (s : Bytes) : ∃ i, find blankLine ((l :: ls).flatMap (· ++ crlf) ++ crlf ++ s) = some i ∧
      i + 2 = ((l :: ls).flatMap (· ++ crlf)).length := by
  induction ls generalizing l with
  | nil =>
    refine ⟨l.length, ?_, by simp [crlf]⟩
    have hs : find blankLine (13 :: 10 :: 13 :: 10 :: s) = some 0 :=
      find_cons_of_starts (List.prefix_append blankLine s)
    have hskip : find blankLine (l ++ 13 :: 10 :: 13 :: 10 :: s) = _ := find_skip (h l List.mem_cons_self) _
    rw [show (13 :: [10, 13, 10] : Bytes) = blankLine from rfl, hs] at hskip
    simpa [crlf] using hskip
  | cons l₁ ls ih =>
    obtain ⟨i, hi, hlen⟩ := ih (l := l₁) (fun l' hl => h l' (List.mem_cons_of_mem _ hl))
      (fun l' hl => hne l' (List.mem_cons_of_mem _ hl))
    refine ⟨i + 1 + 1 + l.length, ?_, by simp [crlf] at hlen ⊢; omega⟩
    -- the line after this one does not begin with a carriage return
    obtain ⟨c, l₁', rfl⟩ := List.exists_cons_of_ne_nil (hne l₁ List.mem_cons_self)
    have hc : (13 : UInt8) ≠ c := fun hc => h (c :: l₁') (by simp) (hc ▸ List.mem_cons_self)
    set X := ((c :: l₁') :: ls).flatMap (· ++ crlf) ++ crlf ++ s with hX
    have hXc : X = c :: (l₁' ++ crlf ++ ls.flatMap (· ++ crlf) ++ crlf ++ s) := by simp [hX]
    have h₁ : find blankLine (13 :: 10 :: X) = some (i + 1 + 1) := by
      rw [find_cons_of_not_starts, find_cons_of_not_starts, hi]
      · rfl
      · simp [blankLine]
      · simp [blankLine, hXc, hc]
    have hskip : find blankLine (l ++ 13 :: 10 :: X) = _ := find_skip (h l List.mem_cons_self) _
    rw [show (13 :: [10, 13, 10] : Bytes) = blankLine from rfl, h₁] at hskip
    simpa [crlf, hX] using hskip

/-- The lines of a text of lines ended with `CRLF` keep their carriage return. -/
theorem lines_block {ls : List Bytes} (h : ∀ l ∈ ls, (10 : UInt8) ∉ l) (s : Bytes) :
    lines 10 (ls.flatMap (· ++ crlf) ++ s) = ls.map (· ++ [13]) ++ lines 10 s := by
  induction ls with
  | nil => rfl
  | cons l ls ih =>
    have hl : (10 : UInt8) ∉ l ++ [13] := by simpa using h l List.mem_cons_self
    rw [List.flatMap_cons, show l ++ crlf ++ ls.flatMap (· ++ crlf) ++ s =
      (l ++ [13]) ++ 10 :: (ls.flatMap (· ++ crlf) ++ s) by simp [crlf], lines_append_cons hl,
      ih fun l' hl' => h l' (List.mem_cons_of_mem _ hl')]
    rfl

/-- The lines of a block that is cut before the line end of its last line. -/
theorem lines_take_block {ls : List Bytes} {last : Bytes} (h : ∀ l ∈ ls ++ [last], (10 : UInt8) ∉ l) (hne : last ≠ [])
    {n : ℕ} (hn : n + 2 = ((ls ++ [last]).flatMap (· ++ crlf)).length) (s : Bytes) :
    lines 10 (((ls ++ [last]).flatMap (· ++ crlf) ++ s).take n) = ls.map (· ++ [13]) ++ [last] := by
  have htake : ((ls ++ [last]).flatMap (· ++ crlf) ++ s).take n = ls.flatMap (· ++ crlf) ++ last := by
    have hsplit : (ls ++ [last]).flatMap (· ++ crlf) ++ s = (ls.flatMap (· ++ crlf) ++ last) ++ (crlf ++ s) := by simp
    rw [hsplit, List.take_left' (by simp [crlf] at hn ⊢; omega)]
  rw [htake, lines_block fun l hl => h l (by simp [hl]), lines_eq_singleton (h last (by simp)) hne]

theorem stripCR_eq_self {l : Bytes} (h : (13 : UInt8) ∉ l) : stripCR l = l := by
  rw [stripCR, if_neg]
  exact fun hl => h (List.mem_of_getLast? hl)

/-- Header lines, each with or without its carriage return, are read as they are. -/
theorem headerLines_eq {ls rest : List Bytes} (h : rest.map stripCR = ls) (hne : ∀ l ∈ ls, l ≠ []) :
    headerLines rest = ls := by
  rw [headerLines, h, List.takeWhile_eq_self_iff]
  simpa using hne

/-- The lines that are read of a head: the first line, then the others up to the empty one. -/
theorem lines_headBlock {l : Bytes} {ls : List Bytes} (h : ∀ l' ∈ l :: ls, (10 : UInt8) ∉ l') (hne : ∀ l' ∈ ls, l' ≠ [])
    (s : Bytes) : ∃ rest, lines 10 ((l :: ls).flatMap (· ++ crlf) ++ crlf ++ s) = (l ++ [13]) :: rest ∧
      headerLines rest = ls := by
  have hempty : lines 10 (crlf ++ s) = [13] :: lines 10 s := lines_append_cons (l := [13]) (by decide) s
  refine ⟨ls.map (· ++ [13]) ++ lines 10 (crlf ++ s), ?_, ?_⟩
  · rw [List.append_assoc, lines_block h]
    rfl
  · rw [hempty, headerLines_append_cr]
    exact headerLines_eq (by simp [Function.comp_def, stripCR_append]) hne

/-! ### Header lines -/

theorem isNameChar_spec : ∀ c : UInt8, isNameChar c = true → c ≠ 13 ∧ c ≠ 10 ∧ c ≠ 58 ∧ isBlank c = false ∧
    isTrimmed c = false := forall_byte (by decide +kernel)

/-- A header line is not empty and has no line ends in it. -/
theorem headerLine_spec {h : Bytes × Bytes} (hname : ∀ c ∈ h.1, isNameChar c = true)
    (hvalue : (13 : UInt8) ∉ h.2 ∧ (10 : UInt8) ∉ h.2) :
    Parts.headerLine h ≠ [] ∧ (13 : UInt8) ∉ Parts.headerLine h ∧ (10 : UInt8) ∉ Parts.headerLine h := by
  have hc := fun c hc => isNameChar_spec c (hname c hc)
  refine ⟨by simp [Parts.headerLine], ?_, ?_⟩
  · simp only [Parts.headerLine, List.mem_append, List.mem_cons, not_or]
    exact ⟨fun h13 => (hc 13 h13).1 rfl, by decide, by decide, hvalue.1⟩
  · simp only [Parts.headerLine, List.mem_append, List.mem_cons, not_or]
    exact ⟨fun h10 => (hc 10 h10).2.1 rfl, by decide, by decide, hvalue.2⟩

/-! ### The head of a message -/

namespace Message

variable (m : Message)

theorem method_word : methodText m.method ≠ [] ∧ (∀ c ∈ methodText m.method, isspace c = false) ∧
    methodOf (methodText m.method) = m.method := by
  rcases m.method_ok with h | h <;> rw [h] <;> decide +kernel

theorem version_word : versionText m.version ≠ [] ∧ (∀ c ∈ versionText m.version, isspace c = false) ∧
    versionOf (versionText m.version) = m.version ∧ m.version ≠ .unknown := by
  rcases m.version_ok with h | h <;> rw [h] <;> decide +kernel

/-- The request line says the method, the path and the version. -/
theorem parseRequestLine_startLine (r : HttpRequest) :
    parseRequestLine r m.startLine =
      (true, { r with method := m.method, path := m.path, version := m.version }) := by
  obtain ⟨hm, hms, hmethod⟩ := m.method_word
  obtain ⟨hv, hvs, hversion, hknown⟩ := m.version_word
  have hwords : words isspace m.startLine = [methodText m.method, m.path, versionText m.version] := by
    rw [Parts.startLine, words_append_cons hms hm rfl, words_append_cons m.path_nospace m.path_ne rfl,
      words_eq_singleton hvs hv]
  unfold parseRequestLine
  rw [hwords]
  simp [hmethod, hversion, hknown]

theorem line_of_nospace : ∀ c : UInt8, isspace c = false → c ≠ 13 ∧ c ≠ 10 := forall_byte (by decide +kernel)

/-- The lines of the head are not empty and have no line ends in them. -/
theorem headLines_spec {l : Bytes} (hl : l ∈ m.headLines) : l ≠ [] ∧ (13 : UInt8) ∉ l ∧ (10 : UInt8) ∉ l := by
  rw [Parts.headLines, List.mem_cons, List.mem_map] at hl
  rcases hl with rfl | ⟨h, hh, rfl⟩
  · have hc : ∀ c ∈ m.startLine, c ≠ 13 ∧ c ≠ 10 := by
      intro c hc
      simp only [Parts.startLine, List.mem_append, List.mem_cons] at hc
      rcases hc with hc | rfl | hc | rfl | hc
      · exact line_of_nospace c (m.method_word.2.1 c hc)
      · decide
      · exact line_of_nospace c (m.path_nospace c hc)
      · decide
      · exact line_of_nospace c (m.version_word.2.1 c hc)
    exact ⟨by simp [Parts.startLine], fun h => (hc 13 h).1 rfl, fun h => (hc 10 h).2 rfl⟩
  · exact headerLine_spec (m.name_chars h hh) (m.value_line h hh)

/-- Where the head ends. -/
theorem find_head (s : Bytes) : ∃ headerEnd, find blankLine (m.head ++ s) = some headerEnd ∧
    headerEnd + 2 = (m.headLines.flatMap (· ++ crlf)).length ∧ headerEnd + 4 = m.head.length := by
  have hlines : ∀ l ∈ m.startLine :: m.headers.map Parts.headerLine, (13 : UInt8) ∉ l :=
    fun l hl => (m.headLines_spec hl).2.1
  obtain ⟨i, hi, hlen⟩ := find_blankLine hlines (fun l hl => (m.headLines_spec (List.mem_cons_of_mem _ hl)).1) s
  refine ⟨i, hi, hlen, ?_⟩
  rw [Parts.head, List.length_append, Parts.headLines, ← hlen]
  rfl

/-- The lines that `parse` reads of a message: those of the head, then an empty one. -/
theorem lines_head (s : Bytes) : ∃ rest, lines 10 (m.head ++ s) = (m.startLine ++ [13]) :: rest ∧
    headerLines rest = m.headers.map Parts.headerLine :=
  lines_headBlock (fun _ hl => (m.headLines_spec hl).2.2) (fun _ hl => (m.headLines_spec (List.mem_cons_of_mem _ hl)).1) s

/-- The lines that `extractContentLength` reads of a message. -/
theorem lines_take_head (s : Bytes) {headerEnd : ℕ}
    (h : headerEnd + 2 = (m.headLines.flatMap (· ++ crlf)).length) :
    headerLines (lines 10 ((m.head ++ s).take headerEnd)).tail = m.headers.map Parts.headerLine := by
  obtain ⟨init, last, hlast⟩ := (List.eq_nil_or_concat m.headLines).resolve_left (by simp [Parts.headLines])
  have hspec := fun l hl => m.headLines_spec (l := l) (hlast ▸ hl)
  obtain ⟨hne, h13, h10⟩ := hspec last (by simp)
  have hlines : lines 10 ((m.head ++ s).take headerEnd) = init.map (· ++ [13]) ++ [last] := by
    rw [List.concat_eq_append] at hlast
    rw [hlast] at h
    rw [Parts.head, hlast, List.append_assoc]
    exact lines_take_block (fun l hl => (hspec l (by simpa using hl)).2.2) hne h (crlf ++ s)
  refine headerLines_eq ?_ ?_
  · rw [hlines, List.map_tail, List.map_append, List.map_map]
    have : (init ++ [last]).tail = m.headers.map Parts.headerLine := by
      rw [← List.concat_eq_append, ← hlast, Parts.headLines, List.tail_cons]
    simpa [Function.comp_def, stripCR_append, stripCR_eq_self h13] using this
  · exact fun l hl => (m.headLines_spec (List.mem_cons_of_mem _ hl)).1

/-! ### Reading a message -/

/-- A header line says its name and its value. -/
theorem headerOf_headerLine {h : Bytes × Bytes} (hh : h ∈ m.headers) :
    find [58] (Parts.headerLine h) = some h.1.length ∧ headerOf (Parts.headerLine h) h.1.length = h := by
  have hc := fun c hc => isNameChar_spec c (m.name_chars h hh c hc)
  refine ⟨find_singleton (fun h58 => (hc 58 h58).2.2.1 rfl) _, ?_⟩
  unfold headerOf Parts.headerLine
  have hvalue : (32 :: h.2).dropWhile isBlank = h.2 := by
    rw [List.dropWhile_cons_of_pos rfl]
    apply dropWhile_eq_self
    intro a ha
    have := m.value_noblank h hh
    simp only [isBlank, beq_eq_false_iff_ne]
    rintro rfl
    exact this ha
  have hdrop : (h.1 ++ 58 :: 32 :: h.2).drop (h.1.length + 1) = 32 :: h.2 := drop_after h.1 58 (32 :: h.2)
  rw [List.take_left, hdrop, hvalue, trim_eq_self fun c hcm => (hc c hcm).2.2.2.1]

/-- Reading the header lines gives the headers. -/
theorem foldlM_parseHeader : (m.headers.map Parts.headerLine).foldlM parseHeader HttpRequest.fresh.headers =
    some m.toHttpRequest.headers := by
  have h : ∀ hs : List (Bytes × Bytes), hs ⊆ m.headers → (hs.map Prod.fst).Nodup → ∀ headers : Headers,
      (hs.map Parts.headerLine).foldlM parseHeader headers =
        some fun name => (hs.lookup name).or (headers name) := by
    intro hs
    induction hs with
    | nil => intros; rfl
    | cons h hs ih =>
      intro hsub hnodup headers
      obtain ⟨hf, hh⟩ := m.headerOf_headerLine (hsub List.mem_cons_self)
      rw [List.map_cons, List.nodup_cons] at hnodup
      rw [List.map_cons, List.foldlM_cons, parseHeader, hf, Option.map_some, hh]
      refine (ih (List.subset_of_cons_subset hsub) hnodup.2 _).trans (congrArg some (funext fun name => ?_))
      by_cases hn : name = h.1
      · have : hs.lookup h.1 = none := by
          rw [List.lookup_eq_none_iff]
          intro p hp
          have : h.1 ≠ p.1 := fun he => hnodup.1 (he ▸ List.mem_map_of_mem hp)
          simpa using this
        rw [hn, this, Function.update_self, List.lookup_cons_self]
        rfl
      · rw [Function.update_of_ne hn, show h :: hs = (h.1, h.2) :: hs from rfl, List.lookup_cons,
          beq_false_of_ne hn]
  have := h m.headers (List.Subset.refl _) m.names_distinct HttpRequest.fresh.headers
  rw [this]
  exact congrArg some (funext fun name => Option.or_none)

/-- What a header line announces is what its value says, if it is a length header. -/
theorem announces_headerLine {h : Bytes × Bytes} (hh : h ∈ m.headers) :
    announces (Parts.headerLine h) = (h.1 == contentLengthName) ∧ announced (Parts.headerLine h) = stoul h.2 := by
  obtain ⟨hf, -⟩ := m.headerOf_headerLine hh
  have hdrop : (Parts.headerLine h).drop (h.1.length + 1) = [32] ++ h.2 := drop_after h.1 58 (32 :: h.2)
  have htake : (Parts.headerLine h).take h.1.length = h.1 := List.take_left
  have htrim : trim isTrimmed h.1 = h.1 := trim_eq_self fun c hc => (isNameChar_spec c (m.name_chars h hh c hc)).2.2.2.2
  constructor
  · rw [announces, hf]
    simp only [htake, htrim]
    exact (beq_eq_decide ..).symm
  · rw [announced, hf, Option.bind_some, hdrop, stoul_append_left (by decide +kernel)]

/-- The first announced length of the head is the one that the map of headers holds. -/
theorem find_announces : ((m.headers.map Parts.headerLine).find? announces).bind announced =
    (m.headers.lookup contentLengthName).bind stoul := by
  have h : ∀ hs : List (Bytes × Bytes), hs ⊆ m.headers →
      ((hs.map Parts.headerLine).find? announces).bind announced = (hs.lookup contentLengthName).bind stoul := by
    intro hs
    induction hs with
    | nil => intros; rfl
    | cons h hs ih =>
      intro hsub
      obtain ⟨hann, hnum⟩ := m.announces_headerLine (hsub List.mem_cons_self)
      rw [List.map_cons, List.find?_cons, hann, show h :: hs = (h.1, h.2) :: hs from rfl, List.lookup_cons]
      by_cases hn : h.1 = contentLengthName
      · simp [hn, hnum]
      · rw [beq_false_of_ne hn, beq_false_of_ne (Ne.symm hn)]
        exact ih (List.subset_of_cons_subset hsub)
  exact h m.headers (List.Subset.refl _)

theorem length_body_lt : m.body.length < 2 ^ 64 := by
  have := m.fits
  rw [Parts.render, List.length_append] at this
  omega

/-- The length header, if there is one, says how long the body is; else there is no body. -/
theorem lookup_length : (∃ v, m.headers.lookup contentLengthName = some v ∧ stoul v = some m.body.length) ∨
    (m.headers.lookup contentLengthName = none ∧ m.body = []) := by
  cases hl : m.headers.lookup contentLengthName with
  | some v =>
    obtain ⟨l₁, l₂, hmem, -⟩ := List.lookup_eq_some_iff.mp hl
    exact .inl ⟨v, rfl, stoul_decimal (m.length_eq v (by simp [hmem])) m.length_body_lt⟩
  | none =>
    refine .inr ⟨rfl, by_contra fun hbody => ?_⟩
    obtain ⟨v, hv⟩ := m.length_mem hbody
    have := List.lookup_eq_none_iff.mp hl _ hv
    simp at this

/-- `extractContentLength` gives the length of the body. -/
theorem extractContentLength_head (s : Bytes) : extractContentLength (m.head ++ s) = m.body.length := by
  obtain ⟨headerEnd, hf, hlen, -⟩ := m.find_head s
  rw [extractContentLength, hf]
  simp only [scanLength_eq, m.lines_take_head s hlen, m.find_announces]
  rcases m.lookup_length with ⟨v, hv, hn⟩ | ⟨hnone, hbody⟩
  · rw [hv, Option.bind_some, hn, Option.getD_some]
  · rw [hnone, hbody]
    rfl

/-- The rendering is accepted, and the object holds the message. -/
theorem parse_render : parse .fresh m.render = (true, m.toHttpRequest) := by
  obtain ⟨headerEnd, hf, -, hlen⟩ := m.find_head m.body
  obtain ⟨rest, hlines, hheaders⟩ := m.lines_head m.body
  have hstored := m.foldlM_parseHeader
  rw [← hheaders, ← parseHeaders_eq_true] at hstored
  have hbody : bodyOf m.toHttpRequest.headers m.render = some m.body := by
    have hdrop : (m.head ++ m.body).drop (headerEnd + 4) = m.body := List.drop_left' hlen.symm
    unfold bodyOf
    rw [Parts.render, hf]
    simp only [hdrop, Parts.toHttpRequest]
    rcases m.lookup_length with ⟨v, hv, hn⟩ | ⟨hnone, hbody⟩
    · simp only [hv, hn]
      have := m.fits
      rw [Parts.render, List.length_append] at this
      rw [if_neg, List.take_length]
      rw [List.length_append, Nat.mod_eq_of_lt (by omega)]
      omega
    · simp only [hnone]
  rw [parse, Parts.render, hlines]
  simp only [stripCR_append, m.parseRequestLine_startLine]
  rw [← Parts.render, hstored]
  simp only [hbody]
  rfl

/-! ### Messages in a stream -/

/-- **A rendering is dispatched** as the message it renders, whatever follows it. -/
theorem parseStep_render (s : Bytes) :
    parseStep .fresh (m.render ++ s) = .dispatch m.toHttpRequest m.render.length := by
  obtain ⟨headerEnd, hf, -, hlen⟩ := m.find_head (m.body ++ s)
  have hassoc : m.render ++ s = m.head ++ (m.body ++ s) := List.append_assoc ..
  have hrequest : (headerEnd + 4 + extractContentLength (m.render ++ s)) % 2 ^ 64 = m.render.length := by
    rw [hassoc, extractContentLength_head, hlen, ← List.length_append]
    exact Nat.mod_eq_of_lt m.fits
  unfold parseStep
  rw [hassoc, hf, ← hassoc]
  simp only [hrequest, List.take_left, m.parse_render]
  rw [if_neg (by simp)]

/-- A rendering is a whole text. -/
def whole : Whole where
  text := m.render
  req := m.toHttpRequest
  dispatched := by simpa using m.parseStep_render []

end Message

/-- **Decoding undoes encoding under any segmentation**: however the stream of renderings,
with an incomplete one at the end, is cut into calls of `handleRead` and reads within
them, the messages are dispatched in order, each once, and the incomplete one stays in
the buffer. -/
theorem serve_decodes (ms : List Message) {last : Message} {tail : Bytes} (htail : tail <+: last.render)
    (hne : tail ≠ last.render) {deliveries : List (List Bytes)}
    (h : deliveries.flatten.flatten = ms.flatMap (·.render) ++ tail) :
    serve .fresh (deliveries.map (·.map .data)) =
      (ms.map fun m => .dispatched m.toHttpRequest, ⟨tail, .fresh⟩) := by
  have hwholes : deliveries.flatten.flatten = (ms.map Message.whole).flatMap (·.text) ++ tail := by
    rw [h, List.flatMap_map]
    rfl
  rw [serve_then_waiting _ (fun _ => last.whole.parseStep_shorter htail hne) hwholes, List.map_map]
  rfl

/-- A request with a body that looks like the end of a head. -/
def sendMessage : Message where
  method := .post
  path := bytes "/api/can/send"
  version := .http11
  headers := [(bytes "Host", bytes "localhost"), (contentLengthName, bytes "4")]
  body := blankLine
  method_ok := by decide
  version_ok := by decide
  path_ne := by decide
  path_nospace := by decide +kernel
  name_ne := by decide +kernel
  name_chars := by decide +kernel
  names_distinct := by decide
  value_line := by decide +kernel
  value_noblank := by decide +kernel
  length_eq := by
    intro v hv
    obtain rfl : v = bytes "4" := by simpa [contentLengthName, bytes] using hv
    exact ⟨by decide +kernel, by decide +kernel, by decide +kernel⟩
  length_mem := fun _ => ⟨bytes "4", by decide⟩
  fits := by decide

/-- A request without a body. -/
def pageMessage : Message where
  method := .get
  path := bytes "/"
  version := .http10
  headers := []
  body := []
  method_ok := by decide
  version_ok := by decide
  path_ne := by decide
  path_nospace := by decide +kernel
  name_ne := by decide +kernel
  name_chars := by decide +kernel
  names_distinct := by decide
  value_line := by decide +kernel
  value_noblank := by decide +kernel
  length_eq := by simp
  length_mem := fun h => absurd rfl h
  fits := by decide

theorem serve_decodes_two :
    serve .fresh ([[sendMessage.render.take 30, (sendMessage.render.drop 30).take 40],
      [sendMessage.render.drop 70 ++ pageMessage.render ++ bytes "GET /"]].map (·.map .data)) =
        ([.dispatched sendMessage.toHttpRequest, .dispatched pageMessage.toHttpRequest],
          ⟨bytes "GET /", .fresh⟩) :=
  serve_decodes [sendMessage, pageMessage] (by decide : bytes "GET /" <+: pageMessage.render) (by decide) (by decide)

end CanMonitor.Http
