import CanMonitor.Http.Framing

/-!
# The two readers of `Content-Length`

`extractContentLength` frames a request by the first header line whose name, trimmed of
blanks, tabs and line ends, is `Content-Length`. `HttpRequest::parse` then takes the
body by what the map holds under `Content-Length`: the last line whose name, stripped of
blanks only, is that.

## The model

Both read the same header lines (`headLines`), up to a carriage return at the end of
the last. `firstLength` and `lastLength` are the numbers that the two go by, in terms of
these lines.

## What is proved

* `extractContentLength_eq` and `headers_contentLength` — each reader in these terms.
* `body_eq_framed_iff` — the body of an accepted request is the framed bytes if and only
  if the last number is not less than the first.
-/

namespace CanMonitor.Http

open CanMonitor.Library

theorem isspace_of_isBlank : ∀ c : UInt8, isBlank c = true → isspace c = true := forall_byte (by decide +kernel)

/-! ### Header lines -/

/-- The header lines of a text: those after the first, up to an empty one. -/
def headLines (text : Bytes) : List Bytes := headerLines (lines 10 text).tail

/-- Does `parseHeader` store the value of this line as the length? -/
def stores (line : Bytes) : Bool :=
  match find [58] line with
  | none => false
  | some colon => trim isBlank (line.take colon) = contentLengthName

/-- The number on the first line that announces a length. -/
def firstLength (ls : List Bytes) : Option ℕ := (ls.find? announces).bind announced

/-- The number on the last line that is stored as the length. -/
def lastLength (ls : List Bytes) : Option ℕ := (ls.filter stores).getLast?.bind announced

/-- A carriage return at the end of a line does not change what it announces. -/
theorem announces_append_cr (l : Bytes) :
    announces (l ++ [13]) = announces l ∧ announced (l ++ [13]) = announced l := by
  cases hf : find [58] l with
  | none =>
    have hf' : find [58] (l ++ [13]) = none := by
      rw [find_singleton_eq_none] at hf ⊢
      simpa using hf
    simp [announces, announced, hf, hf']
  | some colon =>
    have hlen := find_add_length_le hf
    rw [List.length_singleton] at hlen
    have htake : (l ++ [13]).take colon = l.take colon := List.take_append_of_le_length (by omega)
    have hdrop : (l ++ [13]).drop (colon + 1) = l.drop (colon + 1) ++ [13] := List.drop_append_of_le_length hlen
    rw [announces, announces, announced, announced, find_append hf, hf]
    simp only [htake, Option.bind_some, hdrop]
    exact ⟨trivial, stoul_append_right (by decide +kernel) _⟩

/-- A `CR` at the end of the last line does not change which line is the first that announces a length. -/
theorem firstLength_append_cr (ls : List Bytes) (last : Bytes) :
    firstLength (headerLines (ls ++ [last ++ [13]])) =
      firstLength (headerLines (ls ++ if last = [] then [] else [last])) := by
  induction ls with
  | nil =>
    rw [List.nil_append, List.nil_append, headerLines_cons, stripCR_append]
    by_cases hlast : last = []
    · simp [hlast]
    rw [if_neg hlast, if_neg hlast, headerLines_cons, headerLines_nil]
    by_cases hcr : last.getLast? = some 13
    · obtain ⟨l, rfl⟩ := List.getLast?_eq_some_iff.mp hcr
      obtain ⟨hann, hnum⟩ := announces_append_cr l
      rw [stripCR_append]
      by_cases hl : l = []
      · subst hl
        decide
      · rw [if_neg hl, firstLength, firstLength, List.find?_singleton, List.find?_singleton, hann]
        split_ifs <;> simp [hnum]
    · rw [stripCR, if_neg hcr, if_neg hlast]
  | cons l ls ih =>
    rw [List.cons_append, List.cons_append, headerLines_cons, headerLines_cons]
    by_cases hl : stripCR l = []
    · rw [if_pos hl, if_pos hl]
    · rw [if_neg hl, if_neg hl]
      unfold firstLength at ih ⊢
      rw [List.find?_cons, List.find?_cons]
      split
      · rfl
      · exact ih

/-- The header lines of a text are those before the blank line; the last of them ends with
`CRLF` for `parse`, and ends there for `extractContentLength`. -/
theorem headLines_of_find {text : Bytes} {headerEnd : ℕ} (h : find blankLine text = some headerEnd) :
    headLines text = headLines (text.take headerEnd ++ [13, 10]) ∧
      firstLength (headLines text) = firstLength (headLines (text.take headerEnd)) := by
  obtain ⟨rest, hrest⟩ := find_spec h
  have htext : text = text.take headerEnd ++ ([13] ++ 10 :: ([13] ++ 10 :: rest)) := by
    conv_lhs => rw [← List.take_append_drop headerEnd text, ← hrest]
    rfl
  obtain ⟨ls, last, hblock, happend⟩ := lines_append_last 10 (text.take headerEnd)
  have hlines : lines 10 text = (ls ++ [last ++ [13]]) ++ [13] :: lines 10 rest := by
    conv_lhs => rw [htext]
    rw [happend [13] (by decide), lines_append_cons (by decide), List.append_cons]
  have hcrlf : lines 10 (text.take headerEnd ++ [13, 10]) = ls ++ [last ++ [13]] :=
    happend [13] (by decide) []
  have hhead : headLines text = headerLines (ls ++ [last ++ [13]]).tail := by
    rw [headLines, hlines, List.tail_append_of_ne_nil (by simp), headerLines_append_cr]
  constructor
  · rw [hhead, headLines, hcrlf]
  · rw [hhead, headLines, hblock]
    cases ls with
    | nil => split_ifs <;> rfl
    | cons l ls => exact firstLength_append_cr ls last

/-- **`extractContentLength`** gives the number on the first line that announces one. -/
theorem extractContentLength_eq {text : Bytes} {headerEnd : ℕ} (h : find blankLine text = some headerEnd) :
    extractContentLength text = (firstLength (headLines text)).getD 0 := by
  rw [(headLines_of_find h).2, extractContentLength, h]
  exact scanLength_eq _

/-- **`HttpRequest::parse`** holds the value on the last line that stores one. -/
theorem headers_contentLength {ls : List Bytes} {headers : Headers}
    (h : ls.foldlM parseHeader HttpRequest.fresh.headers = some headers) :
    (headers contentLengthName = none ∧ lastLength ls = none) ∨
      ∃ v, headers contentLengthName = some v ∧ stoul v = lastLength ls := by
  induction ls using List.reverseRecOn generalizing headers with
  | nil =>
    cases h
    exact .inl ⟨rfl, rfl⟩
  | append_singleton ls l ih =>
    rw [List.foldlM_append] at h
    obtain ⟨headers₀, h₀, h₁⟩ := Option.bind_eq_some_iff.mp h
    rw [List.foldlM_cons] at h₁
    obtain ⟨headers₁, hl, h₁⟩ := Option.bind_eq_some_iff.mp h₁
    obtain rfl : headers₁ = headers := Option.some.inj h₁
    obtain ⟨colon, hf, rfl⟩ := Option.map_eq_some_iff.mp hl
    have hstores : stores l = decide ((headerOf l colon).1 = contentLengthName) := by rw [stores, hf]; rfl
    by_cases hk : (headerOf l colon).1 = contentLengthName
    · refine .inr ⟨(headerOf l colon).2, by rw [hk, Function.update_self], ?_⟩
      have hlast : lastLength (ls ++ [l]) = announced l := by
        rw [lastLength, List.filter_append, List.filter_singleton, hstores, hk]
        simp
      rw [hlast, announced, hf]
      exact stoul_dropWhile_of isspace_of_isBlank _
    · have hlast : lastLength (ls ++ [l]) = lastLength ls := by
        rw [lastLength, List.filter_append, List.filter_singleton, hstores]
        simp [hk, lastLength]
      rw [Function.update_of_ne (Ne.symm hk), hlast]
      exact ih h₀

/-! ### Framed bytes and body -/

/-- Is the last number less than the first? -/
def lastIsLess (ls : List Bytes) : Bool :=
  match lastLength ls with
  | none => false
  | some bodyLen => bodyLen < (firstLength ls).getD 0

/-- The body that is taken out of a framed text. -/
theorem bodyOf_eq {headers : Headers} {text body : Bytes} {headerEnd : ℕ} (hf : find blankLine text = some headerEnd)
    (h : bodyOf headers text = some body) :
    (headers contentLengthName = none ∧ body = text.drop (headerEnd + 4)) ∨
      ∃ v bodyLen, headers contentLengthName = some v ∧ stoul v = some bodyLen ∧
        body = (text.drop (headerEnd + 4)).take bodyLen := by
  rw [bodyOf, hf] at h
  simp only at h
  split at h
  · exact .inl ⟨‹_›, (Option.some.inj h).symm⟩
  · split at h
    · cases h
    · split_ifs at h
      exact .inr ⟨_, _, ‹_›, ‹_›, (Option.some.inj h).symm⟩

/-- **The two readers agree on the body exactly when the last number is not less than the
first**: then no framed byte is dropped from the body of a dispatched request. -/
theorem body_eq_framed_iff {recvBuf : Bytes} {r : HttpRequest} {len : ℕ}
    (h : parseStep .fresh recvBuf = .dispatch r len) :
    ∃ headerEnd, find blankLine recvBuf = some headerEnd ∧
      len = headerEnd + 4 + extractContentLength recvBuf ∧
      (r.body = (recvBuf.drop (headerEnd + 4)).take (extractContentLength recvBuf) ↔
        lastIsLess (headLines recvBuf) = false) := by
  obtain ⟨headerEnd, hf, hlen, hle, hparse⟩ := parseStep_dispatch h
  refine ⟨headerEnd, hf, hlen, ?_⟩
  obtain ⟨line, rest, q, headers, body, hlines, -, hstored, hbody, rfl⟩ := parse_eq_true hparse
  obtain ⟨i, hi⟩ := exists_find_of_parse hparse
  have hi' := find_append hi (recvBuf.drop len)
  rw [List.take_append_drop, hf, Option.some.injEq] at hi'
  subst hi'
  -- the text handed to `parse` has the header lines of the buffer
  have hhead : headLines recvBuf = headerLines rest := by
    have htake : (recvBuf.take len).take headerEnd = recvBuf.take headerEnd := by
      rw [List.take_take, min_eq_left (by omega)]
    rw [(headLines_of_find hf).1, ← htake, ← (headLines_of_find hi).1, headLines, hlines]
    rfl
  have hdrop : (recvBuf.take len).drop (headerEnd + 4) =
      (recvBuf.drop (headerEnd + 4)).take (extractContentLength recvBuf) := by
    rw [List.drop_take, hlen, Nat.add_sub_cancel_left]
  have hframed : ((recvBuf.drop (headerEnd + 4)).take (extractContentLength recvBuf)).length =
      extractContentLength recvBuf := by
    rw [List.length_take, List.length_drop]
    omega
  rw [hhead, lastIsLess, ← hhead, ← extractContentLength_eq hf, hhead]
  rcases bodyOf_eq hi hbody with ⟨hnone, hb⟩ | ⟨v, bodyLen, hv, hn, hb⟩ <;> rw [hdrop] at hb
  · rcases headers_contentLength hstored with ⟨-, hlast⟩ | ⟨v, hv, -⟩
    · simp [hlast, hb]
    · rw [hnone] at hv
      cases hv
  · rcases headers_contentLength hstored with ⟨hnone, -⟩ | ⟨v', hv', hlast⟩
    · rw [hnone] at hv
      cases hv
    · rw [hv] at hv'
      cases hv'
      simp only [← hlast, hn, decide_eq_false_iff_not, Nat.not_lt]
      rw [hb, List.take_eq_self_iff, hframed]

/-- A request with two length headers, the second of which is less. -/
def twoLengths : Bytes :=
  bytes "POST / HTTP/1.1\r\nContent-Length: 5\r\nContent-Length: 3\r\n\r\nhello"

theorem body_eq_framed_twoLengths : ∃ r, parseStep .fresh twoLengths = .dispatch r 62 ∧
    ∃ headerEnd, find blankLine twoLengths = some headerEnd ∧
      62 = headerEnd + 4 + extractContentLength twoLengths ∧
      (r.body = (twoLengths.drop (headerEnd + 4)).take (extractContentLength twoLengths) ↔
        lastIsLess (headLines twoLengths) = false) :=
  ⟨_, rfl, body_eq_framed_iff rfl⟩

/-- A request with two lengths is framed with five bytes of body and dispatched with three. -/
theorem twoLengths_drops_bytes : ∃ r, parseStep .fresh twoLengths = .dispatch r 62 ∧
    find blankLine twoLengths = some 53 ∧ extractContentLength twoLengths = 5 ∧
    (twoLengths.drop 57).take 5 = bytes "hello" ∧ r.body = bytes "hel" :=
  ⟨_, rfl, by decide, by decide, by decide, rfl⟩

end CanMonitor.Http
