import CanMonitor.Connection.Routes
import CanMonitor.Library.Json

/-!
# The body of a send request

`parseSendBody` does not read JSON. It looks for the text of a quoted key, for the colon or
the bracket after it, and takes what comes next. On a JSON text that is right as long as
the colon and the bracket it comes to are those of the members it is after.

## The model

A body is a `Json.Document`, and `Describes` says what its top level asks for: an `id`
that is a number or a string with an integer literal, an `extended` that is true or false
or not there, a `data` that is an array of bytes. `markAfter` is where the scanner looks,
and `InPlace` that it looks at the members it is after. `Unmistakable` says that it finds
nothing there that it takes for something else: a negative number, which it takes modulo
`2^64`, or a string, which it takes for the word in it. At a wrong place it may still come
across the right number; not so in a body with each quoted key at most once (`Once`).

## What is proved

* `readValue_place` — what is read after the colon of a member is its value, cut at the
  first comma or closing brace.
* `readBytes_elements` — the bytes read after the bracket of an array are its elements.
* `send_body_described` — in place, a body that is accepted is read as what its top level
  describes if and only if its members are unmistakable; and with each quoted key once, if
  and only if it is also read in place.
* `send_body_misread` — a body whose only id is in a nested object is accepted with it.
-/

namespace CanMonitor.Connection

open CanMonitor.Library CanMonitor.Library.Json CanMonitor.Http

/-! ### What a body describes -/

/-- The integer that an id says. -/
def idValue : Value → Option ℤ
  | .number n => n.integer
  | .string s => literal s.content
  | _ => none

/-- The top level of a body describes a frame. -/
structure Describes (d : Document) (id : UInt32) (isExtended : Bool) (data : List UInt8) : Prop where
  id : (d.member (bytes "id")).bind idValue = some (id.toNat : ℤ)
  extended : d.member (bytes "extended") = some (.bool isExtended) ∨
    (d.member (bytes "extended") = none ∧ isExtended = false)
  data : ∃ elements, (d.member (bytes "data")).bind Value.elements = some elements ∧
    elements.map Value.integer = data.map fun b => some (b.toNat : ℤ)

/-! ### Where the scanner looks -/

/-- The first place of a character after the first place of a quoted key. -/
def markAfter (mark : UInt8) (key body : Bytes) : Option ℕ :=
  (find (34 :: key ++ [34]) body).bind fun keyPosition => (find [mark] (body.drop keyPosition)).map (keyPosition + ·)

/-- The scanner looks at the members that it is after. -/
structure InPlace (d : Document) : Prop where
  /-- The colon after the first `"id"`, if there is one, is that of the member `id`. -/
  id : ∀ colon ∈ markAfter 58 (bytes "id") d.text, ∃ p ∈ d.places, p.name = bytes "id" ∧ p.colon = colon
  /-- The colon after the first `"extended"` is that of the member `extended`. -/
  extended : ∀ colon ∈ markAfter 58 (bytes "extended") d.text,
    ∃ p ∈ d.places, p.name = bytes "extended" ∧ p.colon = colon
  /-- The bracket after the first `"data"` is where the value of the member `data` begins. -/
  data : ∀ bracket ∈ markAfter 91 (bytes "data") d.text, ∃ p ∈ d.places, p.name = bytes "data" ∧ p.start = bracket

/-- The members are nothing that the scanner takes for something else. -/
structure Unmistakable (d : Document) : Prop where
  /-- The id is not negative. -/
  id : ∀ v ∈ d.member (bytes "id"), ∀ z ∈ idValue v, 0 ≤ z
  /-- The flag is no string that reads as a truth value or as nothing. -/
  extended : ∀ s, d.member (bytes "extended") = some (.string s) → s.text ∉ [bytes "true", bytes "false", []]
  /-- A flag that is true is found. -/
  found : markAfter 58 (bytes "extended") d.text = none →
    d.member (bytes "extended") = none ∨ d.member (bytes "extended") = some (.bool false)
  /-- No element of the data is negative. -/
  data : ∀ v ∈ d.member (bytes "data"), ∀ elements ∈ v.elements, ∀ e ∈ elements, ∀ z ∈ e.integer, 0 ≤ z

/-! ### Cutting a value out -/

/-- What `readValue` makes of the text from the value on. -/
def scanned (rest : Bytes) : Bytes :=
  let value := trim isTrimmed (rest.takeWhile fun c => c ≠ 44 ∧ c ≠ 125)
  if 2 ≤ value.length ∧ value.head? = some 34 ∧ value.getLast? = some 34 then value.tail.dropLast else value

theorem readValue_eq (body key : Bytes) : readValue body key = (markAfter 58 key body).bind fun colon =>
    let value := scanned ((body.drop (colon + 1)).dropWhile isspace)
    if value = [] then none else some value := by
  unfold readValue markAfter scanned
  cases find (34 :: key ++ [34]) body with
  | none => rfl
  | some keyPosition =>
    cases hcolon : find [58] (body.drop keyPosition) with
    | none => simp [hcolon]
    | some colon => simp [hcolon]

theorem isTrimmed_of_isWhite : ∀ c : UInt8, isWhite c = true → isTrimmed c = true ∧ isspace c = true ∧
    c ≠ 44 ∧ c ≠ 125 ∧ c ≠ 93 := forall_byte (by decide +kernel)

/-- Nothing cuts the text of a value short before the white space after it. -/
theorem takeWhile_value {t : Bytes} (ht : ∀ c ∈ t, c ≠ 44 ∧ c ≠ 125) (after : White) {c : UInt8}
    (hc : c = 44 ∨ c = 125) (post : Bytes) :
    ((t ++ (after.1 ++ c :: post)).takeWhile fun c => c ≠ 44 ∧ c ≠ 125) = t ++ after.1 := by
  have hafter : ∀ a ∈ after.1, a ≠ 44 ∧ a ≠ 125 := fun a ha =>
    have h := isTrimmed_of_isWhite a (after.2 a ha)
    ⟨h.2.2.1, h.2.2.2.1⟩
  rw [List.takeWhile_append_of_pos (by simpa using ht), List.takeWhile_append_of_pos (by simpa using hafter),
    List.takeWhile_cons_of_neg (by rcases hc with rfl | rfl <;> decide), List.append_nil]

/-- A text without blanks, commas, braces and quotes is read as it is. -/
theorem scanned_plain {t : Bytes} (ht : ∀ c ∈ t, c ≠ 44 ∧ c ≠ 125 ∧ c ≠ 34 ∧ isTrimmed c = false) (after : White)
    {c : UInt8} (hc : c = 44 ∨ c = 125) (post : Bytes) : scanned (t ++ (after.1 ++ c :: post)) = t := by
  have htrim : trim isTrimmed (t ++ after.1) = t :=
    trim_append (fun a ha => (ht a (List.mem_of_head? ha)).2.2.2) (fun a ha => (ht a (List.mem_of_getLast? ha)).2.2.2)
      fun a ha => (isTrimmed_of_isWhite a (after.2 a ha)).1
  have hquote : t.head? ≠ some 34 := fun h => (ht 34 (List.mem_of_head? h)).2.2.1 rfl
  unfold scanned
  rw [takeWhile_value (fun c hc => ⟨(ht c hc).1, (ht c hc).2.1⟩) after hc, htrim]
  exact if_neg fun h => hquote h.2.1

/-- What begins with a character other than a quote goes on beginning with it. -/
theorem scanned_head {f : UInt8} (hf : f ≠ 44 ∧ f ≠ 125 ∧ f ≠ 34 ∧ isTrimmed f = false) (t : Bytes) :
    ∃ u, scanned (f :: t) = f :: u := by
  unfold scanned
  rw [List.takeWhile_cons_of_pos (by simpa using ⟨hf.1, hf.2.1⟩), trim_cons hf.2.2.2]
  exact ⟨_, if_neg fun h => hf.2.2.1 (Option.some.inj h.2.1)⟩

/-- A string without commas and braces is read as what is between its quotes. -/
theorem scanned_whole {s : Str} (hcut : ∀ a ∈ s.text, a ≠ 44 ∧ a ≠ 125) (after : White) {c : UInt8}
    (hc : c = 44 ∨ c = 125) (post : Bytes) :
    scanned ((Value.string s).text ++ (after.1 ++ c :: post)) = s.text := by
  have ht : ∀ a ∈ (Value.string s).text, a ≠ 44 ∧ a ≠ 125 := by
    intro a ha
    simp only [Value.text, List.mem_cons, List.mem_append, List.not_mem_nil, or_false] at ha
    rcases ha with rfl | ha | rfl
    · decide
    · exact hcut a ha
    · decide
  have hlast : (Value.string s).text.getLast? = some 34 := List.getLast?_concat (l := 34 :: s.text)
  have htrim : trim isTrimmed ((Value.string s).text ++ after.1) = (Value.string s).text := by
    refine trim_append ?_ ?_ fun a ha => (isTrimmed_of_isWhite a (after.2 a ha)).1
    · rintro a ha
      cases ha
      rfl
    · rintro a ha
      rw [hlast] at ha
      cases ha
      rfl
  unfold scanned
  rw [takeWhile_value ht after hc, htrim]
  refine (if_pos ⟨?_, ?_, hlast⟩).trans ?_
  · simp [Value.text]
  · simp [Value.text]
  · simp [Value.text]

/-- One that is cut short is read with its first quote, or up to a backslash. -/
theorem scanned_cut {s : Str} (hcut : ¬ ∀ a ∈ s.text, a ≠ 44 ∧ a ≠ 125) (rest : Bytes) :
    (∃ u, scanned ((Value.string s).text ++ rest) = 34 :: u) ∨
      (92 : UInt8) ∈ scanned ((Value.string s).text ++ rest) := by
  have hlength : (s.text.takeWhile fun c => decide (c ≠ 44 ∧ c ≠ 125)).length ≠ s.text.length := fun h =>
    hcut (by simpa using List.takeWhile_eq_self_iff.mp ((List.takeWhile_prefix _).eq_of_length h))
  have hshort : ((Value.string s).text ++ rest).takeWhile (fun c => decide (c ≠ 44 ∧ c ≠ 125)) =
      34 :: s.text.takeWhile fun c => decide (c ≠ 44 ∧ c ≠ 125) := by
    rw [Value.text, List.cons_append, List.takeWhile_cons_of_pos (by decide), List.append_assoc,
      List.takeWhile_append, if_neg hlength]
  obtain ⟨u, hu, v, hv⟩ : ∃ u, trim isTrimmed (34 :: s.text.takeWhile fun c => decide (c ≠ 44 ∧ c ≠ 125)) = 34 :: u ∧
      ∃ v, s.text = u ++ v := by
    refine ⟨_, trim_cons (by decide) _, ?_⟩
    obtain ⟨v, hv⟩ := (List.rdropWhile_prefix isTrimmed _).trans
      (List.takeWhile_prefix fun c => decide (c ≠ 44 ∧ c ≠ 125))
    exact ⟨v, hv.symm⟩
  unfold scanned
  rw [hshort, hu]
  simp only
  split_ifs with hquotes
  · -- the last quote is an escaped one
    right
    obtain ⟨hlen, -, hlast⟩ := hquotes
    have hne : u ≠ [] := by
      rintro rfl
      simp at hlen
    rw [List.getLast?_cons_of_ne_nil hne] at hlast
    have hquote : s.text = u.dropLast ++ 34 :: v := by
      rw [hv, ← List.dropLast_append_getLast? 34 hlast]
      simp
    exact List.mem_of_getLast? (Str.getLast_of_quote hquote)
  · exact .inl ⟨u, rfl⟩

/-- **A string** is read as what is between its quotes, or with a quote or a backslash in it. -/
theorem scanned_string (s : Str) (after : White) {c : UInt8} (hc : c = 44 ∨ c = 125) (post : Bytes) :
    scanned ((Value.string s).text ++ (after.1 ++ c :: post)) = s.text ∨
      (∃ u, scanned ((Value.string s).text ++ (after.1 ++ c :: post)) = 34 :: u) ∨
        (92 : UInt8) ∈ scanned ((Value.string s).text ++ (after.1 ++ c :: post)) := by
  by_cases hcut : ∀ a ∈ s.text, a ≠ 44 ∧ a ≠ 125
  · exact .inl (scanned_whole hcut after hc post)
  · exact .inr (scanned_cut hcut _)

theorem not_isspace_of_beginsValue : ∀ c : UInt8, beginsValue c = true → isspace c = false ∧ c ≠ 44 ∧ c ≠ 93 :=
  forall_byte (by decide +kernel)

theorem cut_of_isNumberChar : ∀ c : UInt8, isNumberChar c = true →
    (c ≠ 44 ∧ c ≠ 125 ∧ c ≠ 34 ∧ isTrimmed c = false) ∧ c ≠ 93 ∧ c ≠ 116 ∧ c ≠ 102 := forall_byte (by decide +kernel)

/-- White space before a value is passed over. -/
theorem dropWhile_white (w : White) (v : Value) (rest : Bytes) :
    (w.1 ++ (v.text ++ rest)).dropWhile isspace = v.text ++ rest := by
  obtain ⟨f, t, hvalue, hf⟩ := v.text_cons
  rw [List.dropWhile_append_of_pos fun a ha => (isTrimmed_of_isWhite a (w.2 a ha)).2.1, hvalue]
  exact dropWhile_eq_self (by simpa using (not_isspace_of_beginsValue f hf).1)

/-- **What is read after the colon of a member** is its value, cut. -/
theorem readValue_place {p : Place} {body key : Bytes} (hp : p.StandsIn body)
    (hcolon : markAfter 58 key body = some p.colon) : ∃ (after : White) (c : UInt8) (post : Bytes), (c = 44 ∨ c = 125) ∧
      readValue body key =
        if scanned (p.value.text ++ (after.1 ++ c :: post)) = [] then none
        else some (scanned (p.value.text ++ (after.1 ++ c :: post))) := by
  obtain ⟨pre, mkey, after, c, post, hbody, -, hpre, -, hc⟩ := hp
  refine ⟨after, c, post, hc, ?_⟩
  have hdrop : body.drop (p.colon + 1) = mkey.beforeValue.1 ++ (p.value.text ++ (after.1 ++ c :: post)) := by
    rw [hbody, hpre, ← List.append_assoc, List.drop_append, List.drop_eq_nil_of_le (by simp)]
    simp
  rw [readValue_eq, hcolon, Option.bind_some, hdrop, dropWhile_white]

/-- A text that does not begin like a numeral is no integer literal. -/
theorem literal_eq_none {f : UInt8} (hf : isspace f = false ∧ f ≠ 43 ∧ f ≠ 45 ∧ isDigit 10 f = false) (t : Bytes) :
    literal (f :: t) = none := by
  cases h : literal (f :: t) with
  | none => rfl
  | some z =>
    exfalso
    rcases literal_head h with h | h | h | h
    · simp [hf.1] at h
    · exact hf.2.1 h
    · exact hf.2.2.1 h
    · simp [hf.2.2.2] at h

/-- A value that is read as an integer literal is the integer that an id says. -/
theorem idValue_of_scanned {v : Value} {after : White} {c : UInt8} (hc : c = 44 ∨ c = 125) {post : Bytes} {z : ℤ}
    (h : literal (scanned (v.text ++ (after.1 ++ c :: post))) = some z) : idValue v = some z := by
  have hno : ∀ f : UInt8, (f ≠ 44 ∧ f ≠ 125 ∧ f ≠ 34 ∧ isTrimmed f = false) →
      (isspace f = false ∧ f ≠ 43 ∧ f ≠ 45 ∧ isDigit 10 f = false) → ∀ t, v.text = f :: t → False := by
    intro f hcut hf t ht
    obtain ⟨u, hu⟩ := scanned_head hcut (t ++ (after.1 ++ c :: post))
    rw [ht, List.cons_append, hu, literal_eq_none hf] at h
    cases h
  rcases v.kinds with ⟨n, rfl⟩ | ⟨s, rfl⟩ | ⟨b, rfl⟩ | ⟨f, t, ht, hf⟩
  · rw [Value.text, scanned_plain (fun c hc => (cut_of_isNumberChar c (n.chars c hc)).1) after hc] at h
    exact Number.integer_of_literal h
  · rcases scanned_string s after hc post with hs | ⟨u, hs⟩ | hs
    · rw [hs] at h
      have hslash : (92 : UInt8) ∉ s.text := fun hmem => absurd (literal_chars h hmem) (by decide)
      rw [idValue, Str.content_eq_text hslash, h]
    · rw [hs, literal_eq_none (by decide)] at h
      cases h
    · exact absurd (literal_chars h hs) (by decide)
  · exfalso
    cases b with
    | true => exact hno 116 (by decide) (by decide) _ rfl
    | false => exact hno 102 (by decide) (by decide) _ rfl
  · exfalso
    rcases hf with rfl | rfl | rfl <;> exact hno _ (by decide) (by decide) t ht

theorem word_chars {t : Bytes} (h : t ∈ [bytes "true", bytes "false", []]) :
    (∀ c ∈ t.head?, c = 116 ∨ c = 102) ∧ (92 : UInt8) ∉ t := by
  simp only [List.mem_cons, List.not_mem_nil, or_false] at h
  rcases h with rfl | rfl | rfl <;> decide +kernel

/-- A value that is read as a truth value is one, unless it is a string. -/
theorem bool_of_scanned {v : Value} {after : White} {c : UInt8} (hc : c = 44 ∨ c = 125) {post : Bytes}
    (hs : ∀ s, v = .string s → s.text ∉ [bytes "true", bytes "false", []])
    (h : scanned (v.text ++ (after.1 ++ c :: post)) ∈ [bytes "true", bytes "false", []]) :
    ∃ b, v = .bool b ∧ scanned (v.text ++ (after.1 ++ c :: post)) = v.text := by
  obtain ⟨hhead, hslash⟩ := word_chars h
  have hno : ∀ f : UInt8, (f ≠ 44 ∧ f ≠ 125 ∧ f ≠ 34 ∧ isTrimmed f = false) → ¬ (f = 116 ∨ f = 102) →
      ∀ t, v.text = f :: t → False := by
    intro f hcut hf t ht
    obtain ⟨u, hu⟩ := scanned_head hcut (t ++ (after.1 ++ c :: post))
    rw [ht, List.cons_append, hu] at hhead
    exact hf (hhead f rfl)
  rcases v.kinds with ⟨n, rfl⟩ | ⟨s, rfl⟩ | ⟨b, rfl⟩ | ⟨f, t, ht, hf⟩
  · exfalso
    obtain ⟨f, t, hn⟩ := List.exists_cons_of_ne_nil n.text_ne
    have hf := cut_of_isNumberChar f (n.chars f (hn ▸ List.mem_cons_self))
    refine hno f hf.1 ?_ t hn
    rintro (h | h)
    · exact hf.2.2.1 h
    · exact hf.2.2.2 h
  · exfalso
    rcases scanned_string s after hc post with hs' | ⟨u, hs'⟩ | hs'
    · rw [hs'] at h
      exact hs s rfl h
    · rw [hs'] at hhead
      exact absurd (hhead 34 rfl) (by decide)
    · exact hslash hs'
  · refine ⟨b, rfl, scanned_plain ?_ after hc post⟩
    cases b <;> decide +kernel
  · exfalso
    rcases hf with rfl | rfl | rfl <;> exact hno _ (by decide) (by decide) t ht

/-! ### Reading the bytes -/

theorem parseUnsigned_literal {t : Bytes} {n : ℕ} (h : parseUnsigned t = some n) :
    ∃ z : ℤ, literal t = some z ∧ (0 ≤ z → (n : ℤ) = z) := by
  unfold parseUnsigned at h
  cases hs : strtoull 0 t with
  | none => simp [hs] at h
  | some r =>
    obtain ⟨parsed, consumed⟩ := r
    simp only [hs, Option.ite_none_right_eq_some, Option.some.injEq] at h
    obtain ⟨rfl, rfl⟩ := h
    obtain ⟨z, hz, hmod, -, hlt⟩ := literal_of_strtoull hs
    refine ⟨z, hz, fun hpos => ?_⟩
    rw [hmod, Int.emod_eq_of_lt hpos hlt]

/-- What is before the first closing bracket. -/
def inBracket (t : Bytes) : Bytes := t.takeWhile (· ≠ 93)

theorem blank_of_white (w : White) : ∀ a ∈ w.1, (isspace a || a == 44) = true ∧ a ≠ 93 ∧ a ≠ 44 ∧ isTrimmed a = true :=
  fun a ha =>
    have h := isTrimmed_of_isWhite a (w.2 a ha)
    ⟨by rw [h.2.1, Bool.true_or], h.2.2.2.2, h.2.2.1, h.1⟩

/-- Only numbers begin like a numeral. -/
theorem not_numeral_head {v : Value} (hv : ∀ n, v ≠ .number n) {f : UInt8} {t : Bytes} (h : v.text = f :: t) :
    (isspace f = false ∧ f ≠ 43 ∧ f ≠ 45 ∧ isDigit 10 f = false) ∧ isTrimmed f = false := by
  have hhead : v.text.head? = some f := by
    rw [h]
    rfl
  rcases v.kinds with ⟨n, rfl⟩ | ⟨s, rfl⟩ | ⟨b, rfl⟩ | ⟨c, u, hc, hcases⟩
  · exact absurd rfl (hv n)
  · obtain rfl : (34 : UInt8) = f := Option.some.inj hhead
    decide
  · cases b with
    | true =>
      obtain rfl : (116 : UInt8) = f := Option.some.inj hhead
      decide
    | false =>
      obtain rfl : (102 : UInt8) = f := Option.some.inj hhead
      decide
  · obtain rfl : c = f := by
      rw [hc] at hhead
      exact Option.some.inj hhead
    rcases hcases with rfl | rfl | rfl <;> decide

/-- A number and the blanks after it are one item of the list. -/
theorem item_number (n : Number) (after : White) {x : UInt8} (hx : x = 44 ∨ x = 93) (post : Bytes) :
    (inBracket (n.text ++ (after.1 ++ x :: post))).takeWhile (· ≠ 44) = n.text ++ after.1 ∧
      (inBracket (n.text ++ (after.1 ++ x :: post))).dropWhile (· ≠ 44) = inBracket (x :: post) := by
  have hchars := fun c hc => cut_of_isNumberChar c (n.chars c hc)
  have hblank := blank_of_white after
  have hcut : inBracket (n.text ++ (after.1 ++ x :: post)) = (n.text ++ after.1) ++ inBracket (x :: post) := by
    rw [inBracket, List.takeWhile_append_of_pos (by simpa using fun c hc => (hchars c hc).2.1),
      List.takeWhile_append_of_pos (by simpa using fun a ha => (hblank a ha).2.1), List.append_assoc]
    rfl
  have hitem : ∀ c ∈ n.text ++ after.1, decide (c ≠ 44) = true := by
    intro c hc
    rcases List.mem_append.mp hc with hc | hc
    · simpa using (hchars c hc).1.1
    · simpa using (hblank c hc).2.2.1
  have hstop : (inBracket (x :: post)).takeWhile (· ≠ 44) = [] ∧
      (inBracket (x :: post)).dropWhile (· ≠ 44) = inBracket (x :: post) := by
    rcases hx with rfl | rfl <;> exact ⟨rfl, rfl⟩
  rw [hcut, List.takeWhile_append_of_pos hitem, List.dropWhile_append_of_pos hitem, hstop.1, hstop.2, List.append_nil]
  exact ⟨rfl, rfl⟩

/-- One turn of the loop that reads the bytes. -/
theorem readBytes_turn (data : List UInt8) (before : White) (v : Value) (rest : Bytes) :
    readBytes data (inBracket (before.1 ++ (v.text ++ rest))) =
      match parseUnsigned (trim isTrimmed ((inBracket (v.text ++ rest)).takeWhile (· ≠ 44))) with
      | none => none
      | some byte =>
        if 0xFF < byte ∨ Can.kMaxDataLength ≤ data.length then none
        else readBytes (data ++ [UInt8.ofNat byte]) ((inBracket (v.text ++ rest)).dropWhile (· ≠ 44)) := by
  obtain ⟨f, t, hvalue, hf⟩ := v.text_cons
  have hf' := not_isspace_of_beginsValue f hf
  have hblank := blank_of_white before
  obtain ⟨u, hu⟩ : ∃ u, inBracket (v.text ++ rest) = f :: u :=
    ⟨_, by rw [hvalue, List.cons_append, inBracket, List.takeWhile_cons_of_pos (by simpa using hf'.2.2)]⟩
  -- the blanks before the value are skipped
  have hskip : (inBracket (before.1 ++ (v.text ++ rest))).dropWhile (fun c => isspace c || c == 44) =
      inBracket (v.text ++ rest) := by
    rw [inBracket, List.takeWhile_append_of_pos (by simpa using fun a ha => (hblank a ha).2.1),
      List.dropWhile_append_of_pos fun a ha => (hblank a ha).1]
    change List.dropWhile _ (inBracket (v.text ++ rest)) = _
    rw [hu]
    exact dropWhile_eq_self (by simp [hf'.1, hf'.2.1])
  rw [readBytes, dif_neg (by rw [hskip, hu]; exact List.cons_ne_nil _ _)]
  cases hparse : parseUnsigned (trim isTrimmed ((inBracket (v.text ++ rest)).takeWhile (· ≠ 44))) with
  | none => simp only [hskip, hparse]
  | some byte => simp only [hskip, hparse]

/-- A number is one item, which is its text. -/
theorem trim_number (n : Number) (after : White) : trim isTrimmed (n.text ++ after.1) = n.text := by
  have hchars := fun c hc => (cut_of_isNumberChar c (n.chars c hc)).1.2.2.2
  exact trim_append (fun a ha => hchars a (List.mem_of_head? ha)) (fun a ha => hchars a (List.mem_of_getLast? ha))
    fun a ha => (blank_of_white after a ha).2.2.2

/-- The item of a value before a comma or the closing bracket, if it is accepted. -/
theorem readBytes_element {data out : List UInt8} (before after : White) (v : Value) {x : UInt8} (hx : x = 44 ∨ x = 93)
    {post : Bytes} (hpos : ∀ z ∈ v.integer, 0 ≤ z)
    (h : readBytes data (inBracket (before.1 ++ (v.text ++ (after.1 ++ x :: post)))) = some out) :
    ∃ b : UInt8, v.integer = some (b.toNat : ℤ) ∧ readBytes (data ++ [b]) (inBracket (x :: post)) = some out := by
  rw [readBytes_turn] at h
  cases hparse : parseUnsigned (trim isTrimmed ((inBracket (v.text ++ (after.1 ++ x :: post))).takeWhile (· ≠ 44))) with
  | none =>
    rw [hparse] at h
    cases h
  | some byte =>
    rw [hparse] at h
    simp only [Option.ite_none_left_eq_some] at h
    obtain ⟨hle, h⟩ := h
    obtain ⟨z, hz, hbyte⟩ := parseUnsigned_literal hparse
    by_cases hnumber : ∃ n, v = .number n
    · obtain ⟨n, rfl⟩ := hnumber
      obtain ⟨hitem, hrest⟩ := item_number n after hx post
      rw [Value.text, hitem, trim_number] at hz
      have hint : (Value.number n).integer = some z := Number.integer_of_literal hz
      have hnat : (UInt8.ofNat byte).toNat = byte := by
        rw [UInt8.toNat_ofNat']
        omega
      refine ⟨UInt8.ofNat byte, ?_, ?_⟩
      · rw [hint, hnat, hbyte (hpos z hint)]
      · rwa [Value.text, hrest] at h
    · -- what begins like another value is no numeral
      obtain ⟨f, t, hvalue, hf⟩ := v.text_cons
      have hf' := not_isspace_of_beginsValue f hf
      obtain ⟨hhead, htrimmed⟩ := not_numeral_head (fun n hn => hnumber ⟨n, hn⟩) hvalue
      rw [hvalue, List.cons_append, inBracket, List.takeWhile_cons_of_pos (by simpa using hf'.2.2),
        List.takeWhile_cons_of_pos (by simpa using hf'.2.1), trim_cons htrimmed, literal_eq_none hhead] at hz
      cases hz

/-- A comma is skipped. -/
theorem readBytes_comma (data : List UInt8) (t : Bytes) : readBytes data (44 :: t) = readBytes data t := by
  have hskip : (44 :: t).dropWhile (fun c => isspace c || c == 44) = t.dropWhile fun c => isspace c || c == 44 :=
    List.dropWhile_cons_of_pos (by decide)
  rw [readBytes, readBytes]
  simp only [hskip]

/-- Blanks alone hold no byte. -/
theorem readBytes_blanks (data : List UInt8) {t : Bytes} (ht : ∀ a ∈ t, (isspace a || a == 44) = true) :
    readBytes data t = some data := by
  rw [readBytes, dif_pos (List.dropWhile_eq_nil_iff.mpr ht)]

/-- White space is all there is before the bracket that closes an empty array. -/
theorem inBracket_white (inside : White) (rest : Bytes) : inBracket (inside.1 ++ 93 :: rest) = inside.1 := by
  rw [inBracket, List.takeWhile_append_of_pos (by simpa using fun a ha => (blank_of_white inside a ha).2.1)]
  simp

/-- **The bytes read from an array** are its elements. -/
theorem readBytes_elements : ∀ (elements : Elements) {data out : List UInt8} {post : Bytes},
    (∀ e ∈ elements.list, ∀ z ∈ e.integer, 0 ≤ z) →
    readBytes data (inBracket (elements.text ++ 93 :: post)) = some out →
    ∃ bs : List UInt8, out = data ++ bs ∧ elements.list.map Value.integer = bs.map fun b => some (b.toNat : ℤ)
  | .last before v after, data, out, post, hpos, h => by
    rw [Elements.text, List.append_assoc, List.append_assoc] at h
    obtain ⟨b, hb, hrest⟩ := readBytes_element before after v (.inr rfl) (hpos v List.mem_cons_self) h
    rw [show inBracket (93 :: post) = [] from rfl, readBytes_blanks _ (by simp), Option.some.injEq] at hrest
    exact ⟨[b], hrest.symm, by simp [Elements.list, hb]⟩
  | .cons before v after rest, data, out, post, hpos, h => by
    rw [Elements.text, List.append_assoc, List.append_assoc, List.append_assoc, List.cons_append] at h
    obtain ⟨b, hb, hrest⟩ := readBytes_element before after v (.inl rfl) (hpos v List.mem_cons_self) h
    rw [show inBracket (44 :: (rest.text ++ 93 :: post)) = 44 :: inBracket (rest.text ++ 93 :: post) from rfl,
      readBytes_comma] at hrest
    obtain ⟨bs, rfl, hbs⟩ := readBytes_elements rest (fun e he => hpos e (List.mem_cons_of_mem v he)) hrest
    exact ⟨b :: bs, by simp, by simp [Elements.list, hb, hbs]⟩

/-! ### What is accepted -/

theorem quoted_data : 34 :: bytes "data" ++ [34] = bytes "\"data\"" := by decide

/-- The bracket that the bytes are read after, and what is read. -/
theorem data_of_mark {body : Bytes} {dataKey beginBracket endBracket : ℕ}
    (hkey : find (bytes "\"data\"") body = some dataKey) (hbegin : find [91] (body.drop dataKey) = some beginBracket)
    (hend : find [93] (body.drop (dataKey + beginBracket)) = some endBracket) :
    markAfter 91 (bytes "data") body = some (dataKey + beginBracket) ∧
      ∃ t, body.drop (dataKey + beginBracket) = 91 :: t ∧
        ((body.drop (dataKey + beginBracket)).take endBracket).drop 1 = inBracket t := by
  refine ⟨by rw [markAfter, quoted_data, hkey, Option.bind_some, hbegin]; rfl, ?_⟩
  obtain ⟨t, ht⟩ := find_spec hbegin
  rw [List.drop_drop] at ht
  refine ⟨t, ht.symm, ?_⟩
  rw [take_of_find hend, ← ht]
  rfl

/-- What an accepted body has been read as. -/
theorem parseSendBody_some {body : Bytes} {id : UInt32} {isExtended : Bool} {data : List UInt8}
    (h : parseSendBody body = some (id, isExtended, data)) :
    (∃ text n, readValue body (bytes "id") = some text ∧ parseUnsigned text = some n ∧ id.toNat = n) ∧
      (readValue body (bytes "extended")).getD (bytes "false") = (Value.bool isExtended).text ∧
        ∃ bracket t, markAfter 91 (bytes "data") body = some bracket ∧ body.drop bracket = 91 :: t ∧
          readBytes [] (inBracket t) = some data := by
  unfold parseSendBody at h
  cases hid : (readValue body (bytes "id")).bind parseUnsigned with
  | none =>
    rw [hid] at h
    cases h
  | some n =>
    obtain ⟨text, htext, hn⟩ := Option.bind_eq_some_iff.mp hid
    rw [hid] at h
    simp only [Option.ite_none_left_eq_some] at h
    obtain ⟨hle, h⟩ := h
    split at h
    · cases h
    · rename_i extended hextended
      split at h
      · cases h
      · rename_i dataKey hkey
        split at h
        · cases h
        · rename_i beginBracket hbegin
          split at h
          · cases h
          · rename_i endBracket hend
            obtain ⟨out, hout, heq⟩ := Option.map_eq_some_iff.mp h
            obtain ⟨rfl, rfl, rfl⟩ : UInt32.ofNat n = id ∧ extended = isExtended ∧ out = data := by simpa using heq
            obtain ⟨hmark, t, hdrop, hinside⟩ := data_of_mark hkey hbegin hend
            have hnat : (UInt32.ofNat n).toNat = n := by
              rw [UInt32.toNat_ofNat']
              unfold kMaxId at hle
              omega
            refine ⟨⟨text, n, htext, hn, hnat⟩, ?_, dataKey + beginBracket, t, hmark, hdrop, hinside ▸ hout⟩
            split at hextended
            · rename_i hnone
              cases hextended
              rw [hnone]
              rfl
            · rename_i word hword
              rw [hword]
              split_ifs at hextended with htrue hfalse <;> cases hextended
              · exact htrue
              · exact hfalse

theorem text_bool_injective {a b : Bool} (h : (Value.bool a).text = (Value.bool b).text) : a = b := by
  cases a <;> cases b
  · rfl
  · exact absurd h (by decide)
  · exact absurd h (by decide)
  · rfl

section InPlace

variable {d : Document} (hd : d.Distinct) (hplace : InPlace d)

include hd hplace

/-- The id is that of the top level. -/
theorem id_described (hid : ∀ v ∈ d.member (bytes "id"), ∀ z ∈ idValue v, 0 ≤ z) {text : Bytes} {n : ℕ}
    (hread : readValue d.text (bytes "id") = some text) (hn : parseUnsigned text = some n) :
    (d.member (bytes "id")).bind idValue = some (n : ℤ) := by
  have hread' := hread
  rw [readValue_eq] at hread'
  obtain ⟨colon, hcolon, -⟩ := Option.bind_eq_some_iff.mp hread'
  obtain ⟨p, hp, hname, rfl⟩ := hplace.id colon hcolon
  obtain ⟨after, c, post, hc, hvalue⟩ := readValue_place (Document.standsIn hp) hcolon
  rw [hread, eq_comm, Option.ite_none_left_eq_some, Option.some.injEq] at hvalue
  obtain ⟨-, rfl⟩ := hvalue
  obtain ⟨z, hz, hnz⟩ := parseUnsigned_literal hn
  have hidValue := idValue_of_scanned hc hz
  have hmember := Document.member_of_mem hd hp
  rw [hname] at hmember
  rw [hmember, Option.bind_some, hidValue, hnz (hid p.value hmember z hidValue)]

/-- The flag that is read is that of the body, or there is none and it is `false`. -/
theorem extended_described
    (hstring : ∀ s, d.member (bytes "extended") = some (.string s) → s.text ∉ [bytes "true", bytes "false", []])
    (hfound : markAfter 58 (bytes "extended") d.text = none →
      d.member (bytes "extended") = none ∨ d.member (bytes "extended") = some (.bool false)) {isExtended : Bool}
    (h : (readValue d.text (bytes "extended")).getD (bytes "false") = (Value.bool isExtended).text) :
    d.member (bytes "extended") = some (.bool isExtended) ∨
      (d.member (bytes "extended") = none ∧ isExtended = false) := by
  cases hcolon : markAfter 58 (bytes "extended") d.text with
  | none =>
    rw [readValue_eq, hcolon] at h
    obtain rfl : false = isExtended := text_bool_injective h
    exact (hfound hcolon).symm.imp_right fun hnone => ⟨hnone, rfl⟩
  | some colon =>
    left
    obtain ⟨p, hp, hname, rfl⟩ := hplace.extended colon hcolon
    obtain ⟨after, c, post, hc, hvalue⟩ := readValue_place (Document.standsIn hp) hcolon
    have hmember := Document.member_of_mem hd hp
    rw [hname] at hmember
    have hword : scanned (p.value.text ++ (after.1 ++ c :: post)) ∈ [bytes "true", bytes "false", []] := by
      rw [hvalue] at h
      split_ifs at h with hnil
      · simp [hnil]
      · rw [Option.getD_some] at h
        rw [h]
        cases isExtended <;> simp [Value.text]
    obtain ⟨b, hb, htext⟩ := bool_of_scanned hc (fun s hs => hstring s (hs ▸ hmember)) hword
    have hne : (Value.bool b).text ≠ [] := by cases b <;> decide
    rw [htext, hb, if_neg hne] at hvalue
    rw [hvalue, Option.getD_some] at h
    rw [hmember, hb, text_bool_injective h]

/-- The bytes that are read are the elements of the data of the body. -/
theorem data_described
    (hdata : ∀ v ∈ d.member (bytes "data"), ∀ elements ∈ v.elements, ∀ e ∈ elements, ∀ z ∈ e.integer, 0 ≤ z)
    {bracket : ℕ} {t : Bytes} {data : List UInt8} (hmark : markAfter 91 (bytes "data") d.text = some bracket)
    (hdrop : d.text.drop bracket = 91 :: t) (hread : readBytes [] (inBracket t) = some data) :
    ∃ elements, (d.member (bytes "data")).bind Value.elements = some elements ∧
      elements.map Value.integer = data.map fun b => some (b.toNat : ℤ) := by
  obtain ⟨p, hp, hname, rfl⟩ := hplace.data bracket hmark
  obtain ⟨pre, key, after, c, post, hbody, -, hcolon, hstart, hc⟩ := Document.standsIn hp
  have hmember := Document.member_of_mem hd hp
  rw [hname] at hmember
  have hvalue : p.value.text ++ (after.1 ++ c :: post) = 91 :: t := by
    have hlength : p.start = (pre ++ (key.toColon ++ 58 :: key.beforeValue.1)).length := by
      rw [hstart, hcolon, List.length_append, List.length_append, List.length_cons]
      omega
    have hsplit : d.text = (pre ++ (key.toColon ++ 58 :: key.beforeValue.1)) ++
        (p.value.text ++ (after.1 ++ c :: post)) := by
      rw [hbody]
      simp
    rw [← hdrop, hlength, hsplit, List.drop_left]
  obtain ⟨f, u, htext, -⟩ := p.value.text_cons
  obtain ⟨rfl, -⟩ : f = 91 ∧ u ++ (after.1 ++ c :: post) = t := by
    rwa [htext, List.cons_append, List.cons.injEq] at hvalue
  have hpos := hdata p.value hmember
  rw [hmember, Option.bind_some]
  rcases Value.array_of_text htext with ⟨inside, hv⟩ | ⟨elements, hv⟩
  · have ht : t = inside.1 ++ 93 :: (after.1 ++ c :: post) := by
      rw [hv, Value.text] at hvalue
      simpa using hvalue.symm
    rw [ht, inBracket_white, readBytes_blanks [] fun a ha => (blank_of_white inside a ha).1, Option.some.injEq] at hread
    exact ⟨[], by rw [hv]; rfl, by simp [← hread]⟩
  · have ht : t = elements.text ++ 93 :: (after.1 ++ c :: post) := by
      rw [hv, Value.text] at hvalue
      simpa using hvalue.symm
    rw [ht] at hread
    obtain ⟨bs, hbs, hbytes⟩ := readBytes_elements elements (hpos elements.list (by rw [hv]; rfl)) hread
    exact ⟨elements.list, by rw [hv]; rfl, by rw [hbytes, hbs, List.nil_append]⟩

end InPlace

/-- What is described rightly was unmistakable. -/
theorem Describes.unmistakable {d : Document} {id : UInt32} {isExtended : Bool} {data : List UInt8}
    (h : Describes d id isExtended data) (hfound : markAfter 58 (bytes "extended") d.text = none → isExtended = false) :
    Unmistakable d := by
  refine ⟨fun v hv z hz => ?_, fun s hs => ?_, fun hnone => ?_, fun v hv elements helements e he z hz => ?_⟩
  · have hid := h.id
    rw [Option.mem_def.mp hv, Option.bind_some, Option.mem_def.mp hz, Option.some.injEq] at hid
    omega
  · rcases h.extended with hbool | ⟨hnone, -⟩
    · rw [hs] at hbool
      cases hbool
    · rw [hs] at hnone
      cases hnone
  · rw [hfound hnone] at h
    exact h.extended.symm.imp_left And.left
  · obtain ⟨elements', helements', hbytes⟩ := h.data
    rw [Option.mem_def.mp hv, Option.bind_some, Option.mem_def.mp helements, Option.some.injEq] at helements'
    have hmem : e.integer ∈ elements'.map Value.integer := List.mem_map_of_mem (helements' ▸ he)
    rw [hbytes] at hmem
    obtain ⟨b, -, hb⟩ := List.mem_map.mp hmem
    rw [Option.mem_def.mp hz, Option.some.injEq] at hb
    omega

/-! ### Bodies in which nothing can be mistaken for a key -/

/-- No escapes, no quoted key more than once, and `extended` only as the member. -/
structure Once (d : Document) : Prop where
  noEscape : (92 : UInt8) ∉ d.text
  unique : ∀ key ∈ [bytes "id", bytes "extended", bytes "data"], ∀ i ∈ find (34 :: key ++ [34]) d.text,
    find (34 :: key ++ [34]) (d.text.drop (i + 1)) = none
  extended : d.member (bytes "extended") = none → find (34 :: bytes "extended" ++ [34]) d.text = none

theorem exists_place_of_member {d : Document} {name : Bytes} {v : Value} (h : d.member name = some v) :
    ∃ p ∈ d.places, p.name = name ∧ p.value = v := by
  obtain ⟨p, hp, rfl⟩ := Option.map_eq_some_iff.mp h
  exact ⟨p, List.mem_of_find?_eq_some hp, by simpa using List.find?_some hp, rfl⟩

/-- A quoted key is nowhere but where it is found. -/
theorem Once.eq_of_find {d : Document} (h : Once d) {key : Bytes}
    (hkey : key ∈ [bytes "id", bytes "extended", bytes "data"]) {i j : ℕ}
    (hi : find (34 :: key ++ [34]) d.text = some i) (hj : 34 :: key ++ [34] <+: d.text.drop j) : i = j := by
  have hne : 34 :: key ++ [34] ≠ [] := List.cons_ne_nil _ _
  obtain ⟨k, hk, hfind⟩ := find_of_prefix hne hj
  obtain rfl : i = k := Option.some.inj (hi.symm.trans hfind)
  by_contra hlt
  have hlater : d.text.drop j = (d.text.drop (i + 1)).drop (j - (i + 1)) := by
    rw [List.drop_drop]
    congr 1
    omega
  obtain ⟨k, -, hagain⟩ := find_of_prefix hne (hlater ▸ hj)
  rw [h.unique key hkey i hi] at hagain
  cases hagain

/-- The scanner finds the key of the member. -/
theorem Once.mark_of_place {d : Document} (h : Once d) {p : Place} (hp : p ∈ d.places)
    (hkey : p.name ∈ [bytes "id", bytes "extended", bytes "data"]) {mark : UInt8} {m : ℕ}
    (hm : markAfter mark p.name d.text = some m) : ∃ (i : ℕ) (afterName beforeValue : White) (rest : Bytes),
      d.text.drop i = 34 :: (p.name ++ 34 :: (afterName.1 ++ 58 :: (beforeValue.1 ++ (p.value.text ++ rest)))) ∧
        p.colon = i + (p.name.length + 2 + afterName.1.length) ∧ p.start = p.colon + 1 + beforeValue.1.length ∧
          (find [mark] (d.text.drop i)).map (i + ·) = some m := by
  obtain ⟨pre, key, after, c, post, hbody, hname, hcolon, hstart, -⟩ := Document.standsIn hp
  have htext : key.name.text = p.name := by
    refine (hname.trans (Str.content_eq_text fun hmem => h.noEscape ?_)).symm
    simp [hbody, Key.toColon, hmem]
  have hdrop : d.text.drop (pre ++ key.before.1).length = 34 :: (p.name ++ 34 ::
      (key.afterName.1 ++ 58 :: (key.beforeValue.1 ++ (p.value.text ++ (after.1 ++ c :: post))))) := by
    rw [hbody, Key.toColon, htext, List.append_assoc key.before.1, ← List.append_assoc pre, List.drop_left]
    simp
  obtain ⟨i, hi, hmark⟩ := Option.bind_eq_some_iff.mp hm
  have hquoted : 34 :: p.name ++ [34] <+: d.text.drop (pre ++ key.before.1).length := by
    rw [hdrop]
    exact ⟨key.afterName.1 ++ 58 :: (key.beforeValue.1 ++ (p.value.text ++ (after.1 ++ c :: post))), by simp⟩
  obtain rfl : i = (pre ++ key.before.1).length := h.eq_of_find hkey hi hquoted
  refine ⟨_, key.afterName, key.beforeValue, _, hdrop, ?_, hstart, hmark⟩
  rw [hcolon, Key.toColon, htext]
  simp only [List.length_append, List.length_cons]
  omega

theorem not_mark_of_key {key : Bytes} (hkey : key ∈ [bytes "id", bytes "extended", bytes "data"]) :
    (58 : UInt8) ∉ key ∧ (91 : UInt8) ∉ key := by
  simp only [List.mem_cons, List.not_mem_nil, or_false] at hkey
  rcases hkey with rfl | rfl | rfl <;> decide

theorem not_mark_of_white (w : White) : (58 : UInt8) ∉ w.1 ∧ (91 : UInt8) ∉ w.1 :=
  ⟨fun h => absurd (w.2 58 h) (by decide), fun h => absurd (w.2 91 h) (by decide)⟩

section Marks

variable {key : Bytes} (hkey : key ∈ [bytes "id", bytes "extended", bytes "data"])

include hkey

/-- Nothing between a quoted key and its colon is a colon. -/
theorem not_colon_of_key (afterName : White) : (58 : UInt8) ∉ 34 :: (key ++ 34 :: afterName.1) := by
  simp only [List.mem_cons, List.mem_append, not_or]
  exact ⟨by decide, (not_mark_of_key hkey).1, by decide, (not_mark_of_white afterName).1⟩

/-- Nothing between a quoted key and its value is a bracket. -/
theorem not_bracket_of_key (afterName beforeValue : White) :
    (91 : UInt8) ∉ 34 :: (key ++ 34 :: (afterName.1 ++ 58 :: beforeValue.1)) := by
  simp only [List.mem_cons, List.mem_append, not_or]
  exact ⟨by decide, (not_mark_of_key hkey).2, by decide, (not_mark_of_white afterName).2, by decide,
    (not_mark_of_white beforeValue).2⟩

end Marks

/-- The colon that the search for a key comes to is that of the member. -/
theorem Once.colon_eq {d : Document} (h : Once d) {p : Place} (hp : p ∈ d.places)
    (hkey : p.name ∈ [bytes "id", bytes "extended", bytes "data"]) {colon : ℕ}
    (hm : markAfter 58 p.name d.text = some colon) : p.colon = colon := by
  obtain ⟨i, afterName, beforeValue, rest, hdrop, hcolon, -, hmark⟩ := h.mark_of_place hp hkey hm
  have hno := not_colon_of_key hkey afterName
  have hsplit : 34 :: (p.name ++ 34 :: (afterName.1 ++ 58 :: (beforeValue.1 ++ (p.value.text ++ rest)))) =
      34 :: (p.name ++ 34 :: afterName.1) ++ 58 :: (beforeValue.1 ++ (p.value.text ++ rest)) := by simp
  rw [hdrop, hsplit, find_singleton hno, Option.map_some, Option.some.injEq] at hmark
  rw [hcolon, ← hmark, List.length_cons, List.length_append, List.length_cons]
  omega

/-- The bracket that the search for a key comes to is that of the member's array. -/
theorem Once.start_eq {d : Document} (h : Once d) {p : Place} (hp : p ∈ d.places)
    (hkey : p.name ∈ [bytes "id", bytes "extended", bytes "data"]) {t : Bytes} (ht : p.value.text = 91 :: t)
    {bracket : ℕ} (hm : markAfter 91 p.name d.text = some bracket) : p.start = bracket := by
  obtain ⟨i, afterName, beforeValue, rest, hdrop, hcolon, hstart, hmark⟩ := h.mark_of_place hp hkey hm
  have hno := not_bracket_of_key hkey afterName beforeValue
  have hsplit : 34 :: (p.name ++ 34 :: (afterName.1 ++ 58 :: (beforeValue.1 ++ (p.value.text ++ rest)))) =
      34 :: (p.name ++ 34 :: (afterName.1 ++ 58 :: beforeValue.1)) ++ 91 :: (t ++ rest) := by simp [ht]
  rw [hdrop, hsplit, find_singleton hno, Option.map_some, Option.some.injEq] at hmark
  rw [hstart, hcolon, ← hmark]
  simp only [List.length_cons, List.length_append]
  omega

/-- Of a body with each word once, what is described rightly was read in place. -/
theorem Describes.inPlace {d : Document} {id : UInt32} {isExtended : Bool} {data : List UInt8}
    (h : Describes d id isExtended data) (honce : Once d) : InPlace d := by
  constructor
  · intro colon hm
    obtain ⟨v, hv, -⟩ := Option.bind_eq_some_iff.mp h.id
    obtain ⟨p, hp, hname, -⟩ := exists_place_of_member hv
    rw [← hname] at hm
    exact ⟨p, hp, hname, honce.colon_eq hp (by simp [hname]) hm⟩
  · intro colon hm
    cases hv : d.member (bytes "extended") with
    | none =>
      rw [markAfter, honce.extended hv] at hm
      cases hm
    | some v =>
      obtain ⟨p, hp, hname, -⟩ := exists_place_of_member hv
      rw [← hname] at hm
      exact ⟨p, hp, hname, honce.colon_eq hp (by simp [hname]) hm⟩
  · intro bracket hm
    obtain ⟨elements, helements, -⟩ := h.data
    obtain ⟨v, hv, harray⟩ := Option.bind_eq_some_iff.mp helements
    obtain ⟨p, hp, hname, rfl⟩ := exists_place_of_member hv
    obtain ⟨t, ht⟩ := Value.text_of_elements harray
    rw [← hname] at hm
    exact ⟨p, hp, hname, honce.start_eq hp (by simp [hname]) ht hm⟩

/-- **The frame is the one that the body describes.** Of a body that is accepted with the
scanner at the right members, exactly when they are unmistakable; and of a body in which
nothing else can be mistaken for a key, only when the scanner is at the right members. -/
theorem send_body_described {d : Document} (hd : d.Distinct) {id : UInt32} {isExtended : Bool} {data : List UInt8}
    (h : parseSendBody d.text = some (id, isExtended, data)) :
    (InPlace d → (Describes d id isExtended data ↔ Unmistakable d)) ∧
      (Once d → (Describes d id isExtended data ↔ InPlace d ∧ Unmistakable d)) := by
  obtain ⟨⟨text, n, htext, hn, hid⟩, hextended, bracket, t, hmark, hdrop, hread⟩ := parseSendBody_some h
  have hunmistakable : Describes d id isExtended data → Unmistakable d := by
    refine fun hdescribes => hdescribes.unmistakable fun hnone => ?_
    rw [readValue_eq, hnone] at hextended
    exact (text_bool_injective (a := false) hextended).symm
  have hdescribed : InPlace d → Unmistakable d → Describes d id isExtended data := by
    intro hplace hplain
    constructor
    · rw [hid]
      exact id_described hd hplace hplain.id htext hn
    · exact extended_described hd hplace hplain.extended hplain.found hextended
    · exact data_described hd hplace hplain.data hmark hdrop hread
  exact ⟨fun hplace => ⟨hunmistakable, hdescribed hplace⟩,
    fun honce => ⟨fun hdescribes => ⟨hdescribes.inPlace honce, hunmistakable hdescribes⟩,
      fun hboth => hdescribed hboth.1 hboth.2⟩⟩

/-- A key without blanks. -/
def plainKey (name : String) : Key := ⟨.none, .plain (bytes name), .none, .none⟩

/-- A number of one digit or more. -/
def plainNumber (digits : Bytes)
    (h : digits ≠ [] ∧ digits.head? ≠ some 48 ∧ ∀ d ∈ digits, isDigit 10 d = true) : Value :=
  .number ⟨false, digits, .inr h, [], nofun, none⟩

/-- `[17,34]` -/
def twoBytes : Value :=
  .array (.cons .none (plainNumber (bytes "17") (by decide +kernel)) .none
    (.last .none (plainNumber (bytes "34") (by decide +kernel)) .none))

/-- A body in which the members of the top level come first. -/
def plainBody : Document :=
  ⟨.none, .object (.cons (plainKey "id") (.string (.plain (bytes "0x123"))) .none
    (.cons (plainKey "extended") (.bool false) .none (.last (plainKey "data") twoBytes .none))), .none⟩

theorem send_body_described_plain :
    plainBody.text = bytes "\x7b\"id\":\"0x123\",\"extended\":false,\"data\":[17,34]\x7d" ∧
      parseSendBody plainBody.text = some (0x123, false, [17, 34]) ∧ InPlace plainBody ∧ Once plainBody ∧
        (Describes plainBody 0x123 false [17, 34] ↔ Unmistakable plainBody) ∧
          (Describes plainBody 0x123 false [17, 34] ↔ InPlace plainBody ∧ Unmistakable plainBody) := by
  have hparse : parseSendBody plainBody.text = some (0x123, false, [17, 34]) := by decide +kernel
  have hdistinct : plainBody.Distinct := by
    unfold Document.Distinct
    decide +kernel
  have hplace : InPlace plainBody := ⟨by decide +kernel, by decide +kernel, by decide +kernel⟩
  have honce : Once plainBody := ⟨by decide +kernel, by decide +kernel, by decide +kernel⟩
  exact ⟨by decide +kernel, hparse, hplace, honce, (send_body_described hdistinct hparse).1 hplace,
    (send_body_described hdistinct hparse).2 honce⟩

/-- A body whose only id is in a nested object. -/
def nestedBody : Document :=
  ⟨.none, .object (.cons (plainKey "x")
      (.object (.last (plainKey "id") (plainNumber (bytes "1") (by decide +kernel)) .none)) .none
    (.last (plainKey "data") twoBytes .none)), .none⟩

/-- The nested id is taken: the body is accepted with an id that its top level does not have. -/
theorem send_body_misread :
    nestedBody.text = bytes "\x7b\"x\":\x7b\"id\":1\x7d,\"data\":[17,34]\x7d" ∧ nestedBody.Distinct ∧
      parseSendBody nestedBody.text = some (1, false, [17, 34]) ∧ ¬ Describes nestedBody 1 false [17, 34] := by
  refine ⟨by decide +kernel, ?_, by decide +kernel, fun h => ?_⟩
  · unfold Document.Distinct
    decide +kernel
  · have hnone : (nestedBody.member (bytes "id")).isNone = true := by decide +kernel
    have hid := h.id
    rw [Option.isNone_iff_eq_none.mp hnone] at hid
    cases hid

end CanMonitor.Connection
