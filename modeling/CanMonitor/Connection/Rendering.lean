import CanMonitor.Connection.Parameters
import CanMonitor.Connection.SendBody

/-!
# Bodies as clients write them

A client writes a send request as one JSON object with an `id`, a `data` and perhaps an
`extended`, in any order and with white space wherever JSON allows it. `parseSendBody`, which
does not read JSON, reads every such body right.

## The model

`Renders` relates a JSON document to what is written in it: an id as a decimal number, or as a
string with a decimal or a hexadecimal numeral; the data as decimal numbers. Documents record
their white space, so that a body with any is one.

## What is proved

* `find_members` — the search for a quoted key comes to the member of that name, over members
  before it: in what clients write there is no quote that could be that of another.
* `readBytes_naturals` — the loop over the numbers accepts eight that are bytes at most.
* `send_body_accepted_iff` — a body is accepted exactly when its id is one of 29 bits and its
  data are at most eight bytes, and is read as what is written.
-/

namespace CanMonitor.Connection

open CanMonitor.Library CanMonitor.Library.Json CanMonitor.Can CanMonitor.Http

/-! ### What clients write -/

/-- A decimal numeral, or a hexadecimal one with its prefix. -/
def IsNumeral (t : Bytes) (n : ℕ) : Prop :=
  t = decimal n ∨ ∃ x ds, t = 48 :: x :: ds ∧ (x = 120 ∨ x = 88) ∧ ds ≠ [] ∧ (∀ c ∈ ds, isDigit 16 c = true) ∧
    value 16 ds = n

/-- The value of an id: a decimal number, or a string with a numeral. -/
def WritesId (v : Value) (id : ℕ) : Prop :=
  (∃ k : Number, v = .number k ∧ k.text = decimal id) ∨ ∃ s : Str, v = .string s ∧ IsNumeral s.text id

/-- A decimal number. -/
def WritesNumber (v : Value) (n : ℕ) : Prop := ∃ k : Number, v = .number k ∧ k.text = decimal n

/-- The value of the data: an array of decimal numbers. -/
def WritesData (v : Value) (data : List ℕ) : Prop := ∃ vs, v.elements = some vs ∧ List.Forall₂ WritesNumber vs data

/-- The names of the members as they are written, and their values. -/
def written : Members → List (Bytes × Value)
  | .last key value _ => [(key.name.text, value)]
  | .cons key value _ rest => (key.name.text, value) :: written rest

/-- The document is an object with these members, in some order. -/
def Renders (d : Document) (id : ℕ) (extended : Option Bool) (data : List ℕ) : Prop :=
  ∃ members idValue dataValue, d.value = .object members ∧ WritesId idValue id ∧ WritesData dataValue data ∧
    (written members).Perm ((bytes "id", idValue) :: (bytes "data", dataValue) ::
      extended.toList.map fun b => (bytes "extended", .bool b))

/-! ### Finding a member -/

/-- The names of the members. -/
def keys : List Bytes := [bytes "id", bytes "extended", bytes "data"]

/-- Does a name begin so? -/
def beginsKey (c : UInt8) : Bool := c == 105 || c == 101 || c == 100

theorem keys_spec {key : Bytes} (h : key ∈ keys) : (34 : UInt8) ∉ key ∧ ∃ c t, key = c :: t ∧ beginsKey c = true := by
  simp only [keys, List.mem_cons, List.not_mem_nil, or_false] at h
  rcases h with rfl | rfl | rfl
  · exact ⟨by decide, _, _, rfl, by decide⟩
  · exact ⟨by decide, _, _, rfl, by decide⟩
  · exact ⟨by decide, _, _, rfl, by decide⟩

theorem white_quote (w : White) : (34 : UInt8) ∉ w.1 := fun h => absurd (w.2 34 h) (by decide)

theorem white_beginsKey (w : White) {rest : Bytes} (h : ∀ c ∈ rest.head?, beginsKey c = false) :
    ∀ c ∈ (w.1 ++ rest).head?, beginsKey c = false := by
  have hwhite : ∀ c : UInt8, isWhite c = true → beginsKey c = false := forall_byte (by decide +kernel)
  obtain ⟨w, hw⟩ := w
  cases w with
  | nil => exact h
  | cons c w =>
    intro a ha
    cases ha
    exact hwhite c (hw c List.mem_cons_self)

/-- Where there is no quote there is no name. -/
theorem passesOver_plain {key l : Bytes} (hl : (34 : UInt8) ∉ l) (s : Bytes) : PassesOver (34 :: key ++ [34]) l s :=
  find_skip hl s

theorem find_plain {key s : Bytes} (hs : (34 : UInt8) ∉ s) : find (34 :: key ++ [34]) s = none := by
  have hpass : PassesOver (34 :: key ++ [34]) s [] := passesOver_plain hs []
  rw [PassesOver, List.append_nil] at hpass
  rw [hpass, show find (34 :: key ++ [34]) [] = none from if_neg (List.cons_ne_nil _ _)]
  rfl

variable {key : Bytes} (hkey : key ∈ keys)

include hkey

/-- A quote that no name comes after. -/
theorem passesOver_quote {s : Bytes} (h : ∀ c ∈ s.head?, beginsKey c = false) : PassesOver (34 :: key ++ [34]) [34] s := by
  obtain ⟨-, c, t, rfl, hc⟩ := keys_spec hkey
  refine passesOver_singleton fun hstarts => ?_
  obtain ⟨u, hu⟩ := hstarts
  obtain rfl : s = c :: (t ++ [34] ++ u) := by simpa using (List.cons.inj hu).2.symm
  rw [h c rfl] at hc
  cases hc

/-- The search for a key passes over another name. -/
theorem passesOver_name {name : Bytes} (hname : name ∈ keys) (hne : name ≠ key) (s : Bytes) :
    PassesOver (34 :: key ++ [34]) (34 :: name) (34 :: s) := by
  have hquote := (keys_spec hname).1
  have hquote' := (keys_spec hkey).1
  refine PassesOver.append (passesOver_singleton fun hstarts => ?_) (passesOver_plain hquote _) (l := [34])
  obtain ⟨u, hu⟩ := hstarts
  have hsplit : key ++ 34 :: u = name ++ 34 :: s := by simpa using (List.cons.inj hu).2
  have hrun : ∀ {t : Bytes}, (34 : UInt8) ∉ t → ∀ c ∈ t, decide (c ≠ 34) = true :=
    fun h c hc => decide_eq_true fun heq => h (heq ▸ hc)
  exact hne (run_unique (hrun hquote') (hrun hquote) (by simp) (by simp) hsplit).1.symm

/-- Nothing in the text of a value could be a name. -/
def Passable (v : Value) : Prop := (34 : UInt8) ∉ v.text ∨ ∃ s : Str, v = .string s ∧ (34 : UInt8) ∉ s.text ∧
  ∃ c t, s.text = c :: t ∧ beginsKey c = false

/-- The value of a member. -/
theorem passesOver_value {v : Value} (hv : Passable v) {s : Bytes} (h : ∀ c ∈ s.head?, beginsKey c = false) :
    PassesOver (34 :: key ++ [34]) v.text s := by
  rcases hv with hv | ⟨str, rfl, hquote, c, t, htext, hc⟩
  · exact passesOver_plain hv s
  · have hopen : PassesOver (34 :: key ++ [34]) [34] (str.text ++ [34] ++ s) :=
      passesOver_quote hkey (by rw [htext]; simpa using hc)
    exact hopen.append ((passesOver_plain hquote _).append (passesOver_quote hkey h))

/-- A member of another name, up to what ends it. -/
theorem passesOver_member {k : Json.Key} (hname : k.name.text ∈ keys) (hne : k.name.text ≠ key) {v : Value} (hv : Passable v)
    (after : White) {c : UInt8} (hc : c = 44 ∨ c = 125) (s : Bytes) :
    PassesOver (34 :: key ++ [34]) (k.toColon ++ 58 :: (k.beforeValue.1 ++ v.text ++ after.1)) (c :: s) := by
  have hend : ∀ a ∈ (c :: s).head?, beginsKey a = false := by
    rintro a ⟨⟩
    rcases hc with rfl | rfl <;> rfl
  have hcolon : (34 : UInt8) ∉ 58 :: k.beforeValue.1 := by
    rw [List.mem_cons, not_or]
    exact ⟨by decide, white_quote k.beforeValue⟩
  have hvalue := passesOver_value hkey hv (white_beginsKey after hend)
  have hafter : PassesOver (34 :: key ++ [34]) after.1 (c :: s) := passesOver_plain (white_quote after) (c :: s)
  have hclose : PassesOver (34 :: key ++ [34]) [34]
      (k.afterName.1 ++ (58 :: k.beforeValue.1 ++ (v.text ++ after.1)) ++ c :: s) := by
    refine passesOver_quote hkey ?_
    rw [List.append_assoc]
    exact white_beginsKey k.afterName (by rintro a ⟨⟩; rfl)
  have hparts : k.toColon ++ 58 :: (k.beforeValue.1 ++ v.text ++ after.1) =
      k.before.1 ++ (34 :: k.name.text ++ ([34] ++ (k.afterName.1 ++ (58 :: k.beforeValue.1 ++ (v.text ++ after.1))))) := by
    simp [Key.toColon]
  rw [hparts]
  refine (passesOver_plain (white_quote k.before) _).append (PassesOver.append ?_ (hclose.append
    ((passesOver_plain (white_quote k.afterName) _).append
      ((passesOver_plain hcolon _).append (hvalue.append hafter)))))
  exact passesOver_name hkey hname hne _

/-- The search for a quoted key comes to the first member of that name. -/
theorem find_members : ∀ (members : Members), (∀ m ∈ written members, m.1 ∈ keys ∧ Passable m.2) → ∀ s : Bytes,
    ((written members).find? (·.1 = key) = none → PassesOver (34 :: key ++ [34]) members.text (125 :: s)) ∧
      ∀ v, (written members).find? (·.1 = key) = some (key, v) →
        ∃ (pre : Bytes) (afterName beforeValue after : White) (c : UInt8) (post : Bytes), (c = 44 ∨ c = 125) ∧
          members.text ++ 125 :: s = pre ++ 34 :: (key ++ 34 :: (afterName.1 ++ 58 :: (beforeValue.1 ++
            (v.text ++ (after.1 ++ c :: post))))) ∧
          PassesOver (34 :: key ++ [34]) pre (34 :: (key ++ 34 :: (afterName.1 ++ 58 :: (beforeValue.1 ++
            (v.text ++ (after.1 ++ c :: post))))))
  | .last k v after, h, s => by
    obtain ⟨hname, hv⟩ := h (k.name.text, v) List.mem_cons_self
    rw [written]
    by_cases hk : k.name.text = key
    · refine ⟨fun hnone => by simp [hk] at hnone, fun w hw => ?_⟩
      obtain rfl : v = w := by simpa [hk] using hw
      refine ⟨k.before.1, k.afterName, k.beforeValue, after, 125, s, .inr rfl, ?_,
        passesOver_plain (white_quote k.before) _⟩
      simp [Members.text, Key.toColon, hk]
    · exact ⟨fun _ => passesOver_member hkey hname hk hv after (.inr rfl) s, fun w hw => by simp [hk] at hw⟩
  | .cons k v after rest, h, s => by
    obtain ⟨hname, hv⟩ := h (k.name.text, v) List.mem_cons_self
    obtain ⟨hnone, hsome⟩ := find_members rest (fun m hm => h m (List.mem_cons_of_mem _ hm)) s
    rw [written]
    by_cases hk : k.name.text = key
    · refine ⟨fun hnone => by simp [hk] at hnone, fun w hw => ?_⟩
      obtain rfl : v = w := by simpa [hk] using hw
      refine ⟨k.before.1, k.afterName, k.beforeValue, after, 44, rest.text ++ 125 :: s, .inl rfl, ?_,
        passesOver_plain (white_quote k.before) _⟩
      simp [Members.text, Key.toColon, hk]
    · rw [List.find?_cons_of_neg (by simpa using hk)]
      have hcomma : (34 : UInt8) ∉ [44] := by decide
      have hmember : ∀ t, PassesOver (34 :: key ++ [34])
          (k.toColon ++ 58 :: (k.beforeValue.1 ++ v.text ++ after.1) ++ [44]) t := fun t =>
        (passesOver_member hkey hname hk hv after (.inl rfl) t).append (passesOver_plain hcomma t)
      have htext : Members.text (.cons k v after rest) =
          k.toColon ++ 58 :: (k.beforeValue.1 ++ v.text ++ after.1) ++ [44] ++ rest.text := by simp [Members.text]
      refine ⟨fun hno => ?_, fun w hw => ?_⟩
      · rw [htext]
        exact (hmember _).append (hnone hno)
      · obtain ⟨pre, afterName, beforeValue, after', c, post, hc, hsplit, hpass⟩ := hsome w hw
        refine ⟨_, afterName, beforeValue, after', c, post, hc, ?_, (hmember _).append hpass⟩
        rw [htext, List.append_assoc _ rest.text, hsplit]
        simp

/-- In the text of an object the search for a key comes to the member of that name, if there is one. -/
theorem find_document {d : Document} {members : Members} (hd : d.value = .object members)
    (h : ∀ m ∈ written members, m.1 ∈ keys ∧ Passable m.2) :
    ((written members).find? (·.1 = key) = none → find (34 :: key ++ [34]) d.text = none) ∧
      ∀ v, (written members).find? (·.1 = key) = some (key, v) →
        ∃ (i : ℕ) (afterName beforeValue after : White) (c : UInt8) (post : Bytes), (c = 44 ∨ c = 125) ∧
          find (34 :: key ++ [34]) d.text = some i ∧
            d.text.drop i = 34 :: (key ++ 34 :: (afterName.1 ++ 58 :: (beforeValue.1 ++ (v.text ++ (after.1 ++ c :: post))))) := by
  have hopen : (34 : UInt8) ∉ d.before.1 ++ [123] := by
    rw [List.mem_append, not_or]
    exact ⟨white_quote d.before, by decide⟩
  have hclose : (34 : UInt8) ∉ 125 :: d.after.1 := by
    rw [List.mem_cons, not_or]
    exact ⟨by decide, white_quote d.after⟩
  have htext : d.text = (d.before.1 ++ [123]) ++ (members.text ++ 125 :: d.after.1) := by
    simp [Document.text, hd, Value.text]
  obtain ⟨hnone, hsome⟩ := find_members hkey members h d.after.1
  constructor
  · intro hno
    have hrest := (hnone hno).trans (congrArg _ (find_plain hclose))
    rw [htext]
    exact (passesOver_plain hopen _).trans (congrArg _ hrest)
  · intro v hv
    obtain ⟨pre, afterName, beforeValue, after, c, post, hc, hsplit, hpass⟩ := hsome v hv
    have hall := (passesOver_plain hopen _).append hpass
    refine ⟨(d.before.1 ++ [123] ++ pre).length, afterName, beforeValue, after, c, post, hc, ?_, ?_⟩
    · rw [htext, hsplit, ← List.append_assoc]
      exact hall.find_eq ⟨afterName.1 ++ 58 :: (beforeValue.1 ++ (v.text ++ (after.1 ++ c :: post))), by simp⟩
        (List.cons_ne_nil _ _)
    · rw [htext, hsplit, ← List.append_assoc]
      exact List.drop_left

/-! ### Reading the values -/

/-- What is read for a key is the value of its member, cut. -/
theorem readValue_written {d : Document} {members : Members} (hd : d.value = .object members)
    (h : ∀ m ∈ written members, m.1 ∈ keys ∧ Passable m.2) {v : Value}
    (hv : (written members).find? (·.1 = key) = some (key, v)) :
    ∃ (after : White) (c : UInt8) (post : Bytes), (c = 44 ∨ c = 125) ∧ readValue d.text key =
      if scanned (v.text ++ (after.1 ++ c :: post)) = [] then none
      else some (scanned (v.text ++ (after.1 ++ c :: post))) := by
  obtain ⟨i, afterName, beforeValue, after, c, post, hc, hfind, hdrop⟩ := (find_document hkey hd h).2 v hv
  refine ⟨after, c, post, hc, ?_⟩
  have hsplit : d.text.drop i = 34 :: (key ++ 34 :: afterName.1) ++ 58 :: (beforeValue.1 ++
      (v.text ++ (after.1 ++ c :: post))) := by simp [hdrop]
  have hmark : markAfter 58 key d.text = some (i + (34 :: (key ++ 34 :: afterName.1)).length) := by
    rw [markAfter, hfind, Option.bind_some, hsplit, find_singleton (not_colon_of_key hkey afterName)]
    rfl
  have hrest : d.text.drop (i + (34 :: (key ++ 34 :: afterName.1)).length + 1) =
      beforeValue.1 ++ (v.text ++ (after.1 ++ c :: post)) := by
    rw [Nat.add_assoc, ← List.drop_drop, hsplit, drop_after]
  rw [readValue_eq, hmark, Option.bind_some, hrest, dropWhile_white]

/-- Nothing is read for a key without a member. -/
theorem readValue_absent {d : Document} {members : Members} (hd : d.value = .object members)
    (h : ∀ m ∈ written members, m.1 ∈ keys ∧ Passable m.2) (hnone : (written members).find? (·.1 = key) = none) :
    readValue d.text key = none := by
  rw [readValue, (find_document hkey hd h).1 hnone]
  rfl

omit hkey

theorem isNumeral_literal {t : Bytes} {n : ℕ} (h : IsNumeral t n) : UnsignedLiteral t n := by
  rcases h with rfl | ⟨x, ds, rfl, hx, hne, hd, rfl⟩
  · exact unsignedLiteral_decimal n
  · exact .hexadecimal hx hne hd

/-- The characters of a literal end no value and no string. -/
theorem literal_cut {t : Bytes} {n : ℕ} (h : UnsignedLiteral t n) :
    ∀ c ∈ t, c ≠ 44 ∧ c ≠ 125 ∧ c ≠ 34 ∧ isTrimmed c = false := by
  have hdigit : ∀ c : UInt8, isDigit 16 c = true → c ≠ 44 ∧ c ≠ 125 ∧ c ≠ 34 ∧ isTrimmed c = false :=
    forall_byte (by decide +kernel)
  have hle : ∀ {b : ℕ} {c : UInt8}, b ≤ 16 → isDigit b c = true → isDigit 16 c = true := fun hb hc =>
    decide_eq_true ((of_decide_eq_true hc).trans_le hb)
  rcases h with ⟨-, -, hd⟩ | hd | ⟨hx, -, hd⟩
  · exact fun c hc => hdigit c (hle (by decide) (hd c hc))
  · exact List.forall_mem_cons.mpr ⟨by decide, fun c hc => hdigit c (hle (by decide) (hd c hc))⟩
  · refine List.forall_mem_cons.mpr ⟨by decide, List.forall_mem_cons.mpr ⟨?_, fun c hc => hdigit c (hd c hc)⟩⟩
    rcases hx with rfl | rfl <;> decide

/-- An id as it is written is read as its number. -/
theorem scanned_id {v : Value} {id : ℕ} (h : WritesId v id) (after : White) {c : UInt8} (hc : c = 44 ∨ c = 125) (post : Bytes) :
    UnsignedLiteral (scanned (v.text ++ (after.1 ++ c :: post))) id := by
  rcases h with ⟨k, rfl, hk⟩ | ⟨s, rfl, hs⟩
  · have hliteral := unsignedLiteral_decimal id
    rw [Value.text, hk, scanned_plain (literal_cut hliteral) after hc]
    exact hliteral
  · have hliteral := isNumeral_literal hs
    have hcut := literal_cut hliteral
    rw [scanned_whole (fun a ha => ⟨(hcut a ha).1, (hcut a ha).2.1⟩) after hc]
    exact hliteral

/-- One turn of the loop, over a number. -/
theorem readBytes_number {v : Value} {n : ℕ} (hv : WritesNumber v n) (data : List UInt8) (before after : White) {x : UInt8}
    (hx : x = 44 ∨ x = 93) (post : Bytes) : readBytes data (inBracket (before.1 ++ (v.text ++ (after.1 ++ x :: post)))) =
      if n ≤ 0xFF ∧ data.length < kMaxDataLength then readBytes (data ++ [UInt8.ofNat n]) (inBracket (x :: post))
      else none := by
  obtain ⟨k, rfl, hk⟩ := hv
  obtain ⟨hitem, hrest⟩ := item_number k after hx post
  rw [readBytes_turn, Value.text, hitem, hrest, trim_number, hk, parseUnsigned_of_literal (unsignedLiteral_decimal n)]
  by_cases hfits : n < 2 ^ 64
  · rw [if_pos hfits]
    dsimp only
    by_cases hout : 0xFF < n ∨ kMaxDataLength ≤ data.length
    · rw [if_pos hout, if_neg (by omega)]
    · rw [if_neg hout, if_pos (by omega)]
  · rw [if_neg hfits, if_neg (by omega)]

/-- **The loop over the numbers** accepts bytes, up to eight. -/
theorem readBytes_naturals : ∀ (elements : Elements) {ns : List ℕ}, List.Forall₂ WritesNumber elements.list ns →
    ∀ (data : List UInt8) (post : Bytes), readBytes data (inBracket (elements.text ++ 93 :: post)) =
      if data.length + ns.length ≤ kMaxDataLength ∧ ∀ n ∈ ns, n ≤ 0xFF then some (data ++ ns.map UInt8.ofNat) else none
  | .last before v after, ns, h, data, post => by
    obtain ⟨n, ns, hn, hns, rfl⟩ := List.forall₂_cons_left_iff.mp h
    cases hns
    rw [Elements.text, List.append_assoc, List.append_assoc, readBytes_number hn data before after (.inr rfl)]
    rw [show inBracket (93 :: post) = [] from rfl, readBytes_blanks _ (by simp)]
    simp only [List.length_singleton, List.forall_mem_singleton, List.map_singleton]
    by_cases hin : n ≤ 0xFF ∧ data.length < kMaxDataLength
    · rw [if_pos hin, if_pos ⟨hin.2, hin.1⟩]
    · rw [if_neg hin, if_neg fun hboth => hin ⟨hboth.2, hboth.1⟩]
  | .cons before v after rest, ns, h, data, post => by
    obtain ⟨n, ns, hn, hns, rfl⟩ := List.forall₂_cons_left_iff.mp h
    rw [Elements.text, List.append_assoc, List.append_assoc, List.append_assoc, List.cons_append,
      readBytes_number hn data before after (.inl rfl),
      show inBracket (44 :: (rest.text ++ 93 :: post)) = 44 :: inBracket (rest.text ++ 93 :: post) from rfl,
      readBytes_comma, readBytes_naturals rest hns]
    simp only [List.length_append, List.length_cons, List.length_nil, List.forall_mem_cons, List.map_cons,
      List.append_assoc, List.singleton_append]
    by_cases hall : data.length + (ns.length + 1) ≤ kMaxDataLength ∧ n ≤ 0xFF ∧ ∀ m ∈ ns, m ≤ 0xFF
    · obtain ⟨hlength, hn, hns⟩ := hall
      rw [if_pos ⟨hn, by omega⟩, if_pos ⟨by omega, hns⟩, if_pos ⟨hlength, hn, hns⟩]
    · rw [if_neg hall]
      split_ifs with hfirst hrest
      · exact absurd ⟨by omega, hfirst.1, hrest.2⟩ hall
      · rfl
      · rfl

/-- What is read of the data. -/
theorem readBytes_written {v : Value} {data : List ℕ} (h : WritesData v data) (rest : Bytes) :
    ∃ t, v.text ++ rest = 91 :: t ∧ 93 ∈ t ∧ readBytes [] (inBracket t) =
      if data.length ≤ kMaxDataLength ∧ ∀ n ∈ data, n ≤ 0xFF then some (data.map UInt8.ofNat) else none := by
  obtain ⟨vs, hvs, hdata⟩ := h
  obtain ⟨u, hu⟩ := Value.text_of_elements hvs
  rcases Value.array_of_text hu with ⟨inside, rfl⟩ | ⟨elements, rfl⟩
  · cases hvs
    cases hdata
    refine ⟨inside.1 ++ 93 :: rest, by simp [Value.text], by simp, ?_⟩
    rw [inBracket_white, readBytes_blanks [] fun a ha => (blank_of_white inside a ha).1]
    simp
  · cases hvs
    refine ⟨elements.text ++ 93 :: rest, by simp [Value.text], by simp, ?_⟩
    rw [readBytes_naturals elements hdata]
    simp

/-! ### Bodies -/

theorem elements_quote : ∀ elements : Elements, (∀ e ∈ elements.list, (34 : UInt8) ∉ e.text) → (34 : UInt8) ∉ elements.text
  | .last before v after, h => by
    have hv := h v List.mem_cons_self
    simp only [Elements.text, List.mem_append, not_or]
    exact ⟨⟨white_quote before, hv⟩, white_quote after⟩
  | .cons before v after rest, h => by
    have hv := h v List.mem_cons_self
    have hrest := elements_quote rest fun e he => h e (List.mem_cons_of_mem _ he)
    simp only [Elements.text, List.mem_append, List.mem_cons, not_or]
    exact ⟨⟨⟨white_quote before, hv⟩, white_quote after⟩, by decide, hrest⟩

theorem number_quote (k : Number) : (34 : UInt8) ∉ k.text := fun h => absurd (k.chars 34 h) (by decide)

theorem passable_id {v : Value} {id : ℕ} (h : WritesId v id) : Passable v := by
  have hdigit : ∀ c : UInt8, isDigit 10 c = true → beginsKey c = false := forall_byte (by decide +kernel)
  rcases h with ⟨k, rfl, -⟩ | ⟨s, rfl, hs⟩
  · exact .inl (number_quote k)
  · have hliteral := isNumeral_literal hs
    obtain ⟨c, t, htext, hc⟩ := hliteral.head
    exact .inr ⟨s, rfl, fun h => (literal_cut hliteral 34 h).2.2.1 rfl, c, t, htext, hdigit c hc⟩

theorem numbers_quote {vs : List Value} {data : List ℕ} (h : List.Forall₂ WritesNumber vs data) :
    ∀ e ∈ vs, (34 : UInt8) ∉ e.text := by
  induction h with
  | nil => exact nofun
  | cons hv _ ih =>
    obtain ⟨k, rfl, -⟩ := hv
    exact List.forall_mem_cons.mpr ⟨number_quote k, ih⟩

theorem passable_data {v : Value} {data : List ℕ} (h : WritesData v data) : Passable v := by
  obtain ⟨vs, hvs, hdata⟩ := h
  have hquote := numbers_quote hdata
  obtain ⟨u, hu⟩ := Value.text_of_elements hvs
  rcases Value.array_of_text hu with ⟨inside, rfl⟩ | ⟨elements, rfl⟩
  · refine .inl ?_
    simp only [Value.text, List.mem_cons, List.mem_append, List.not_mem_nil, or_false, not_or]
    exact ⟨by decide, white_quote inside, by decide⟩
  · cases hvs
    refine .inl ?_
    simp only [Value.text, List.mem_cons, List.mem_append, List.not_mem_nil, or_false, not_or]
    exact ⟨by decide, elements_quote elements hquote, by decide⟩

theorem passable_bool (b : Bool) : Passable (.bool b) := by
  refine .inl ?_
  cases b <;> decide

/-- The members of a body, each under its name. -/
theorem Renders.members {d : Document} {id : ℕ} {extended : Option Bool} {data : List ℕ} (h : Renders d id extended data) :
    ∃ members idValue dataValue, d.value = .object members ∧ WritesId idValue id ∧ WritesData dataValue data ∧
      (∀ m ∈ written members, m.1 ∈ keys ∧ Passable m.2) ∧
        (written members).find? (·.1 = bytes "id") = some (bytes "id", idValue) ∧
          (written members).find? (·.1 = bytes "data") = some (bytes "data", dataValue) ∧
            (written members).find? (·.1 = bytes "extended") = extended.map fun b => (bytes "extended", .bool b) := by
  obtain ⟨members, idValue, dataValue, hd, hid, hdata, hperm⟩ := h
  have hdistinct : ((written members).map (·.1)).Nodup := by
    rw [(hperm.map _).nodup_iff]
    cases extended with
    | none => exact (by decide : [bytes "id", bytes "data"].Nodup)
    | some b => exact (by decide : [bytes "id", bytes "data", bytes "extended"].Nodup)
  have hfind : ∀ m ∈ written members, (written members).find? (·.1 = m.1) = some m := fun m hm =>
    find?_of_nodup Prod.fst hdistinct hm
  refine ⟨members, idValue, dataValue, hd, hid, hdata, fun m hm => ?_, ?_, ?_, ?_⟩
  · rw [hperm.mem_iff, List.mem_cons, List.mem_cons, List.mem_map] at hm
    rcases hm with rfl | rfl | ⟨b, -, rfl⟩
    · exact ⟨by simp [keys], passable_id hid⟩
    · exact ⟨by simp [keys], passable_data hdata⟩
    · exact ⟨by simp [keys], passable_bool b⟩
  · exact hfind (bytes "id", idValue) (hperm.mem_iff.mpr (by simp))
  · exact hfind (bytes "data", dataValue) (hperm.mem_iff.mpr (by simp))
  · cases extended with
    | some b => exact hfind (bytes "extended", .bool b) (hperm.mem_iff.mpr (by simp))
    | none =>
      refine List.find?_eq_none.mpr fun m hm => ?_
      have hother : bytes "id" ≠ bytes "extended" ∧ bytes "data" ≠ bytes "extended" := by decide
      rw [hperm.mem_iff] at hm
      simp only [Option.toList_none, List.map_nil, List.mem_cons, List.not_mem_nil, or_false] at hm
      rcases hm with rfl | rfl
      · simpa using hother.1
      · simpa using hother.2

/-- The id that is read. -/
theorem readValue_id {d : Document} {members : Members} (hd : d.value = .object members)
    (h : ∀ m ∈ written members, m.1 ∈ keys ∧ Passable m.2) {v : Value} {id : ℕ} (hid : WritesId v id)
    (hv : (written members).find? (·.1 = bytes "id") = some (bytes "id", v)) :
    (readValue d.text (bytes "id")).bind parseUnsigned = if id < 2 ^ 64 then some id else none := by
  obtain ⟨after, c, post, hc, hread⟩ := readValue_written (by simp [keys]) hd h hv
  have hliteral := scanned_id hid after hc post
  obtain ⟨a, t, htext, -⟩ := hliteral.head
  rw [hread, if_neg (by rw [htext]; exact List.cons_ne_nil _ _), Option.bind_some, parseUnsigned_of_literal hliteral]

/-- The flag that is read, if there is one. -/
theorem readValue_extended {d : Document} {members : Members} (hd : d.value = .object members)
    (h : ∀ m ∈ written members, m.1 ∈ keys ∧ Passable m.2) {extended : Option Bool}
    (hv : (written members).find? (·.1 = bytes "extended") = extended.map fun b => (bytes "extended", .bool b)) :
    readValue d.text (bytes "extended") = extended.map fun b => (Value.bool b).text := by
  cases extended with
  | none => exact readValue_absent (by simp [keys]) hd h hv
  | some b =>
    obtain ⟨after, c, post, hc, hread⟩ := readValue_written (by simp [keys]) hd h hv
    have hcut : ∀ c ∈ (Value.bool b).text, c ≠ 44 ∧ c ≠ 125 ∧ c ≠ 34 ∧ isTrimmed c = false := by
      cases b <;> decide +kernel
    have hne : (Value.bool b).text ≠ [] := by cases b <;> decide
    rw [hread, scanned_plain hcut after hc, if_neg hne]
    rfl

/-- Where the data is read, and what is read there. -/
theorem readBytes_data {d : Document} {members : Members} (hd : d.value = .object members)
    (h : ∀ m ∈ written members, m.1 ∈ keys ∧ Passable m.2) {v : Value} {data : List ℕ} (hdata : WritesData v data)
    (hv : (written members).find? (·.1 = bytes "data") = some (bytes "data", v)) :
    ∃ dataKey beginBracket endBracket, find (bytes "\"data\"") d.text = some dataKey ∧
      find [91] (d.text.drop dataKey) = some beginBracket ∧
        find [93] (d.text.drop (dataKey + beginBracket)) = some endBracket ∧
          readBytes [] (((d.text.drop (dataKey + beginBracket)).take endBracket).drop 1) =
            if data.length ≤ kMaxDataLength ∧ ∀ n ∈ data, n ≤ 0xFF then some (data.map UInt8.ofNat) else none := by
  have hkey : bytes "data" ∈ keys := by simp [keys]
  obtain ⟨i, afterName, beforeValue, after, c, post, -, hfind, hdrop⟩ := (find_document hkey hd h).2 v hv
  obtain ⟨t, ht, hclose, hread⟩ := readBytes_written hdata (after.1 ++ c :: post)
  have hsplit : d.text.drop i = 34 :: (bytes "data" ++ 34 :: (afterName.1 ++ 58 :: beforeValue.1)) ++ 91 :: t := by
    rw [hdrop, ht]
    simp
  have hbegin : find [91] (d.text.drop i) =
      some (34 :: (bytes "data" ++ 34 :: (afterName.1 ++ 58 :: beforeValue.1))).length := by
    rw [hsplit, find_singleton (not_bracket_of_key hkey afterName beforeValue)]
  have hrest : d.text.drop (i + (34 :: (bytes "data" ++ 34 :: (afterName.1 ++ 58 :: beforeValue.1))).length) = 91 :: t := by
    rw [← List.drop_drop, hsplit, List.drop_left]
  rw [quoted_data] at hfind
  cases hend : find [93] (91 :: t) with
  | none => exact absurd (List.mem_cons_of_mem 91 hclose) (find_singleton_eq_none.mp hend)
  | some endBracket =>
    rw [← hrest] at hend
    obtain ⟨-, t', ht', hinside⟩ := data_of_mark hfind hbegin hend
    obtain rfl : t = t' := (List.cons.inj (hrest.symm.trans ht')).2
    exact ⟨i, _, endBracket, hfind, hbegin, hend, by rw [hinside, hread]⟩

/-- What is read of a body as a client writes it. -/
theorem parseSendBody_rendered {d : Document} {id : ℕ} {extended : Option Bool} {data : List ℕ}
    (h : Renders d id extended data) : parseSendBody d.text =
      if id ≤ kMaxId ∧ data.length ≤ kMaxDataLength ∧ ∀ n ∈ data, n ≤ 0xFF then
        some (UInt32.ofNat id, extended.getD false, data.map UInt8.ofNat)
      else none := by
  obtain ⟨members, idValue, dataValue, hd, hid, hdata, hgood, hfindId, hfindData, hfindExtended⟩ := h.members
  obtain ⟨dataKey, beginBracket, endBracket, hkey, hbegin, hend, hread⟩ := readBytes_data hd hgood hdata hfindData
  have hmax : kMaxId < 2 ^ 64 := by decide
  unfold parseSendBody
  rw [readValue_id hd hgood hid hfindId, readValue_extended hd hgood hfindExtended]
  by_cases hle : id ≤ kMaxId
  · rw [if_pos (hle.trans_lt hmax)]
    dsimp only
    rw [if_neg (Nat.not_lt.mpr hle)]
    split
    · rename_i hnone
      exfalso
      rcases extended with _ | _ | _ <;> exact absurd hnone (by decide)
    · rename_i isExtended hsome
      obtain rfl : extended.getD false = isExtended := by
        rcases extended with _ | _ | _ <;> exact Option.some.inj hsome
      simp only [hkey, hbegin, hend, hread]
      by_cases hfits : data.length ≤ kMaxDataLength ∧ ∀ n ∈ data, n ≤ 0xFF
      · rw [if_pos hfits, if_pos ⟨hle, hfits⟩]
        rfl
      · rw [if_neg hfits, if_neg fun hall => hfits hall.2]
        rfl
  · have hrefused : ¬ (id ≤ kMaxId ∧ data.length ≤ kMaxDataLength ∧ ∀ n ∈ data, n ≤ 0xFF) := fun hall => hle hall.1
    rw [if_neg hrefused]
    by_cases hlt : id < 2 ^ 64
    · rw [if_pos hlt]
      exact if_pos (Nat.lt_of_not_le hle)
    · rw [if_neg hlt]

/-- **Bodies as clients write them** are accepted exactly when the id is one of 29 bits and the
data are at most eight bytes, and are read as what is written. -/
theorem send_body_accepted_iff {d : Document} {id : ℕ} {extended : Option Bool} {data : List ℕ}
    (h : Renders d id extended data) :
    ((parseSendBody d.text).isSome = true ↔ id ≤ kMaxId ∧ data.length ≤ kMaxDataLength ∧ ∀ n ∈ data, n ≤ 0xFF) ∧
      ∀ id' isExtended data', parseSendBody d.text = some (id', isExtended, data') →
        id'.toNat = id ∧ isExtended = extended.getD false ∧ data'.map UInt8.toNat = data := by
  rw [parseSendBody_rendered h]
  by_cases hall : id ≤ kMaxId ∧ data.length ≤ kMaxDataLength ∧ ∀ n ∈ data, n ≤ 0xFF
  · rw [if_pos hall]
    refine ⟨iff_of_true rfl hall, fun id' isExtended data' heq => ?_⟩
    obtain ⟨rfl, rfl, rfl⟩ : UInt32.ofNat id = id' ∧ extended.getD false = isExtended ∧ data.map UInt8.ofNat = data' := by
      simpa using heq
    obtain ⟨hid, -, hbyte⟩ := hall
    refine ⟨?_, rfl, ?_⟩
    · rw [UInt32.toNat_ofNat']
      unfold kMaxId at hid
      omega
    · rw [List.map_map]
      refine (List.map_congr_left fun n hn => ?_).trans (List.map_id data)
      have hlt := hbyte n hn
      rw [Function.comp_apply, UInt8.toNat_ofNat', id_eq]
      omega
  · rw [if_neg hall]
    exact ⟨iff_of_false Bool.false_ne_true hall, nofun⟩

/-- The body of a short frame. -/
theorem plainBody_renders : Renders plainBody 0x123 (some false) [17, 34] := by
  have hid : WritesId (.string (.plain (bytes "0x123"))) 0x123 :=
    .inr ⟨_, rfl, .inr ⟨120, bytes "123", by decide +kernel, .inl rfl, by decide, by decide +kernel, by decide +kernel⟩⟩
  have hdata : WritesData twoBytes [17, 34] :=
    ⟨_, rfl, .cons ⟨_, rfl, by decide +kernel⟩ (.cons ⟨_, rfl, by decide +kernel⟩ .nil)⟩
  have hnames : ∀ s ∈ ["id", "extended", "data"], (plainKey s).name.text = bytes s := by decide +kernel
  refine ⟨_, _, _, rfl, hid, hdata, ?_⟩
  simp only [written, hnames, List.mem_cons, true_or, or_true]
  exact .cons _ (.swap _ _ _)

theorem send_body_accepted_iff_plainBody : (parseSendBody plainBody.text).isSome = true ↔
    0x123 ≤ kMaxId ∧ [17, 34].length ≤ kMaxDataLength ∧ ∀ n ∈ [17, 34], n ≤ 0xFF :=
  (send_body_accepted_iff plainBody_renders).1

end CanMonitor.Connection
