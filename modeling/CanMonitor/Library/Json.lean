import CanMonitor.Library.Numeral

/-!
# JSON texts

The grammar of JSON as syntax trees that record every byte of their text, the white space
and the escapes included. What the grammar demands of a leaf is a field of it, so that a
tree that can be built has a valid text, and every valid text is that of a tree.

A member of an object is found by where its colon is (`Members.places`): programs that look
for a key in the text, and not in the tree, can then be asked whether they looked in the
right place.
-/

namespace CanMonitor.Library.Json

/-- White space. -/
def isWhite (c : UInt8) : Bool := c == 32 || c == 9 || c == 10 || c == 13

/-- Any amount of white space. -/
abbrev White := { w : Bytes // ∀ c ∈ w, isWhite c = true }

/-- None. -/
def White.none : White := ⟨[], nofun⟩

/-! ### Strings -/

/-- What a character after a backslash stands for. -/
def simpleEscape (e : UInt8) : Option UInt8 :=
  if e = 34 ∨ e = 92 ∨ e = 47 then some e
  else if e = 98 then some 8
  else if e = 102 then some 12
  else if e = 110 then some 10
  else if e = 114 then some 13
  else if e = 116 then some 9
  else none

/-- A code unit in UTF-8, one half of a surrogate pair by itself. -/
def utf8 (n : ℕ) : Bytes :=
  if n < 0x80 then [UInt8.ofNat n]
  else if n < 0x800 then [UInt8.ofNat (0xC0 + n / 0x40), UInt8.ofNat (0x80 + n % 0x40)]
  else [UInt8.ofNat (0xE0 + n / 0x1000), UInt8.ofNat (0x80 + n / 0x40 % 0x40), UInt8.ofNat (0x80 + n % 0x40)]

/-- A character of a string. -/
inductive StrChar where
  | plain (c : UInt8) (h : c ≠ 34 ∧ c ≠ 92 ∧ 32 ≤ c)
  | escape (e c : UInt8) (h : simpleEscape e = some c)
  | unicode (digits : Bytes) (h : digits.length = 4 ∧ ∀ d ∈ digits, isDigit 16 d = true)

/-- How a character of a string is written. -/
def StrChar.text : StrChar → Bytes
  | .plain c _ => [c]
  | .escape e _ _ => [92, e]
  | .unicode digits _ => 92 :: 117 :: digits

/-- What a character of a string stands for. -/
def StrChar.content : StrChar → Bytes
  | .plain c _ => [c]
  | .escape _ c _ => [c]
  | .unicode digits _ => utf8 (value 16 digits)

/-- A string. -/
abbrev Str := List StrChar

/-- The text between the quotes of a string. -/
def Str.text (s : Str) : Bytes := s.flatMap StrChar.text

/-- What a string stands for. -/
def Str.content (s : Str) : Bytes := s.flatMap StrChar.content

/-- A string without escapes. -/
def Str.plain (t : Bytes) : Str :=
  t.filterMap fun c => if h : c ≠ 34 ∧ c ≠ 92 ∧ 32 ≤ c then some (.plain c h) else none

/-- A quote in the text of a character is escaped. -/
theorem StrChar.eq_of_quote {c : StrChar} {u v : Bytes} (h : c.text = u ++ 34 :: v) : u = [92] := by
  have hmem : (34 : UInt8) ∈ c.text := by simp [h]
  cases c with
  | plain c hc => exact absurd (List.mem_singleton.mp hmem).symm hc.1
  | escape e c he =>
    rw [StrChar.text] at h
    match u, h with
    | [], h => exact absurd (List.cons.inj h).1 (by decide)
    | [x], h => rw [← (List.cons.inj h).1]
    | x :: y :: u, h => simp at h
  | unicode digits hd =>
    simp only [StrChar.text, List.mem_cons] at hmem
    rcases hmem with hmem | hmem | hmem
    · exact absurd hmem (by decide)
    · exact absurd hmem (by decide)
    · exact absurd (hd.2 34 hmem) (by decide)

/-- A quote in the text of a string comes after a backslash. -/
theorem Str.getLast_of_quote {s : Str} {u v : Bytes} (h : s.text = u ++ 34 :: v) : u.getLast? = some 92 := by
  induction s generalizing u with
  | nil => simp [Str.text] at h
  | cons c s ih =>
    have htext : Str.text (c :: s) = c.text ++ Str.text s := List.flatMap_cons
    rw [htext] at h
    rcases List.append_eq_append_iff.mp h with ⟨u', rfl, hs⟩ | ⟨t, hc, hs⟩
    · -- the quote is after the first character
      rw [List.getLast?_append, ih hs]
      rfl
    · cases t with
      | nil =>
        have hlast := ih (u := []) (by simpa using hs.symm)
        simp at hlast
      | cons q t =>
        -- the quote is in the first character
        rw [List.cons_append, List.cons.injEq] at hs
        obtain ⟨rfl, -⟩ := hs
        rw [StrChar.eq_of_quote hc]
        rfl

/-- A text without a backslash stands for itself. -/
theorem Str.content_eq_text {s : Str} (h : (92 : UInt8) ∉ s.text) : s.content = s.text := by
  induction s with
  | nil => rfl
  | cons c s ih =>
    have htext : Str.text (c :: s) = c.text ++ Str.text s := List.flatMap_cons
    have hcontent : Str.content (c :: s) = c.content ++ Str.content s := List.flatMap_cons
    rw [htext, List.mem_append, not_or] at h
    rw [htext, hcontent, ih h.2]
    cases c with
    | plain c _ => rfl
    | escape e c _ => exact absurd List.mem_cons_self h.1
    | unicode digits _ => exact absurd List.mem_cons_self h.1

/-! ### Numbers -/

/-- The exponent of a number. -/
structure Exponent where
  mark : UInt8
  mark_ok : mark = 69 ∨ mark = 101
  sign : Bytes
  sign_ok : sign = [] ∨ sign = [43] ∨ sign = [45]
  digits : Bytes
  digits_ne : digits ≠ []
  digits_ok : ∀ d ∈ digits, isDigit 10 d = true

/-- A number. -/
structure Number where
  negative : Bool
  /-- The digits before the point. -/
  whole : Bytes
  whole_ok : whole = [48] ∨ (whole ≠ [] ∧ whole.head? ≠ some 48 ∧ ∀ d ∈ whole, isDigit 10 d = true)
  /-- The digits after it; no digits, no point. -/
  fraction : Bytes
  fraction_ok : ∀ d ∈ fraction, isDigit 10 d = true
  exponent : Option Exponent

/-- How a number is written. -/
def Number.text (n : Number) : Bytes :=
  (if n.negative then [45] else []) ++ n.whole ++ (if n.fraction = [] then [] else 46 :: n.fraction) ++
    n.exponent.elim [] fun e => e.mark :: e.sign ++ e.digits

/-- The integer that a number is, if it is written as one. -/
def Number.integer (n : Number) : Option ℤ :=
  if n.fraction = [] ∧ n.exponent.isNone then
    some (if n.negative then -(value 10 n.whole : ℤ) else value 10 n.whole)
  else none

/-- What comes after the digits before the point. -/
def Number.rest (n : Number) : Bytes :=
  (if n.fraction = [] then [] else 46 :: n.fraction) ++ n.exponent.elim [] fun e => e.mark :: e.sign ++ e.digits

theorem Number.text_eq (n : Number) : n.text = (if n.negative then [45] else []) ++ (n.whole ++ n.rest) := by
  simp [Number.text, Number.rest]

/-- What follows the whole digits begins with a point or the mark of an exponent. -/
theorem Number.rest_head (n : Number) : (n.rest = [] ∧ n.fraction = [] ∧ n.exponent.isNone) ∨
    ∃ c t, n.rest = c :: t ∧ (c = 46 ∨ c = 69 ∨ c = 101) := by
  by_cases hf : n.fraction = []
  · cases he : n.exponent with
    | none => exact .inl ⟨by simp [Number.rest, hf, he], hf, rfl⟩
    | some e => exact .inr ⟨e.mark, e.sign ++ e.digits, by simp [Number.rest, hf, he], .inr e.mark_ok⟩
  · exact .inr ⟨46, _, by rw [Number.rest, if_neg hf]; rfl, .inl rfl⟩

theorem Number.whole_digits (n : Number) : ∀ d ∈ n.whole, isDigit 10 d = true := by
  rcases n.whole_ok with h | ⟨-, -, h⟩
  · rw [h]
    decide +kernel
  · exact h

theorem Number.whole_ne (n : Number) : n.whole ≠ [] := by
  rcases n.whole_ok with h | ⟨h, -⟩
  · rw [h]
    exact List.cons_ne_nil _ _
  · exact h

theorem not_sign_of_isDigit : ∀ c : UInt8, isDigit 10 c = true → c ≠ 45 ∧ c ≠ 43 := forall_byte (by decide +kernel)

theorem not_digit_of_mark : ∀ c : UInt8, c = 46 ∨ c = 69 ∨ c = 101 → isDigit 10 c = false ∧ isDigit 8 c = false ∧
    c ≠ 120 ∧ c ≠ 88 := forall_byte (by decide +kernel)

theorem Number.sign_text (n : Number) :
    (sign (n.text.dropWhile isspace)).1 = n.negative ∧ (sign (n.text.dropWhile isspace)).2.2 = n.whole ++ n.rest := by
  obtain ⟨d, ds, hd⟩ := List.exists_cons_of_ne_nil n.whole_ne
  have hdigit := n.whole_digits d (hd ▸ List.mem_cons_self)
  have hspace := isspace_of_isDigit d hdigit
  have hsign := not_sign_of_isDigit d hdigit
  rw [n.text_eq, hd]
  cases n.negative with
  | true =>
    rw [if_pos rfl, dropWhile_eq_self (by simp; decide)]
    exact ⟨rfl, rfl⟩
  | false =>
    rw [if_neg Bool.false_ne_true, List.nil_append, dropWhile_eq_self (by simpa using hspace)]
    unfold sign
    split <;> simp_all

/-- The base of a number without a sign is ten, or eight for the digit zero. -/
theorem Number.basePrefix_text (n : Number) : basePrefix (n.whole ++ n.rest) = (10, 0, n.whole ++ n.rest) ∨
    (n.whole = [48] ∧ basePrefix (n.whole ++ n.rest) = (8, 0, n.whole ++ n.rest)) := by
  rcases n.whole_ok with h | ⟨hne, hhead, -⟩
  · right
    refine ⟨h, ?_⟩
    rw [h]
    rcases n.rest_head with ⟨hr, -⟩ | ⟨c, t, hr, hc⟩
    · rw [hr]
      rfl
    · have hx := not_digit_of_mark c hc
      rw [hr]
      unfold basePrefix
      split <;> simp_all
  · left
    obtain ⟨d, ds, hd⟩ := List.exists_cons_of_ne_nil hne
    rw [hd] at hhead ⊢
    unfold basePrefix
    split <;> simp_all

/-- **A number that is an integer literal** is written as that integer. -/
theorem Number.integer_of_literal {n : Number} {z : ℤ} (h : literal n.text = some z) : n.integer = some z := by
  obtain ⟨hsign, hbody⟩ := n.sign_text
  unfold literal at h
  simp only [hsign, hbody, Option.ite_none_right_eq_some, Option.some.injEq] at h
  obtain ⟨⟨-, hdigits⟩, hz⟩ := h
  rw [List.all_eq_true] at hdigits
  have hrest : n.rest = [] ∧ n.fraction = [] ∧ n.exponent.isNone := by
    rcases n.rest_head with hr | ⟨c, t, hr, hc⟩
    · exact hr
    · exfalso
      have hmark := not_digit_of_mark c hc
      have hmem : c ∈ n.whole ++ n.rest := by simp [hr]
      rcases n.basePrefix_text with hb | ⟨-, hb⟩ <;> rw [hb] at hdigits
      · exact absurd (hdigits c hmem) (by simp [hmark.1])
      · exact absurd (hdigits c hmem) (by simp [hmark.2.1])
  rw [Number.integer, if_pos hrest.2, ← hz]
  rw [hrest.1, List.append_nil] at hz ⊢
  rcases n.basePrefix_text with hb | ⟨hw, hb⟩ <;> rw [hrest.1, List.append_nil] at hb <;> rw [hb]
  rw [hw]
  rfl

/-- The characters that may stand in a number. -/
def isNumberChar (c : UInt8) : Bool := isDigit 10 c || c == 43 || c == 45 || c == 46 || c == 69 || c == 101

theorem Number.chars (n : Number) : ∀ c ∈ n.text, isNumberChar c = true := by
  have hdigits : ∀ ds : Bytes, (∀ d ∈ ds, isDigit 10 d = true) → ∀ c ∈ ds, isNumberChar c = true :=
    fun ds h c hc => by simp [isNumberChar, h c hc]
  intro c hc
  simp only [Number.text, List.mem_append] at hc
  rcases hc with ((hc | hc) | hc) | hc
  · split_ifs at hc
    · rw [List.mem_singleton.mp hc]
      rfl
    · cases hc
  · exact hdigits _ n.whole_digits c hc
  · split_ifs at hc
    · cases hc
    · rcases List.mem_cons.mp hc with rfl | hc
      · rfl
      · exact hdigits _ n.fraction_ok c hc
  · cases he : n.exponent with
    | none =>
      rw [he] at hc
      cases hc
    | some e =>
      rw [he] at hc
      rcases List.mem_cons.mp hc with rfl | hc
      · rcases e.mark_ok with h | h <;> rw [h] <;> rfl
      · rcases List.mem_append.mp hc with hc | hc
        · rcases e.sign_ok with h | h | h <;> rw [h] at hc
          · cases hc
          · rw [List.mem_singleton.mp hc]
            rfl
          · rw [List.mem_singleton.mp hc]
            rfl
        · exact hdigits _ e.digits_ok c hc

theorem Number.text_ne (n : Number) : n.text ≠ [] := by
  rw [n.text_eq]
  simp [n.whole_ne]

/-! ### Values -/

/-- An element of a list whose keys are distinct is found by its key. -/
theorem find?_of_nodup {β γ : Type*} [DecidableEq γ] (key : β → γ) {l : List β} (hdistinct : (l.map key).Nodup) {b : β}
    (hmem : b ∈ l) : l.find? (fun a => key a = key b) = some b := by
  obtain ⟨before, after, rfl⟩ := List.append_of_mem hmem
  have hbefore : ∀ a ∈ before, ¬ key a = key b := by
    intro a ha heq
    rw [List.map_append, List.nodup_append] at hdistinct
    exact hdistinct.2.2 (key a) (List.mem_map_of_mem ha) (key b) (by simp) heq
  rw [List.find?_append, List.find?_eq_none.mpr (by simpa using hbefore)]
  simp

/-- What stands before the value of a member. -/
structure Key where
  before : White
  name : Str
  afterName : White
  beforeValue : White

/-- How the name of a member is written, up to the colon. -/
def Key.toColon (k : Key) : Bytes := k.before.1 ++ 34 :: (k.name.text ++ 34 :: k.afterName.1)

mutual

/-- A value. -/
inductive Value where
  | null
  | bool (b : Bool)
  | number (n : Number)
  | string (s : Str)
  | emptyArray (inside : White)
  | array (elements : Elements)
  | emptyObject (inside : White)
  | object (members : Members)

/-- The elements of an array that has some. -/
inductive Elements where
  | last (before : White) (element : Value) (after : White)
  | cons (before : White) (element : Value) (after : White) (rest : Elements)

/-- The members of an object that has some. -/
inductive Members where
  | last (key : Key) (value : Value) (after : White)
  | cons (key : Key) (value : Value) (after : White) (rest : Members)

end

mutual

/-- How a value is written. -/
def Value.text : Value → Bytes
  | .null => bytes "null"
  | .bool true => bytes "true"
  | .bool false => bytes "false"
  | .number n => n.text
  | .string s => 34 :: (s.text ++ [34])
  | .emptyArray inside => 91 :: (inside.1 ++ [93])
  | .array elements => 91 :: (elements.text ++ [93])
  | .emptyObject inside => 123 :: (inside.1 ++ [125])
  | .object members => 123 :: (members.text ++ [125])

/-- How elements are written. -/
def Elements.text : Elements → Bytes
  | .last before element after => before.1 ++ element.text ++ after.1
  | .cons before element after rest => before.1 ++ element.text ++ after.1 ++ 44 :: rest.text

/-- How members are written. -/
def Members.text : Members → Bytes
  | .last key value after => key.toColon ++ 58 :: (key.beforeValue.1 ++ value.text ++ after.1)
  | .cons key value after rest => key.toColon ++ 58 :: (key.beforeValue.1 ++ value.text ++ after.1) ++ 44 :: rest.text

end

/-- Can the character begin a value? -/
def beginsValue (c : UInt8) : Bool :=
  isNumberChar c || c == 110 || c == 116 || c == 102 || c == 34 || c == 91 || c == 123

theorem Value.text_cons (v : Value) : ∃ c t, v.text = c :: t ∧ beginsValue c = true := by
  cases v with
  | null => exact ⟨110, _, rfl, rfl⟩
  | bool b => cases b with
    | true => exact ⟨116, _, rfl, rfl⟩
    | false => exact ⟨102, _, rfl, rfl⟩
  | number n =>
    obtain ⟨c, t, h⟩ := List.exists_cons_of_ne_nil n.text_ne
    exact ⟨c, t, h, by simp [beginsValue, n.chars c (h ▸ List.mem_cons_self)]⟩
  | string s => exact ⟨34, _, rfl, rfl⟩
  | emptyArray inside => exact ⟨91, _, rfl, rfl⟩
  | array elements => exact ⟨91, _, rfl, rfl⟩
  | emptyObject inside => exact ⟨123, _, rfl, rfl⟩
  | object members => exact ⟨123, _, rfl, rfl⟩

/-- What a value is, or what it begins with. -/
theorem Value.kinds (v : Value) : (∃ n, v = .number n) ∨ (∃ s, v = .string s) ∨ (∃ b, v = .bool b) ∨
    ∃ c t, v.text = c :: t ∧ (c = 110 ∨ c = 91 ∨ c = 123) := by
  cases v with
  | number n => exact .inl ⟨n, rfl⟩
  | string s => exact .inr (.inl ⟨s, rfl⟩)
  | bool b => exact .inr (.inr (.inl ⟨b, rfl⟩))
  | null => exact .inr (.inr (.inr ⟨110, _, rfl, .inl rfl⟩))
  | emptyArray inside => exact .inr (.inr (.inr ⟨91, _, rfl, .inr (.inl rfl)⟩))
  | array elements => exact .inr (.inr (.inr ⟨91, _, rfl, .inr (.inl rfl)⟩))
  | emptyObject inside => exact .inr (.inr (.inr ⟨123, _, rfl, .inr (.inr rfl)⟩))
  | object members => exact .inr (.inr (.inr ⟨123, _, rfl, .inr (.inr rfl)⟩))

/-- Only arrays begin with a bracket. -/
theorem Value.array_of_text {v : Value} {t : Bytes} (h : v.text = 91 :: t) :
    (∃ inside, v = .emptyArray inside) ∨ ∃ elements, v = .array elements := by
  have hhead : v.text.head? = some 91 := by
    rw [h]
    rfl
  cases v with
  | emptyArray inside => exact .inl ⟨inside, rfl⟩
  | array elements => exact .inr ⟨elements, rfl⟩
  | number n => exact absurd (n.chars 91 (List.mem_of_head? hhead)) (by decide)
  | null => exact absurd (Option.some.inj hhead) (by decide)
  | bool b => cases b <;> exact absurd (Option.some.inj hhead) (by decide)
  | string s => exact absurd (Option.some.inj hhead) (by decide)
  | emptyObject inside => exact absurd (Option.some.inj hhead) (by decide)
  | object members => exact absurd (Option.some.inj hhead) (by decide)

/-- The elements one by one. -/
def Elements.list : Elements → List Value
  | .last _ element _ => [element]
  | .cons _ element _ rest => element :: rest.list

/-- The elements of an array. -/
def Value.elements : Value → Option (List Value)
  | .emptyArray _ => some []
  | .array elements => some elements.list
  | _ => none

theorem Value.text_of_elements {v : Value} {elements : List Value} (h : v.elements = some elements) :
    ∃ t, v.text = 91 :: t := by
  cases v with
  | emptyArray inside => exact ⟨_, rfl⟩
  | array elements => exact ⟨_, rfl⟩
  | _ => cases h

/-- The integer that a number is. -/
def Value.integer : Value → Option ℤ
  | .number n => n.integer
  | _ => none

/-- A member of an object: where its colon is and where its value begins. -/
structure Place where
  name : Bytes
  colon : ℕ
  start : ℕ
  value : Value

/-- The members whose text begins at an offset. -/
def Members.places (offset : ℕ) : Members → List Place
  | .last key value _ =>
    [⟨key.name.content, offset + key.toColon.length,
      offset + key.toColon.length + 1 + key.beforeValue.1.length, value⟩]
  | .cons key value after rest =>
    ⟨key.name.content, offset + key.toColon.length,
      offset + key.toColon.length + 1 + key.beforeValue.1.length, value⟩ ::
        rest.places (offset + (key.toColon ++ 58 :: (key.beforeValue.1 ++ value.text ++ after.1)).length + 1)

/-- A whole text. -/
structure Document where
  before : White
  value : Value
  after : White

namespace Document

/-- The bytes of a document. -/
def text (d : Document) : Bytes := d.before.1 ++ d.value.text ++ d.after.1

/-- The members of the top level. -/
def places (d : Document) : List Place :=
  match d.value with
  | .object members => members.places (d.before.1.length + 1)
  | _ => []

/-- No two members of the top level have one name. -/
def Distinct (d : Document) : Prop := (d.places.map (·.name)).Nodup

/-- The member of a name. -/
def member (d : Document) (name : Bytes) : Option Value := (d.places.find? (·.name = name)).map (·.value)

end Document

/-! ### Where members stand -/

/-- The member stands in a text where its place says, before a comma or a closing brace. -/
def Place.StandsIn (p : Place) (t : Bytes) : Prop :=
  ∃ (pre : Bytes) (key : Key) (after : White) (c : UInt8) (post : Bytes),
    t = pre ++ (key.toColon ++ 58 :: (key.beforeValue.1 ++ (p.value.text ++ (after.1 ++ c :: post)))) ∧
      p.name = key.name.content ∧ p.colon = pre.length + key.toColon.length ∧
        p.start = p.colon + 1 + key.beforeValue.1.length ∧ (c = 44 ∨ c = 125)

/-- Members stand where their places say. -/
theorem Members.standsIn {s : Bytes} : ∀ (members : Members) {p : Place}, p ∈ members.places s.length →
    ∀ post : Bytes, p.StandsIn (s ++ (members.text ++ 125 :: post))
  | .last key v after, p, hp, post => by
    rw [Members.places, List.mem_singleton] at hp
    subst hp
    exact ⟨s, key, after, 125, post, by simp [Members.text], rfl, rfl, rfl, .inr rfl⟩
  | .cons key v after rest, p, hp, post => by
    rw [Members.places, List.mem_cons] at hp
    rcases hp with rfl | hp
    · exact ⟨s, key, after, 44, rest.text ++ 125 :: post, by simp [Members.text], rfl, rfl, rfl, .inl rfl⟩
    · have hlength : s.length + (key.toColon ++ 58 :: (key.beforeValue.1 ++ v.text ++ after.1)).length + 1 =
          (s ++ (key.toColon ++ 58 :: (key.beforeValue.1 ++ v.text ++ after.1) ++ [44])).length := by
        simp only [List.length_append, List.length_cons, List.length_nil]
        omega
      rw [hlength] at hp
      have hrest := rest.standsIn hp post
      simpa [Members.text] using hrest

theorem Document.standsIn {d : Document} {p : Place} (h : p ∈ d.places) : p.StandsIn d.text := by
  unfold Document.places at h
  split at h
  · rename_i members hvalue
    have hlength : d.before.1.length + 1 = (d.before.1 ++ [123]).length := by simp
    rw [hlength] at h
    have hmembers := members.standsIn h d.after.1
    rw [Document.text, hvalue, Value.text]
    simpa using hmembers
  · cases h

/-- With distinct names the member of a name is the one that has it. -/
theorem Document.member_of_mem {d : Document} (hd : d.Distinct) {p : Place} (h : p ∈ d.places) :
    d.member p.name = some p.value := by
  rw [Document.member, find?_of_nodup Place.name hd h]
  rfl

/-! ### Looking into a value -/

/-- The members one by one. -/
def Members.list : Members → List (Bytes × Value)
  | .last key value _ => [(key.name.content, value)]
  | .cons key value _ rest => (key.name.content, value) :: rest.list

/-- The first member of a name of an object. -/
def Value.member (v : Value) (name : Bytes) : Option Value :=
  match v with
  | .object members => (members.list.find? (·.1 = name)).map (·.2)
  | _ => none

/-- What a string stands for. -/
def Value.content : Value → Option Bytes
  | .string s => some s.content
  | _ => none

/-- Which truth value it is. -/
def Value.truth : Value → Option Bool
  | .bool b => some b
  | _ => none

/-! ### Trees without white space -/

/-- The text needs no escapes. -/
def IsPlain (t : Bytes) : Prop := ∀ c ∈ t, c ≠ 34 ∧ c ≠ 92 ∧ 32 ≤ c

instance (t : Bytes) : Decidable (IsPlain t) := inferInstanceAs (Decidable (∀ c ∈ t, c ≠ 34 ∧ c ≠ 92 ∧ 32 ≤ c))

theorem Str.plain_text {t : Bytes} (h : IsPlain t) : (Str.plain t).text = t ∧ (Str.plain t).content = t := by
  induction t with
  | nil => exact ⟨rfl, rfl⟩
  | cons c t ih =>
    obtain ⟨hc, ht⟩ := List.forall_mem_cons.mp h
    obtain ⟨htext, hcontent⟩ := ih ht
    have hcons : Str.plain (c :: t) = .plain c hc :: Str.plain t := by
      rw [Str.plain, List.filterMap_cons, dif_pos hc]
      rfl
    rw [hcons]
    exact ⟨congrArg (c :: ·) htext, congrArg (c :: ·) hcontent⟩

theorem forall_no_digits : ∀ d ∈ ([] : Bytes), isDigit 10 d = true := List.forall_mem_nil _

/-- A natural number. -/
def Number.ofNat (n : ℕ) : Number where
  negative := false
  whole := decimal n
  whole_ok := (decimal_head n).imp_right fun h => ⟨(isDecimal_decimal n).1, h, (isDecimal_decimal n).2.1⟩
  fraction := []
  fraction_ok := forall_no_digits
  exponent := none

theorem Number.ofNat_text (n : ℕ) : (Number.ofNat n).text = decimal n := by simp [Number.text, Number.ofNat]

theorem Number.ofNat_integer (n : ℕ) : (Number.ofNat n).integer = some (n : ℤ) := by
  have hvalue := (isDecimal_decimal n).2.2
  simp [Number.integer, Number.ofNat, hvalue]

/-- The elements of a list. -/
def Elements.ofList : Value → List Value → Elements
  | v, [] => .last .none v .none
  | v, w :: vs => .cons .none v .none (ofList w vs)

/-- An array of a list. -/
def Value.ofList : List Value → Value
  | [] => .emptyArray .none
  | v :: vs => .array (.ofList v vs)

theorem Elements.ofList_text (v : Value) (vs : List Value) :
    (Elements.ofList v vs).text = (((v :: vs).map Value.text).intersperse [44]).flatten := by
  induction vs generalizing v with
  | nil => simp [Elements.ofList, Elements.text, White.none]
  | cons w vs ih =>
    rw [Elements.ofList, Elements.text, ih]
    simp [White.none]

theorem Elements.ofList_list (v : Value) (vs : List Value) : (Elements.ofList v vs).list = v :: vs := by
  induction vs generalizing v with
  | nil => rfl
  | cons w vs ih => rw [Elements.ofList, Elements.list, ih]

theorem Value.ofList_text (vs : List Value) :
    (Value.ofList vs).text = 91 :: (((vs.map Value.text).intersperse [44]).flatten ++ [93]) := by
  cases vs with
  | nil => rfl
  | cons v vs => rw [Value.ofList, Value.text, Elements.ofList_text]

theorem Value.ofList_elements (vs : List Value) : (Value.ofList vs).elements = some vs := by
  cases vs with
  | nil => rfl
  | cons v vs => rw [Value.ofList, Value.elements, Elements.ofList_list]

/-- The key of a name. -/
def Key.ofName (name : Bytes) : Key := ⟨.none, .plain name, .none, .none⟩

/-- The members of a list. -/
def Members.ofList : Bytes × Value → List (Bytes × Value) → Members
  | m, [] => .last (.ofName m.1) m.2 .none
  | m, m' :: ms => .cons (.ofName m.1) m.2 .none (ofList m' ms)

theorem Members.ofList_text {m : Bytes × Value} {ms : List (Bytes × Value)} (h : ∀ m' ∈ m :: ms, IsPlain m'.1) :
    (Members.ofList m ms).text =
      (((m :: ms).map fun m => 34 :: (m.1 ++ 34 :: 58 :: m.2.text)).intersperse [44]).flatten := by
  induction ms generalizing m with
  | nil =>
    have hm := (Str.plain_text (h m List.mem_cons_self)).1
    simp [Members.ofList, Members.text, Key.toColon, Key.ofName, White.none, hm]
  | cons m' ms ih =>
    have hm := (Str.plain_text (h m List.mem_cons_self)).1
    rw [Members.ofList, Members.text, ih fun m hm => h m (List.mem_cons_of_mem _ hm)]
    simp [Key.toColon, Key.ofName, White.none, hm]

theorem Members.ofList_list {m : Bytes × Value} {ms : List (Bytes × Value)} (h : ∀ m' ∈ m :: ms, IsPlain m'.1) :
    (Members.ofList m ms).list = m :: ms := by
  induction ms generalizing m with
  | nil => rw [Members.ofList, Members.list, Key.ofName, (Str.plain_text (h m List.mem_cons_self)).2]
  | cons m' ms ih =>
    rw [Members.ofList, Members.list, ih fun m hm => h m (List.mem_cons_of_mem _ hm), Key.ofName,
      (Str.plain_text (h m List.mem_cons_self)).2]

/-- With distinct names each name finds its value. -/
theorem Members.ofList_member {m : Bytes × Value} {ms : List (Bytes × Value)} (h : ∀ m' ∈ m :: ms, IsPlain m'.1)
    (hdistinct : ((m :: ms).map (·.1)).Nodup) {name : Bytes} {v : Value} (hmem : (name, v) ∈ m :: ms) :
    (Value.object (.ofList m ms)).member name = some v := by
  have hfind := find?_of_nodup Prod.fst hdistinct hmem
  rw [Value.member, Members.ofList_list h, hfind]
  rfl

/-- A name that no member has finds nothing. -/
theorem Members.ofList_no_member {m : Bytes × Value} {ms : List (Bytes × Value)} (h : ∀ m' ∈ m :: ms, IsPlain m'.1)
    {name : Bytes} (hno : name ∉ (m :: ms).map (·.1)) : (Value.object (.ofList m ms)).member name = none := by
  have hnone : (m :: ms).find? (·.1 = name) = none := by
    refine List.find?_eq_none.mpr fun m' hm' => ?_
    intro heq
    exact hno (of_decide_eq_true heq ▸ List.mem_map_of_mem hm')
  rw [Value.member, Members.ofList_list h, hnone]
  rfl

/-- How a number is written. -/
def Value.numeral : Value → Option Bytes
  | .number n => some n.text
  | _ => none

end CanMonitor.Library.Json
