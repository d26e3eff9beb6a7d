import CanMonitor.Library.Text
import Mathlib.Algebra.Order.Ring.Nat

/-!
# Bytes and numerals

Byte strings (`Bytes`), the character classes of the C locale, and the numerals that
the C library's `strtoul` family reads: white space, a sign, for base `0` a prefix that
gives the base, and as many digits as there are. `strtoull` gives the value and how
many characters were used, or `none` where the C++ wrappers throw: no digits
(`std::invalid_argument`) or a value that does not fit in 64 bits
(`std::out_of_range`). A minus sign negates modulo `2^64`.
-/

namespace CanMonitor.Library

/-- A byte string. -/
abbrev Bytes := List UInt8

/-- The bytes of a literal, which is ASCII wherever it is used here. -/
def bytes (s : String) : Bytes := s.toList.map fun c => c.toUInt8

/-- `isspace` in the C locale: space, and `\t \n \v \f \r`. -/
def isspace (c : UInt8) : Bool := c == 32 || (9 ≤ c && c ≤ 13)

/-- `toupper` in the C locale. -/
def toupper (c : UInt8) : UInt8 := if 97 ≤ c ∧ c ≤ 122 then c - 32 else c

/-- What a character is worth as a digit; `36` for a character that is none. -/
def digitVal (c : UInt8) : ℕ :=
  if 48 ≤ c ∧ c ≤ 57 then c.toNat - 48
  else if 65 ≤ c ∧ c ≤ 90 then c.toNat - 55
  else if 97 ≤ c ∧ c ≤ 122 then c.toNat - 87
  else 36

/-- Whether a character is a digit of the base. -/
def isDigit (base : ℕ) (c : UInt8) : Bool := digitVal c < base

/-- The number written by the digits `ds`. -/
def value (base : ℕ) (ds : Bytes) : ℕ := ds.foldl (fun v c => v * base + digitVal c) 0

/-- The sign: whether it is a minus, how long it is, and the rest. -/
def sign : Bytes → Bool × ℕ × Bytes
  | 45 :: rest => (true, 1, rest)
  | 43 :: rest => (false, 1, rest)
  | s => (false, 0, s)

/-- The prefix for base `0`: the base, how long the prefix is, and the rest. `0x` is a
prefix only before a digit; the `0` of an octal numeral is a digit of it. -/
def basePrefix : Bytes → ℕ × ℕ × Bytes
  | 48 :: x :: d :: rest =>
    if (x = 120 ∨ x = 88) ∧ isDigit 16 d then (16, 2, d :: rest) else (8, 0, 48 :: x :: d :: rest)
  | 48 :: rest => (8, 0, 48 :: rest)
  | s => (10, 0, s)

/-- `strtoull`, with the exceptions of `std::stoull`: the value and the number of
characters used. -/
def strtoull (base : ℕ) (s : Bytes) : Option (ℕ × ℕ) :=
  let spaces := (s.takeWhile isspace).length
  let (negative, signLength, s) := sign (s.dropWhile isspace)
  let (base, prefixLength, s) := if base = 0 then basePrefix s else (base, 0, s)
  let ds := s.takeWhile (isDigit base)
  if ds = [] then none
  else if 2 ^ 64 ≤ value base ds then none
  else some (if negative then (2 ^ 64 - value base ds) % 2 ^ 64 else value base ds,
    spaces + signLength + prefixLength + ds.length)

/-- `std::stoul(s)`: the number at the start of `s`. -/
def stoul (s : Bytes) : Option ℕ := (strtoull 10 s).map (·.1)

/-- `std::to_string`, and `<<` of an unsigned number: its decimal digits. -/
def decimal (n : ℕ) : Bytes := (Nat.toDigits 10 n).map fun c => c.toUInt8

/-- `<<` of an unsigned number after `hex` and `uppercase`. -/
def upperHex (n : ℕ) : Bytes := (Nat.toDigits 16 n).map fun c => toupper c.toUInt8

/-- What is checked of all 256 bytes holds of every byte. -/
theorem forall_byte {p : UInt8 → Prop} (h : ∀ n : Fin 256, p (UInt8.ofFin n)) (c : UInt8) : p c := h c.toFin

theorem isDigit_ten : ∀ c : UInt8, isDigit 10 c = true → 48 ≤ c ∧ c ≤ 57 := forall_byte (by decide +kernel)

theorem isspace_of_isDigit : ∀ c : UInt8, isDigit 10 c = true → isspace c = false :=
  forall_byte (by decide +kernel)

/-- White space before a numeral does not matter. -/
theorem stoul_dropWhile (s : Bytes) : stoul (s.dropWhile isspace) = stoul s := by
  have h : (s.dropWhile isspace).dropWhile isspace = s.dropWhile isspace := List.dropWhile_idempotent _ _
  unfold stoul strtoull
  simp only [h]
  split_ifs <;> simp

/-- White space at the front does not matter. -/
theorem stoul_append_left {t : Bytes} (ht : ∀ c ∈ t, isspace c = true) (s : Bytes) : stoul (t ++ s) = stoul s := by
  rw [← stoul_dropWhile (t ++ s), ← stoul_dropWhile s, List.dropWhile_append_of_pos ht]

/-- White space of some kinds at the front can be dropped. -/
theorem stoul_dropWhile_of {p : UInt8 → Bool} (hp : ∀ c, p c = true → isspace c = true) (s : Bytes) :
    stoul (s.dropWhile p) = stoul s := by
  conv_rhs => rw [← List.takeWhile_append_dropWhile (p := p) (l := s)]
  exact (stoul_append_left (fun c hc => hp c (List.mem_takeWhile_imp hc)) _).symm

theorem sign_append {s : Bytes} (hs : s ≠ []) (t : Bytes) :
    sign (s ++ t) = ((sign s).1, (sign s).2.1, (sign s).2.2 ++ t) := by
  obtain ⟨a, s, rfl⟩ := List.exists_cons_of_ne_nil hs
  unfold sign
  split <;> split <;> simp_all

/-- White space at the end does not matter. -/
theorem stoul_append_right {t : Bytes} (ht : ∀ c ∈ t, isspace c = true) (s : Bytes) : stoul (s ++ t) = stoul s := by
  have hdigit : t.takeWhile (isDigit 10) = [] := by
    rw [List.takeWhile_eq_nil_iff]
    intro hlen hd
    have := isspace_of_isDigit _ hd
    simp [ht] at this
  rw [← stoul_dropWhile (s ++ t), ← stoul_dropWhile s, List.dropWhile_append]
  by_cases hs : s.dropWhile isspace = []
  · have ht' : t.dropWhile isspace = [] := List.dropWhile_eq_nil_iff.mpr ht
    rw [hs, List.isEmpty_nil, if_pos rfl, ht']
  · have hdrop : (s.dropWhile isspace ++ t).dropWhile isspace = s.dropWhile isspace ++ t := by
      rw [List.dropWhile_append, List.dropWhile_idempotent, if_neg (by simp [hs])]
    have htake : ∀ w : Bytes, (w ++ t).takeWhile (isDigit 10) = w.takeWhile (isDigit 10) := fun w => by
      rw [List.takeWhile_append, hdigit, List.append_nil]
      split_ifs with h
      · exact (List.takeWhile_prefix _).eq_of_length h |>.symm
      · rfl
    rw [if_neg (by simp [hs])]
    unfold stoul strtoull
    simp only [hdrop, List.dropWhile_idempotent, sign_append hs, if_neg (show ¬ (10 : ℕ) = 0 by decide), htake]
    split_ifs <;> rfl

/-- Trimming white space off does not matter. -/
theorem stoul_trim {p : UInt8 → Bool} (hp : ∀ c, p c = true → isspace c = true) (s : Bytes) :
    stoul (trim p s) = stoul s := by
  have hr : trim p s ++ (s.dropWhile p).rtakeWhile p = s.dropWhile p := by
    rw [trim, List.rdropWhile, List.rtakeWhile, ← List.reverse_append, List.takeWhile_append_dropWhile,
      List.reverse_reverse]
  rw [← stoul_append_right (t := (s.dropWhile p).rtakeWhile p) (fun c hc => hp c (List.mem_rtakeWhile_imp hc)),
    hr, stoul_dropWhile_of hp]

/-- What `stoul` gives fits in 64 bits. -/
theorem stoul_lt {s : Bytes} {n : ℕ} (h : stoul s = some n) : n < 2 ^ 64 := by
  obtain ⟨⟨m, k⟩, hm, rfl⟩ := Option.map_eq_some_iff.mp h
  unfold strtoull at hm
  simp only [if_neg (show ¬ (10 : ℕ) = 0 by decide), Option.ite_none_left_eq_some, Option.some.injEq,
    Prod.mk.injEq] at hm
  obtain ⟨-, hlt, rfl, -⟩ := hm
  simp only
  split_ifs <;> omega

/-- A decimal numeral of `n`. -/
def IsDecimal (v : Bytes) (n : ℕ) : Prop := v ≠ [] ∧ (∀ c ∈ v, isDigit 10 c = true) ∧ value 10 v = n

/-- **Decimal numerals** are read as what they denote. -/
theorem stoul_decimal {v : Bytes} {n : ℕ} (h : IsDecimal v n) (hn : n < 2 ^ 64) : stoul v = some n := by
  obtain ⟨hne, hd, hv⟩ := h
  have hdrop : v.dropWhile isspace = v :=
    dropWhile_eq_self fun a ha => isspace_of_isDigit a (hd a (List.mem_of_head? ha))
  have hsign : sign v = (false, 0, v) := by
    obtain ⟨a, w, rfl⟩ := List.exists_cons_of_ne_nil hne
    have := isDigit_ten a (hd a List.mem_cons_self)
    unfold sign
    split <;> simp_all
  have htake : v.takeWhile (isDigit 10) = v := List.takeWhile_eq_self_iff.mpr hd
  unfold stoul strtoull
  simp only [hdrop, hsign, if_neg (show ¬ (10 : ℕ) = 0 by decide), htake, if_neg hne, hv, if_neg (Nat.not_le.mpr hn)]
  rfl

/-- A decimal digit as a byte. -/
theorem digit_toUInt8 {c : Char} (h : c.isDigit = true) :
    isDigit 10 c.toUInt8 = true ∧ digitVal c.toUInt8 = c.toNat - 48 := by
  obtain ⟨hl, hr⟩ : 48 ≤ c.toNat ∧ c.toNat ≤ 57 := by
    simpa [Char.isDigit, UInt32.le_iff_toNat_le] using h
  have hc : c.toUInt8.toNat = c.toNat := by
    change c.toNat % 256 = c.toNat
    omega
  have hd : digitVal c.toUInt8 = c.toNat - 48 := by
    rw [digitVal, if_pos (by rw [UInt8.le_iff_toNat_le, UInt8.le_iff_toNat_le, hc]; exact ⟨hl, hr⟩), hc]
  exact ⟨by rw [isDigit, hd, decide_eq_true_eq]; omega, hd⟩

/-- Every number is what its digits say. -/
theorem isDecimal_decimal (n : ℕ) : IsDecimal (decimal n) n := by
  have hdigit : ∀ c ∈ Nat.toDigits 10 n, c.isDigit = true := fun c hc =>
    Nat.isDigit_of_mem_toDigits (by decide) (by decide) hc
  refine ⟨by simp [decimal], ?_, ?_⟩
  · intro d hd
    obtain ⟨c, hc, rfl⟩ := List.mem_map.mp hd
    exact (digit_toUInt8 (hdigit c hc)).1
  · calc value 10 (decimal n)
        = (Nat.toDigits 10 n).foldl (fun v c => v * 10 + digitVal c.toUInt8) 0 := by
          rw [value, decimal, List.foldl_map]
      _ = Nat.ofDigitChars 10 (Nat.toDigits 10 n) 0 := by
          rw [Nat.ofDigitChars_eq_foldl]
          refine List.foldl_ext _ _ 0 fun v c hc => ?_
          rw [(digit_toUInt8 (hdigit c hc)).2, Nat.mul_comm]
          rfl
      _ = n := Nat.ofDigitChars_ten_toDigits

/-- A decimal numeral has no leading zero, unless it is that of zero. -/
theorem decimal_head (n : ℕ) : decimal n = [48] ∨ (decimal n).head? ≠ some 48 := by
  induction n using Nat.strong_induction_on with
  | _ n ih =>
    by_cases h : n < 10
    · have hdigit : ∀ d < 10, [d.digitChar.toUInt8] = ([48] : Bytes) ∨ [d.digitChar.toUInt8].head? ≠ some 48 := by decide
      rw [decimal, Nat.toDigits_of_lt_base h]
      exact hdigit n h
    · right
      have heq : decimal n = decimal (n / 10) ++ [(n % 10).digitChar.toUInt8] := by
        rw [decimal, Nat.toDigits_of_base_le (by decide) (by omega), List.map_append]
        rfl
      have hpos : n / 10 ≠ 0 := by omega
      have hne : decimal (n / 10) ≠ [] := (isDecimal_decimal _).1
      have hzero : decimal (n / 10) ≠ [48] := fun hzero => by
        have hvalue := (isDecimal_decimal (n / 10)).2.2
        rw [hzero] at hvalue
        exact hpos hvalue.symm
      rw [heq, List.head?_append_of_ne_nil _ hne]
      exact (ih (n / 10) (by omega)).resolve_left hzero

theorem value_concat (base : ℕ) (ds : Bytes) (c : UInt8) : value base (ds ++ [c]) = value base ds * base + digitVal c := by
  simp [value]

/-- The hexadecimal digits of a number. -/
theorem upperHex_spec (n : ℕ) : upperHex n ≠ [] ∧ (∀ c ∈ upperHex n, isDigit 16 c = true) ∧ value 16 (upperHex n) = n := by
  have hdigit : ∀ d < 16, isDigit 16 (toupper d.digitChar.toUInt8) = true ∧ digitVal (toupper d.digitChar.toUInt8) = d := by
    decide
  induction n using Nat.strong_induction_on with
  | _ n ih =>
    by_cases h : n < 16
    · have heq : upperHex n = [toupper n.digitChar.toUInt8] := by
        rw [upperHex, Nat.toDigits_of_lt_base h]
        rfl
      rw [heq]
      refine ⟨List.cons_ne_nil _ _, ?_, ?_⟩
      · rintro c hc
        rw [List.mem_singleton.mp hc]
        exact (hdigit n h).1
      · simp [value, (hdigit n h).2]
    · have heq : upperHex n = upperHex (n / 16) ++ [toupper (n % 16).digitChar.toUInt8] := by
        rw [upperHex, Nat.toDigits_of_base_le (by decide) (by omega), List.map_append]
        rfl
      obtain ⟨-, hall, hvalue⟩ := ih (n / 16) (by omega)
      have hlast := hdigit (n % 16) (Nat.mod_lt n (by decide))
      rw [heq]
      refine ⟨by simp, ?_, ?_⟩
      · intro c hc
        rcases List.mem_append.mp hc with hc | hc
        · exact hall c hc
        · rw [List.mem_singleton.mp hc]
          exact hlast.1
      · rw [value_concat, hvalue, hlast.2]
        omega

/-! ### Integer literals -/

/-- The integer that a text writes as C does: white space, a sign, a prefix that gives the
base, and digits to the end. -/
def literal (s : Bytes) : Option ℤ :=
  let (negative, _, s) := sign (s.dropWhile isspace)
  let (base, _, ds) := basePrefix s
  if ds ≠ [] ∧ ds.all (isDigit base) = true then
    some (if negative then -(value base ds : ℤ) else value base ds)
  else none

theorem sign_length (s : Bytes) : (sign s).2.1 + (sign s).2.2.length = s.length := by
  unfold sign
  split <;> simp [Nat.add_comm]

theorem basePrefix_length (s : Bytes) : (basePrefix s).2.1 + (basePrefix s).2.2.length = s.length := by
  unfold basePrefix
  split
  · split_ifs <;> simp only [List.length_cons] <;> omega
  · simp
  · simp

/-- **A text that `strtoull` uses up** is an integer literal, and the value is the integer
modulo `2^64`. -/
theorem literal_of_strtoull {s : Bytes} {n : ℕ} (h : strtoull 0 s = some (n, s.length)) :
    ∃ z : ℤ, literal s = some z ∧ (n : ℤ) = z % 2 ^ 64 ∧ -2 ^ 64 < z ∧ z < 2 ^ 64 := by
  have hspaces : (s.takeWhile isspace).length + (s.dropWhile isspace).length = s.length := by
    rw [← List.length_append, List.takeWhile_append_dropWhile]
  have hsign := sign_length (s.dropWhile isspace)
  have hbase := basePrefix_length (sign (s.dropWhile isspace)).2.2
  unfold strtoull at h
  unfold literal
  simp only [if_true, Option.ite_none_left_eq_some, Option.some.injEq, Prod.mk.injEq] at h ⊢
  obtain ⟨hne, hlt, hn, hlen⟩ := h
  generalize sign (s.dropWhile isspace) = sg at *
  obtain ⟨negative, signLength, s'⟩ := sg
  generalize basePrefix s' = bp at *
  obtain ⟨base, prefixLength, ds⟩ := bp
  simp only at *
  -- nothing is left after the digits
  have htake : ds.takeWhile (isDigit base) = ds :=
    (List.takeWhile_prefix _).eq_of_length (by omega)
  rw [htake] at hne hlt hn
  refine ⟨_, if_pos ⟨hne, List.all_eq_true.mpr (List.takeWhile_eq_self_iff.mp htake)⟩, ?_⟩
  subst hn
  split_ifs <;> omega

theorem mem_sign {s : Bytes} {c : UInt8} (h : c ∈ s) : c = 43 ∨ c = 45 ∨ c ∈ (sign s).2.2 := by
  unfold sign
  split
  · rcases List.mem_cons.mp h with rfl | h
    · exact .inr (.inl rfl)
    · exact .inr (.inr h)
  · rcases List.mem_cons.mp h with rfl | h
    · exact .inl rfl
    · exact .inr (.inr h)
  · exact .inr (.inr h)

theorem mem_basePrefix {s : Bytes} {c : UInt8} (h : c ∈ s) :
    c = 48 ∨ c = 120 ∨ c = 88 ∨ c ∈ (basePrefix s).2.2 := by
  unfold basePrefix
  split
  · split_ifs with hx
    · rcases List.mem_cons.mp h with rfl | h
      · exact .inl rfl
      · rcases List.mem_cons.mp h with rfl | h
        · exact .inr (hx.1.imp_right .inl)
        · exact .inr (.inr (.inr h))
    · exact .inr (.inr (.inr h))
  · exact .inr (.inr (.inr h))
  · exact .inr (.inr (.inr h))

theorem basePrefix_le (s : Bytes) : (basePrefix s).1 ≤ 16 := by
  unfold basePrefix
  split
  · split_ifs <;> simp
  · simp
  · simp

/-- The characters that may stand in an integer literal. -/
def isLiteralChar (c : UInt8) : Bool := isspace c || c == 43 || c == 45 || c == 120 || c == 88 || isDigit 16 c

theorem literal_chars {s : Bytes} {z : ℤ} (h : literal s = some z) {c : UInt8} (hc : c ∈ s) :
    isLiteralChar c = true := by
  unfold literal at h
  simp only [Option.ite_none_right_eq_some] at h
  obtain ⟨⟨-, hdigits⟩, -⟩ := h
  rw [← List.takeWhile_append_dropWhile (p := isspace) (l := s), List.mem_append] at hc
  rcases hc with hc | hc
  · simp [isLiteralChar, List.mem_takeWhile_imp hc]
  rcases mem_sign hc with rfl | rfl | hc
  · rfl
  · rfl
  rcases mem_basePrefix hc with rfl | rfl | rfl | hc
  · rfl
  · rfl
  · rfl
  have hle := basePrefix_le (sign (s.dropWhile isspace)).2.2
  have hd := List.all_eq_true.mp hdigits c hc
  rw [isDigit, decide_eq_true_eq] at hd
  simp [isLiteralChar, isDigit, Nat.lt_of_lt_of_le hd hle]

/-- What an integer literal can begin with. -/
theorem literal_head {c : UInt8} {s : Bytes} {z : ℤ} (h : literal (c :: s) = some z) :
    isspace c = true ∨ c = 43 ∨ c = 45 ∨ isDigit 10 c = true := by
  by_contra hne
  simp only [not_or] at hne
  obtain ⟨hspace, hplus, hminus, hdigit⟩ := hne
  have hzero : c ≠ 48 := fun h => hdigit (h ▸ rfl)
  have hdrop : (c :: s).dropWhile isspace = c :: s := dropWhile_eq_self (by simpa using hspace)
  have hsign : sign (c :: s) = (false, 0, c :: s) := by
    unfold sign
    split <;> simp_all
  have hbase : basePrefix (c :: s) = (10, 0, c :: s) := by
    unfold basePrefix
    split <;> simp_all
  unfold literal at h
  simp only [hdrop, hsign, hbase, Option.ite_none_right_eq_some] at h
  exact hdigit (List.all_eq_true.mp h.1.2 c List.mem_cons_self)

/-! ### Unsigned literals -/

/-- The text is an unsigned integer literal of `n`: decimal without a leading zero, octal
after a `0`, hexadecimal after `0x`. -/
inductive UnsignedLiteral : Bytes → ℕ → Prop
  | decimal {ds : Bytes} : ds ≠ [] → ds.head? ≠ some 48 → (∀ c ∈ ds, isDigit 10 c = true) →
      UnsignedLiteral ds (value 10 ds)
  | octal {ds : Bytes} : (∀ c ∈ ds, isDigit 8 c = true) → UnsignedLiteral (48 :: ds) (value 8 ds)
  | hexadecimal {x : UInt8} {ds : Bytes} : x = 120 ∨ x = 88 → ds ≠ [] → (∀ c ∈ ds, isDigit 16 c = true) →
      UnsignedLiteral (48 :: x :: ds) (value 16 ds)

theorem not_isDigit_eight_of_mark : ∀ c : UInt8, c = 120 ∨ c = 88 → isDigit 8 c = false := forall_byte (by decide +kernel)

theorem basePrefix_of_ne {s : Bytes} (h : s.head? ≠ some 48) : basePrefix s = (10, 0, s) := by
  unfold basePrefix
  split <;> simp_all

/-- The three kinds of prefixes. -/
theorem basePrefix_cases (s : Bytes) :
    (∃ x ds, s = 48 :: x :: ds ∧ (x = 120 ∨ x = 88) ∧ basePrefix s = (16, 2, ds)) ∨
      (∃ ds, s = 48 :: ds ∧ basePrefix s = (8, 0, 48 :: ds)) ∨ s.head? ≠ some 48 ∧ basePrefix s = (10, 0, s) := by
  by_cases hhead : s.head? = some 48
  · obtain ⟨ds, rfl⟩ : ∃ ds, s = 48 :: ds := by
      obtain ⟨ds, h⟩ := List.head?_eq_some_iff.mp hhead
      exact ⟨ds, h⟩
    match ds with
    | [] => exact .inr (.inl ⟨_, rfl, rfl⟩)
    | [_] => exact .inr (.inl ⟨_, rfl, rfl⟩)
    | x :: d :: ds =>
      by_cases hx : (x = 120 ∨ x = 88) ∧ isDigit 16 d = true
      · exact .inl ⟨x, d :: ds, rfl, hx.1, if_pos hx⟩
      · exact .inr (.inl ⟨_, rfl, if_neg hx⟩)
  · exact .inr (.inr ⟨hhead, basePrefix_of_ne hhead⟩)

theorem basePrefix_octal {ds : Bytes} (h : ∀ c ∈ ds, isDigit 8 c = true) : basePrefix (48 :: ds) = (8, 0, 48 :: ds) := by
  rcases basePrefix_cases (48 :: ds) with ⟨x, rest, heq, hx, -⟩ | ⟨rest, heq, hbase⟩ | ⟨hhead, -⟩
  · exfalso
    cases heq
    have hno := not_isDigit_eight_of_mark x hx
    rw [h x List.mem_cons_self] at hno
    cases hno
  · exact hbase.trans (by rw [← heq])
  · exact absurd rfl hhead

/-- A literal is what its prefix says, with digits to the end. -/
theorem unsignedLiteral_iff {s : Bytes} {n : ℕ} : UnsignedLiteral s n ↔ (basePrefix s).2.2 ≠ [] ∧
    (∀ c ∈ (basePrefix s).2.2, isDigit (basePrefix s).1 c = true) ∧ value (basePrefix s).1 (basePrefix s).2.2 = n := by
  constructor
  · rintro (⟨hne, hhead, hd⟩ | hd | ⟨hx, hne, hd⟩)
    · rw [basePrefix_of_ne hhead]
      exact ⟨hne, hd, rfl⟩
    · rw [basePrefix_octal hd]
      exact ⟨List.cons_ne_nil _ _, List.forall_mem_cons.mpr ⟨rfl, hd⟩, rfl⟩
    · rename_i x ds
      obtain ⟨d, ds, rfl⟩ := List.exists_cons_of_ne_nil hne
      have hbase : basePrefix (48 :: x :: d :: ds) = (16, 2, d :: ds) := if_pos ⟨hx, hd d List.mem_cons_self⟩
      rw [hbase]
      exact ⟨hne, hd, rfl⟩
  · rintro ⟨hne, hd, rfl⟩
    rcases basePrefix_cases s with ⟨x, ds, rfl, hx, hbase⟩ | ⟨ds, rfl, hbase⟩ | ⟨hhead, hbase⟩
    · rw [hbase] at hne hd ⊢
      exact .hexadecimal hx hne hd
    · rw [hbase] at hd ⊢
      exact .octal (List.forall_mem_cons.mp hd).2
    · rw [hbase] at hne hd ⊢
      exact .decimal hne hhead hd

/-- A literal begins with a digit. -/
theorem UnsignedLiteral.head {s : Bytes} {n : ℕ} (h : UnsignedLiteral s n) : ∃ c t, s = c :: t ∧ isDigit 10 c = true := by
  rcases h with ⟨hne, -, hd⟩ | - | -
  · obtain ⟨c, t, rfl⟩ := List.exists_cons_of_ne_nil hne
    exact ⟨c, t, rfl, hd c List.mem_cons_self⟩
  · exact ⟨48, _, rfl, rfl⟩
  · exact ⟨48, _, rfl, rfl⟩

/-- A literal is of one number. -/
theorem UnsignedLiteral.unique {s : Bytes} {m n : ℕ} (hm : UnsignedLiteral s m) (hn : UnsignedLiteral s n) : m = n :=
  (unsignedLiteral_iff.mp hm).2.2.symm.trans (unsignedLiteral_iff.mp hn).2.2

/-- The decimal digits of a number are a literal of it. -/
theorem unsignedLiteral_decimal (n : ℕ) : UnsignedLiteral (decimal n) n := by
  obtain ⟨hne, hd, hvalue⟩ := isDecimal_decimal n
  rcases decimal_head n with hzero | hhead
  · rw [hzero] at hvalue ⊢
    obtain rfl : 0 = n := hvalue
    exact .octal nofun
  · have hliteral := UnsignedLiteral.decimal hne hhead hd
    rwa [hvalue] at hliteral

/-- White space and a sign, as `strtoull` passes over them. -/
def IsPadding (lead : Bytes) : Prop :=
  ∃ spaces sign, lead = spaces ++ sign ∧ (∀ c ∈ spaces, isspace c = true) ∧ sign ∈ [[], [43], [45]]

theorem sign_eq (s : Bytes) : ∃ sg ∈ [[], [43], [45]], s = sg ++ (sign s).2.2 ∧ (sign s).2.1 = sg.length ∧
    (sign s).1 = decide (45 ∈ sg) := by
  unfold sign
  split
  · exact ⟨[45], by simp, rfl, rfl, rfl⟩
  · exact ⟨[43], by simp, rfl, rfl, rfl⟩
  · exact ⟨[], by simp, rfl, rfl, rfl⟩

theorem not_digit_of_sign {c : UInt8} (h : isDigit 10 c = true) : c ≠ 43 ∧ c ≠ 45 := by
  constructor <;> rintro rfl <;> cases h

/-- A sign before a digit. -/
theorem sign_append_digit {sg : Bytes} (hsg : sg ∈ [[], [43], [45]]) {c : UInt8} (hc : isDigit 10 c = true) (t : Bytes) :
    sign (sg ++ c :: t) = (decide (45 ∈ sg), sg.length, c :: t) := by
  simp only [List.mem_cons, List.not_mem_nil, or_false] at hsg
  rcases hsg with rfl | rfl | rfl
  · have hno := not_digit_of_sign hc
    unfold sign
    split <;> simp_all
  · rfl
  · rfl

/-- White space has no minus. -/
theorem minus_mem_append {spaces sg : Bytes} (hspaces : ∀ c ∈ spaces, isspace c = true) :
    45 ∈ spaces ++ sg ↔ 45 ∈ sg := by
  rw [List.mem_append]
  exact or_iff_right fun h => absurd (hspaces 45 h) (by decide)

/-- **What `strtoull` uses up**: a literal of a number that fits, and what it passes over
before it; after a minus the number is negated. -/
theorem strtoull_length_iff {s : Bytes} {n : ℕ} : strtoull 0 s = some (n, s.length) ↔
    ∃ lead lit m, IsPadding lead ∧ s = lead ++ lit ∧ UnsignedLiteral lit m ∧ m < 2 ^ 64 ∧
      n = if 45 ∈ lead then (2 ^ 64 - m) % 2 ^ 64 else m := by
  constructor
  · intro h
    have hsplit := List.takeWhile_append_dropWhile (p := isspace) (l := s)
    have hspaces : ∀ c ∈ s.takeWhile isspace, isspace c = true := fun c hc => List.mem_takeWhile_imp hc
    obtain ⟨sg, hsg, hs, hlength, hminus⟩ := sign_eq (s.dropWhile isspace)
    have htotal : (s.takeWhile isspace).length + (sg.length + (sign (s.dropWhile isspace)).2.2.length) = s.length := by
      rw [← List.length_append, ← hs, ← List.length_append, hsplit]
    unfold strtoull at h
    simp only [if_true, Option.ite_none_left_eq_some, Option.some.injEq, Prod.mk.injEq, hlength, hminus] at h
    generalize (sign (s.dropWhile isspace)).2.2 = lit at *
    obtain ⟨hne, hlt, hn, hlen⟩ := h
    have hbase := basePrefix_length lit
    have hlit : ∀ m, UnsignedLiteral lit m ↔ _ := fun _ => unsignedLiteral_iff
    generalize basePrefix lit = bp at *
    obtain ⟨base, prefixLength, ds⟩ := bp
    simp only at *
    -- nothing is left after the digits
    have htake : ds.takeWhile (isDigit base) = ds := (List.takeWhile_prefix _).eq_of_length (by omega)
    rw [htake] at hne hlt hn
    refine ⟨s.takeWhile isspace ++ sg, lit, _, ⟨_, sg, rfl, hspaces, hsg⟩, ?_,
      (hlit _).mpr ⟨hne, List.takeWhile_eq_self_iff.mp htake, rfl⟩, Nat.lt_of_not_le hlt, ?_⟩
    · rw [List.append_assoc, ← hs, hsplit]
    · simp only [minus_mem_append hspaces, ← hn, decide_eq_true_eq]
  · rintro ⟨_, lit, m, ⟨spaces, sg, rfl, hspaces, hsg⟩, rfl, hlit, hm, rfl⟩
    obtain ⟨c, t, rfl, hc⟩ := hlit.head
    obtain ⟨hne, hd, rfl⟩ := unsignedLiteral_iff.mp hlit
    have hstart : ∀ a ∈ (sg ++ c :: t).head?, isspace a = false := by
      simp only [List.mem_cons, List.not_mem_nil, or_false] at hsg
      rintro a ha
      rcases hsg with rfl | rfl | rfl <;> cases ha
      · exact isspace_of_isDigit c hc
      · rfl
      · rfl
    have hdrop : (spaces ++ (sg ++ c :: t)).dropWhile isspace = sg ++ c :: t := by
      rw [List.dropWhile_append_of_pos hspaces, dropWhile_eq_self hstart]
    have htake : (spaces ++ (sg ++ c :: t)).takeWhile isspace = spaces := by
      have hsplit := List.takeWhile_append_dropWhile (p := isspace) (l := spaces ++ (sg ++ c :: t))
      rw [hdrop] at hsplit
      exact List.append_cancel_right hsplit
    have hbase := basePrefix_length (c :: t)
    unfold strtoull
    simp only [List.append_assoc, if_true, htake, hdrop, sign_append_digit hsg hc]
    generalize basePrefix (c :: t) = bp at *
    obtain ⟨base, prefixLength, ds⟩ := bp
    simp only at *
    rw [List.takeWhile_eq_self_iff.mpr hd, if_neg hne, if_neg (Nat.not_le.mpr hm)]
    simp only [minus_mem_append hspaces, decide_eq_true_eq, List.length_append, Option.some.injEq, Prod.mk.injEq, true_and]
    omega

end CanMonitor.Library
