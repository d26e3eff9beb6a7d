import CanMonitor.Library.Json

/-!
# One text, one tree

No two syntax trees of JSON have the same text (`Document.text_injective`): what a text says
is what its only tree says. A tree is found from the front. At each place the next character
tells what comes there, and a run of characters of one class ends where a character of
another follows; for a number that is one that cannot go on with it (`Ends`).
-/

namespace CanMonitor.Library.Json

/-! ### The leaves -/

theorem White.unique {w w' : White} {s s' : Bytes} (hs : ∀ c ∈ s.head?, isWhite c = false)
    (hs' : ∀ c ∈ s'.head?, isWhite c = false) (h : w.1 ++ s = w'.1 ++ s') : w = w' ∧ s = s' :=
  (run_unique w.2 w'.2 hs hs' h).imp_left Subtype.ext

/-- White space before characters that are none. -/
theorem White.unique_cons {w w' : White} {c c' : UInt8} (hc : isWhite c = false) (hc' : isWhite c' = false)
    {s s' : Bytes} (h : w.1 ++ c :: s = w'.1 ++ c' :: s') : w = w' ∧ c = c' ∧ s = s' := by
  have := White.unique (by simpa using hc) (by simpa using hc') h
  rwa [List.cons.injEq] at this

theorem StrChar.unique {c c' : StrChar} {t t' : Bytes} (h : c.text ++ t = c'.text ++ t') : c = c' ∧ t = t' := by
  cases c with
  | plain a ha =>
    cases c' with
    | plain b hb =>
      cases h
      exact ⟨rfl, rfl⟩
    | escape e b he =>
      cases h
      exact absurd rfl ha.2.1
    | unicode digits hd =>
      cases h
      exact absurd rfl ha.2.1
  | escape e a he =>
    cases c' with
    | plain b hb =>
      cases h
      exact absurd rfl hb.2.1
    | escape e' b he' =>
      cases h
      rw [he] at he'
      cases he'
      exact ⟨rfl, rfl⟩
    | unicode digits hd =>
      cases h
      cases he
  | unicode digits hd =>
    cases c' with
    | plain b hb =>
      cases h
      exact absurd rfl hb.2.1
    | escape e b he =>
      cases h
      cases he
    | unicode digits' hd' =>
      have hsplit : digits ++ t = digits' ++ t' := (List.cons.inj (List.cons.inj h).2).2
      obtain ⟨rfl, rfl⟩ := List.append_inj hsplit (hd.1.trans hd'.1.symm)
      exact ⟨rfl, rfl⟩

/-- No character begins with a quote. -/
theorem StrChar.text_ne_quote (c : StrChar) (t u : Bytes) : c.text ++ t ≠ 34 :: u := by
  intro h
  cases c with
  | plain a ha => exact ha.1 (List.cons.inj h).1
  | escape e a he => exact absurd (List.cons.inj h).1 (by decide)
  | unicode digits hd => exact absurd (List.cons.inj h).1 (by decide)

theorem Str.text_cons (c : StrChar) (s : Str) : Str.text (c :: s) = c.text ++ Str.text s := List.flatMap_cons

/-- A string ends at the first quote that is not in a character. -/
theorem Str.unique {s s' : Str} {t t' : Bytes} (h : s.text ++ 34 :: t = s'.text ++ 34 :: t') : s = s' ∧ t = t' := by
  induction s generalizing s' with
  | nil =>
    cases s' with
    | nil => exact ⟨rfl, (List.cons.inj h).2⟩
    | cons c' s' =>
      rw [Str.text_cons, List.append_assoc] at h
      exact absurd h.symm (StrChar.text_ne_quote c' _ _)
  | cons c s ih =>
    rw [Str.text_cons, List.append_assoc] at h
    cases s' with
    | nil => exact absurd h (StrChar.text_ne_quote c _ _)
    | cons c' s' =>
      rw [Str.text_cons, List.append_assoc] at h
      obtain ⟨rfl, hrest⟩ := StrChar.unique h
      obtain ⟨rfl, rfl⟩ := ih hrest
      exact ⟨rfl, rfl⟩

/-- No number goes on with the text. -/
def Ends (rest : Bytes) : Prop := ∀ c ∈ rest.head?, isNumberChar c = false

theorem ends_cons {c : UInt8} (h : isNumberChar c = false) (rest : Bytes) : Ends (c :: rest) := by simpa [Ends] using h

theorem isNumberChar_of_isDigit {c : UInt8} (h : isDigit 10 c = true) : isNumberChar c = true := by
  simp [isNumberChar, h]

theorem Ends.not_digit {rest : Bytes} (h : Ends rest) : ∀ c ∈ rest.head?, isDigit 10 c = false := by
  intro c hc
  have hno := h c hc
  by_contra hdigit
  rw [isNumberChar_of_isDigit (by simpa using hdigit)] at hno
  cases hno

/-- A sign, and digits after it. -/
theorem sign_unique {sg sg' ds ds' : Bytes} (hsg : sg = [] ∨ sg = [43] ∨ sg = [45]) (hsg' : sg' = [] ∨ sg' = [43] ∨ sg' = [45])
    (hne : ds ≠ []) (hd : ∀ d ∈ ds, isDigit 10 d = true) (hne' : ds' ≠ []) (hd' : ∀ d ∈ ds', isDigit 10 d = true)
    {t t' : Bytes} (h : sg ++ (ds ++ t) = sg' ++ (ds' ++ t')) : sg = sg' ∧ ds ++ t = ds' ++ t' := by
  obtain ⟨d, ds, rfl⟩ := List.exists_cons_of_ne_nil hne
  obtain ⟨d', ds', rfl⟩ := List.exists_cons_of_ne_nil hne'
  have hd := not_sign_of_isDigit d (hd d List.mem_cons_self)
  have hd' := not_sign_of_isDigit d' (hd' d' List.mem_cons_self)
  rcases hsg with rfl | rfl | rfl <;> rcases hsg' with rfl | rfl | rfl <;> simp_all

/-- How an exponent is written. -/
def exponentText (e : Option Exponent) : Bytes := e.elim [] fun e => e.mark :: e.sign ++ e.digits

/-- What an exponent begins with is no digit and no point. -/
theorem exponent_head {e : Option Exponent} {rest : Bytes} (hrest : Ends rest) :
    ∀ c ∈ (exponentText e ++ rest).head?, isDigit 10 c = false ∧ c ≠ 46 := by
  intro c hc
  cases e with
  | none =>
    refine ⟨hrest.not_digit c hc, ?_⟩
    rintro rfl
    exact absurd (hrest 46 hc) (by decide)
  | some e =>
    obtain rfl : e.mark = c := Option.some.inj hc
    rcases e.mark_ok with h | h <;> rw [h] <;> decide

theorem exponent_unique {e e' : Option Exponent} {t t' : Bytes} (ht : Ends t) (ht' : Ends t')
    (h : exponentText e ++ t = exponentText e' ++ t') : e = e' ∧ t = t' := by
  have hmark : ∀ e : Exponent, isNumberChar e.mark = true := fun e => by
    rcases e.mark_ok with h | h <;> rw [h] <;> rfl
  cases e with
  | none =>
    cases e' with
    | none => exact ⟨rfl, h⟩
    | some e' =>
      obtain rfl : t = e'.mark :: (e'.sign ++ e'.digits ++ t') := h
      exact absurd (ht _ rfl) (by simp [hmark])
  | some e =>
    cases e' with
    | none =>
      obtain rfl : e.mark :: (e.sign ++ e.digits ++ t) = t' := h
      exact absurd (ht' _ rfl) (by simp [hmark])
    | some e' =>
      have hcons : e.mark :: (e.sign ++ (e.digits ++ t)) = e'.mark :: (e'.sign ++ (e'.digits ++ t')) := by
        simpa [exponentText] using h
      obtain ⟨hm, hrest⟩ := List.cons.inj hcons
      obtain ⟨hs, hrest⟩ := sign_unique e.sign_ok e'.sign_ok e.digits_ne e.digits_ok e'.digits_ne e'.digits_ok hrest
      obtain ⟨hd, rfl⟩ := run_unique e.digits_ok e'.digits_ok ht.not_digit ht'.not_digit hrest
      refine ⟨?_, rfl⟩
      cases e
      cases e'
      cases hm
      cases hs
      cases hd
      rfl

/-- How the digits after the point are written. -/
def fractionText (fraction : Bytes) : Bytes := if fraction = [] then [] else 46 :: fraction

/-- The digits after the point end where something comes that is no digit, and is no point if
there are none. -/
theorem fraction_unique {f f' : Bytes} (hf : ∀ d ∈ f, isDigit 10 d = true) (hf' : ∀ d ∈ f', isDigit 10 d = true)
    {t t' : Bytes} (ht : ∀ c ∈ t.head?, isDigit 10 c = false ∧ c ≠ 46) (ht' : ∀ c ∈ t'.head?, isDigit 10 c = false ∧ c ≠ 46)
    (h : fractionText f ++ t = fractionText f' ++ t') : f = f' ∧ t = t' := by
  unfold fractionText at h
  by_cases hnil : f = [] <;> by_cases hnil' : f' = []
  · rw [if_pos hnil, if_pos hnil'] at h
    exact ⟨hnil.trans hnil'.symm, h⟩
  · rw [if_pos hnil, if_neg hnil', List.nil_append] at h
    exact absurd rfl (ht 46 (by rw [h]; rfl)).2
  · rw [if_neg hnil, if_pos hnil', List.nil_append] at h
    exact absurd rfl (ht' 46 (by rw [← h]; rfl)).2
  · rw [if_neg hnil, if_neg hnil'] at h
    exact run_unique hf hf' (fun c hc => (ht c hc).1) (fun c hc => (ht' c hc).1) (List.cons.inj h).2

theorem Number.text_parts (n : Number) : n.text =
    (if n.negative then [45] else []) ++ (n.whole ++ (fractionText n.fraction ++ exponentText n.exponent)) := by
  simp [Number.text, fractionText, exponentText]

theorem Number.unique {n n' : Number} {t t' : Bytes} (ht : Ends t) (ht' : Ends t') (h : n.text ++ t = n'.text ++ t') :
    n = n' ∧ t = t' := by
  have hsign : ∀ b : Bool, (if b = true then [45] else []) = ([] : Bytes) ∨
      (if b = true then [45] else []) = ([43] : Bytes) ∨ (if b = true then [45] else []) = ([45] : Bytes) := by decide
  have hfraction : ∀ (n : Number) {t : Bytes}, Ends t →
      ∀ c ∈ (fractionText n.fraction ++ (exponentText n.exponent ++ t)).head?, isDigit 10 c = false := by
    intro n t ht c hc
    unfold fractionText at hc
    split_ifs at hc
    · exact (exponent_head ht c hc).1
    · cases hc
      rfl
  rw [Number.text_parts, Number.text_parts] at h
  simp only [List.append_assoc] at h
  obtain ⟨hnegative, h⟩ := sign_unique (hsign n.negative) (hsign n'.negative) n.whole_ne n.whole_digits n'.whole_ne
    n'.whole_digits h
  obtain ⟨hwhole, h⟩ := run_unique n.whole_digits n'.whole_digits (hfraction n ht) (hfraction n' ht') h
  obtain ⟨hf, h⟩ := fraction_unique n.fraction_ok n'.fraction_ok (exponent_head ht) (exponent_head ht') h
  obtain ⟨he, rfl⟩ := exponent_unique ht ht' h
  refine ⟨?_, rfl⟩
  obtain ⟨negative, whole, _, fraction, _, exponent⟩ := n
  obtain ⟨negative', whole', _, fraction', _, exponent'⟩ := n'
  obtain rfl : negative = negative' := by
    cases negative <;> cases negative' <;> first | rfl | cases hnegative
  cases hwhole
  cases hf
  cases he
  rfl

/-! ### Values -/

theorem not_white_of_beginsValue : ∀ c : UInt8, beginsValue c = true → isWhite c = false ∧ c ≠ 93 ∧ c ≠ 125 :=
  forall_byte (by decide +kernel)

theorem not_number_of_white : ∀ c : UInt8, isWhite c = true → isNumberChar c = false := forall_byte (by decide +kernel)

/-- After white space comes what ends a number, if that is what comes without it. -/
theorem ends_white (w : White) {rest : Bytes} (h : Ends rest) : Ends (w.1 ++ rest) := by
  obtain ⟨w, hw⟩ := w
  cases w with
  | nil => exact h
  | cons c w => exact ends_cons (not_number_of_white c (hw c List.mem_cons_self)) _

/-- The first character of a value is no white space. -/
theorem Value.head_not_white (v : Value) (t : Bytes) : ∀ c ∈ (v.text ++ t).head?, isWhite c = false := by
  obtain ⟨f, u, htext, hf⟩ := v.text_cons
  rw [htext]
  intro c hc
  cases hc
  exact (not_white_of_beginsValue f hf).1

/-- The kind of a value, which its first byte tells. -/
def Value.kind : Value → ℕ
  | .null => 0
  | .bool _ => 1
  | .number _ => 2
  | .string _ => 3
  | .emptyArray _ => 4
  | .array _ => 4
  | .emptyObject _ => 5
  | .object _ => 5

/-- The kind that a first character tells. -/
def kindOf (c : UInt8) : ℕ :=
  if c = 110 then 0 else if c = 116 ∨ c = 102 then 1 else if c = 34 then 3 else if c = 91 then 4
  else if c = 123 then 5 else 2

theorem kindOf_number : ∀ c : UInt8, isNumberChar c = true → kindOf c = 2 := forall_byte (by decide +kernel)

theorem Value.kind_of_text {v : Value} {c : UInt8} {t : Bytes} (h : v.text = c :: t) : kindOf c = v.kind := by
  have hhead : v.text.head? = some c := by rw [h]; rfl
  cases v with
  | number n => exact kindOf_number c (n.chars c (List.mem_of_head? hhead))
  | bool b => cases b <;> cases hhead <;> rfl
  | _ =>
    cases hhead
    rfl

/-- Values that begin a text are of one kind. -/
theorem Value.kind_eq {v v' : Value} {t t' : Bytes} (h : v.text ++ t = v'.text ++ t') : v.kind = v'.kind := by
  obtain ⟨c, u, hc, -⟩ := v.text_cons
  obtain ⟨c', u', hc', -⟩ := v'.text_cons
  rw [← v.kind_of_text hc, ← v'.kind_of_text hc']
  rw [hc, hc'] at h
  exact congrArg kindOf (List.cons.inj h).1

/-- A character that ends an item of an array or an object. -/
def EndsItem (c : UInt8) : Prop := c = 44 ∨ c = 93 ∨ c = 125

theorem EndsItem.spec {c : UInt8} (h : EndsItem c) : isWhite c = false ∧ isNumberChar c = false := by
  rcases h with rfl | rfl | rfl <;> decide

/-- A value between white space, and what ends the item. -/
theorem item_unique {v v' : Value}
    (hv : ∀ {t t' : Bytes}, Ends t → Ends t' → v.text ++ t = v'.text ++ t' → v = v' ∧ t = t') {b b' a a' : White}
    {c c' : UInt8} (hc : EndsItem c) (hc' : EndsItem c') {s s' : Bytes}
    (h : b.1 ++ (v.text ++ (a.1 ++ c :: s)) = b'.1 ++ (v'.text ++ (a'.1 ++ c' :: s'))) :
    b = b' ∧ v = v' ∧ a = a' ∧ c = c' ∧ s = s' := by
  obtain ⟨hbefore, hvalue⟩ := White.unique (v.head_not_white _) (v'.head_not_white _) h
  obtain ⟨hv, hafter⟩ := hv (ends_white a (ends_cons hc.spec.2 s)) (ends_white a' (ends_cons hc'.spec.2 s')) hvalue
  exact ⟨hbefore, hv, White.unique_cons hc.spec.1 hc'.spec.1 hafter⟩

/-- What stands before a value, up to the colon. -/
theorem Key.unique {k k' : Key} {s s' : Bytes} (h : k.toColon ++ 58 :: s = k'.toColon ++ 58 :: s') :
    k.before = k'.before ∧ k.name = k'.name ∧ k.afterName = k'.afterName ∧ s = s' := by
  simp only [Key.toColon, List.append_assoc, List.cons_append] at h
  obtain ⟨hbefore, -, h⟩ := White.unique_cons (by decide) (by decide) h
  obtain ⟨hname, h⟩ := Str.unique h
  obtain ⟨hafter, -, h⟩ := White.unique_cons (by decide) (by decide) h
  exact ⟨hbefore, hname, hafter, h⟩

/-- A member of an object, and what ends it. -/
theorem member_unique {v v' : Value}
    (hv : ∀ {t t' : Bytes}, Ends t → Ends t' → v.text ++ t = v'.text ++ t' → v = v' ∧ t = t') {k k' : Key} {a a' : White}
    {c c' : UInt8} (hc : EndsItem c) (hc' : EndsItem c') {s s' : Bytes}
    (h : k.toColon ++ 58 :: (k.beforeValue.1 ++ (v.text ++ (a.1 ++ c :: s))) =
      k'.toColon ++ 58 :: (k'.beforeValue.1 ++ (v'.text ++ (a'.1 ++ c' :: s')))) :
    k = k' ∧ v = v' ∧ a = a' ∧ c = c' ∧ s = s' := by
  obtain ⟨hbefore, hname, hafter, h⟩ := Key.unique h
  obtain ⟨hvalue, rfl, ha, rfl, rfl⟩ := item_unique hv hc hc' h
  refine ⟨?_, rfl, ha, rfl, rfl⟩
  cases k
  cases k'
  cases hbefore
  cases hname
  cases hafter
  cases hvalue
  rfl

/-- An array or an object that is not empty does not begin like an empty one. -/
theorem head_not_close (w : White) {c : UInt8} (hc : beginsValue c = true) (t : Bytes) (w' : White) {d : UInt8}
    (hd : d = 93 ∨ d = 125) (t' : Bytes) : w.1 ++ c :: t ≠ w'.1 ++ d :: t' := by
  intro h
  have hbegin := not_white_of_beginsValue c hc
  have hwhite : isWhite d = false := by rcases hd with rfl | rfl <;> decide
  obtain ⟨-, rfl, -⟩ := White.unique_cons hbegin.1 hwhite h
  exact hd.elim hbegin.2.1 hbegin.2.2

theorem Elements.text_begin (es : Elements) : ∃ (w : White) (c : UInt8) (t : Bytes),
    beginsValue c = true ∧ es.text = w.1 ++ c :: t := by
  cases es with
  | last before element after =>
    obtain ⟨c, t, htext, hc⟩ := element.text_cons
    exact ⟨before, c, t ++ after.1, hc, by simp [Elements.text, htext]⟩
  | cons before element after rest =>
    obtain ⟨c, t, htext, hc⟩ := element.text_cons
    exact ⟨before, c, t ++ after.1 ++ 44 :: rest.text, hc, by simp [Elements.text, htext]⟩

theorem Members.text_begin (ms : Members) : ∃ (w : White) (t : Bytes), ms.text = w.1 ++ 34 :: t := by
  cases ms with
  | last key value after => exact ⟨key.before, _, by rw [Members.text, Key.toColon, List.append_assoc]; rfl⟩
  | cons key value after rest =>
    exact ⟨key.before, _, by rw [Members.text, Key.toColon, List.append_assoc, List.append_assoc]; rfl⟩

mutual

/-- A value is found from its front, if what follows it ends a number. -/
theorem Value.unique : ∀ (v v' : Value) {t t' : Bytes}, Ends t → Ends t' → v.text ++ t = v'.text ++ t' → v = v' ∧ t = t'
  | .null, v', t, t', _, _, h => by
    have hkind := Value.kind_eq h
    cases v' <;> cases hkind
    exact ⟨rfl, List.append_cancel_left h⟩
  | .bool b, v', t, t', _, _, h => by
    have hkind := Value.kind_eq h
    cases v' <;> cases hkind
    rename_i b'
    cases b <;> cases b'
    · exact ⟨rfl, List.append_cancel_left h⟩
    · cases h
    · cases h
    · exact ⟨rfl, List.append_cancel_left h⟩
  | .number n, v', t, t', ht, ht', h => by
    have hkind := Value.kind_eq h
    cases v' <;> cases hkind
    obtain ⟨rfl, rfl⟩ := Number.unique ht ht' h
    exact ⟨rfl, rfl⟩
  | .string s, v', t, t', _, _, h => by
    have hkind := Value.kind_eq h
    cases v' <;> cases hkind
    simp only [Value.text, List.cons_append, List.append_assoc, List.nil_append, List.cons.injEq, true_and] at h
    obtain ⟨rfl, rfl⟩ := Str.unique h
    exact ⟨rfl, rfl⟩
  | .emptyArray w, v', t, t', _, _, h => by
    have hkind := Value.kind_eq h
    cases v' <;> cases hkind
    all_goals simp only [Value.text, List.cons_append, List.append_assoc, List.nil_append, List.cons.injEq, true_and] at h
    · obtain ⟨rfl, -, rfl⟩ := White.unique_cons (by decide) (by decide) h
      exact ⟨rfl, rfl⟩
    · rename_i es
      obtain ⟨w', c, u, hc, hes⟩ := es.text_begin
      rw [hes, List.append_assoc, List.cons_append] at h
      exact absurd h.symm (head_not_close w' hc _ w (.inl rfl) t)
  | .array es, v', t, t', _, _, h => by
    have hkind := Value.kind_eq h
    cases v' <;> cases hkind
    all_goals simp only [Value.text, List.cons_append, List.append_assoc, List.nil_append, List.cons.injEq, true_and] at h
    · obtain ⟨w', c, u, hc, hes⟩ := es.text_begin
      rw [hes, List.append_assoc, List.cons_append] at h
      exact absurd h (head_not_close w' hc _ _ (.inl rfl) t')
    · obtain ⟨rfl, rfl⟩ := Elements.unique es _ h
      exact ⟨rfl, rfl⟩
  | .emptyObject w, v', t, t', _, _, h => by
    have hkind := Value.kind_eq h
    cases v' <;> cases hkind
    all_goals simp only [Value.text, List.cons_append, List.append_assoc, List.nil_append, List.cons.injEq, true_and] at h
    · obtain ⟨rfl, -, rfl⟩ := White.unique_cons (by decide) (by decide) h
      exact ⟨rfl, rfl⟩
    · rename_i ms
      obtain ⟨w', u, hms⟩ := ms.text_begin
      rw [hms, List.append_assoc, List.cons_append] at h
      exact absurd h.symm (head_not_close w' (by decide) _ w (.inr rfl) t)
  | .object ms, v', t, t', _, _, h => by
    have hkind := Value.kind_eq h
    cases v' <;> cases hkind
    all_goals simp only [Value.text, List.cons_append, List.append_assoc, List.nil_append, List.cons.injEq, true_and] at h
    · obtain ⟨w', u, hms⟩ := ms.text_begin
      rw [hms, List.append_assoc, List.cons_append] at h
      exact absurd h (head_not_close w' (by decide) _ _ (.inr rfl) t')
    · obtain ⟨rfl, rfl⟩ := Members.unique ms _ h
      exact ⟨rfl, rfl⟩

/-- Elements are, if the bracket that closes the array follows. -/
theorem Elements.unique : ∀ (es es' : Elements) {t t' : Bytes}, es.text ++ 93 :: t = es'.text ++ 93 :: t' →
    es = es' ∧ t = t'
  | .last b e a, .last b' e' a', t, t', h => by
    simp only [Elements.text, List.append_assoc] at h
    obtain ⟨rfl, rfl, rfl, -, rfl⟩ := item_unique (Value.unique e e') (.inr (.inl rfl)) (.inr (.inl rfl)) h
    exact ⟨rfl, rfl⟩
  | .last b e a, .cons b' e' a' rest', t, t', h => by
    simp only [Elements.text, List.append_assoc, List.cons_append] at h
    obtain ⟨-, -, -, hclose, -⟩ := item_unique (Value.unique e e') (.inr (.inl rfl)) (.inl rfl) h
    exact absurd hclose (by decide)
  | .cons b e a rest, .last b' e' a', t, t', h => by
    simp only [Elements.text, List.append_assoc, List.cons_append] at h
    obtain ⟨-, -, -, hclose, -⟩ := item_unique (Value.unique e e') (.inl rfl) (.inr (.inl rfl)) h
    exact absurd hclose (by decide)
  | .cons b e a rest, .cons b' e' a' rest', t, t', h => by
    simp only [Elements.text, List.append_assoc, List.cons_append] at h
    obtain ⟨rfl, rfl, rfl, -, hrest⟩ := item_unique (Value.unique e e') (.inl rfl) (.inl rfl) h
    obtain ⟨rfl, rfl⟩ := Elements.unique rest rest' hrest
    exact ⟨rfl, rfl⟩

/-- The members of an object are read from their text in one way, if the brace comes right after them. -/
theorem Members.unique : ∀ (ms ms' : Members) {t t' : Bytes}, ms.text ++ 125 :: t = ms'.text ++ 125 :: t' →
    ms = ms' ∧ t = t'
  | .last k v a, .last k' v' a', t, t', h => by
    simp only [Members.text, List.append_assoc, List.cons_append] at h
    obtain ⟨rfl, rfl, rfl, -, rfl⟩ := member_unique (Value.unique v v') (.inr (.inr rfl)) (.inr (.inr rfl)) h
    exact ⟨rfl, rfl⟩
  | .last k v a, .cons k' v' a' rest', t, t', h => by
    simp only [Members.text, List.append_assoc, List.cons_append] at h
    obtain ⟨-, -, -, hclose, -⟩ := member_unique (Value.unique v v') (.inr (.inr rfl)) (.inl rfl) h
    exact absurd hclose (by decide)
  | .cons k v a rest, .last k' v' a', t, t', h => by
    simp only [Members.text, List.append_assoc, List.cons_append] at h
    obtain ⟨-, -, -, hclose, -⟩ := member_unique (Value.unique v v') (.inl rfl) (.inr (.inr rfl)) h
    exact absurd hclose (by decide)
  | .cons k v a rest, .cons k' v' a' rest', t, t', h => by
    simp only [Members.text, List.append_assoc, List.cons_append] at h
    obtain ⟨rfl, rfl, rfl, -, hrest⟩ := member_unique (Value.unique v v') (.inl rfl) (.inl rfl) h
    obtain ⟨rfl, rfl⟩ := Members.unique rest rest' hrest
    exact ⟨rfl, rfl⟩

end

/-- **One text, one tree.** -/
theorem Document.text_injective {d d' : Document} (h : d.text = d'.text) : d = d' := by
  have hnil : Ends [] := nofun
  obtain ⟨before, v, after⟩ := d
  obtain ⟨before', v', after'⟩ := d'
  simp only [Document.text, List.append_assoc] at h
  obtain ⟨hbefore, hvalue⟩ := White.unique (v.head_not_white _) (v'.head_not_white _) h
  have hends : ∀ w : White, Ends w.1 := fun w => by simpa using ends_white w hnil
  obtain ⟨rfl, hafter⟩ := Value.unique v v' (hends after) (hends after') hvalue
  rw [hbefore, Subtype.ext hafter]

end CanMonitor.Library.Json
