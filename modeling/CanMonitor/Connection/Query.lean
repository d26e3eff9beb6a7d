import CanMonitor.Connection.Checked
import CanMonitor.Library.Entries

/-!
# The query of a target

What `parseQuery` makes of a query that a client put together: parameters, each a key and
a value with `=` between them, joined by `&`.

## The model

* `QueryItem` — what may stand between two `&`: a parameter, or something without `=`,
  which is skipped. Neither has an `&` in it, nor a key a `=`.
* `Checked.queryTurns` — the loop of `parseQuery` by positions, with a fuel, and `none` if
  it does not end.

## What is proved

* `queryItems_eq_foldl` — the loop stores the items of a query in turn.
* `queryTurns_ok` — it takes a turn for each item, so it ends on every text.
* `parseQuery_inverts` — a query is read as the last value of each key.
-/

namespace CanMonitor.Connection

open CanMonitor.Library CanMonitor.Http

/-! ### Putting a query together -/

/-- What stands between two `&`. -/
inductive QueryItem where
  /-- A parameter. -/
  | pair (key value : Bytes) (hkey : (38 : UInt8) ∉ key ∧ (61 : UInt8) ∉ key) (hvalue : (38 : UInt8) ∉ value)
  /-- Something else, or nothing. -/
  | other (text : Bytes) (htext : (38 : UInt8) ∉ text ∧ (61 : UInt8) ∉ text)

namespace QueryItem

/-- How an item of a query is written. -/
def text : QueryItem → Bytes
  | pair key value _ _ => key ++ 61 :: value
  | other text _ => text

/-- What an item of a query says, if anything. -/
def entry : QueryItem → Option (Bytes × Bytes)
  | pair key value _ _ => some (key, value)
  | other _ _ => none

end QueryItem

/-- The query. -/
def queryText (items : List QueryItem) : Bytes := [38].intercalate (items.map QueryItem.text)

/-- The parameters of the query, in order. -/
def queryEntries (items : List QueryItem) : List (Bytes × Bytes) := items.filterMap QueryItem.entry

/-! ### Turns of the loop -/

/-- The loop of `parseQuery` from the position `begin`, for at most `fuel` turns. -/
def Checked.queryTurns (query : Bytes) :
    ℕ → (Bytes → Option Bytes) → ℕ → Option (Except OutOfRange (Bytes → Option Bytes))
  | 0, _, _ => none
  | fuel + 1, result, start =>
    if start ≤ query.length then
      match findFrom [38] query start with
      | none => some (substr query start none >>= Checked.storeItem result)
      | some ampersand =>
        match substr query start (some (ampersand - start)) >>= Checked.storeItem result with
        | .error e => some (.error e)
        | .ok result => queryTurns query fuel result (ampersand + 1)
    else some (.ok result)

/-- `parseQuery`, for at most `fuel` turns of its loop. -/
def Checked.parseQueryWithin (fuel : ℕ) (path : Bytes) : Option (Except OutOfRange (Bytes → Option Bytes)) :=
  match find [63] path with
  | none => some (.ok fun _ => none)
  | some questionMark =>
    match substr path (questionMark + 1) none with
    | .error e => some (.error e)
    | .ok query => queryTurns query fuel (fun _ => none) 0

/-- **The loop ends** after a turn for each `&` that is left and one more. -/
theorem Checked.queryTurns_ok {query : Bytes} {fuel : ℕ} (result : Bytes → Option Bytes) {start : ℕ}
    (h : start ≤ query.length) (hfuel : (query.drop start).count 38 < fuel) :
    queryTurns query fuel result start = some (.ok (queryItems result (query.drop start))) := by
  induction fuel generalizing result start with
  | zero => exact absurd hfuel (Nat.not_lt_zero _)
  | succ fuel ih =>
    rw [queryTurns, if_pos h]
    cases hfind : findFrom [38] query start with
    | none =>
      dsimp only
      rw [substr_of_le h, ok_bind, storeItem_ok]
      exact congrArg (some ∘ Except.ok) (queryItems_last (Option.map_eq_none_iff.mp hfind) result).symm
    | some ampersand =>
      obtain ⟨i, hi, rfl⟩ := Option.map_eq_some_iff.mp hfind
      have hnext : start + i + 1 ≤ query.length := (findFrom_le h hfind).2
      have hrest : (query.drop start).drop (i + 1) = query.drop (start + i + 1) := by
        rw [List.drop_drop, Nat.add_assoc]
      -- one `&` less is left
      have hcount : (query.drop (start + i + 1)).count 38 + 1 = (query.drop start).count 38 := by
        obtain ⟨hsplit, hno⟩ := split_of_find hi
        conv_rhs => rw [hsplit]
        rw [List.count_append, List.count_eq_zero_of_not_mem hno, List.count_cons_self, hrest, Nat.zero_add]
      dsimp only
      rw [substr_of_le h, ok_bind, storeItem_ok]
      dsimp only
      rw [ih _ hnext (by omega), queryItems_item hi, hrest, Option.elim_some, Nat.add_sub_cancel_left]

/-- `parseQuery` returns for every text. -/
theorem Checked.parseQueryWithin_ok {path : Bytes} {fuel : ℕ} (h : path.count 38 < fuel) :
    parseQueryWithin fuel path = some (.ok (Connection.parseQuery path)) := by
  unfold parseQueryWithin Connection.parseQuery
  cases hquestion : find [63] path with
  | none => rfl
  | some questionMark =>
    have hcount : (path.drop (questionMark + 1)).count 38 ≤ path.count 38 := (List.drop_sublist _ _).count_le 38
    simp only [substr_after hquestion]
    exact queryTurns_ok _ (Nat.zero_le _) (by rw [List.drop_zero]; omega)

/-! ### Reading it back -/

/-- The loop stores the items one by one. -/
theorem queryItems_eq_foldl (result : Bytes → Option Bytes) (query : Bytes) :
    queryItems result query = (query.splitOn 38).foldl storeItem result := by
  fun_induction queryItems result query with
  | case1 result query hnone => rw [List.splitOn_eq_singleton (find_singleton_eq_none.mp hnone)]; rfl
  | case2 result query ampersand hsome ih =>
    obtain ⟨hsplit, hno⟩ := split_of_find hsome
    conv_rhs => rw [hsplit]
    rw [List.splitOn_append_cons_self_of_not_mem hno, List.foldl_cons, ih]

theorem storeItem_pair {key : Bytes} (hkey : (61 : UInt8) ∉ key) (value : Bytes) (result : Bytes → Option Bytes) :
    storeItem result (key ++ 61 :: value) = storeEntry result (key, value) := by
  rw [storeItem, find_singleton hkey]
  dsimp only
  rw [List.take_left, drop_after]
  rfl

theorem storeItem_other {text : Bytes} (htext : (61 : UInt8) ∉ text) (result : Bytes → Option Bytes) :
    storeItem result text = result := by
  rw [storeItem, find_singleton_eq_none.mpr htext]

/-- No item has an `&`. -/
theorem QueryItem.text_no_ampersand (item : QueryItem) : (38 : UInt8) ∉ item.text := by
  cases item with
  | pair key value hkey hvalue =>
    rw [text, List.mem_append, List.mem_cons, not_or, not_or]
    exact ⟨hkey.1, by decide, hvalue⟩
  | other text htext => exact htext.1

theorem foldl_storeItem (items : List QueryItem) (result : Bytes → Option Bytes) :
    (items.map QueryItem.text).foldl storeItem result = (queryEntries items).foldl storeEntry result := by
  induction items generalizing result with
  | nil => rfl
  | cons item items ih =>
    rw [List.map_cons, List.foldl_cons, ih]
    cases item with
    | pair key value hkey hvalue => rw [QueryItem.text, storeItem_pair hkey.2]; rfl
    | other text htext => rw [QueryItem.text, storeItem_other htext.2]; rfl

/-- A query is its parameters, stored one by one. -/
theorem queryItems_queryText (items : List QueryItem) :
    queryItems (fun _ => none) (queryText items) = (queryEntries items).foldl storeEntry (fun _ => none) := by
  rw [queryItems_eq_foldl]
  by_cases hnil : items = []
  · -- then there is one item, and nothing in it
    subst hnil
    exact storeItem_other List.not_mem_nil _
  · have hno : ∀ text ∈ items.map QueryItem.text, (38 : UInt8) ∉ text := by
      intro text htext
      obtain ⟨item, -, rfl⟩ := List.mem_map.mp htext
      exact item.text_no_ampersand
    rw [queryText, List.splitOn_intercalate 38 hno (by simpa using hnil), foldl_storeItem]

section

variable {path : Bytes} (hpath : (63 : UInt8) ∉ path)
include hpath

/-- What follows the `?` is the query. -/
theorem parseQuery_append (query : Bytes) : parseQuery (path ++ 63 :: query) = queryItems (fun _ => none) query := by
  rw [parseQuery, find_singleton hpath]
  dsimp only
  rw [drop_after]

/-- What precedes the `?` is the route. -/
theorem pathWithoutQuery_append (query : Bytes) : pathWithoutQuery (path ++ 63 :: query) = path := by
  rw [pathWithoutQuery, List.takeWhile_append_of_pos fun c hc => by simpa using fun h : c = 63 => hpath (h ▸ hc)]
  simp

/-- **A query is read back**: each key has the last value that was written for it, the
route is what is before the query, and on every text the loop ends, after no more turns
than the text has items. -/
theorem parseQuery_inverts (items : List QueryItem) :
    parseQuery (path ++ 63 :: queryText items) = lastValue (queryEntries items) ∧
      pathWithoutQuery (path ++ 63 :: queryText items) = path ∧
        ∀ (text : Bytes) (fuel : ℕ), text.count 38 < fuel →
          Checked.parseQueryWithin fuel text = some (.ok (parseQuery text)) :=
  ⟨by rw [parseQuery_append hpath, queryItems_queryText, foldl_storeEntry],
    pathWithoutQuery_append hpath _, fun _ _ h => Checked.parseQueryWithin_ok h⟩

end

/-- Parameters with an empty item, one without `=` and a key twice. -/
def frameItems : List QueryItem :=
  [.pair (bytes "after") (bytes "1") (by decide) (by decide), .other [] (by decide), .other (bytes "x") (by decide),
    .pair (bytes "limit") (bytes "2") (by decide) (by decide),
    .pair (bytes "after") (bytes "a=?") (by decide) (by decide)]

theorem parseQuery_inverts_frames :
    parseQuery (bytes "/api/can/frames?after=1&&x&limit=2&after=a=?") (bytes "after") = some (bytes "a=?") ∧
      pathWithoutQuery (bytes "/api/can/frames?after=1&&x&limit=2&after=a=?") = bytes "/api/can/frames" ∧
        ∀ (text : Bytes) (fuel : ℕ), text.count 38 < fuel →
          Checked.parseQueryWithin fuel text = some (.ok (parseQuery text)) := by
  have htext : bytes "/api/can/frames?after=1&&x&limit=2&after=a=?" =
      bytes "/api/can/frames" ++ 63 :: queryText frameItems := by
    decide +kernel
  have hlast : lastValue (queryEntries frameItems) (bytes "after") = some (bytes "a=?") := by decide +kernel
  obtain ⟨hquery, hroute, hends⟩ := @parseQuery_inverts (bytes "/api/can/frames") (by decide +kernel) frameItems
  rw [← htext] at hquery hroute
  exact ⟨(congrFun hquery _).trans hlast, hroute, hends⟩

end CanMonitor.Connection
