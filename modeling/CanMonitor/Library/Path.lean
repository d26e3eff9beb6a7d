import CanMonitor.Library.Text
import Mathlib.Data.List.Induction

/-!
# Lexical resolution of paths

Where a relative path leads, by its text alone. Between its slashes are moves: an empty one
and `.` stay, `..` goes up, and a name goes down. `resolve` follows them from a directory: how
often above it, and by which names down from there. `descend` only counts how deep below it
they lead, and gives up above it.

`resolve_below_iff` relates the two: a path leads strictly below a subdirectory exactly when
some move into that subdirectory starts from the directory itself and what follows goes on
below it.
-/

namespace CanMonitor.Library

/-- A move in a tree of names. -/
inductive Move (σ : Type*) where
  | stay
  | up
  | down (name : σ)
  deriving DecidableEq

/-- A place seen from a directory: how many levels up, and then by which names down, the last
one first. -/
structure Place (σ : Type*) where
  ups : ℕ
  names : List σ
  deriving DecidableEq

variable {σ : Type*}

/-- One move. -/
def Place.move (p : Place σ) : Move σ → Place σ
  | .stay => p
  | .up => match p.names with
    | [] => ⟨p.ups + 1, []⟩
    | _ :: names => ⟨p.ups, names⟩
  | .down name => ⟨p.ups, name :: p.names⟩

/-- Where moves lead. -/
def resolve (moves : List (Move σ)) : Place σ := moves.foldl Place.move ⟨0, []⟩

/-- How deep moves lead, `d` levels below a directory; `none` above it. -/
def descend : ℕ → List (Move σ) → Option ℕ
  | d, [] => some d
  | d, .stay :: moves => descend d moves
  | 0, .up :: _ => none
  | d + 1, .up :: moves => descend d moves
  | d, .down _ :: moves => descend (d + 1) moves

theorem resolve_concat (moves : List (Move σ)) (m : Move σ) : resolve (moves ++ [m]) = (resolve moves).move m := by
  simp [resolve]

theorem descend_append (d : ℕ) (moves rest : List (Move σ)) :
    descend d (moves ++ rest) = (descend d moves).bind fun d => descend d rest := by
  fun_induction descend d moves with
  | case1 d => rfl
  | case2 d moves ih => exact ih
  | case3 => rfl
  | case4 d moves ih => exact ih
  | case5 d name moves ih =>
    rw [List.cons_append, descend]
    exact ih

/-- Moves that stay below a directory leave what is above it alone. -/
theorem foldl_of_descend {moves : List (Move σ)} {d d' : ℕ} (h : descend d moves = some d') (u : ℕ)
    {names : List σ} (hnames : names.length = d) (base : List σ) :
    ∃ names', names'.length = d' ∧ moves.foldl Place.move ⟨u, names ++ base⟩ = ⟨u, names' ++ base⟩ := by
  fun_induction descend d moves generalizing names with
  | case1 d => exact ⟨names, hnames.trans (Option.some.inj h), rfl⟩
  | case2 d moves ih => exact ih h hnames
  | case3 => cases h
  | case4 d moves ih =>
    obtain ⟨name, names, rfl⟩ := List.exists_cons_of_length_eq_add_one hnames
    exact ih h (Nat.succ.inj hnames)
  | case5 d name moves ih =>
    have hlength : (name :: names).length = d + 1 := congrArg (· + 1) hnames
    exact ih h hlength

/-- Moves that never lead above the directory. -/
theorem descend_of_resolve {moves : List (Move σ)} {names : List σ} (h : resolve moves = ⟨0, names⟩) :
    descend 0 moves = some names.length := by
  induction moves using List.reverseRecOn generalizing names with
  | nil =>
    cases h
    rfl
  | append_singleton moves m ih =>
    rw [resolve_concat] at h
    rw [descend_append]
    rcases hbefore : resolve moves with ⟨ups, before⟩
    rw [hbefore] at h
    cases m with
    | stay =>
      cases h
      rw [ih hbefore]
      rfl
    | up =>
      cases before with
      | nil => cases h
      | cons name before =>
        cases h
        rw [ih hbefore]
        rfl
    | down name =>
      cases h
      rw [ih hbefore]
      rfl

/-- The last move into a subdirectory under which the path still is. -/
theorem exists_entry {moves : List (Move σ)} {rest : List σ} {root : σ} (h : resolve moves = ⟨0, rest ++ [root]⟩) :
    ∃ pre post, moves = pre ++ .down root :: post ∧ descend 0 pre = some 0 ∧ descend 0 post = some rest.length := by
  induction moves using List.reverseRecOn generalizing rest with
  | nil => simp [resolve] at h
  | append_singleton moves m ih =>
    rw [resolve_concat] at h
    rcases hbefore : resolve moves with ⟨ups, before⟩
    rw [hbefore] at h
    -- what the moves before lead to, and one move more after it
    have hmore : ∀ rest', ups = 0 → before = rest' ++ [root] → descend rest'.length [m] = some rest.length →
        ∃ pre post, moves ++ [m] = pre ++ .down root :: post ∧ descend 0 pre = some 0 ∧
          descend 0 post = some rest.length := by
      rintro rest' rfl rfl hm
      obtain ⟨pre, post, rfl, hpre, hpost⟩ := ih hbefore
      refine ⟨pre, post ++ [m], by simp, hpre, ?_⟩
      rw [descend_append, hpost]
      exact hm
    cases m with
    | stay =>
      cases h
      exact hmore rest rfl rfl rfl
    | up =>
      cases before with
      | nil => cases h
      | cons name before =>
        cases h
        exact hmore (name :: rest) rfl rfl rfl
    | down name =>
      cases rest with
      | nil =>
        cases h
        exact ⟨moves, [], rfl, descend_of_resolve hbefore, rfl⟩
      | cons name' rest =>
        cases h
        exact hmore rest rfl rfl rfl

/-- **Below a subdirectory**: the path enters it from the directory itself, and then stays
below it and does not end where it entered. -/
theorem resolve_below_iff {moves : List (Move σ)} {root : σ} :
    (∃ rest, rest ≠ [] ∧ resolve moves = ⟨0, rest ++ [root]⟩) ↔ ∃ pre post d, moves = pre ++ .down root :: post ∧
      descend 0 pre = some 0 ∧ descend 0 post = some (d + 1) := by
  constructor
  · rintro ⟨rest, hne, h⟩
    obtain ⟨pre, post, hmoves, hpre, hpost⟩ := exists_entry h
    refine ⟨pre, post, rest.length - 1, hmoves, hpre, hpost.trans ?_⟩
    rw [Nat.sub_add_cancel (List.length_pos_iff.mpr hne)]
  · rintro ⟨pre, post, d, rfl, hpre, hpost⟩
    obtain ⟨names, hlength, hstart⟩ := foldl_of_descend hpre 0 List.length_nil []
    obtain ⟨rest, hrest, hend⟩ := foldl_of_descend hpost 0 List.length_nil [root]
    obtain rfl := List.length_eq_zero_iff.mp hlength
    have hne : rest ≠ [] := by
      rintro rfl
      cases hrest
    refine ⟨rest, hne, ?_⟩
    rw [resolve, List.foldl_append]
    exact (congrArg (fun p => post.foldl Place.move (p.move (.down root))) hstart).trans hend

end CanMonitor.Library
