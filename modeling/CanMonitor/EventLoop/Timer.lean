import Mathlib.Data.List.AList
import Mathlib.Data.List.Sort

/-!
# The timer

`Timer` keeps deadlines by descriptor number: a map with the latest deadline of each, and
a heap of all deadlines ever set. A deadline that was replaced or removed stays in the
heap and is passed over when it comes up, as the map does not have it any more.

## The model

`heap_` is a `priority_queue` with the smallest deadline on top: a list in ascending
order, which is a field. `fd_expire_map_` is an association list. A call takes what
`time(nullptr)` says as an argument.

## What is proved

* `tickLoop_spec` — `tick` returns those whose deadline in the map has passed, each once and
  in the order of their deadlines, as long as the heap has the deadlines of the map; and the
  operations keep that (`Valid`).
-/

namespace CanMonitor.EventLoop

/-- A descriptor number. -/
abbrev Fd := ℕ

/-- `TimerEvent`. -/
structure TimerEvent where
  fd : Fd
  /-- `expire_time`. -/
  expireTime : ℤ
  deriving DecidableEq, Repr

/-- The order of the heap. -/
def TimerEvent.le (a b : TimerEvent) : Prop := a.expireTime ≤ b.expireTime

instance : DecidableRel TimerEvent.le := fun a b => inferInstanceAs (Decidable (a.expireTime ≤ b.expireTime))

instance : Std.Total TimerEvent.le := ⟨fun a b => Int.le_total a.expireTime b.expireTime⟩

instance : IsTrans TimerEvent TimerEvent.le := ⟨fun _ _ _ => Int.le_trans⟩

/-- `Timer`. -/
structure Timer where
  /-- `heap_`. -/
  heap : List TimerEvent
  /-- The top of the heap is its smallest deadline. -/
  sorted : heap.Pairwise TimerEvent.le
  /-- `fd_expire_map_`. -/
  fdExpireMap : AList fun _ : Fd => ℤ

namespace Timer

/-- A timer with no deadlines. -/
def empty : Timer := ⟨[], .nil, ∅⟩

/-- `addTimer`: a new deadline for `fd`. It stands before equal ones, whose order `priority_queue`
leaves open; no general result uses it. -/
def addTimer (t : Timer) (fd : Fd) (timeoutSec now : ℤ) : Timer where
  heap := t.heap.orderedInsert TimerEvent.le ⟨fd, now + timeoutSec⟩
  sorted := t.sorted.orderedInsert _ _
  fdExpireMap := t.fdExpireMap.insert fd (now + timeoutSec)

/-- `updateTimer`, which does the same as `addTimer`. -/
def updateTimer (t : Timer) (fd : Fd) (timeoutSec now : ℤ) : Timer := t.addTimer fd timeoutSec now

/-- `removeTimer`. -/
def removeTimer (t : Timer) (fd : Fd) : Timer := { t with fdExpireMap := t.fdExpireMap.erase fd }

/-- The loop of `tick`: what is left of the heap and the map, and who has expired. -/
def tickLoop (now : ℤ) : List TimerEvent → (AList fun _ : Fd => ℤ) → List Fd →
    List TimerEvent × (AList fun _ : Fd => ℤ) × List Fd
  | [], expires, expired => ([], expires, expired)
  | event :: heap, expires, expired =>
    if event.expireTime ≤ now then
      if expires.lookup event.fd = some event.expireTime then
        tickLoop now heap (expires.erase event.fd) (expired ++ [event.fd])
      else tickLoop now heap expires expired
    else (event :: heap, expires, expired)

theorem tickLoop_suffix (now : ℤ) (heap : List TimerEvent) (expires : AList fun _ : Fd => ℤ) (expired : List Fd) :
    (tickLoop now heap expires expired).1 <:+ heap := by
  induction heap generalizing expires expired with
  | nil => exact List.suffix_rfl
  | cons event heap ih =>
    unfold tickLoop
    split_ifs
    · exact (ih _ _).trans (List.suffix_cons event heap)
    · exact (ih _ _).trans (List.suffix_cons event heap)
    · exact List.suffix_rfl

/-- `tick`: the descriptors whose deadline has passed. -/
def tick (t : Timer) (now : ℤ) : List Fd × Timer :=
  let result := tickLoop now t.heap t.fdExpireMap []
  (result.2.2, ⟨result.1, t.sorted.sublist (tickLoop_suffix ..).sublist, result.2.1⟩)

/-! ### What `tick` returns -/

/-- No more expire than there are timers. -/
theorem length_tickLoop (now : ℤ) (heap : List TimerEvent) (expires : AList fun _ : Fd => ℤ) (expired : List Fd) :
    (tickLoop now heap expires expired).2.2.length ≤ expired.length + heap.length := by
  induction heap generalizing expires expired with
  | nil => exact Nat.le_refl _
  | cons event heap ih =>
    unfold tickLoop
    split_ifs
    · refine (ih _ _).trans ?_
      simp only [List.length_append, List.length_cons, List.length_nil]
      omega
    · refine (ih _ _).trans ?_
      simp only [List.length_cons]
      omega
    · exact Nat.le_add_right _ _

/-- The deadlines of the map are in the heap. -/
def Covered (heap : List TimerEvent) (expires : AList fun _ : Fd => ℤ) : Prop :=
  ∀ fd deadline, expires.lookup fd = some deadline → ⟨fd, deadline⟩ ∈ heap

/-- The deadline of `fd` has passed. -/
def Due (now : ℤ) (expires : AList fun _ : Fd => ℤ) (fd : Fd) : Prop := ∃ deadline ≤ now, expires.lookup fd = some deadline

variable {now : ℤ} {heap : List TimerEvent} {event : TimerEvent} {expires : AList fun _ : Fd => ℤ}

theorem Covered.erase (h : Covered heap expires) (fd : Fd) : Covered heap (expires.erase fd) := by
  intro fd' deadline hlookup
  by_cases hfd : fd' = fd
  · subst hfd
    cases (AList.lookup_erase fd' expires).symm.trans hlookup
  · exact h fd' deadline ((AList.lookup_erase_ne hfd).symm.trans hlookup)

/-- The top of the heap is popped, and the map has not its deadline. -/
theorem Covered.pop (h : Covered (event :: heap) expires)
    (hother : expires.lookup event.fd ≠ some event.expireTime) : Covered heap expires := by
  intro fd deadline hlookup
  rcases List.mem_cons.mp (h fd deadline hlookup) with heq | hmem
  · exact absurd (heq ▸ hlookup) hother
  · exact hmem

theorem due_erase {fd fd' : Fd} : Due now (expires.erase fd) fd' ↔ fd' ≠ fd ∧ Due now expires fd' := by
  by_cases hfd : fd' = fd
  · subst hfd
    simp [Due]
  · simp [Due, hfd, AList.lookup_erase_ne]

/-- **What `tick` does**: it returns those whose deadline has passed, each once and in the order
of the deadlines, and takes these out of the map. -/
theorem tickLoop_spec (now : ℤ) (hsorted : heap.Pairwise TimerEvent.le) (hcovered : Covered heap expires) (expired : List Fd) :
    ∃ fired, (tickLoop now heap expires expired).2.2 = expired ++ fired ∧ fired.Nodup ∧
      (∀ fd, fd ∈ fired ↔ Due now expires fd) ∧
      fired.Pairwise (fun a b => ∀ d ∈ expires.lookup a, ∀ e ∈ expires.lookup b, d ≤ e) ∧
      (∀ fd, (tickLoop now heap expires expired).2.1.lookup fd = if fd ∈ fired then none else expires.lookup fd) ∧
      Covered (tickLoop now heap expires expired).1 (tickLoop now heap expires expired).2.1 := by
  induction heap generalizing expires expired with
  | nil =>
    have hnone : ∀ fd, expires.lookup fd = none := fun fd =>
      Option.eq_none_iff_forall_ne_some.mpr fun deadline hlookup => List.not_mem_nil (hcovered fd deadline hlookup)
    exact ⟨[], by simp [tickLoop], .nil, by simp [Due, hnone], .nil, by simp [tickLoop], hcovered⟩
  | cons event heap ih =>
    obtain ⟨hfirst, hrest⟩ := List.pairwise_cons.mp hsorted
    unfold tickLoop
    split_ifs with hpassed hlive
    · -- the top is the deadline of its number, which expires
      have hrest' : Covered heap (expires.erase event.fd) :=
        (hcovered.erase event.fd).pop (by simp)
      obtain ⟨fired, hfired, hnodup, hmem, horder, hlookup, hcovered'⟩ := ih hrest hrest' (expired ++ [event.fd])
      have hnot : event.fd ∉ fired := fun h => (due_erase.mp ((hmem _).mp h)).1 rfl
      have hne : ∀ b ∈ fired, b ≠ event.fd := fun b hb heq => hnot (heq ▸ hb)
      refine ⟨event.fd :: fired, by simp [hfired], List.nodup_cons.mpr ⟨hnot, hnodup⟩, ?_, ?_, ?_, hcovered'⟩
      · intro fd
        rw [List.mem_cons, hmem, due_erase]
        by_cases hfd : fd = event.fd
        · subst hfd
          simpa [Due] using ⟨event.expireTime, hpassed, hlive⟩
        · simp [hfd]
      · refine List.pairwise_cons.mpr ⟨?_, horder.imp_of_mem ?_⟩
        · intro b hb d hd e he
          obtain rfl : event.expireTime = d := Option.some.inj (hlive.symm.trans hd)
          rcases List.mem_cons.mp (hcovered b e he) with heq | hmem'
          · exact absurd (congrArg TimerEvent.fd heq) (hne b hb)
          · exact hfirst _ hmem'
        · intro a b ha hb h d hd e he
          refine h d ?_ e ?_
          · rwa [AList.lookup_erase_ne (hne a ha)]
          · rwa [AList.lookup_erase_ne (hne b hb)]
      · intro fd
        rw [hlookup]
        by_cases hfd : fd = event.fd
        · subst hfd
          simp
        · simp [hfd, AList.lookup_erase_ne]
    · -- the top is a deadline that was replaced or removed
      exact ih hrest (hcovered.pop hlive) expired
    · -- the top has not passed, so none has
      have hlate : ∀ fd deadline, expires.lookup fd = some deadline → now < deadline := by
        intro fd deadline hlookup
        rcases List.mem_cons.mp (hcovered fd deadline hlookup) with heq | hmem
        · rw [show deadline = event.expireTime from congrArg TimerEvent.expireTime heq]
          exact not_le.mp hpassed
        · exact lt_of_lt_of_le (not_le.mp hpassed) (hfirst _ hmem)
      have hnone : ∀ fd, ¬ Due now expires fd := fun fd ⟨deadline, hle, hlookup⟩ =>
        absurd hle (not_le.mpr (hlate fd deadline hlookup))
      exact ⟨[], by simp, .nil, by simp [hnone], .nil, by simp, hcovered⟩

/-- A timer whose heap has the deadlines of its map. -/
def Valid (t : Timer) : Prop := Covered t.heap t.fdExpireMap

theorem valid_empty : empty.Valid := by
  intro fd deadline hlookup
  cases hlookup

@[simp] theorem lookup_addTimer (t : Timer) (fd : Fd) (timeoutSec now : ℤ) :
    (t.addTimer fd timeoutSec now).fdExpireMap.lookup fd = some (now + timeoutSec) := AList.lookup_insert _

theorem lookup_addTimer_ne (t : Timer) {fd fd' : Fd} (h : fd' ≠ fd) (timeoutSec now : ℤ) :
    (t.addTimer fd timeoutSec now).fdExpireMap.lookup fd' = t.fdExpireMap.lookup fd' := AList.lookup_insert_ne h

theorem lookup_removeTimer_ne (t : Timer) {fd fd' : Fd} (h : fd' ≠ fd) :
    (t.removeTimer fd).fdExpireMap.lookup fd' = t.fdExpireMap.lookup fd' := AList.lookup_erase_ne h

theorem Valid.addTimer {t : Timer} (h : t.Valid) (fd : Fd) (timeoutSec now : ℤ) : (t.addTimer fd timeoutSec now).Valid := by
  intro fd' deadline hlookup
  refine (List.mem_orderedInsert _).mpr ?_
  by_cases hfd : fd' = fd
  · subst hfd
    rw [lookup_addTimer, Option.some.injEq] at hlookup
    exact .inl (by rw [hlookup])
  · rw [lookup_addTimer_ne t hfd] at hlookup
    exact .inr (h fd' deadline hlookup)

theorem Valid.removeTimer {t : Timer} (h : t.Valid) (fd : Fd) : (t.removeTimer fd).Valid := Covered.erase h fd

theorem Valid.tick {t : Timer} (h : t.Valid) (now : ℤ) : (t.tick now).2.Valid := by
  obtain ⟨_, _, _, _, _, _, hcovered⟩ := tickLoop_spec now t.sorted h []
  exact hcovered

/-- **`tick`** returns, each once, those whose deadline has passed. -/
theorem Valid.nodup_tick {t : Timer} (h : t.Valid) (now : ℤ) : (t.tick now).1.Nodup := by
  obtain ⟨fired, hfired, hnodup, _⟩ := tickLoop_spec now t.sorted h []
  rw [show (t.tick now).1 = fired from hfired]
  exact hnodup

theorem Valid.mem_tick {t : Timer} (h : t.Valid) (now : ℤ) (fd : Fd) :
    fd ∈ (t.tick now).1 ↔ Due now t.fdExpireMap fd := by
  obtain ⟨fired, hfired, _, hmem, _⟩ := tickLoop_spec now t.sorted h []
  rw [show (t.tick now).1 = fired from hfired]
  exact hmem fd

/-- The numbers that `tick` does not return keep their deadlines. -/
theorem Valid.lookup_tick {t : Timer} (h : t.Valid) (now : ℤ) (fd : Fd) :
    (t.tick now).2.fdExpireMap.lookup fd = if fd ∈ (t.tick now).1 then none else t.fdExpireMap.lookup fd := by
  obtain ⟨fired, hfired, _, _, _, hlookup, _⟩ := tickLoop_spec now t.sorted h []
  rw [show (t.tick now).1 = fired from hfired]
  exact hlookup fd

end Timer

end CanMonitor.EventLoop
