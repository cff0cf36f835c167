import Mathlib

/-
  Transfer slots are shared fairly (`SchedulerMixin._share_transfer_slots`).

  Each free slot goes to the operation with the fewest files in flight, and among equals to the one
  that has started the fewest. While a slot is shared out no file finishes, and no operation fails
  or is stopped.

  Main declarations:
    * `Pool.pick`
    * `Pool.available_submit`
    * `Pool.submit_close`
    * `Pool.share_frame`
    * `slots_are_shared`
-/

----
-- Operations
----

namespace VonkForge.Sharing

/- `_BackgroundTransfer`: the files in flight, those started and all of them. -/
structure Background where
  pending : Nat
  nextIndex : Nat
  specs : Nat
  failed : Bool
  stopped : Bool
deriving DecidableEq

/- An operation that a slot can be given to. -/
def Background.eligible (record : Background) : Bool :=
  !record.failed && decide (record.nextIndex < record.specs) && !record.stopped

/- `_background_operations`, and `_max_parallel_downloads`. -/
structure Pool (ι : Type) where
  maxParallelDownloads : Nat
  operations : Finset ι
  record : ι → Background

/- What `_share_transfer_slots` leaves, and each slot that it gave, with the pool it gave it in. -/
structure Shared (ι : Type) where
  pool : Pool ι
  given : List (Pool ι × ι)

namespace Pool

variable {ι : Type} [LinearOrder ι] (pool : Pool ι)

def available : Nat := pool.maxParallelDownloads - ∑ id ∈ pool.operations, (pool.record id).pending

def waiting (pool : Pool ι) : Finset ι := pool.operations.filter fun id => (pool.record id).eligible

/- What the waiting operations are ordered by. -/
def key (id : ι) : Nat ×ₗ Nat ×ₗ ι :=
  toLex ((pool.record id).pending, toLex ((pool.record id).nextIndex, id))

/- The operation of `min(waiting)`. -/
def pick : Option ι :=
  ((pool.waiting.image pool.key).min : Option (Nat ×ₗ Nat ×ₗ ι)).map fun first =>
    (ofLex (ofLex first).2).2

def submit (id : ι) : Pool ι :=
  { pool with
    record := Function.update pool.record id
      { pool.record id with
        nextIndex := (pool.record id).nextIndex + 1
        pending := (pool.record id).pending + 1 } }

/- The pool once the operations of a list were given slots, one each time they stand in it. -/
def serving (ids : List ι) : Pool ι :=
  { pool with
    record := fun id =>
      { pool.record id with
        nextIndex := (pool.record id).nextIndex + ids.count id
        pending := (pool.record id).pending + ids.count id } }

theorem pick_spec {pool : Pool ι} {id : ι} (hPick : pool.pick = some id) : id ∈ pool.waiting ∧
    ∀ other ∈ pool.waiting, (pool.record id).pending ≤ (pool.record other).pending := by
  rcases Option.map_eq_some_iff.mp hPick with ⟨_, hMin, rfl⟩
  rcases Finset.mem_image.mp (Finset.mem_of_min hMin) with ⟨_, hId, rfl⟩
  refine ⟨hId, fun other hOther => ?_⟩
  have hLe := Finset.min_le_of_eq (Finset.mem_image_of_mem pool.key hOther) hMin
  rcases Prod.Lex.le_iff.mp hLe with hLess | ⟨hSame, -⟩
  · exact hLess.le
  · exact hSame.le

theorem pick_eq_none {pool : Pool ι} (hPick : pool.pick = none) : pool.waiting = ∅ := by
  rcases Finset.eq_empty_or_nonempty pool.waiting with hNone | hSome
  · exact hNone
  · rcases Finset.min_of_nonempty (hSome.image pool.key) with ⟨_, hMin⟩
    have hNone := Option.map_eq_none_iff.mp hPick
    rw [hMin] at hNone
    cases hNone

/- A slot that is given is one less to give. -/
theorem available_submit
    {pool : Pool ι}
    {id : ι}
    (hId : id ∈ pool.operations) :
    (pool.submit id).available = pool.available - 1 := by
  have hSum := Finset.sum_update_of_mem hId (fun id => (pool.record id).pending)
    ((pool.record id).pending + 1)
  have hBefore := Finset.add_sum_erase pool.operations (fun id => (pool.record id).pending) hId
  have hPending : (fun other => ((pool.submit id).record other).pending) =
      Function.update (fun id => (pool.record id).pending) id ((pool.record id).pending + 1) := by
    funext other
    by_cases hOther : other = id
    · simp [submit, hOther]
    · simp [submit, hOther]
  rw [Finset.sdiff_singleton_eq_erase] at hSum
  simp only [available, hPending]
  change pool.maxParallelDownloads - ∑ x ∈ pool.operations, _ = _
  rw [hSum]
  omega

/- The loop. A slot that is given is free no more. -/
def shareTransferSlots (pool : Pool ι) : Shared ι :=
  if _hFree : 0 < pool.available then
    match _hPick : pool.pick with
    | none => ⟨pool, []⟩
    | some id =>
      let shared := shareTransferSlots (pool.submit id)
      ⟨shared.pool, (pool, id) :: shared.given⟩
  else ⟨pool, []⟩
termination_by pool.available
decreasing_by
  rw [available_submit (Finset.mem_of_mem_filter id (pick_spec _hPick).1)]
  omega

----
-- Fairness
----

theorem eligible_of_submit {pool : Pool ι} {id other : ι}
    (hEligible : ((pool.submit id).record other).eligible) :
    (pool.record other).eligible := by
  by_cases hOther : other = id
  · subst hOther
    simp only [submit, Function.update_self, Background.eligible, Bool.and_eq_true,
      decide_eq_true_eq] at hEligible ⊢
    exact ⟨⟨hEligible.1.1, by omega⟩, hEligible.2⟩
  · simpa [submit, hOther] using hEligible

/- The difference of two operations in flight. -/
def apart (first second : ι) : Nat :=
  ((pool.record first).pending - (pool.record second).pending : Int).natAbs

/- Giving the slot to the one who has least keeps the waiting ones close. -/
theorem submit_close
    {pool : Pool ι}
    {id first second : ι}
    (hPick : pool.pick = some id)
    (hFirst : first ∈ pool.waiting)
    (hSecond : second ∈ pool.waiting) :
    (pool.submit id).apart first second ≤
      max 1 (pool.apart first second) := by
  have hLeast := (pick_spec hPick).2
  have hAtFirst := hLeast first hFirst
  have hAtSecond := hLeast second hSecond
  unfold apart submit
  by_cases hOne : first = id
  · subst hOne
    by_cases hSame : second = first
    · simp [hSame]
    · simp only [Function.update_self, Function.update_of_ne hSame]
      omega
  · by_cases hTwo : second = id
    · subst hTwo
      simp only [Function.update_self, Function.update_of_ne hOne]
      omega
    · simp only [Function.update_of_ne hOne, Function.update_of_ne hTwo]
      omega

theorem eligible_of_share {id : ι}
    (hEligible : (pool.shareTransferSlots.pool.record id).eligible) :
    (pool.record id).eligible := by
  fun_induction shareTransferSlots pool with
  | case1 | case3 => exact hEligible
  | case2 _ _ _ _ _ ih => exact eligible_of_submit (ih hEligible)

theorem share_close {first second : ι} (hFirst : first ∈ pool.operations)
    (hSecond : second ∈ pool.operations)
    (hOne : (pool.shareTransferSlots.pool.record first).eligible)
    (hTwo : (pool.shareTransferSlots.pool.record second).eligible) :
    pool.shareTransferSlots.pool.apart first second ≤ max 1 (pool.apart first second) := by
  fun_induction shareTransferSlots pool with
  | case1 | case3 => exact le_max_right _ _
  | case2 _ _ _ hPick _ ih =>
    have hRest := ih hFirst hSecond hOne hTwo
    have hStep := submit_close hPick
      (Finset.mem_filter.mpr ⟨hFirst, eligible_of_submit (eligible_of_share _ hOne)⟩)
      (Finset.mem_filter.mpr ⟨hSecond, eligible_of_submit (eligible_of_share _ hTwo)⟩)
    refine hRest.trans ?_
    omega

theorem share_full :
    pool.shareTransferSlots.pool.available = 0 ∨ pool.shareTransferSlots.pool.waiting = ∅ := by
  fun_induction shareTransferSlots pool with
  | case1 _ _ hPick => exact Or.inr (pick_eq_none hPick)
  | case2 _ _ _ _ _ ih => exact ih
  | case3 _ hNone => exact Or.inl (Nat.eq_zero_of_not_pos hNone)

theorem given_fair : ∀ slot ∈ pool.shareTransferSlots.given, slot.2 ∈ slot.1.waiting ∧
    ∀ other ∈ slot.1.waiting, (slot.1.record slot.2).pending ≤ (slot.1.record other).pending := by
  fun_induction shareTransferSlots pool with
  | case1 | case3 => simp
  | case2 _ _ _ hPick _ ih => exact List.forall_mem_cons.mpr ⟨pick_spec hPick, ih⟩

theorem serving_nil : pool.serving [] = pool := rfl

theorem serving_cons (id : ι) (ids : List ι) :
    pool.serving (id :: ids) = (pool.submit id).serving ids := by
  simp only [serving, submit, Pool.mk.injEq, true_and]
  funext other
  by_cases hOther : other = id
  · subst hOther
    simp only [List.count_cons_self, Function.update_self, Background.mk.injEq, and_true]
    omega
  · simp [List.count_cons_of_ne (Ne.symm hOther), Function.update_of_ne hOther]

/- Nothing changes but the counts of the operations that were given a slot. -/
theorem share_frame :
    pool.shareTransferSlots.pool =
      pool.serving (pool.shareTransferSlots.given.map Prod.snd) := by
  fun_induction shareTransferSlots pool with
  | case1 pool | case3 pool => exact pool.serving_nil.symm
  | case2 pool _ id _ shared ih =>
    rw [List.map_cons, serving_cons]
    exact ih

/- A slot is given in the pool that the slots before it have left. -/
theorem given_frame {slot : Pool ι × ι} {later : List (Pool ι × ι)} : ∀ earlier,
    pool.shareTransferSlots.given = earlier ++ slot :: later →
      slot.1 = pool.serving (earlier.map Prod.snd) := by
  fun_induction shareTransferSlots pool with
  | case1 | case3 => simp
  | case2 pool _ id _ shared ih =>
    intro earlier hGiven
    cases earlier with
    | nil =>
      obtain ⟨rfl, -⟩ := List.cons.inj hGiven
      rfl
    | cons first earlier =>
      obtain ⟨rfl, hRest⟩ := List.cons.inj hGiven
      rw [List.map_cons, serving_cons]
      exact ih earlier hRest

end Pool

/-
  The slots are shared until none is free or no operation can take one. What remains apart was apart
  before, or differs by one file; each slot went to an operation with the fewest files in flight;
  and apart from these slots the pool is as it was.
-/
theorem slots_are_shared
    {ι : Type}
    [LinearOrder ι]
    (pool : Pool ι) :
    let shared := pool.shareTransferSlots
    (shared.pool.available = 0 ∨
     ∀ id ∈ pool.operations, (shared.pool.record id).eligible = false) ∧
    (∀ first ∈ pool.operations,
       ∀ second ∈ pool.operations,
         (shared.pool.record first).eligible = true →
         (shared.pool.record second).eligible = true →
         shared.pool.apart first second ≤
           max 1 (pool.apart first second)) ∧
    (∀ slot ∈ shared.given,
       (slot.1.record slot.2).eligible = true ∧
       ∀ other ∈ slot.1.operations,
         (slot.1.record other).eligible = true →
         (slot.1.record slot.2).pending ≤
           (slot.1.record other).pending) ∧
    shared.pool = pool.serving (shared.given.map Prod.snd) ∧
    ∀ earlier slot later,
      shared.given = earlier ++ slot :: later →
      slot.1 = pool.serving (earlier.map Prod.snd) := by
  refine ⟨pool.share_full.imp id ?_, fun first hFirst second hSecond => ?_, ?_, pool.share_frame,
    fun earlier _ _ => pool.given_frame earlier⟩
  · intro hNone id hId
    by_contra hEligible
    have hSame : pool.shareTransferSlots.pool.operations = pool.operations := by
      rw [pool.share_frame]
      rfl
    rw [← hSame] at hId
    have hWaiting : id ∈ pool.shareTransferSlots.pool.waiting :=
      Finset.mem_filter.mpr ⟨hId, by simpa using hEligible⟩
    rw [hNone] at hWaiting
    exact absurd hWaiting (Finset.notMem_empty id)
  · exact pool.share_close hFirst hSecond
  · intro slot hSlot
    rcases pool.given_fair slot hSlot with ⟨hWaiting, hLeast⟩
    exact ⟨(Finset.mem_filter.mp hWaiting).2,
      fun other hOther hEligible => hLeast other (Finset.mem_filter.mpr ⟨hOther, hEligible⟩)⟩

end VonkForge.Sharing
