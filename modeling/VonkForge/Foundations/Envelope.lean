import Mathlib

/-
  The envelope of items that are held now and of promises that will replace some of them.

  A promise takes effect after all items it replaces have ended. Going over the promises in some
  order, each one adds what it demands beyond the items that it replaces and that no earlier promise
  was credited with.

  Main declarations:
    * `load`
    * `increments`
    * `commitment_le_total`
    * `commitment_peakPhase`
-/

----
-- The Weight of Some Items
----

namespace Envelope

variable {ι π : Type}

/- The weight of the items that a predicate picks. -/
def load (weight : ι → Nat) (items : List ι) (picked : ι → Bool) : Nat :=
  ((items.filter picked).map weight).sum

section Loads

variable (weight : ι → Nat) (items : List ι)

theorem load_cons (item : ι) (picked : ι → Bool) : load weight (item :: items) picked =
      (if picked item then weight item else 0) +
        load weight items picked := by
  simp only [load, List.filter_cons]
  split
  · simp only [List.map_cons, List.sum_cons]
  · simp only [Nat.zero_add]

variable {picked other : ι → Bool}

theorem load_congr (hSame : ∀ item ∈ items, picked item = other item) :
    load weight items picked = load weight items other := by
  unfold load
  rw [List.filter_congr hSame]

theorem load_mono (hLe : ∀ item ∈ items, picked item →
      other item) : load weight items picked ≤ load weight items other := by
  induction items with
  | nil => exact Nat.le_refl _
  | cons item _ ih =>
    have hHead := hLe item List.mem_cons_self
    have hTail := ih (fun later hLater => hLe later (List.mem_cons_of_mem _ hLater))
    rw [load_cons, load_cons]
    cases hPicked : picked item with
    | false =>
      simp only [Bool.false_eq_true, if_false]
      omega
    | true =>
      rw [hHead hPicked]
      omega

/- What two predicates pick apart adds up. -/
theorem load_or (hApart : ∀ item ∈ items, picked item →
      other item = false) : load weight items (fun item => picked item || other item) =
    load weight items picked + load weight items other := by
  induction items with
  | nil => rfl
  | cons item _ ih =>
    have hHead := hApart item List.mem_cons_self
    have hTail := ih (fun later hLater => hApart later (List.mem_cons_of_mem _ hLater))
    rw [load_cons, load_cons, load_cons, hTail]
    cases hPicked : picked item with
    | false =>
      simp only [Bool.false_or, Bool.false_eq_true, if_false]
      omega
    | true =>
      simp only [hHead hPicked, Bool.true_or, Bool.false_eq_true, if_true, if_false]
      omega

theorem load_not_add (picked : ι → Bool) :
    load weight items (fun item => !picked item) + load weight items picked =
    load weight items (fun _ => true) := by
  rw [← load_or weight items (by simp)]
  exact load_congr weight items (by simp)

end Loads

end Envelope

----
-- Promises
----

namespace Envelope

variable {ι π : Type}

section Promises

variable
  (weight : ι → Nat)
  (items : List ι)
  (demand : π → Nat)
  (replaces : π → ι → Bool)

/- What the promises add, each less the items it replaces that are not credited yet. -/
def increments (credited : ι → Bool) : List π → Nat
  | [] => 0
  | promise :: promises =>
    (demand promise - load weight items (fun item => replaces promise item && !credited item)) +
      increments (fun item => credited item || replaces promise item) promises

variable (promises : List π) (chosen : π → Bool)

/- The items that some chosen promise replaces. -/
def covered (item : ι) : Bool :=
  promises.any (fun promise => chosen promise && replaces promise item)

theorem covered_cons (promise : π) (promises : List π) (chosen : π → Bool) (item : ι) :
    covered replaces (promise :: promises) chosen item =
      (chosen promise && replaces promise item || covered replaces promises chosen item) := rfl

/- What the chosen promises demand together. -/
def demanded : Nat := ((promises.filter chosen).map demand).sum

theorem demanded_cons (promise : π) (promises : List π) (chosen : π → Bool) :
    demanded demand (promise :: promises) chosen = (if chosen promise then demand promise else 0) +
        demanded demand promises chosen :=
  load_cons demand promises promise chosen

theorem increments_congr
    {credited other : ι → Bool} (hSame : ∀ item ∈ items, credited item = other item) :
    increments weight items demand replaces credited promises =
    increments weight items demand replaces other promises := by
  induction promises generalizing credited other with
  | nil => rfl
  | cons promise _ ih =>
    simp only [increments]
    have hLoad : load weight items (fun item => replaces promise item && !credited item) =
      load weight items (fun item => replaces promise item && !other item) :=
      load_congr weight items (fun item hItem => by rw [hSame item hItem])
    rw [hLoad, ih (fun item hItem => by rw [hSame item hItem])]

/- The chosen promises demand no more than all increments and the weight of what they replace. -/
theorem demanded_le (credited : ι → Bool) :
    demanded demand promises chosen ≤ increments weight items demand replaces credited
          promises + load weight items (fun item =>
          covered replaces promises chosen item && !credited item) := by
  induction promises generalizing credited with
  | nil => exact Nat.zero_le _
  | cons promise promises ih =>
    have hRest := ih (fun item => credited item || replaces promise item)
    rw [demanded_cons]
    simp only [increments]
    cases hChosen : chosen promise with
    | false =>
      have hMono : load weight items (fun item =>
              covered replaces promises chosen item && !(credited item || replaces promise item)) ≤
            load weight items (fun item =>
              covered replaces (promise :: promises) chosen item && !credited item) := by
        apply load_mono
        intro _ _ hItem
        rw [covered_cons, hChosen, Bool.false_and, Bool.false_or]
        rw [Bool.not_or, ← Bool.and_assoc, Bool.and_eq_true] at hItem
        exact hItem.1
      simp only [Bool.false_eq_true, if_false]
      omega
    | true =>
      -- What this promise is credited with and what is
      -- left for the later ones are apart.
      have hSplit : load weight items (fun item =>
              covered replaces (promise :: promises) chosen item && !credited item) =
            load weight items (fun item =>
                replaces promise item && !credited item) + load weight items (fun item =>
                covered replaces promises chosen item &&
                  !(credited item || replaces promise item)) := by
        rw [← load_or]
        · apply load_congr
          intro item _
          rw [covered_cons, hChosen, Bool.true_and]
          cases replaces promise item <;>
            cases credited item <;> simp
        · intro _ _ hItem
          rw [Bool.and_eq_true] at hItem
          rw [hItem.1, Bool.or_true, Bool.not_true, Bool.and_false]
      simp only [if_true]
      omega

/- The promises that add something. -/
def worthwhile (promise : π) : Bool := load weight items (replaces promise) < demand promise

/- Where no two promises replace the same item, the promises that add something reach the bound. -/
theorem demanded_worthwhile (credited : ι → Bool)
    (hFree :
      ∀ promise ∈ promises, ∀ item ∈ items, replaces promise item → credited item = false)
    (hDisjoint : promises.Pairwise (fun promise later =>
        ∀ item ∈ items, replaces promise item → replaces later item = false)) :
    demanded demand promises
        (worthwhile weight items demand replaces) = increments weight items demand replaces credited
          promises + load weight items
          (covered replaces promises (worthwhile weight items demand replaces)) := by
  induction promises generalizing credited with
  | nil =>
    have hNone :
        covered replaces [] (worthwhile weight items demand replaces) = fun _ => false := rfl
    simp [demanded, increments, hNone, load]
  | cons promise promises ih =>
    rw [List.pairwise_cons] at hDisjoint
    have hOwn : load weight items (fun item =>
            replaces promise item && !credited item) = load weight items (replaces promise) := by
      apply load_congr
      intro item hItem
      cases hReplaces : replaces promise item with
      | false => rfl
      | true =>
        rw [hFree promise List.mem_cons_self item hItem hReplaces]
        rfl
    have hRest := ih
        (fun item => credited item || replaces promise item)
        (by
          intro later hLater item hItem hReplaces
          rw [hFree later (List.mem_cons_of_mem _ hLater) item hItem hReplaces, Bool.false_or]
          by_contra hBoth
          rw [Bool.not_eq_false] at hBoth
          rw [hDisjoint.1 later hLater item hItem hBoth] at hReplaces
          cases hReplaces)
        hDisjoint.2
    rw [demanded_cons]
    simp only [increments, hOwn]
    cases hWorth : worthwhile weight items demand replaces promise with
    | false =>
      have hCovered : covered replaces (promise :: promises)
          (worthwhile weight items demand replaces) =
          covered replaces promises (worthwhile weight items demand replaces) := by
        funext item
        rw [covered_cons, hWorth, Bool.false_and, Bool.false_or]
      simp only [worthwhile, decide_eq_false_iff_not, Nat.not_lt] at hWorth
      rw [hCovered]
      simp only [Bool.false_eq_true, if_false]
      omega
    | true =>
      have hCovered : load weight items
          (covered replaces (promise :: promises) (worthwhile weight items demand replaces)) =
          load weight items (replaces promise) +
          load weight items (covered replaces promises (worthwhile weight items demand replaces)) :=
          by
        rw [← load_or]
        · apply load_congr
          intro _ _
          rw [covered_cons, hWorth, Bool.true_and]
        · intro item hItem hReplaces
          simp only [covered, List.any_eq_false]
          intro later hLater hBoth
          rw [Bool.and_eq_true, hDisjoint.1 later hLater item hItem hReplaces] at hBoth
          cases hBoth.2
      simp only [worthwhile, decide_eq_true_eq] at hWorth
      rw [hCovered]
      simp only [if_true]
      omega

end Promises

end Envelope

----
-- Phases
----

namespace Envelope

variable {ι π : Type}

/-
  Some promises have taken effect and some items have ended, with all those among them that the
  promises replace.
-/
structure Phase (items : List ι) (promises : List π) (replaces : π → ι → Bool) where
  materialized : π → Bool
  stopped : ι → Bool
  inOrder : ∀ promise ∈ promises, materialized promise = true →
    ∀ item ∈ items, replaces promise item = true → stopped item = true

section Phases

variable
  (weight : ι → Nat)
  (demand : π → Nat)
  {items : List ι}
  {promises : List π}
  {replaces : π → ι → Bool}

variable (phase : Phase items promises replaces)

/- What is held during a phase. -/
def Phase.commitment : Nat :=
  load weight items (fun item => !phase.stopped item) + demanded demand promises phase.materialized

variable (items promises replaces)

/- All items and what the promises add to them. -/
def total : Nat := load weight items (fun _ => true) +
    increments weight items demand replaces (fun _ => false) promises

variable {items promises replaces}

/- No phase holds more than the total. -/
theorem commitment_le_total :
    phase.commitment weight demand ≤
      total weight demand items promises replaces := by
  have hDemanded :=
    demanded_le weight items demand replaces promises phase.materialized (fun _ => false)
  have hStopped : load weight items (fun item =>
          covered replaces promises phase.materialized item && !false) ≤
        load weight items phase.stopped := by
    apply load_mono
    intro item hItem hCovered
    simp only [Bool.not_false, Bool.and_true, covered,
      List.any_eq_true, Bool.and_eq_true] at hCovered
    rcases hCovered with ⟨promise, hMem, hMade, hReplaces⟩
    exact phase.inOrder promise hMem hMade item hItem hReplaces
  have hAll := load_not_add weight items phase.stopped
  simp only [Phase.commitment, total]
  omega

/- The order of the promises does not matter to a phase. -/
def Phase.reorder {order : List π} (hOrder : order.Perm promises)
    (phase : Phase items promises replaces) : Phase items order replaces where
  materialized := phase.materialized
  stopped := phase.stopped
  inOrder := fun promise hMem => phase.inOrder promise (hOrder.mem_iff.mp hMem)

theorem commitment_reorder {order : List π} (hOrder : order.Perm promises)
    (phase : Phase items promises replaces) :
    (phase.reorder hOrder).commitment weight demand = phase.commitment weight demand := by
  have hDemanded : demanded demand order phase.materialized =
      demanded demand promises phase.materialized := ((hOrder.filter _).map demand).sum_eq
  rw [Phase.commitment, Phase.commitment, Phase.reorder, hDemanded]

/- The phase in which the worthwhile promises are made. -/
def peakPhase : Phase items promises replaces where
  materialized := worthwhile weight items demand replaces
  stopped := covered replaces promises (worthwhile weight items demand replaces)
  inOrder := by
    intro promise hMem hMade _ _ hReplaces
    rw [covered, List.any_eq_true]
    exact ⟨promise, hMem, by rw [hMade, hReplaces]; rfl⟩

/- Where no item is replaced twice, some phase holds the total. -/
theorem commitment_peakPhase
    (hDisjoint :
      promises.Pairwise
        (fun promise later =>
           ∀ item ∈ items,
             replaces promise item → replaces later item = false)) :
    (peakPhase weight demand : Phase items promises replaces).commitment
      weight demand =
      total weight demand items promises replaces := by
  have hDemanded := demanded_worthwhile weight items demand replaces promises (fun _ => false)
    (fun _ _ _ _ _ => rfl) hDisjoint
  have hAll :=
    load_not_add weight items (covered replaces promises (worthwhile weight items demand replaces))
  simp only [Phase.commitment, peakPhase, total]
  omega

end Phases

end Envelope
