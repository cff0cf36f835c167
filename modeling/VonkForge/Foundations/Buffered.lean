import Mathlib.Data.List.Basic

/-
  Storage whose changes wait for a sync.

  What is read has all changes in it. A sync makes them durable. A power cut keeps some of those
  that wait, in their order, and each of them may be lost by itself.

  Main declarations:
    * `visible`
    * `cut_spec`
    * `foldl_invariant`
    * `Holds.foldl`
-/

namespace VonkForge

structure Buffered (σ κ : Type) where
  durable : σ
  pending : List κ

namespace Buffered

variable {σ κ : Type} (apply : σ → κ → σ) (storage : Buffered σ κ)

/- What is read. -/
def visible : σ := storage.pending.foldl apply storage.durable

def write (change : κ) : Buffered σ κ := { storage with pending := storage.pending ++ [change] }

def sync : Buffered σ κ := ⟨storage.visible apply, []⟩

/- The items that a list of answers keeps. -/
def select : List Bool → List κ → List κ
  | true :: keep, item :: items => item :: select keep items
  | false :: keep, _ :: items => select keep items
  | _, _ => []

variable (keep : List Bool)

def cut (storage : Buffered σ κ) : Buffered σ κ :=
  ⟨(select keep storage.pending).foldl apply storage.durable, []⟩

@[simp] theorem visible_write (change : κ) :
    (storage.write change).visible apply = apply (storage.visible apply) change := by
  simp [visible, write]

theorem select_sublist (items : List κ) : (select keep items).Sublist items := by
  induction items generalizing keep with
  | nil =>
    cases keep with
    | nil => exact List.Sublist.slnil
    | cons kept => cases kept <;> exact List.Sublist.slnil
  | cons item _ ih =>
    cases keep with
    | nil => exact List.nil_sublist _
    | cons kept keep =>
      cases kept with
      | true => exact (ih keep).cons_cons item
      | false => exact (ih keep).cons item

/- A cut leaves a part of the changes, all of them durable. -/
theorem cut_spec (storage : Buffered σ κ) :
    ∃ kept : List κ,
      kept.Sublist storage.pending ∧
      storage.cut apply keep =
        ⟨kept.foldl apply storage.durable, []⟩ :=
  ⟨select keep storage.pending, select_sublist keep storage.pending, rfl⟩

/- What every change keeps, a list of changes keeps. -/
theorem foldl_invariant
    {I : σ → Prop}
    {changes : List κ}
    {state : σ}
    (hState : I state)
    (hApply : ∀ s, ∀ change ∈ changes, I s → I (apply s change)) :
    I (changes.foldl apply state) := by
  induction changes generalizing state with
  | nil => exact hState
  | cons change _ ih =>
    apply ih
    · exact hApply state change List.mem_cons_self hState
    · intro s other hOther
      exact hApply s other (List.mem_cons_of_mem _ hOther)

/- What is durable and every change that waits are good. -/
structure Holds (D : σ → Prop) (C : κ → Prop) (storage : Buffered σ κ) : Prop where
  durable : D storage.durable
  pending : ∀ change ∈ storage.pending, C change

section

variable {apply} {storage} {D : σ → Prop} {C : κ → Prop}

theorem Holds.write
    (hHolds : Holds D C storage)
    {change : κ}
    (hChange : C change) :
    Holds D C (storage.write change) where
  durable := hHolds.durable
  pending := by
    intro other hOther
    rcases List.mem_append.mp hOther with hOld | hNew
    · exact hHolds.pending other hOld
    · rw [List.mem_singleton.mp hNew]
      exact hChange

theorem holds_of_settled {durable : σ} (hDurable : D durable) : Holds D C ⟨durable, []⟩ :=
  ⟨hDurable, fun _ hChange => absurd hChange List.not_mem_nil⟩

theorem Holds.mono
    {E : σ → Prop}
    {F : κ → Prop}
    (hHolds : Holds D C storage)
    (hDurable : ∀ s, D s → E s)
    (hPending : ∀ change, C change → F change) :
    Holds E F storage :=
  ⟨hDurable _ hHolds.durable, fun change hChange => hPending change (hHolds.pending change hChange)⟩

variable (hApply : ∀ s change, D s → C change → D (apply s change))

include hApply

/- Whatever is kept of the changes. -/
theorem Holds.foldl
    (hHolds : Holds D C storage)
    {changes : List κ}
    (hKept : changes.Sublist storage.pending) :
    D (changes.foldl apply storage.durable) :=
  foldl_invariant apply hHolds.durable fun s change hChange hState =>
    hApply s change hState (hHolds.pending change (hKept.subset hChange))

/- What is kept so is seen so. -/
theorem Holds.visible (hHolds : Holds D C storage) :
    D (storage.visible apply) :=
  hHolds.foldl hApply (List.Sublist.refl _)

end

end Buffered

end VonkForge
