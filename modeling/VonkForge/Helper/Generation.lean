import VonkForge.Helper.Fences

/-
  The generation fence keeps one generation and one flag. Along a run these stand for the whole
  history: the mark is the highest generation accepted so far, and the flag says whether a Stop
  cancelled exactly that generation.

  Main declarations:
    * `generationMachine`
    * `Remembers`
    * `remembers_run`
    * `generation_fence_history`
-/

----
-- Updates of a Fence that is never lost
----

namespace VonkForge.Helper

structure Update where
  generation : Nat
  use : RuntimeGenerationFenceUse
deriving DecidableEq

/-
  The updates of one runtime's fence over storage that works. The challenge is only drawn for a
  damaged fence.
-/
def generationMachine (challenge : IntentStorage) (runtimeId installationId : Uuid) :
    Machine Fences Update (Fences × Outcome) :=
  { answer := fun fences update =>
      updateRuntimeGenerationFence { challenge := challenge }
        ⟨runtimeId, installationId, update.generation⟩
        update.use fences
    next := Prod.fst }

abbrev UpdateStep := Machine.Step Fences Update (Fences × Outcome)

def Accepted (step : UpdateStep) : Prop := step.output.2 = .ok ()

/- The stored mark; a runtime without a fence has none. -/
def highest (fences : Fences) : Nat :=
  match fences.runtime with
  | .missing => 0
  | .damaged => 0
  | .document fence => fence.highestGeneration

/- The fence is one of this runtime, and can be read. -/
structure Owned (runtimeId installationId : Uuid) (fence : RuntimeGenerationFence) : Prop where
  schema : fence.schemaVersion = 2
  installation : fence.installationId = installationId
  runtime : fence.runtimeId = runtimeId
  generation : validGeneration fence.highestGeneration = true

/- What the fence remembers of the updates before it. -/
inductive Remembers (runtimeId installationId : Uuid) (past : List UpdateStep)
    (fences : Fences) : Prop where
  | none (hFile : fences.runtime = .missing) (hPast : ∀ step ∈ past, ¬ Accepted step)
  | some (fence : RuntimeGenerationFence) (hFile : fences.runtime = .document fence)
      (hOwned : Owned runtimeId installationId fence)
      (hBound : ∀ step ∈ past, Accepted step → step.input.generation ≤ fence.highestGeneration)
      (hMark : ∃ step ∈ past, Accepted step ∧ step.input.generation = fence.highestGeneration)
      (hCancel : fence.cancelled = true ↔ ∃ step ∈ past, Accepted step ∧ step.input.use.cancels =
        true ∧ step.input.generation = fence.highestGeneration)

variable {challenge : IntentStorage} {runtimeId installationId : Uuid} {fences : Fences}
variable {update : Update}

----
-- One Update
----

/- The fence before an update that writes `generation`. -/
inductive Below (update : Update) (fences : Fences) : Prop where
  | missing (hFile : fences.runtime = .missing)
  | lower (fence : RuntimeGenerationFence) (hFile : fences.runtime = .document fence)
      (hLess : fence.highestGeneration < update.generation)
  | cancels (fence : RuntimeGenerationFence) (hFile : fences.runtime = .document fence)
      (hSame : fence.highestGeneration = update.generation) (hUse : update.use.cancels = true)

/- What one update of a readable fence does. -/
inductive Updating (runtimeId installationId : Uuid) (fences : Fences)
    (update : Update) (output : Fences × Outcome) : Prop where
  | invalid (hInvalid : validGeneration update.generation = false)
      (hOutput : output = (fences, .error .invalidOperation))
  | fenced (fence : RuntimeGenerationFence) (hUse : update.use = .start)
      (hFile : fences.runtime = .document fence)
      (hFenced : update.generation < fence.highestGeneration ∨ update.generation =
        fence.highestGeneration ∧ fence.cancelled = true)
      (hOutput : output = (fences, .error .invalidOperation))
  | kept (fence : RuntimeGenerationFence) (hFile : fences.runtime = .document fence)
      (hValid : validGeneration update.generation = true)
      (hBelow : update.generation ≤ fence.highestGeneration)
      (hStart : update.use = .start → update.generation = fence.highestGeneration ∧ fence.cancelled
        = false)
      (hCancels : update.use.cancels = true → update.generation = fence.highestGeneration →
        fence.cancelled = true) (hOutput : output = (fences, .ok ()))
  | written (fence : RuntimeGenerationFence) (hValid : validGeneration update.generation = true)
      (hBelow : Below update fences) (hOwned : Owned runtimeId installationId fence)
      (hMark : fence.highestGeneration = update.generation)
      (hCancel : fence.cancelled = update.use.cancels)
      (hOutput : output = ({ fences with runtime := .document fence }, .ok ()))

variable {past : List UpdateStep} {fence : RuntimeGenerationFence} {step : UpdateStep}
variable {output : Fences × Outcome}

theorem write_owned (hOwned : Owned runtimeId installationId fence) :
    writeRuntimeGenerationFence .stored fence fences =
      ({ fences with runtime := .document fence }, .ok ()) := by
  simp [writeRuntimeGenerationFence, hOwned.schema,
    hOwned.generation, Publish.leaves, Publish.succeeds]

theorem firstFence_owned (identity : RuntimeEffectIdentity)
    (hValid : validGeneration identity.runGeneration) (cancelled : Bool) :
    Owned identity.runtimeId identity.installationId (firstFence identity cancelled) :=
  ⟨rfl, rfl, rfl, hValid⟩

/- The fence of the runtime is read as it is stored. -/
theorem read_owned (hOwned : Owned runtimeId installationId fence) (generation : Nat) :
    readRuntimeGenerationFence true ⟨runtimeId, installationId, generation⟩ (.document fence) =
    .ok (some fence) := by
  simp [readRuntimeGenerationFence, hOwned.schema,
    hOwned.installation, hOwned.runtime, hOwned.generation]

theorem update_of_missing (hFile : fences.runtime = .missing) :
    Updating runtimeId installationId fences update
    ((generationMachine challenge runtimeId installationId).answer fences update) := by
  by_cases hValid : validGeneration update.generation = true
  · have hOwned :=
      firstFence_owned ⟨runtimeId, installationId, update.generation⟩ hValid update.use.cancels
    refine Updating.written _ hValid (Below.missing hFile) hOwned rfl rfl ?_
    simp [generationMachine, updateRuntimeGenerationFence,
      hValid, hFile, readRuntimeGenerationFence, advanceRuntimeGenerationFence, write_owned hOwned]
  · have hInvalid : validGeneration update.generation = false := by
      simpa using hValid
    refine Updating.invalid hInvalid ?_
    simp [generationMachine, updateRuntimeGenerationFence, hInvalid]

theorem update_of_owned (hFile : fences.runtime = .document fence)
    (hOwned : Owned runtimeId installationId fence) :
    Updating runtimeId installationId fences update
    ((generationMachine challenge runtimeId installationId).answer fences update) := by
  by_cases hValid : validGeneration update.generation = true
  · have hAnswer : (generationMachine challenge runtimeId installationId).answer fences update =
          advanceRuntimeGenerationFence .stored
            ⟨runtimeId, installationId, update.generation⟩
            update.use (some fence) fences := by
      simp [generationMachine, updateRuntimeGenerationFence, hValid, hFile, read_owned hOwned]
    rw [hAnswer]
    unfold advanceRuntimeGenerationFence
    rcases Nat.lt_trichotomy update.generation fence.highestGeneration with hLess | hSame | hMore
    · simp only [hLess, if_true]
      cases hUse : update.use with
      | start => exact Updating.fenced fence hUse hFile (Or.inl hLess) rfl
      | stop =>
        refine Updating.kept fence hFile hValid (Nat.le_of_lt hLess) ?_ ?_ rfl
        · simp [hUse]
        · omega
    · simp only [hSame, Nat.lt_irrefl, if_false, if_true]
      split
      · next hBlocked =>
          exact Updating.fenced fence hBlocked.1 hFile (Or.inr ⟨hSame, hBlocked.2⟩) rfl
      · next hOpen =>
          split
          · next hCancels =>
              simp only [Bool.and_eq_true, Bool.not_eq_true'] at hCancels
              have hNext : Owned runtimeId installationId
                    { fence with cancelled := true } :=
                ⟨hOwned.schema, hOwned.installation, hOwned.runtime, hOwned.generation⟩
              rw [write_owned hNext]
              exact Updating.written _ hValid (Below.cancels fence hFile hSame.symm hCancels.1)
                hNext hSame.symm hCancels.1.symm rfl
          · next hQuiet =>
              refine Updating.kept fence hFile hValid (Nat.le_of_eq hSame) ?_ ?_ rfl
              · intro hUse
                refine ⟨hSame, ?_⟩
                simpa [hUse] using hOpen
              · intro hCancels _
                simpa [hCancels] using hQuiet
    · have hNotLess : ¬ update.generation < fence.highestGeneration := by
        omega
      have hNotSame : update.generation ≠ fence.highestGeneration := by omega
      have hNext : Owned runtimeId installationId
            { fence with
              highestGeneration := update.generation
              cancelled := update.use.cancels } :=
        ⟨hOwned.schema, hOwned.installation, hOwned.runtime, hValid⟩
      simp only [hNotLess, hNotSame, if_false]
      rw [write_owned hNext]
      exact Updating.written _ hValid (Below.lower fence hFile hMore) hNext rfl rfl rfl
  · have hInvalid : validGeneration update.generation = false := by
      simpa using hValid
    refine Updating.invalid hInvalid ?_
    simp [generationMachine, updateRuntimeGenerationFence, hInvalid]

section

variable (hPast : Remembers runtimeId installationId past fences)

include hPast

theorem Remembers.updating
    (challenge : IntentStorage) : Updating runtimeId installationId fences update
    ((generationMachine challenge runtimeId installationId).answer fences update) := by
  cases hPast with
  | none hFile => exact update_of_missing hFile
  | some _ hFile hOwned => exact update_of_owned hFile hOwned

----
-- Whole Histories
----

/- A refused update changes nothing that is remembered. -/
theorem Remembers.refused
    (hRefused : ¬ Accepted step) : Remembers runtimeId installationId (past ++ [step]) fences := by
  cases hPast with
  | none hFile hNone =>
    refine Remembers.none hFile ?_
    intro other hMem
    rcases List.mem_append.mp hMem with hOld | hNew
    · exact hNone other hOld
    · rw [List.mem_singleton.mp hNew]
      exact hRefused
  | some fence hFile hOwned hBound hMark hCancel =>
    refine Remembers.some fence hFile hOwned ?_ ?_ ?_
    · intro other hMem hAccepted
      rcases List.mem_append.mp hMem with hOld | hNew
      · exact hBound other hOld hAccepted
      · rw [List.mem_singleton.mp hNew] at hAccepted
        exact absurd hAccepted hRefused
    · rcases hMark with ⟨other, hOld, hRest⟩
      exact ⟨other, List.mem_append_left _ hOld, hRest⟩
    · rw [hCancel]
      constructor
      · rintro ⟨other, hOld, hRest⟩
        exact ⟨other, List.mem_append_left _ hOld, hRest⟩
      · rintro ⟨other, hMem, hAccepted, hRest⟩
        rcases List.mem_append.mp hMem with hOld | hNew
        · exact ⟨other, hOld, hAccepted, hRest⟩
        · rw [List.mem_singleton.mp hNew] at hAccepted
          exact absurd hAccepted hRefused

/- An accepted update that the fence already covers. -/
theorem Remembers.kept
    (hFile : fences.runtime = .document fence)
    (hBelow : step.input.generation ≤ fence.highestGeneration)
    (hCancels : step.input.use.cancels → step.input.generation = fence.highestGeneration →
      fence.cancelled) : Remembers runtimeId installationId (past ++ [step]) fences := by
  cases hPast with
  | none hMissing =>
    rw [hMissing] at hFile
    cases hFile
  | some other hOther hOwned hBound hMark hCancel =>
    have hSame : other = fence := by
      rw [hOther] at hFile
      exact Stored.document.inj hFile
    subst hSame
    refine Remembers.some other hOther hOwned ?_ ?_ ?_
    · intro earlier hMem hAccepted
      rcases List.mem_append.mp hMem with hOld | hNew
      · exact hBound earlier hOld hAccepted
      · rw [List.mem_singleton.mp hNew]
        exact hBelow
    · rcases hMark with ⟨earlier, hOld, hRest⟩
      exact ⟨earlier, List.mem_append_left _ hOld, hRest⟩
    · constructor
      · intro hFlag
        rcases hCancel.mp hFlag with ⟨earlier, hOld, hRest⟩
        exact ⟨earlier, List.mem_append_left _ hOld, hRest⟩
      · rintro ⟨earlier, hMem, hAccepted, hUse, hGeneration⟩
        rcases List.mem_append.mp hMem with hOld | hNew
        · exact hCancel.mpr ⟨earlier, hOld, hAccepted, hUse, hGeneration⟩
        · rw [List.mem_singleton.mp hNew] at hUse hGeneration
          exact hCancels hUse hGeneration

/- No generation above the written one was accepted. -/
theorem Remembers.below
    (hBelow : Below update fences) (hMem : step ∈ past) (hAccepted : Accepted step) :
    step.input.generation ≤ update.generation ∧
    (step.input.generation = update.generation → update.use.cancels) := by
  cases hPast with
  | none _ hNone => exact absurd hAccepted (hNone step hMem)
  | some _ hFile _ hBound =>
    have hLe := hBound step hMem hAccepted
    cases hBelow with
    | missing hMissing =>
      rw [hMissing] at hFile
      cases hFile
    | lower _ hOther =>
      rw [hOther] at hFile
      obtain rfl := Stored.document.inj hFile
      refine ⟨by omega, ?_⟩
      intro _
      omega
    | cancels _ hOther _ hUse =>
      rw [hOther] at hFile
      obtain rfl := Stored.document.inj hFile
      exact ⟨by omega, fun _ => hUse⟩

theorem Remembers.written
    (hAccepted : Accepted step) (hBelow : Below step.input fences)
    (hOwned : Owned runtimeId installationId fence)
    (hMark : fence.highestGeneration = step.input.generation)
    (hCancel : fence.cancelled = step.input.use.cancels) :
    Remembers runtimeId installationId (past ++ [step])
      { fences with runtime := .document fence } := by
  have hLast : step ∈ past ++ [step] := by simp
  refine Remembers.some fence rfl hOwned ?_ ?_ ?_
  · intro _ hMem hEarlier
    rw [hMark]
    rcases List.mem_append.mp hMem with hOld | hNew
    · exact (hPast.below hBelow hOld hEarlier).1
    · rw [List.mem_singleton.mp hNew]
  · exact ⟨step, hLast, hAccepted, hMark.symm⟩
  · rw [hCancel]
    constructor
    · intro hUse
      exact ⟨step, hLast, hAccepted, hUse, hMark.symm⟩
    · rintro ⟨_, hMem, hEarlier, hUse, hGeneration⟩
      rw [hMark] at hGeneration
      rcases List.mem_append.mp hMem with hOld | hNew
      · exact (hPast.below hBelow hOld hEarlier).2 hGeneration
      · rw [← List.mem_singleton.mp hNew]
        exact hUse

end

/- The fence remembers every history of updates. -/
theorem remembers_run
    (challenge : IntentStorage)
    (runtimeId installationId : Uuid)
    (intent : Stored InstallationIntentFence)
    (inputs : List Update) :
    Remembers runtimeId installationId
      ((generationMachine challenge runtimeId installationId).trace
         { intent := intent } inputs)
      ((generationMachine challenge runtimeId installationId).final
         { intent := intent } inputs) := by
  apply Machine.history
  · exact Remembers.none rfl (by simp)
  · intro _ fences update hPast
    have hUpdating : Updating runtimeId installationId fences update
      ((generationMachine challenge runtimeId installationId).answer fences update) :=
      hPast.updating challenge
    unfold Machine.move
    generalize hAnswer : (generationMachine challenge runtimeId installationId).answer fences
      update = output at hUpdating
    cases hUpdating with
    | invalid _ hOutput | fenced _ _ _ _ hOutput =>
      rw [hOutput]
      apply hPast.refused
      simp [Accepted, hAnswer, hOutput]
    | kept _ hFile _ hBelow _ hCancels hOutput =>
      rw [hOutput]
      exact hPast.kept hFile hBelow hCancels
    | written _ _ hBelow hOwned hMark hCancel hOutput =>
      rw [hOutput]
      refine hPast.written ?_ hBelow hOwned hMark hCancel
      simp [Accepted, hAnswer, hOutput]

section

variable (hUpdating : Updating runtimeId installationId fences update output)

include hUpdating

/- The mark after an update is at least the one before. -/
theorem Updating.highest_le : highest fences ≤ highest output.1 := by
  cases hUpdating with
  | invalid _ hOutput | fenced _ _ _ _ hOutput | kept _ _ _ _ _ _ hOutput => rw [hOutput]
  | written _ _ hBelow _ hMark _ hOutput =>
    rw [hOutput]
    cases hBelow with
    | missing hFile => simp [highest, hFile]
    | lower _ hFile | cancels _ hFile =>
      simp only [highest, hFile, hMark]
      omega

/- A Stop is accepted whatever came before it. -/
theorem Updating.stop_iff {cancels : Bool}
    (hUse : update.use = .stop cancels) :
    output.2 = .ok () ↔ validGeneration update.generation := by
  cases hUpdating with
  | invalid hInvalid hOutput => simp [hOutput, hInvalid]
  | fenced _ hStart =>
    rw [hStart] at hUse
    cases hUse
  | kept _ _ hValid _ _ _ hOutput | written _ hValid _ _ _ _ hOutput => simp [hOutput, hValid]

end

/- No update of the past stands against the generation. -/
structure Unfenced (past : List UpdateStep) (generation : Nat) : Prop where
  newest : ∀ step ∈ past, Accepted step → step.input.generation ≤ generation
  uncancelled : ∀ step ∈ past, Accepted step → step.input.use.cancels = true →
    step.input.generation < generation

theorem Remembers.start_iff (hPast : Remembers runtimeId installationId past fences)
    (hUpdating : Updating runtimeId installationId fences update output)
    (hUse : update.use = .start) : output.2 = .ok () ↔ validGeneration update.generation ∧
    Unfenced past update.generation := by
  cases hUpdating with
  | invalid hInvalid hOutput => simp [hOutput, hInvalid]
  | fenced _ _ hFile hFenced hOutput =>
    -- The mark and the flag each have a step behind them.
    simp only [hOutput, reduceCtorEq, false_iff, not_and]
    intro _ hOpen
    cases hPast with
    | none hMissing =>
      rw [hMissing] at hFile
      cases hFile
    | some _ hOther _ _ hMark hCancel =>
      rw [hOther] at hFile
      obtain rfl := Stored.document.inj hFile
      rcases hFenced with _ | ⟨_, hFlag⟩
      · rcases hMark with ⟨step, hMem, hAccepted, _⟩
        have hLe := hOpen.newest step hMem hAccepted
        omega
      · rcases hCancel.mp hFlag with ⟨step, hMem, hAccepted, hCancels, _⟩
        have hLt := hOpen.uncancelled step hMem hAccepted hCancels
        omega
  | kept fence hFile hValid hBelow hStart hCancels hOutput =>
    rcases hStart hUse with ⟨hSame, hFlag⟩
    simp only [hOutput, hValid, true_and, true_iff]
    cases hPast with
    | none hMissing =>
      rw [hMissing] at hFile
      cases hFile
    | some other hOther _ hBound _ hCancel =>
      rw [hOther] at hFile
      obtain rfl := Stored.document.inj hFile
      constructor
      · intro step hMem hAccepted
        rw [hSame]
        exact hBound step hMem hAccepted
      · intro step hMem hAccepted hCancelling
        have hLe := hBound step hMem hAccepted
        have hNot : step.input.generation ≠ other.highestGeneration := by
          intro hEq
          have hTrue := hCancel.mpr ⟨step, hMem, hAccepted, hCancelling, hEq⟩
          simp [hFlag] at hTrue
        omega
  | written _ hValid hBelow _ _ _ hOutput =>
    simp only [hOutput, hValid, true_and, true_iff]
    have hQuiet : update.use.cancels = false := by
      rw [hUse]
      rfl
    constructor
    · intro _ hMem hAccepted
      exact (hPast.below hBelow hMem hAccepted).1
    · intro step hMem hAccepted _
      have hBoth := hPast.below hBelow hMem hAccepted
      have hNot : step.input.generation ≠ update.generation := by
        intro hSame
        have hTrue := hBoth.2 hSame
        simp [hQuiet] at hTrue
      have hLe := hBoth.1
      omega

/-
  The generation fence decides by the whole history. After every history of updates of a runtime
  whose fence is never lost, the next update does not lower the mark; a Stop is accepted exactly if
  its generation is a valid one; and a Start is accepted exactly if moreover no accepted update had
  a higher generation and no accepted Stop cancelled it or a higher one. An accepted cancelling Stop
  therefore fences its generation, and all below it, for good.
-/
theorem generation_fence_history
    (challenge : IntentStorage)
    (runtimeId installationId : Uuid)
    (intent : Stored InstallationIntentFence)
    (inputs : List Update)
    (update : Update) :
    let machine := generationMachine challenge runtimeId installationId
    let past := machine.trace { intent := intent } inputs
    let step := machine.step (machine.final { intent := intent } inputs) update
    highest step.before ≤ highest step.output.1 ∧
    (∀ cancels,
       update.use = .stop cancels →
       (Accepted step ↔ validGeneration update.generation = true)) ∧
    (update.use = .start →
     (Accepted step ↔
        validGeneration update.generation = true ∧
        Unfenced past update.generation)) ∧
    (∀ earlier ∈ past,
       Accepted earlier →
       earlier.input.use.cancels = true →
       update.use = .start →
       update.generation ≤ earlier.input.generation →
       ¬ Accepted step) := by
  have hPast := remembers_run challenge runtimeId installationId intent inputs
  have hUpdating : Updating runtimeId installationId _ update _ := hPast.updating challenge
  refine ⟨hUpdating.highest_le, ?_, ?_, ?_⟩
  · intro _ hUse
    exact hUpdating.stop_iff hUse
  · intro hUse
    exact hPast.start_iff hUpdating hUse
  · intro earlier hMem hEarlier hCancels hUse _ hStarted
    have hOpen := ((hPast.start_iff hUpdating hUse).mp hStarted).2
    have hLess := hOpen.uncancelled earlier hMem hEarlier hCancels
    omega

/- A Stop of a generation past the signed range. -/
theorem stop_past_signed_range_refused :
    1 ≤ 2 ^ 63 ∧
    ¬ Accepted
      ((generationMachine
          { reconstructed := repeatedNonce 10, fresh := repeatedNonce 11 }
          1 2).step
         {} ⟨2 ^ 63, .stop true⟩) := by
  refine ⟨by decide, ?_⟩
  unfold Accepted
  decide +kernel

end VonkForge.Helper
