import VonkForge.Cache.Discard

/-
  What a digest mismatch leaves, over the attempts of one owner.

  Plain files are fetched in one step. A split file is transferred in several: its retained bytes
  are looked at, then each missing part is fetched and appended, then the whole is compared. Steps
  of different files come in any order, and the process may end between any two.

  Main declarations:
    * `FileState`
    * `serve_clean`
    * `mismatch_keeps_nothing`
    * `short_ranges_are_kept`
-/

----
-- Transfers in Flight
----

namespace VonkForge.Cache

variable {δ : Type} [DecidableEq δ]

/- A call of `_download_split` that has appended the parts before `index`. -/
structure SplitAttempt (δ : Type) where
  pin : Pin δ
  parts : List (SourceFile δ)
  index : Nat
  -- What the hash object of the whole file was fed.
  whole : Bytes

def SplitAttempt.digests (split : SplitAttempt δ) : List δ := digestsOf split.pin split.parts

/- The files of an owner, and the split files that are being transferred. -/
structure FileState (δ : Type) where
  store : Store δ
  splits : Nat → Option (SplitAttempt δ)

inductive FileInput (δ : Type) where
  | fetch (file : SourceFile δ) (attempt : Attempt)
  | begin (slot : Nat) (pin : Pin δ) (parts : List (SourceFile δ))
  | part (slot : Nat) (attempt : Attempt) (input : AppendInput)
  | finish (slot : Nat) (gate : Gate)
  -- The process ends, with whatever is then in the files.
  | crash (partials : δ → Option Bytes) (segments : δ → Nat → Option Bytes)

/- One turn of the loop of `_download_split`. -/
def SplitAttempt.transfer (hash : Bytes → δ) (split : SplitAttempt δ) (part : SourceFile δ)
    (input : PartInput) : Transfer δ Bytes :=
  transferPart hash part split.pin.sha256 split.whole (boundary split.parts split.index) input

/- The state after a step, and what the step failed with. -/
structure FileTurn (δ : Type) where
  state : FileState δ
  failure : Option CacheFailure

/- What a job raised. -/
def failureOf {α : Type} : Except CacheFailure α → Option CacheFailure
  | .ok _ => none
  | .error failure => some failure

variable (hash : Bytes → δ)

namespace FileState

variable (state : FileState δ)

def setSplit (slot : Nat) (split : Option (SplitAttempt δ)) : FileState δ :=
  { state with splits := Function.update state.splits slot split }

def beginSplit (slot : Nat) (pin : Pin δ) (parts : List (SourceFile δ)) : FileTurn δ :=
  let run := prepareSplit pin parts state.store
  let next : FileState δ := { state with store := run.2 }
  match run.1 with
  | .ok (done, whole) => ⟨next.setSplit slot (some ⟨pin, parts, done, whole⟩), none⟩
  | .error failure => ⟨next, some failure⟩

def takePart (slot : Nat) (split : SplitAttempt δ) (part : SourceFile δ)
    (input : PartInput) : FileTurn δ :=
  let run := split.transfer hash part input state.store
  let next : FileState δ := { state with store := run.2 }
  match run.1 with
  | .ok whole =>
    ⟨next.setSplit slot (some { split with index := split.index + 1, whole := whole }), none⟩
  | .error failure => ⟨next.setSplit slot none, some failure⟩

def endSplit (slot : Nat) (split : SplitAttempt δ) (gate : Gate) : FileTurn δ :=
  let run := finishSplit hash split.pin gate split.whole state.store
  ⟨{ state with store := run.2 }.setSplit slot none, failureOf run.1⟩

/- A step of a file that is not there does nothing. -/
def serve : FileInput δ → FileTurn δ
  | .fetch file attempt =>
    let run := downloadArtifact hash file false attempt.fetch state.store
    ⟨{ state with store := run.2 }, failureOf run.1⟩
  | .begin slot pin parts =>
    match state.splits slot with
    | some _ => ⟨state, none⟩
    | none => state.beginSplit slot pin parts
  | .part slot attempt input =>
    match state.splits slot with
    | none => ⟨state, none⟩
    | some split =>
      match split.parts[split.index]? with
      | none => ⟨state, none⟩
      | some part => state.takePart hash slot split part ⟨attempt.fetch, input⟩
  | .finish slot gate =>
    match state.splits slot with
    | none => ⟨state, none⟩
    | some split =>
      if split.parts.length ≤ split.index then state.endSplit hash slot split gate
      else ⟨state, none⟩
  | .crash partials segments =>
    ⟨⟨Store.restart state.store.version partials segments, fun _ => none⟩, none⟩

/-
  The files that a step compares with their digests. The end of a split file compares all of it:
  the next attempt fetches every part again.
-/
def compared : FileInput δ → List (Pin δ)
  | .fetch file _ => [file.pin]
  | .part slot _ _ =>
    ((state.splits slot).bind fun split =>
      split.parts[split.index]?.map fun part => part.pin).toList
  | .finish slot _ =>
    ((state.splits slot).map fun split =>
      split.pin :: split.parts.map fun part => part.pin).getD []
  | .begin _ _ _ => []
  | .crash _ _ => []

end FileState

def fileMachine : Machine (FileState δ) (FileInput δ) (FileTurn δ) where
  answer := fun state input => state.serve hash input
  next := FileTurn.state

/- No split file is being transferred. -/
def idle (store : Store δ) : FileState δ := ⟨store, fun _ => none⟩

----
-- The Condition
----

/- No split file in flight has one of the digests. -/
def FileState.Apart (state : FileState δ) (digests : List δ) : Prop :=
  ∀ slot split, state.splits slot = some split → ∀ digest ∈ digests, digest ∉ split.digests

/-
  What is transferred at the same time has other digests. A fetch of a file or part meets
  `ClearFetch`. A split file that begins has no segments, and neither has a part of it whose bytes
  are in its partial already.
-/
def FileInput.Clear (state : FileState δ) : FileInput δ → Prop
  | .fetch file attempt =>
    state.Apart [file.pin.sha256] ∧ ClearFetch file false attempt.fetch state.store
  | .begin _ pin parts =>
    state.Apart (digestsOf pin parts) ∧ state.store.noSegments pin.sha256 ∧
      ∀ n, boundary parts n ≤ state.store.sizeAt pin.sha256 →
        ∀ part ∈ parts.take n, state.store.noSegments part.pin.sha256
  | .part slot attempt _ =>
    ∀ split part, state.splits slot = some split → split.parts[split.index]? = some part →
      ClearFetch part true attempt.fetch state.store
  | .finish _ _ => True
  | .crash _ _ => True

def Clear (step : Machine.Step (FileState δ) (FileInput δ) (FileTurn δ)) : Prop :=
  step.input.Clear step.before

----
-- A Split File
----

/-
  Nothing is left of the parts that are in, except a partial that is the one of the whole or of a
  part to come.
-/
structure SplitClean (split : SplitAttempt δ) (store : Store δ) : Prop where
  whole : store.noSegments split.pin.sha256
  segments : ∀ part ∈ split.parts.take split.index, store.noSegments part.pin.sha256
  partials : ∀ part ∈ split.parts.take split.index,
    store.partials part.pin.sha256 = none ∨ part.pin.sha256 = split.pin.sha256 ∨
      ∃ later ∈ split.parts.drop split.index, later.pin.sha256 = part.pin.sha256

variable {hash} {state : FileState δ} {store next : Store δ} {split : SplitAttempt δ}
variable {part : SourceFile δ} {digest : δ} {slot : Nat}

omit [DecidableEq δ] in
theorem noSegments_congr (hSame : next.segments digest = store.segments digest)
    (hNone : store.noSegments digest) : next.noSegments digest := by
  unfold Store.noSegments
  rw [hSame]
  exact hNone

omit [DecidableEq δ] in
theorem mem_digests_of_part (hMem : part ∈ split.parts) : part.pin.sha256 ∈ split.digests :=
  List.mem_cons_of_mem _ (List.mem_map_of_mem hMem)

omit [DecidableEq δ] in
/- What is done to other files does not matter. -/
theorem SplitClean.congr (hClean : SplitClean split store)
    (hSame : ∀ digest ∈ split.digests, next.filesAt digest = store.filesAt digest) :
    SplitClean split next := by
  have hPart : ∀ part ∈ split.parts.take split.index,
      next.filesAt part.pin.sha256 = store.filesAt part.pin.sha256 :=
    fun part hMem => hSame _ (mem_digests_of_part (List.mem_of_mem_take hMem))
  refine ⟨?_, ?_, ?_⟩
  · exact noSegments_congr (congrArg Prod.snd (hSame _ List.mem_cons_self)) hClean.whole
  · exact fun part hMem =>
      noSegments_congr (congrArg Prod.snd (hPart part hMem)) (hClean.segments part hMem)
  · intro part hMem
    have hPartial : next.partials part.pin.sha256 = store.partials part.pin.sha256 :=
      congrArg Prod.fst (hPart part hMem)
    rw [hPartial]
    exact hClean.partials part hMem

theorem prepareSplit_clean {pin : Pin δ} {parts : List (SourceFile δ)} {done : Nat} {whole : Bytes}
    (hWhole : store.noSegments pin.sha256)
    (hIn : ∀ n, boundary parts n ≤ store.sizeAt pin.sha256 →
      ∀ part ∈ parts.take n, store.noSegments part.pin.sha256)
    (hOk : (prepareSplit pin parts store).1 = .ok (done, whole)) :
    SplitClean ⟨pin, parts, done, whole⟩ (prepareSplit pin parts store).2 := by
  have hKeeps : Job.Keeps (fun store : Store δ => store.segments) (prepareSplit pin parts) :=
    prepareSplit_keeps fun _ _ => ignores_segments
  have hSegments := hKeeps store
  obtain ⟨hFits, hDropped⟩ := (prepareSplit_drops parts _).returned rfl hOk
  refine ⟨?_, ?_, ?_⟩
  · exact noSegments_congr (congrFun hSegments _) hWhole
  · exact fun part hMem => noSegments_congr (congrFun hSegments _) (hIn done hFits part hMem)
  · intro part hMem
    rcases hDropped part hMem with hNone | hLater
    · exact Or.inl hNone
    · exact Or.inr (Or.inr hLater)

/- A part that was appended leaves nothing behind. -/
theorem transferPart_clean {attempt : Attempt} {input : AppendInput} {whole : Bytes}
    (hClean : SplitClean split store) (hPart : split.parts[split.index]? = some part)
    (hClear : ClearFetch part true attempt.fetch store)
    (hOk : (split.transfer hash part ⟨attempt.fetch, input⟩ store).1 = .ok whole) :
    SplitClean { split with index := split.index + 1, whole := whole }
      (split.transfer hash part ⟨attempt.fetch, input⟩ store).2 := by
  have hNothing := (transferPart_raises _ _ attempt input).returned hClear hOk
  have hSegments : ∀ digest, store.noSegments digest →
      (split.transfer hash part ⟨attempt.fetch, input⟩ store).2.noSegments digest := by
    intro digest hNone
    by_cases hSame : digest = part.pin.sha256
    · rw [hSame]
      exact hNothing.segments
    · exact noSegments_congr (transferPart_keeps_segments hSame _ _ _ store) hNone
  have hTake : split.parts.take (split.index + 1) = split.parts.take split.index ++ [part] := by
    rw [List.take_add_one, hPart]
    rfl
  have hDrop : split.parts.drop split.index = part :: split.parts.drop (split.index + 1) :=
    List.drop_eq_getElem?_toList_append.trans (by rw [hPart]; rfl)
  refine ⟨hSegments _ hClean.whole, ?_, ?_⟩
  · intro other hMem
    rw [hTake] at hMem
    rcases List.mem_append.mp hMem with hOld | hNew
    · exact hSegments _ (hClean.segments other hOld)
    · rw [List.mem_singleton.mp hNew]
      exact hNothing.segments
  · intro other hMem
    by_cases hSame : other.pin.sha256 = part.pin.sha256
    · rw [hSame]
      exact Or.inl hNothing.missing
    · by_cases hWhole : other.pin.sha256 = split.pin.sha256
      · exact Or.inr (Or.inl hWhole)
      · have hOld : other ∈ split.parts.take split.index := by
          rw [hTake] at hMem
          rcases List.mem_append.mp hMem with hOld | hNew
          · exact hOld
          · rw [List.mem_singleton.mp hNew] at hSame
            exact absurd rfl hSame
        have hFiles : (split.transfer hash part ⟨attempt.fetch, input⟩ store).2.filesAt _ = _ :=
          transferPart_keeps hSame hWhole _ _ _ store
        rcases hClean.partials other hOld with hNone | hFirst | ⟨later, hLater, hDigest⟩
        · exact Or.inl ((congrArg Prod.fst hFiles).trans hNone)
        · exact absurd hFirst hWhole
        · rw [hDrop] at hLater
          rcases List.mem_cons.mp hLater with rfl | hRest
          · exact absurd hDigest.symm hSame
          · exact Or.inr (Or.inr ⟨later, hRest, hDigest⟩)

/- A whole that fails its digest is dropped, and all its parts are gone by then. -/
theorem finishSplit_mismatch (hClean : SplitClean split store)
    (hAll : split.parts.length ≤ split.index) (gate : Gate)
    (hFailed : (finishSplit hash split.pin gate split.whole store).1 = .error .digestMismatch) :
    ∀ digest ∈ split.digests,
      Nothing digest (finishSplit hash split.pin gate split.whole store).2 := by
  have hWhole := (finishSplit_raises gate split.whole).result hClean.whole hFailed
  have hTake : split.parts.take split.index = split.parts := List.take_of_length_le hAll
  intro digest hMem
  by_cases hSame : digest = split.pin.sha256
  · rw [hSame]
    exact hWhole
  · obtain ⟨part, hPart, rfl⟩ := List.mem_map.mp ((List.mem_cons.mp hMem).resolve_left hSame)
    rw [← hTake] at hPart
    have hKeeps : Job.Keeps (fun store : Store δ => store.filesAt part.pin.sha256)
        (finishSplit hash split.pin gate split.whole) :=
      finishSplit_keeps (ignores_filesAt hSame) gate split.whole
    have hFiles := hKeeps store
    refine ⟨?_, noSegments_congr (congrArg Prod.snd hFiles) (hClean.segments part hPart)⟩
    rcases hClean.partials part hPart with hNone | hFirst | ⟨_, hLater, _⟩
    · exact (congrArg Prod.fst hFiles).trans hNone
    · exact absurd hFirst hSame
    · rw [List.drop_of_length_le hAll] at hLater
      cases hLater

----
-- Steps
----

/- The split files in flight are clean, and have no digest in common. -/
structure Clean (state : FileState δ) : Prop where
  each : ∀ slot split, state.splits slot = some split → SplitClean split state.store
  apart : ∀ slot split, state.splits slot = some split → ∀ other later, other ≠ slot →
    state.splits other = some later → ∀ digest ∈ split.digests, digest ∉ later.digests

omit [DecidableEq δ] in
theorem Clean.keep (hClean : Clean state)
    (hSame : ∀ slot split, state.splits slot = some split →
      ∀ digest ∈ split.digests, next.filesAt digest = state.store.filesAt digest) :
    Clean { state with store := next } where
  each slot split hSplit := (hClean.each slot split hSplit).congr (hSame slot split hSplit)
  apart := hClean.apart

omit [DecidableEq δ] in
/- A step of one split file, which keeps the files of the others. -/
theorem Clean.set (hClean : Clean state) {changed : Option (SplitAttempt δ)}
    (hSame : ∀ other later, other ≠ slot → state.splits other = some later →
      ∀ digest ∈ later.digests, next.filesAt digest = state.store.filesAt digest)
    (hNew : ∀ split, changed = some split → SplitClean split next ∧
      ∀ other later, other ≠ slot → state.splits other = some later →
        ∀ digest ∈ split.digests, digest ∉ later.digests) :
    Clean ({ state with store := next }.setSplit slot changed) := by
  have hSplits : ∀ other split,
      ({ state with store := next }.setSplit slot changed).splits other = some split →
        (other = slot ∧ changed = some split) ∨
        (other ≠ slot ∧ state.splits other = some split) := by
    intro other split hSplit
    by_cases hSlot : other = slot
    · rw [hSlot] at hSplit
      exact Or.inl ⟨hSlot, by simpa [FileState.setSplit] using hSplit⟩
    · exact Or.inr ⟨hSlot, by simpa [FileState.setSplit, Function.update_of_ne hSlot] using hSplit⟩
  refine ⟨?_, ?_⟩
  · intro other split hSplit
    rcases hSplits other split hSplit with ⟨_, hChanged⟩ | ⟨hOther, hOld⟩
    · exact (hNew split hChanged).1
    · exact (hClean.each other split hOld).congr (hSame other split hOther hOld)
  · intro first split hSplit second later hApart hLater digest hMem hBoth
    rcases hSplits first split hSplit with ⟨rfl, hChanged⟩ | ⟨hFirst, hOld⟩
    · rcases hSplits second later hLater with ⟨hSlot, _⟩ | ⟨hSecond, hOther⟩
      · exact hApart hSlot
      · exact (hNew split hChanged).2 second later hSecond hOther digest hMem hBoth
    · rcases hSplits second later hLater with ⟨rfl, hChanged⟩ | ⟨_, hOther⟩
      · exact (hNew later hChanged).2 first split hFirst hOld digest hBoth hMem
      · exact hClean.apart first split hOld second later hApart hOther digest hMem hBoth

/- Every step that meets its condition keeps the store clean. -/
theorem serve_clean
    {input : FileInput δ}
    (hClean : Clean state)
    (hClear : input.Clear state) :
    Clean (state.serve hash input).state := by
  cases input with
  | fetch file attempt =>
    apply hClean.keep
    intro slot split hSplit digest hMem
    apply downloadArtifact_keeps
    rintro rfl
    exact hClear.1 slot split hSplit _ List.mem_cons_self hMem
  | begin slot pin parts =>
    obtain ⟨hApart, hWhole, hIn⟩ := hClear
    have hKept : ∀ other later, state.splits other = some later → ∀ digest ∈ later.digests,
        (prepareSplit pin parts state.store).2.filesAt digest = state.store.filesAt digest := by
      intro other later hLater digest hMem
      have hKeeps : Job.Keeps (fun store : Store δ => store.filesAt digest)
          (prepareSplit pin parts) := by
        apply prepareSplit_keeps
        intro own hOwn
        apply ignores_filesAt
        rintro rfl
        exact hApart other later hLater digest hOwn hMem
      exact hKeeps state.store
    simp only [FileState.serve]
    split
    · exact hClean
    · simp only [FileState.beginSplit]
      split
      · rename_i hOk
        apply hClean.set fun other later _ => hKept other later
        rintro _ ⟨rfl⟩
        exact ⟨prepareSplit_clean hWhole hIn hOk,
          fun other later _ hLater => hApart other later hLater⟩
      · exact hClean.keep hKept
  | part slot attempt input =>
    simp only [FileState.serve]
    split
    · exact hClean
    · rename_i split hSplit
      split
      · exact hClean
      · rename_i part hPart
        have hMem : part.pin.sha256 ∈ split.digests :=
          mem_digests_of_part (List.mem_of_getElem? hPart)
        have hKept : ∀ other later, other ≠ slot → state.splits other = some later →
            ∀ digest ∈ later.digests,
              (split.transfer hash part ⟨attempt.fetch, input⟩ state.store).2.filesAt digest =
                state.store.filesAt digest := by
          intro other later hOther hLater digest hDigest
          have hApart := hClean.apart slot split hSplit other later hOther hLater
          apply transferPart_keeps
          · rintro rfl
            exact hApart _ hMem hDigest
          · rintro rfl
            exact hApart _ List.mem_cons_self hDigest
        simp only [FileState.takePart]
        split
        · rename_i hOk
          apply hClean.set hKept
          rintro _ ⟨rfl⟩
          exact ⟨transferPart_clean (hClean.each slot split hSplit) hPart
            (hClear split part hSplit hPart) hOk, hClean.apart slot split hSplit⟩
        · exact hClean.set hKept (by simp)
  | finish slot gate =>
    simp only [FileState.serve]
    split
    · exact hClean
    · rename_i split hSplit
      split
      · apply hClean.set
        · intro other later hOther hLater digest hDigest
          have hKeeps : Job.Keeps (fun store : Store δ => store.filesAt digest)
              (finishSplit hash split.pin gate split.whole) := by
            apply finishSplit_keeps
            apply ignores_filesAt
            rintro rfl
            exact hClean.apart slot split hSplit other later hOther hLater _ List.mem_cons_self
              hDigest
          exact hKeeps state.store
        · simp
      · exact hClean
  | crash =>
    refine ⟨?_, ?_⟩ <;>
      simp [FileState.serve]

omit [DecidableEq δ] in
theorem error_of_failureOf {α : Type} {result : Except CacheFailure α} {failure : CacheFailure}
    (hFailed : failureOf result = some failure) : result = .error failure := by
  cases result with
  | ok => cases hFailed
  | error =>
    cases hFailed
    rfl

theorem serve_mismatch {input : FileInput δ} (hClean : Clean state) (hClear : input.Clear state)
    (hFailed : (state.serve hash input).failure = some .digestMismatch) :
    ∀ pin ∈ state.compared input, Nothing pin.sha256 (state.serve hash input).state.store := by
  intro pin hPin
  cases input with
  | fetch file attempt =>
    rw [List.mem_singleton.mp hPin]
    exact (downloadArtifact_raises false attempt).result hClear.2 (error_of_failureOf hFailed)
  | begin | crash => cases hPin
  | part slot attempt input =>
    simp only [FileState.compared, Option.mem_toList, Option.bind_eq_some_iff,
      Option.map_eq_some_iff] at hPin
    obtain ⟨split, hSplit, part, hPart, rfl⟩ := hPin
    simp only [FileState.serve, hSplit, hPart, FileState.takePart] at hFailed ⊢
    split at hFailed
    · cases hFailed
    · rename_i hError
      obtain rfl := Option.some.inj hFailed
      exact (transferPart_raises _ _ attempt input).result (hClear split part hSplit hPart) hError
  | finish slot gate =>
    cases hSplit : state.splits slot with
    | none => simp [FileState.compared, hSplit] at hPin
    | some split =>
      simp only [FileState.compared, hSplit, Option.map_some, Option.getD_some] at hPin
      simp only [FileState.serve, hSplit] at hFailed ⊢
      split at hFailed
      · rename_i hAll
        rw [if_pos hAll]
        apply finishSplit_mismatch (hClean.each slot split hSplit) hAll gate
          (error_of_failureOf hFailed)
        rcases List.mem_cons.mp hPin with rfl | hRest
        · exact List.mem_cons_self
        · obtain ⟨part, hMem, rfl⟩ := List.mem_map.mp hRest
          exact mem_digests_of_part hMem
      · cases hFailed

----
-- Runs
----

/-
  In a run that meets the condition at every step, a digest mismatch leaves neither a partial nor a
  segment of the file, and the next attempt asks for every byte. For a split file that is compared
  as a whole, this is so for each of its parts too.
-/
theorem mismatch_keeps_nothing
    (hash : Bytes → δ)
    (start : Store δ)
    (inputs : List (FileInput δ))
    (hClear :
      ∀ step ∈ (fileMachine hash).trace (idle start) inputs,
        Clear step) :
    ∀ step ∈ (fileMachine hash).trace (idle start) inputs,
      step.output.failure = some .digestMismatch →
      ∀ pin ∈ step.before.compared step.input,
        Nothing pin.sha256 step.output.state.store ∧
        FromZero pin step.output.state.store := by
  intro step hMem hFailed pin hPin
  have hBefore := (fileMachine hash).invariant_before (I := Clean)
    (P := Clear) (fun _ _ hClean hClear => serve_clean hClean hClear)
    (s := idle start) ⟨by simp [idle], by simp [idle]⟩ hClear step hMem
  rcases hBefore with ⟨hClean, _, hStep⟩
  have hHolds := hClear step hMem
  rw [hStep] at hPin hFailed hHolds ⊢
  have hNothing := serve_mismatch hClean hHolds hFailed pin hPin
  exact ⟨hNothing, hNothing.fromZero⟩

/- A small file whose source serves other bytes. -/
def wrongFetch : Attempt where
  fetch := plainFetch [[9, 9], [9]] none
  refusal := by decide
  sampling := by decide
  stream := by decide

def emptyStore (δ : Type) : Store δ := Store.restart 0 (fun _ => none) fun _ _ => none

/- A fetch of the wrong bytes leaves nothing, and the next one starts from zero. -/
theorem wrong_fetch_keeps_nothing :
    ∃ step ∈ (fileMachine plainDigest).trace (idle (emptyStore Bytes))
      [.fetch ⟨⟨[1, 2, 3], 3⟩, false⟩ wrongFetch],
      step.output.failure = some .digestMismatch ∧
      Nothing [1, 2, 3] step.output.state.store ∧
      FromZero ⟨[1, 2, 3], 3⟩ step.output.state.store := by
  have hClear : ∀ step ∈ (fileMachine plainDigest).trace (idle (emptyStore Bytes))
      [.fetch ⟨⟨[1, 2, 3], 3⟩, false⟩ wrongFetch], Clear step := by
    intro _ hMem
    rcases List.mem_singleton.mp hMem with rfl
    refine ⟨by simp [FileState.Apart, idle], ?_⟩
    change ClearFetch ⟨⟨[1, 2, 3], 3⟩, false⟩ false wrongFetch.fetch (emptyStore Bytes)
    have hFetched : isFetched ⟨⟨[1, 2, 3], 3⟩, false⟩ false (emptyStore Bytes) := Or.inl rfl
    rw [ClearFetch, if_pos hFetched, Ready, if_neg fun hUses => absurd hUses.1 (by decide)]
    exact fun k _ => rfl
  have hFailed : ((idle (emptyStore Bytes)).serve plainDigest
        (.fetch ⟨⟨[1, 2, 3], 3⟩, false⟩ wrongFetch)).failure = some .digestMismatch := by
    decide +kernel
  exact ⟨_, List.mem_singleton.mpr rfl, hFailed,
    mismatch_keeps_nothing plainDigest (emptyStore Bytes) _
      hClear _ (List.mem_singleton.mpr rfl) hFailed _ (List.mem_singleton.mpr rfl)⟩

----
-- A Range That Is Given Up
----

/- A range call that returned `False`. -/
theorem downloadParallelRanges_false {input : RangesInput}
    (hRefused : input.refused = none) (hFit : input.rangesFit)
    (hSampler : input.samplerRaises = none) {outcome : RangeOutcome UInt8}
    (hOutcome : downloadRanges (rangePlan pin)
        ⟨(store.partials pin.sha256).map PartialFile.bytes, store.segments pin.sha256⟩
        input.schedule = outcome)
    (hResult : outcome.result = some (.ok false)) :
    downloadParallelRanges hash pin fetchOnly input store =
      (.ok false, store.afterRanges pin.sha256 outcome) := by
  simp [downloadParallelRanges, hRefused, hFit, hSampler,
    bind, Job.read, Job.update, hOutcome, hResult, pure]

/- A stream from the start that sends one whole chunk. -/
theorem downloadSequential_whole {chunk : Bytes} (hLength : chunk.length = pin.expectedBytes)
    (hSome : chunk ≠ []) : downloadSequential pin 0 (.opens false [chunk] none) store =
    (.ok (), store.write pin.sha256 chunk) := by
  simp [downloadSequential, receiveChunks, hSome, hLength, bind, Job.update, Job.require, pure]

/- A complete partial with another digest. -/
theorem completeDownload_mismatch {bytes : Bytes} (hLength : bytes.length = pin.expectedBytes)
    (hHash : hash bytes ≠ pin.sha256) (hUnknown : store.verified = []) :
    completeDownload hash pin openGate false (store.write pin.sha256 bytes) =
    (.error .digestMismatch, (store.write pin.sha256 bytes).unlink pin.sha256) := by
  simp [completeDownload, openGate, isVerified, verifyFile,
    Store.write, hLength, hHash, hUnknown, bind, Job.read, Job.update, Job.require, Job.fail, pure]

/- A digest for concrete runs that can be told apart. -/
def firstByte (bytes : Bytes) : Option UInt8 := bytes.head?

def largePin : Pin (Option UInt8) := ⟨some 1, parallelRangeMinBytes⟩

def rangeAnswer (offset last : Nat) (chunks : List Bytes) : Answer UInt8 :=
  .response ⟨206, some (offset, last, parallelRangeMinBytes), none, chunks, none⟩

/- A try of worker `k` whose body has no bytes. -/
def emptyTry (k offset last : Nat) : List (RangeInput UInt8) :=
  [.work k, .work k, .answer k (rangeAnswer offset last []), .work k, .work k]

/- A worker that is answered short three times. -/
def shortWorker (k offset last : Nat) : List (RangeInput UInt8) :=
  [.work k] ++ emptyTry k offset last ++ emptyTry k offset last ++ emptyTry k offset last ++
    [.collect k]

/- The first range gets one byte, and no other gets any. -/
def shortMoves : List (RangeInput UInt8) :=
  [.work 0, .work 0, .work 0, .work 0, .answer 0 (rangeAnswer 0 16777215 [[0]]), .work 0, .work 0,
      .work 0, .work 0, .work 0, .work 0, .work 0] ++
    emptyTry 0 1 16777215 ++ emptyTry 0 1 16777215 ++ [.collect 0] ++
    shortWorker 1 16777216 33554431 ++ shortWorker 2 33554432 50331647 ++
    shortWorker 3 50331648 67108863 ++ [.proceed]

/- Short ranges, and a stream that sends the whole file. -/
def shortFetch (bytes : Bytes) : Attempt where
  fetch := ⟨openGate, false, ⟨none, true, ⟨false, shortMoves⟩, none⟩, .opens false [bytes] none⟩
  refusal := by simp
  sampling := by simp
  stream := by simp [SourceStream.failure]

theorem shortMoves_give_up : (downloadRanges (rangePlan largePin) ⟨none, fun _ => none⟩
      ⟨false, shortMoves⟩).result = some (.ok false) ∧
    (downloadRanges (rangePlan largePin) ⟨none, fun _ => none⟩ ⟨false, shortMoves⟩).files.segments
    0 = some [0] := by decide +kernel

variable {bytes : Bytes} {outcome : RangeOutcome UInt8}

/- The store after the range call and the stream. -/
def shortStore (outcome : RangeOutcome UInt8) (bytes : Bytes) : Store (Option UInt8) :=
  (((emptyStore (Option UInt8)).afterRanges largePin.sha256
    outcome).write largePin.sha256 bytes).unlink largePin.sha256

theorem verified_afterRanges :
    ((emptyStore (Option UInt8)).afterRanges largePin.sha256 outcome).verified = [] := by
  unfold Store.afterRanges
  dsimp only
  split <;> rfl

theorem shortStore_segments (hSegment : outcome.files.segments 0 = some [0]) :
    (shortStore outcome bytes).segments largePin.sha256 0 = some [0] := by
  have hKept : (shortStore outcome bytes).segments largePin.sha256 = outcome.files.segments :=
    segments_afterRanges outcome
  rw [hKept]
  exact hSegment

theorem shortFetch_run (hOutcome :
      downloadRanges (rangePlan largePin) ⟨none, fun _ => none⟩ ⟨false, shortMoves⟩ = outcome)
    (hResult : outcome.result = some (.ok false)) (hLength : bytes.length = parallelRangeMinBytes)
    (hHash : firstByte bytes ≠ some 1) :
    downloadArtifact firstByte ⟨largePin, true⟩ false (shortFetch bytes).fetch
    (emptyStore (Option UInt8)) = (.error .digestMismatch, shortStore outcome bytes) := by
  have hSome : bytes ≠ [] := by
    rintro rfl
    exact absurd hLength (by decide)
  have hRetained :
      retainedBytes largePin (emptyStore (Option UInt8)) = (.ok 0, emptyStore (Option UInt8)) := rfl
  have hUses : usesRanges ⟨largePin, true⟩ (shortFetch bytes).fetch := ⟨Nat.le_refl _, rfl, rfl⟩
  have hRanges : tryRanges firstByte ⟨largePin, true⟩ false (shortFetch bytes).fetch
      (emptyStore (Option UInt8)) =
      (.ok false, (emptyStore (Option UInt8)).afterRanges largePin.sha256 outcome) := by
    rw [tryRanges_of_uses hUses]
    exact downloadParallelRanges_false rfl rfl rfl hOutcome hResult
  have hStream : downloadSequential largePin 0 (shortFetch bytes).fetch.source
    ((emptyStore (Option UInt8)).afterRanges largePin.sha256 outcome) =
    (.ok (), ((emptyStore (Option UInt8)).afterRanges largePin.sha256 outcome).write largePin.sha256
      bytes) := downloadSequential_whole hLength hSome
  unfold downloadArtifact
  rw [Job.bind_of_ok hRetained, if_pos (by decide), fetchFile,
    Job.bind_of_ok hRanges, if_neg (by decide), Job.bind_of_ok hStream]
  exact completeDownload_mismatch hLength hHash verified_afterRanges

/- The segment is what the next range call resumes from. -/
theorem shortStore_resumes (hSegment : outcome.files.segments 0 = some [0]) :
    (beginRanges (rangePlan largePin) ((shortStore outcome bytes).rangeFiles largePin) false).counts
    0 = 1 := by
  have hKept : ((shortStore outcome bytes).rangeFiles largePin).segments 0 = some [0] := by
    change (shortStore outcome bytes).segments largePin.sha256 0 = some [0]
    exact shortStore_segments hSegment
  have hTarget : ((shortStore outcome bytes).rangeFiles largePin).target = none := by
    simp [Store.rangeFiles, shortStore, Store.unlink]
  have hPrepared : prepareSegment ((rangePlan largePin).segment 0) none (some [(0 : UInt8)]) =
    (some [0], 1) := by decide +kernel
  simp only [beginRanges, hKept, hTarget, Option.filter_none, hPrepared]

theorem shortFetch_keeps
    (hOutcome :
      downloadRanges (rangePlan largePin) ⟨none, fun _ => none⟩ ⟨false, shortMoves⟩ = outcome)
    (hResult : outcome.result = some (.ok false))
    (hSegment : outcome.files.segments 0 = some [0])
    (hLength : bytes.length = parallelRangeMinBytes)
    (hHash : firstByte bytes ≠ some 1) : ∃ step ∈
      (fileMachine firstByte).trace (idle (emptyStore (Option UInt8)))
        [.fetch ⟨largePin, true⟩ (shortFetch bytes)],
      step.output.failure = some .digestMismatch ∧
        step.output.state.store.segments largePin.sha256 0 = some [0] ∧
        ¬ Nothing largePin.sha256 step.output.state.store ∧
        ¬ FromZero largePin step.output.state.store := by
  have hTurn : (idle (emptyStore (Option UInt8))).serve firstByte
      (.fetch ⟨largePin, true⟩ (shortFetch bytes)) =
      ⟨idle (shortStore outcome bytes), some .digestMismatch⟩ := by
    simp only [FileState.serve, idle, shortFetch_run hOutcome hResult hLength hHash, failureOf]
  have hStep : (fileMachine firstByte).trace (idle (emptyStore (Option UInt8)))
      [.fetch ⟨largePin, true⟩ (shortFetch bytes)] =
      [⟨idle (emptyStore (Option UInt8)), .fetch ⟨largePin, true⟩ (shortFetch bytes),
        idle (shortStore outcome bytes), some .digestMismatch⟩] := by
    rw [← hTurn]
    rfl
  have hKept : (shortStore outcome bytes).segments largePin.sha256 0 = some [0] :=
    shortStore_segments hSegment
  rw [hStep]
  refine ⟨_, List.mem_singleton.mpr rfl, rfl, hKept, ?_, ?_⟩
  · intro hNothing
    have hNone := hNothing.segments 0 (by decide)
    exact absurd (hKept.symm.trans hNone) (Option.some_ne_none _)
  · intro hZero
    have hCount := hZero.ranges false 0 (by decide)
    exact absurd ((shortStore_resumes hSegment).symm.trans hCount) (by decide)

/-
  Three short answers for a range hand the file over to the stream. Its bytes fail the digest, and
  the segment stays.
-/
theorem short_ranges_are_kept :
    ∃ step ∈ (fileMachine firstByte).trace
      (idle (emptyStore (Option UInt8)))
      [.fetch ⟨largePin, true⟩ (shortFetch (List.replicate parallelRangeMinBytes 0))],
      step.output.failure = some .digestMismatch ∧
      step.output.state.store.segments largePin.sha256 0 = some [0] ∧
      ¬ Nothing largePin.sha256 step.output.state.store ∧
      ¬ FromZero largePin step.output.state.store := by
  apply shortFetch_keeps rfl shortMoves_give_up.1 shortMoves_give_up.2
  · exact List.length_replicate
  · rw [firstByte, List.head?_replicate]
    decide

end VonkForge.Cache
