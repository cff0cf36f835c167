import VonkForge.Foundations.Run
import VonkForge.Memory.SwapPass

/-
  The swap the helper activated, from pass to pass.

  A command that timed out may have taken effect, so a file may be active although its activation
  was given up and its file was to be removed. The helper removes it without a look at the kernel's
  list. That the kernel refuses to unlink a file that is active is assumed under a name; with it,
  the names of the files tell the helper its own swap again, wherever it is listed.

  Main declarations:
    * `Surroundings.KeepsActive`
    * `Host.Sound`
    * `convergeSwap_point`
    * `activated_swap_stays_releasable`
-/

----
-- Files of Active Swap
----

namespace VonkForge.Memory

variable {root : Path} {host next : Host} {path : Path}

/- The kernel neither unlinks nor moves a file that is active as swap. -/
def Surroundings.KeepsActive (world : Surroundings) : Prop :=
  ∀ host path, host.isActive path = true → world.refuses host path = true

/-
  Active swap is listed under its own name, and the file of swap in the helper's directory is there.
-/
structure Host.Sound (root : Path) (host : Host) : Prop where
  named : ∀ row ∈ host.active, row.listed.getLast? = row.path.getLast?
  present : ∀ row ∈ host.active, row.path.dropLast = root → host.isFile row.path = true

theorem isFile_iff : host.isFile path ↔ ∃ file ∈ host.files, file.path = path := by
  simp [Host.isFile, Host.fileBytes]

theorem isFile_without {other : Path} (hOther : other ≠ path) (hFile : host.isFile other) :
    ∃ file ∈ host.without path, file.path = other := by
  rcases isFile_iff.mp hFile with ⟨file, hMem, rfl⟩
  exact ⟨file, List.mem_filter.mpr ⟨hMem, by simpa using hOther⟩, rfl⟩

variable {row : Row}

theorem isActive_of_mem (hRow : row ∈ host.active) : host.isActive row.path := by
  simp only [Host.isActive, List.any_eq_true, decide_eq_true_eq]
  exact ⟨row, hRow, rfl⟩

section

variable (hSound : host.Sound root)

include hSound

/- A step on files that loses no file of active swap. -/
theorem Host.Sound.ofFiles (hActive : next.active = host.active)
    (hFiles : ∀ path, host.isActive path → host.isFile path →
        ∃ file ∈ next.files, file.path = path) : next.Sound root where
  named := by
    rw [hActive]
    exact hSound.named
  present := by
    rw [hActive]
    intro row hRow hRoot
    exact isFile_iff.mpr (hFiles _ (isActive_of_mem hRow) (hSound.present row hRow hRoot))

theorem Host.Sound.create (hNext : host.create path = some next) : next.Sound root := by
  unfold Host.create at hNext
  split at hNext
  · cases hNext
  · obtain rfl := Option.some.inj hNext
    refine hSound.ofFiles rfl ?_
    intro _ _ hFile
    rcases isFile_iff.mp hFile with ⟨file, hMem, hPath⟩
    exact ⟨file, List.mem_cons_of_mem _ hMem, hPath⟩

theorem Host.Sound.allocate {bytes : Nat}
    (hNext : host.allocate path bytes = some next) :
    next.Sound root := by
  unfold Host.allocate at hNext
  split at hNext
  · obtain rfl := Option.some.inj hNext
    refine hSound.ofFiles rfl ?_
    intro other _ hFile
    by_cases hSame : other = path
    · exact ⟨_, List.mem_cons_self, hSame.symm⟩
    · rcases isFile_without hSame hFile with ⟨file, hMem, hPath⟩
      exact ⟨file, List.mem_cons_of_mem _ hMem, hPath⟩
  · cases hNext

theorem Host.Sound.rename {world : Surroundings} {target : Path} (hKernel : world.KeepsActive)
    (hNext : host.rename world.refuses path target = some next) :
    next.Sound root := by
  unfold Host.rename at hNext
  cases hBytes : host.fileBytes path with
  | none =>
    rw [hBytes] at hNext
    cases hNext
  | some bytes =>
    simp only [hBytes] at hNext
    split at hNext
    · cases hNext
    · rename_i hFree
      obtain rfl := Option.some.inj hNext
      refine hSound.ofFiles rfl ?_
      intro other hUsed hFile
      by_cases hTarget : other = target
      · exact ⟨_, List.mem_cons_self, hTarget.symm⟩
      · have hSource : other ≠ path := by
          rintro rfl
          exact hFree (Or.inl (hKernel _ _ hUsed))
        rcases isFile_without hSource hFile with ⟨file, hMem, hPath⟩
        refine ⟨file, List.mem_cons_of_mem _ ?_, hPath⟩
        refine List.mem_filter.mpr ⟨hMem, ?_⟩
        rw [hPath]
        simpa using hTarget

theorem Host.Sound.unlink {world : Surroundings} (hKernel : world.KeepsActive)
    (hNext : host.unlink world.refuses path = some next) :
    next.Sound root := by
  unfold Host.unlink at hNext
  split at hNext
  · rename_i hIdle
    obtain rfl := Option.some.inj hNext
    refine hSound.ofFiles rfl ?_
    intro _ hUsed hFile
    refine isFile_without ?_ hFile
    rintro rfl
    rw [hKernel _ _ hUsed] at hIdle
    cases hIdle.2
  · cases hNext

theorem Host.Sound.swapOn {header : Nat}
    (hNext : host.swapOn header path = some next) :
    next.Sound root := by
  unfold Host.swapOn at hNext
  cases hBytes : host.fileBytes path with
  | none =>
    rw [hBytes] at hNext
    cases hNext
  | some =>
    simp only [hBytes] at hNext
    split at hNext
    · cases hNext
    · obtain rfl := Option.some.inj hNext
      refine ⟨?_, ?_⟩
      · intro row hRow
        rcases List.mem_append.mp hRow with hOld | hNew
        · exact hSound.named row hOld
        · rw [List.mem_singleton.mp hNew]
      · intro row hRow hRoot
        rcases List.mem_append.mp hRow with hOld | hNew
        · exact hSound.present row hOld hRoot
        · rw [List.mem_singleton.mp hNew]
          simp only [Host.isFile, Host.fileBytes] at hBytes ⊢
          rw [hBytes]
          rfl

theorem Host.Sound.swapOff (hNext : host.swapOff path = some next) : next.Sound root := by
  unfold Host.swapOff at hNext
  split at hNext
  · obtain rfl := Option.some.inj hNext
    refine ⟨?_, ?_⟩
    · intro row hRow
      exact hSound.named row (List.mem_of_mem_filter hRow)
    · intro row hRow hRoot
      exact hSound.present row (List.mem_of_mem_filter hRow) hRoot
  · cases hNext

/- Whatever a command does, it loses no such file. -/
theorem Host.Sound.command {header : Nat}
    (command : Command) (hNext : command.effect header host = some next) :
    next.Sound root := by
  cases command with
  | fallocate => exact hSound.allocate hNext
  | mkswap path =>
    rw [makeSwap_spec path host next hNext]
    exact hSound
  | swapon => exact hSound.swapOn hNext
  | swapoff => exact hSound.swapOff hNext

end

----
-- Points of a Pass
----

/- Only files under a new name of the helper are activated. -/
structure Point (root : Path) (state : PassState) : Prop where
  sound : state.host.Sound root
  named : ∀ event ∈ state.events, ∀ path, event.command = some (.swapon path) →
    ∃ id, path = root ++ [imageName id]

section Steps

variable (world : Surroundings) (header : Nat) {effect : Host → Option Host}

variable {failure : String → Wait}

/- A step that keeps the files, whether it fails or not. -/
theorem perform_point {command : Option Command}
    (hNamed : ∀ path, command = some (.swapon path) → ∃ id, path = root ++ [imageName id])
    (hEffect : ∀ host next, host.Sound root → effect host = some next → next.Sound root) :
    Job.Holds (Point root) (perform world command effect failure)
      (fun _ => Point root) (Point root) := by
  have hAfter :
      ∀ state host, Point root state → host.Sound root → Point root (state.after command host) := by
    intro _ _ hState hHost
    refine ⟨hHost, ?_⟩
    intro event hEvent path hSwapon
    rcases List.mem_append.mp hEvent with hOld | hNew
    · exact hState.named event hOld path hSwapon
    · rw [List.mem_singleton.mp hNew] at hSwapon
      exact hNamed path hSwapon
  apply perform_holds
  · intro state host hState hHost
    exact hAfter state host hState (hEffect _ _ hState.sound hHost)
  · intro state hState
    exact hAfter state state.host hState hState.sound
  · intro state host hState _ hHost
    exact hAfter state host hState (hEffect _ _ hState.sound hHost)

theorem swapCommand_point (command : Command)
    (hNamed : ∀ path, command = .swapon path → ∃ id, path = root ++ [imageName id]) :
    Job.Holds (Point root) (swapCommand world header command) (fun _ => Point root) (Point root) :=
  perform_point world (fun path hPath => hNamed path (Option.some.inj hPath))
    (fun _ _ hSound hNext => hSound.command command hNext)

/- A step that is no command. -/
theorem quiet_point
    (hEffect : ∀ host next, host.Sound root → effect host = some next → next.Sound root) :
    Job.Holds (Point root) (perform world none effect failure) (fun _ => Point root) (Point root) :=
  perform_point world (fun _ hPath => nomatch hPath) hEffect

variable (hKernel : world.KeepsActive)

include hKernel

theorem removeQuietly_point (path : Path) :
    Job.Holds (Point root) (removeQuietly world path) (fun _ => Point root) (Point root) :=
  Job.Holds.ignore (quiet_point world (fun _ _ hSound hNext => hSound.unlink hKernel hNext))

theorem makeSwapFile_point (id : Uuid) (temporary : Path) (fileBytes : Nat) : Job.Holds (Point root)
    (makeSwapFile world header temporary (root ++ [imageName id]) fileBytes) (fun _ => Point root)
    (Point root) := by
  unfold makeSwapFile
  refine Job.Triple.bind (quiet_point world (fun _ _ hSound hNext => hSound.create hNext)) ?_
  intro _
  refine Job.Triple.bind (swapCommand_point world header _ (fun _ hPath => nomatch hPath)) ?_
  intro _
  refine Job.Triple.bind (swapCommand_point world header _ (fun _ hPath => nomatch hPath)) ?_
  intro _
  refine Job.Triple.bind
    (quiet_point world (fun _ _ hSound hNext => hSound.rename hKernel hNext)) ?_
  intro _
  refine Job.Triple.bind
    (quiet_point world (fun _ _ hSound hNext => Option.some.inj hNext ▸ hSound)) ?_
  intro _
  refine swapCommand_point world header _ ?_
  rintro _ hPath
  exact ⟨id, (Command.swapon.inj hPath).symm⟩

theorem activateSwapFile_point (usable : Nat) : Job.Holds (Point root)
    (activateSwapFile world header root usable) (fun _ => Point root) (Point root) := by
  refine Job.Triple.bind (requireSpace_holds world _) ?_
  intro _
  refine Job.Triple.bind_read ?_
  intro id
  refine Job.Triple.bind (M := fun _ => Point root) ?_ ?_
  · refine Job.Holds.orUndo (R := Point root) ?_ ?_
    · exact Job.Triple.mono (makeSwapFile_point world header hKernel id _ _)
        (fun state hState => hState.1) (fun _ state hState => hState)
    · refine Job.Triple.bind (removeQuietly_point world hKernel _) ?_
      intro _
      exact removeQuietly_point world hKernel _
  · intro _
    exact Job.Triple.pure (fun state hState => hState)

theorem releaseSwapFile_point (old : ActiveSwap) : Job.Holds (Point root)
    (releaseSwapFile world header old) (fun _ => Point root) (Point root) := by
  refine Job.Triple.bind (requireMemory_holds world old) ?_
  intro _
  refine Job.Triple.bind (M := fun _ => Point root) ?_ ?_
  · exact perform_point world (fun _ hPath => nomatch hPath)
      (fun _ _ hSound hNext => hSound.command (.swapoff old.path) hNext)
  · intro _
    exact quiet_point world (fun _ _ hSound hNext => hSound.unlink hKernel hNext)

/- One pass, whatever fails or times out in it. -/
theorem convergeSwap_point (sizeGib : Nat) :
    Job.Holds (Point root) (convergeSwap world header root sizeGib)
      (fun _ => Point root) (Point root) := by
  refine Job.Triple.bind (M := fun _ => Point root) ?_ ?_
  · refine Job.Triple.bind
      (quiet_point world (fun _ _ hSound hNext => Option.some.inj hNext ▸ hSound)) ?_
    intro _
    refine Job.Triple.bind_read ?_
    intro _
    exact Job.Triple.pure (fun state hState => hState.1)
  intro _
  refine Job.Triple.bind (M := fun _ => Point root) ?_ ?_
  · refine Job.Triple.bind_read ?_
    intro _
    exact Job.Triple.mono (Job.Triple.forEach (I := fun _ => Point root)
        (fun path _ => removeQuietly_point world hKernel path) _) (fun state hState => hState.1)
      (fun _ state hState => hState)
  intro _
  refine Job.Triple.bind (M := fun _ => Point root) ?_ ?_
  · unfold keepOrActivate
    split
    · exact Job.Triple.pure (fun state hState => hState)
    · split
      · refine Job.Triple.bind (activateSwapFile_point world header hKernel _) ?_
        intro _
        exact Job.Triple.pure (fun state hState => hState)
      · exact Job.Triple.pure (fun state hState => hState)
  intro _
  refine Job.Triple.bind (Job.Triple.forEach (I := fun _ => Point root)
      (fun old _ => releaseSwapFile_point world header hKernel old) _) ?_
  intro _
  exact Job.Triple.pure (fun state hState => hState)

end Steps

----
-- Pass after Pass
----

/- The host, and what the helper has told the kernel to activate. -/
structure Helper where
  host : Host
  activated : List Path

/-
  A pass, or what others do to the host between two passes: their own swap, a restart of the helper
  that lists its swap under other mounts, a restart of the host.
-/
inductive Happening where
  | pass (world : Surroundings) (sizeGib : Nat)
  | outside (host : Host)

/- The paths of the activations among the steps of a pass. -/
def swapons (events : List Event) : List Path := events.filterMap fun event =>
    match event.command with
    | some (.swapon path) => some path
    | _ => none

def Helper.after (header : Nat) (root : Path) (helper : Helper) : Happening → Helper
  | .pass world sizeGib =>
    let state := (convergeSwap world header root sizeGib (PassState.start helper.host)).2
    { host := state.host, activated := helper.activated ++ swapons state.events }
  | .outside host => { helper with host := host }

def helperMachine (header : Nat) (root : Path) : Machine Helper Happening Helper where
  answer := Helper.after header root
  next := id

/- Nobody else touches the files and swap in the directory. -/
structure Leaves (root : Path) (host next : Host) : Prop where
  named : ∀ row ∈ next.active, row.listed.getLast? = row.path.getLast?
  rows : ∀ row ∈ next.active, row.path.dropLast = root → ∃ old ∈ host.active, old.path = row.path
  files : ∀ path, path.dropLast = root → next.isFile path = host.isFile path

theorem Host.Sound.leaves (hSound : host.Sound root) (hLeaves : Leaves root host next) :
    next.Sound root where
  named := hLeaves.named
  present := by
    intro row hRow hRoot
    rcases hLeaves.rows row hRow hRoot with ⟨old, hOld, hPath⟩
    rw [hLeaves.files _ hRoot, ← hPath]
    exact hSound.present old hOld (hPath ▸ hRoot)

/- The files are sound, and only own files were activated. -/
structure Helper.Sound (root : Path) (helper : Helper) : Prop where
  host : helper.host.Sound root
  own : ∀ path ∈ helper.activated, ∃ id, path = root ++ [imageName id]

theorem Helper.Sound.pass
    {helper : Helper}
    (hSound : helper.Sound root)
    {world : Surroundings}
    (hKernel : world.KeepsActive)
    (header sizeGib : Nat) :
    (helper.after header root (.pass world sizeGib)).Sound root := by
  have hPoint :
      Point root (convergeSwap world header root sizeGib (PassState.start helper.host)).2 := by
    have hStart : Point root (PassState.start helper.host) :=
      ⟨hSound.host, fun event hEvent => nomatch hEvent⟩
    have hPass := convergeSwap_point world header hKernel sizeGib _ hStart
    revert hPass
    cases convergeSwap world header root sizeGib (PassState.start helper.host) with
    | mk ending =>
      cases ending with
      | error | ok => exact id
  refine ⟨hPoint.sound, ?_⟩
  intro path hPath
  rcases List.mem_append.mp hPath with hOld | hNew
  · exact hSound.own path hOld
  · rcases List.mem_filterMap.mp hNew with ⟨event, hEvent, hSwapon⟩
    split at hSwapon
    · rename_i target hCommand
      obtain rfl := Option.some.inj hSwapon
      exact hPoint.named event hEvent target hCommand
    · cases hSwapon

theorem owned_image {id : Uuid} (hPath : row.path = root ++ [imageName id]) :
    owned root row := by
  have hManaged : managedName (imageName id) := by
    rw [managedName, imageName, uuidBetween_nameBetween, Bool.true_or]
  have hStart : "swap-".toList.isPrefixOf (imageName id).toList := by
    rw [imageName, nameBetween, String.toList_ofList, String.toList_ofList,
      List.append_assoc, List.isPrefixOf_iff_prefix]
    exact List.prefix_append _ _
  simp only [owned, hPath, List.dropLast_concat, List.getLast?_concat,
    Option.any_some, decide_eq_true_eq]
  exact ⟨trivial, hStart, hManaged⟩

/- A recognised row is kept or released by every plan. -/
theorem planned_of_managedRow (hRow : row ∈ host.active)
    (hManaged : managedRow root host row.listed = some row.path) (sizeGib : Nat) :
    row.actual ∈ (planFor root sizeGib host).keep.toList ++ (planFor root sizeGib host).release :=
    by
  have hSwap : row.actual ∈ managedSwaps root host := by
    refine List.mem_filterMap.mpr ⟨row, hRow, ?_⟩
    rw [hManaged]
    rfl
  exact (perm_find?_eraseP _ _).mem_iff.mp hSwap

/-
  After every run of passes in which steps fail and commands time out with or without effect, over a
  kernel that keeps the files of active swap: whatever the helper activated and is still active has
  its file, is recognised and planned for by the next pass, and can be released.
-/
theorem activated_swap_stays_releasable
    (header : Nat)
    (root : Path)
    (start : Host)
    (hStart : start.Sound root)
    (happenings : List Happening)
    (hKernel :
      ∀ world sizeGib,
        Happening.pass world sizeGib ∈ happenings → world.KeepsActive)
    (hOutside :
      ∀ step ∈ (helperMachine header root).trace ⟨start, []⟩ happenings,
        ∀ host,
          step.input = .outside host →
          Leaves root step.before.host host) :
    let helper := (helperMachine header root).final ⟨start, []⟩ happenings
    ∀ row ∈ helper.host.active,
      row.path ∈ helper.activated →
      (∃ id, row.path = root ++ [imageName id]) ∧
      helper.host.isFile row.path = true ∧
      managedRow root helper.host row.listed = some row.path ∧
      (∀ sizeGib,
         row.actual ∈
           (planFor root sizeGib helper.host).keep.toList ++
             (planFor root sizeGib helper.host).release) ∧
      managedPath root row.path = true ∧
      ((Command.swapoff row.path).effect header helper.host).isSome =
        true := by
  intro helper row hRow hActivated
  have hSound : helper.Sound root := by
    refine (helperMachine header root).invariant (I := Helper.Sound root)
      (P := fun step =>
        (∀ world sizeGib, step.input = .pass world sizeGib → world.KeepsActive) ∧
        ∀ host, step.input = .outside host → Leaves root step.before.host host)
      ?_ ⟨hStart, fun path hPath => nomatch hPath⟩ ?_
    · intro _ happening hHelper hStep
      cases happening with
      | pass world sizeGib => exact hHelper.pass (hStep.1 world sizeGib rfl) header sizeGib
      | outside host => exact ⟨hHelper.host.leaves (hStep.2 host rfl), hHelper.own⟩
    · intro step hStep
      refine ⟨fun world sizeGib hInput => hKernel world sizeGib ?_, hOutside step hStep⟩
      rw [← hInput]
      exact (helperMachine header root).input_mem_of_mem_trace hStep
  obtain ⟨id, hPath⟩ := hSound.own _ hActivated
  have hRoot : row.path.dropLast = root := by rw [hPath, List.dropLast_concat]
  have hFile := hSound.host.present row hRow hRoot
  have hManaged := managedRow_of_owned (owned_image hPath) (hSound.host.named row hRow) hFile
  refine ⟨⟨id, hPath⟩, hFile, hManaged, planned_of_managedRow hRow hManaged, ?_, ?_⟩
  · rw [hPath]
    exact managedPath_image root id
  · simp [Command.effect, Host.swapOff, isActive_of_mem hRow]

/- The activation times out, and has taken effect. -/
def timedOut : Surroundings :=
  { calm with
    succeeds := fun time => time ≠ 6
    lands := fun _ => true }

def bareHost : Host where
  active := [swapAt ["swap.img"] 16]
  files := []

/- A swap file that came up after its time was over is known as the helper's own. -/
theorem late_activation_is_recognised :
    let helper := (helperMachine 4096 helperRoot).final ⟨bareHost, []⟩ [.pass timedOut 64]
    ∃ row ∈ helper.host.active,
      row.path ∈ helper.activated ∧
      managedRow helperRoot helper.host row.listed = some row.path := by
  have hBare : bareHost.Sound helperRoot := ⟨by decide, by decide⟩
  have hRun :=
    activated_swap_stays_releasable 4096 helperRoot bareHost hBare
      [.pass timedOut 64]
      (by
        intro _ _ hPass
        cases List.mem_singleton.mp hPass
        exact fun _ _ hActive => hActive)
      (by
        intro _ hStep _ hInput
        rw [List.mem_singleton.mp hStep] at hInput
        cases hInput)
  refine ⟨swapAt (helperRoot ++ [imageName otherUuid]) 48, ?_, ?_, ?_⟩
  · decide +kernel
  · decide +kernel
  · exact (hRun _ (by decide +kernel) (by decide +kernel)).2.2.1

end VonkForge.Memory
