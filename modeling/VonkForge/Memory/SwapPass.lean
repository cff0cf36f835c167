import VonkForge.Memory.SwapFiles

/-
  What a swap pass keeps, at each of its points.

  The helper tells its files by their names. As long as no other active swap is listed under the
  name of one of them, the swap it does not own and the file it keeps or makes stay, and they reach
  the desired total.

  Main declarations:
    * `Kernel`
    * `releaseSwapFile_holds`
    * `convergeSwap_holds`
    * `swap_pass_never_leaves_less`
-/

----
-- Own Swap and Other Swap
----

namespace VonkForge.Memory

variable (root : Path)

/- Swap in one of the helper's files. -/
def owned (row : Row) : Bool := row.path.dropLast = root ∧
    row.path.getLast?.any (fun name => "swap-".toList.isPrefixOf name.toList ∧ managedName name)

def unowned (rows : List Row) : List Row := rows.filter (fun row => !owned root row)

/-
  A host as the kernel keeps it. A file is active at most once, is listed under its own name and is
  not unlinked, and all swap is counted in one 64-bit number.
-/
structure Kernel (root : Path) extends Host where
  once : (active.map Row.path).Nodup
  named : ∀ row ∈ active, row.listed.getLast? = row.path.getLast?
  present : ∀ row ∈ active, row.path.dropLast = root → toHost.isFile row.path = true
  fits : total active < 2 ^ 64

/- A row that names one of the helper's files is that file. -/
def NamesOwn (host : Host) : Prop :=
  ∀ row ∈ host.active, ∀ path, managedRow root host row.listed = some path → row.path = path

def Row.actual (row : Row) : ActiveSwap where
  path := row.path
  sizeBytes := row.sizeBytes
  usedBytes := row.usedBytes

def sizes (swaps : List ActiveSwap) : Nat := (swaps.map ActiveSwap.sizeBytes).sum

theorem sizes_append (swaps others : List ActiveSwap) :
    sizes (swaps ++ others) = sizes swaps + sizes others := by
  simp only [sizes, List.map_append, List.sum_append]

theorem sizes_actual (rows : List Row) : sizes (rows.map Row.actual) = total rows := by
  simp only [sizes, total, List.map_map]
  rfl

theorem managedRow_spec (host : Host) (listed path : Path)
    (hRow : managedRow root host listed = some path) : ∃ name, path = root ++ [name] ∧
    "swap-".toList.isPrefixOf name.toList ∧ managedName name := by
  unfold managedRow at hRow
  split at hRow
  · cases hRow
  · rename_i name hName
    split at hRow
    · rename_i hManaged
      cases hRow
      exact ⟨name, rfl, hManaged.1, hManaged.2.1⟩
    · cases hRow

/- An own file that exists is recognised by its name. -/
theorem managedRow_of_owned {root : Path} {host : Host} {row : Row} (hOwned : owned root row)
    (hListed : row.listed.getLast? = row.path.getLast?) (hFile : host.isFile row.path) :
    managedRow root host row.listed = some row.path := by
  simp only [owned, decide_eq_true_eq] at hOwned
  cases hLast : row.path.getLast? with
  | none => simp [hLast] at hOwned
  | some name =>
    have hPath : root ++ [name] = row.path := by
      rw [← hOwned.1]
      exact List.dropLast_append_getLast? name hLast
    rw [hLast, Option.any_some, decide_eq_true_eq] at hOwned
    rw [managedRow, hListed, hLast]
    simp only [hPath, hFile, hOwned.2.1, hOwned.2.2, and_self, if_true]

section Kernels

variable
  {root : Path}
  (start : Kernel root)
  (hNames : NamesOwn root start.toHost)

include hNames

/- The helper recognises exactly its own files. -/
theorem managedRow_eq (row : Row) (hRow : row ∈ start.active) :
    managedRow root start.toHost row.listed = if owned root row then some row.path else none := by
  cases hManaged : managedRow root start.toHost row.listed with
  | some path =>
    have hPath := hNames row hRow path hManaged
    rcases managedRow_spec _ _ _ _ hManaged with ⟨_, hName, hStart, hUuid⟩
    have hOwned : owned root row := by
      simp only [owned, hPath, hName, List.dropLast_concat, List.getLast?_concat,
        Option.any_some, decide_eq_true_eq]
      exact ⟨trivial, hStart, hUuid⟩
    rw [hOwned, hPath]
    rfl
  | none =>
    cases hOwned : owned root row with
    | false => rfl
    | true =>
      have hRoot : row.path.dropLast = root := by
        simp only [owned, decide_eq_true_eq] at hOwned
        exact hOwned.1
      have hSome := managedRow_of_owned hOwned (start.named row hRow) (start.present row hRow hRoot)
      exact hManaged.symm.trans hSome

theorem otherSwaps_eq : otherSwaps root start.toHost = unowned root start.active := by
  apply List.filter_congr
  intro row hRow
  rw [managedRow_eq start hNames row hRow]
  cases owned root row <;> simp

theorem managedSwaps_eq :
    managedSwaps root start.toHost = (start.active.filter (owned root)).map Row.actual := by
  rw [managedSwaps, ← List.filterMap_eq_map, List.filterMap_filter]
  apply List.filterMap_congr
  intro row hRow
  rw [managedRow_eq start hNames row hRow]
  cases owned root row <;> rfl

theorem otherBytes_eq : otherBytes root start.toHost = total (unowned root start.active) := by
  have hFits := start.fits
  have hPart : total (unowned root start.active) ≤ total start.active :=
    (List.filter_sublist.map Row.sizeBytes).sum_le_sum (fun _ _ => Nat.zero_le _)
  rw [otherBytes, otherSwaps_eq start hNames]
  exact Nat.mod_eq_of_lt (by omega)

end Kernels

----
-- Points of a Pass
----

section Points

variable (root : Path) (bound : Nat)

/- Enough swap at a point, and only own files as targets. -/
structure Event.Safe (event : Event) : Prop where
  enough : bound ≤ total event.active
  target : ∀ command ∈ event.command, managedPath root command.target = true

def PassState.Safe (state : PassState) : Prop := ∀ event ∈ state.events, event.Safe root bound

/- Exactly these swaps are active, and all was well so far. -/
structure Holding (swaps : List ActiveSwap) (state : PassState) : Prop where
  safe : state.Safe root bound
  active : (state.host.active.map Row.actual).Perm swaps
  once : (swaps.map ActiveSwap.path).Nodup

end Points

section Points

variable {root : Path} {bound : Nat}

variable {state : PassState} {command : Option Command} {host : Host} {swaps : List ActiveSwap}

theorem PassState.Safe.after (hSafe : state.Safe root bound) (hEnough : bound ≤ total host.active)
    (hTarget : ∀ c ∈ command, managedPath root c.target) :
    (state.after command host).Safe root bound := by
  intro event hEvent
  rcases List.mem_append.mp hEvent with hOld | hNew
  · exact hSafe event hOld
  · rw [List.mem_singleton] at hNew
    subst hNew
    exact ⟨hEnough, hTarget⟩

theorem Holding.total (hHolding : Holding root bound swaps state) :
    total state.host.active = sizes swaps := by
  rw [← sizes_actual]
  exact (hHolding.active.map _).sum_eq

/- Enough swap was and is active. -/
def Enough (root : Path) (bound : Nat) (state : PassState) : Prop :=
  state.Safe root bound ∧ bound ≤ Memory.total state.host.active

section

variable (hHolding : Holding root bound swaps state) (hEnough : bound ≤ sizes swaps)

include hHolding hEnough

theorem Holding.enough : Enough root bound state :=
  ⟨hHolding.safe, hEnough.trans_eq hHolding.total.symm⟩

/- A step that leaves the active swap as it is. -/
theorem Holding.after
    (hTarget : ∀ c ∈ command, managedPath root c.target)
    (hActive : host.active = state.host.active) :
    Holding root bound swaps (state.after command host) := by
  refine ⟨hHolding.safe.after ?_ hTarget, ?_, hHolding.once⟩
  · rw [hActive, hHolding.total]
    exact hEnough
  · rw [PassState.after, hActive]
    exact hHolding.active

end

theorem Holding.of_perm {swaps others : List ActiveSwap}
    (hHolding : Holding root bound swaps state) (hPerm : swaps.Perm others) :
    Holding root bound others state where
  safe := hHolding.safe
  active := hHolding.active.trans hPerm
  once := (hPerm.map _).nodup_iff.mp hHolding.once

theorem Holding.isActive_iff (hHolding : Holding root bound swaps state) (path : Path) :
    state.host.isActive path ↔ path ∈ swaps.map ActiveSwap.path := by
  rw [← (hHolding.active.map ActiveSwap.path).mem_iff]
  simp [Host.isActive, Row.actual]

/- A swap that was not active is, after it is added. -/
theorem Holding.add (hHolding : Holding root bound swaps state) (hEnough : bound ≤ sizes swaps)
    (hTarget : ∀ c ∈ command, managedPath root c.target) {row : Row}
    (hActive : host.active = state.host.active ++ [row])
    (hNew : state.host.isActive row.path = false) :
    Holding root bound (swaps ++ [row.actual]) (state.after command host) := by
  have hTotal : Memory.total host.active = sizes swaps + row.sizeBytes := by
    rw [hActive, ← hHolding.total]
    simp [Memory.total]
  refine ⟨hHolding.safe.after (by omega) hTarget, ?_, ?_⟩
  · rw [PassState.after, hActive, List.map_append]
    exact hHolding.active.append_right _
  · rw [List.map_append, List.nodup_append]
    refine ⟨hHolding.once, List.nodup_singleton _, ?_⟩
    intro path hPath _ hOther hSame
    have hSwap := (hHolding.isActive_iff path).mpr hPath
    rw [List.map_singleton, List.mem_singleton] at hOther
    rw [hSame, hOther] at hSwap
    exact Bool.eq_false_iff.mp hNew hSwap

/- A swap that is taken out leaves all the others. -/
theorem Holding.remove {stay rest : List ActiveSwap} {old : ActiveSwap}
    (hHolding : Holding root bound (stay ++ old :: rest) state)
    (hEnough : bound ≤ sizes (stay ++ rest))
    (hTarget : ∀ c ∈ command, managedPath root c.target)
    (hActive : host.active = state.host.active.filter (fun row => row.path ≠ old.path)) :
    Holding root bound (stay ++ rest) (state.after command host) := by
  have hOnce := hHolding.once
  have hPerm : (stay ++ old :: rest).Perm (old :: (stay ++ rest)) := List.perm_middle
  rw [(hPerm.map _).nodup_iff, List.map_cons, List.nodup_cons] at hOnce
  have hOthers :
      (old :: (stay ++ rest)).filter (fun swap => swap.path ≠ old.path) = stay ++ rest := by
    rw [List.filter_cons_of_neg (by simp), List.filter_eq_self]
    intro _ hSwap
    simp only [ne_eq, decide_not, Bool.not_eq_true', decide_eq_false_iff_not]
    intro hSame
    apply hOnce.1
    rw [← hSame]
    exact List.mem_map_of_mem hSwap
  have hLeft : (host.active.map Row.actual).Perm (stay ++ rest) := by
    have hFiltered :=
      (hHolding.active.trans hPerm).filter (fun swap => decide (swap.path ≠ old.path))
    rw [hOthers, List.filter_map] at hFiltered
    rw [hActive]
    exact hFiltered
  refine ⟨hHolding.safe.after ?_ hTarget, hLeft, hOnce.2⟩
  rw [← sizes_actual]
  exact hEnough.trans_eq (hLeft.map _).sum_eq.symm

end Points

----
-- Steps
----

section Steps

variable
  (world : Surroundings)
  (header : Nat)
  {root : Path}
  {bound : Nat}

variable {effect : Host → Option Host} {failure : String → Wait} {command : Option Command}

/- A step that fails may have taken effect, if it runs a command. -/
theorem perform_holds {P Q E : PassState → Prop}
    (hDone : ∀ state host, P state → effect state.host = some host → Q (state.after command host))
    (hFailed : ∀ state, P state → E (state.after command state.host))
    (hLanded : ∀ state host, P state → command.isSome → effect state.host = some host →
        E (state.after command host)) :
    Job.Holds P (perform world command effect failure) (fun _ => Q) E := by
  apply Job.Triple.bind_read
  intro _
  apply Job.Triple.bind (M := fun done state => if done then Q state else E state)
  · rintro state ⟨hState, _⟩
    simp only [attempt]
    cases hEffect : effect state.host with
    | none =>
      have hOut := hFailed state hState
      split_ifs <;> exact hOut
    | some host =>
      split_ifs with _ hLost
      · exact hDone state host hState hEffect
      · rw [Bool.and_eq_true] at hLost
        exact hLanded state host hState hLost.1 hEffect
      · exact hFailed state hState
  · intro done
    cases done with
    | true | false => exact fun state hState => hState

theorem targets_none : ∀ c ∈ (none : Option Command), managedPath root c.target := by
  intro _ hCommand
  cases hCommand

theorem targets_some (command : Command) (hTarget : managedPath root command.target) :
    ∀ c ∈ some command, managedPath root c.target := by
  intro _ hCommand
  rw [← Option.some.inj hCommand]
  exact hTarget

/- These swaps are active, and a fact about the files. -/
def Ready (root : Path) (bound : Nat) (swaps : List ActiveSwap)
    (fact : Host → Prop) (state : PassState) : Prop :=
  Holding root bound swaps state ∧ fact state.host

variable {swaps : List ActiveSwap}

/- A step on files, which changes no active swap. -/
theorem perform_keeps (hEnough : bound ≤ sizes swaps)
    (hTarget : ∀ c ∈ command, managedPath root c.target) (before after : Host → Prop)
    (hEffect : ∀ host next, before host → effect host = some next →
        next.active = host.active ∧ after next) : Job.Holds (Ready root bound swaps before)
      (perform world command effect failure)
      (fun _ => Ready root bound swaps after)
      (Enough root bound) := by
  apply perform_holds
  · intro state host hState hHost
    have hNext := hEffect state.host host hState.2 hHost
    exact ⟨hState.1.after hEnough hTarget hNext.1, hNext.2⟩
  · intro _ hState
    exact (hState.1.after hEnough hTarget rfl).enough hEnough
  · intro state host hState _ hHost
    have hNext := hEffect state.host host hState.2 hHost
    exact (hState.1.after hEnough hTarget hNext.1).enough hEnough

variable (path : Path)

theorem active_unlink {refuses : Host → Path → Bool} (host next : Host)
    (hNext : host.unlink refuses path = some next) :
    next.active = host.active := by
  unfold Host.unlink at hNext
  split at hNext
  · cases hNext
    rfl
  · cases hNext

/- Removing a file keeps what depends on the active swap. -/
theorem removeQuietly_keeps {I E : PassState → Prop}
    (hKeep : ∀ state host, I state → host.active = state.host.active → I (state.after none host))
    (path : Path) : Job.Holds I (removeQuietly world path) (fun _ => I) E := by
  apply Job.Holds.ignore
  apply perform_holds
  · intro state host hState hHost
    exact hKeep state host hState (active_unlink path state.host host hHost)
  · intro state hState
    exact hKeep state state.host hState rfl
  · intro _ _ _ hCommand
    cases hCommand

variable {E : PassState → Prop}

theorem removeQuietly_enough :
    Job.Holds (Enough root bound) (removeQuietly world path) (fun _ => Enough root bound) E := by
  apply removeQuietly_keeps
  rintro _ _ ⟨hSafe, hTotal⟩ hActive
  rw [← hActive] at hTotal
  exact ⟨hSafe.after hTotal targets_none, hTotal⟩

theorem removeInactiveSwapFiles_holds (hEnough : bound ≤ sizes swaps) (active : List Path) :
    Job.Holds (Holding root bound swaps)
    (removeInactiveSwapFiles world root active) (fun _ => Holding root bound swaps) E := by
  apply Job.Triple.bind_read
  intro _
  apply Job.Triple.mono (P := Holding root bound swaps) (Q := fun _ => Holding root bound swaps)
  · exact Job.Triple.forEach (I := fun _ => Holding root bound swaps)
      (fun path _ => removeQuietly_keeps world
        (fun state host hState hActive => hState.after hEnough targets_none hActive) path) _
  · exact fun state hState => hState.1
  · exact fun _ state hState => hState

----
-- Activation
----

theorem allocate_spec (bytes : Nat) (host next : Host)
    (hNext : host.allocate path bytes = some next) : next.active = host.active ∧
      next.fileBytes path = some bytes := by
  unfold Host.allocate at hNext
  split at hNext
  · cases hNext
    exact ⟨rfl, by simp [Host.fileBytes]⟩
  · cases hNext

theorem makeSwap_spec (host next : Host) (hNext : host.makeSwap path = some next) :
    next = host := by
  unfold Host.makeSwap at hNext
  split at hNext
  · exact (Option.some.inj hNext).symm
  · cases hNext

theorem rename_spec {refuses : Host → Path → Bool} (source target : Path) (bytes : Nat)
    (host next : Host) (hBytes : host.fileBytes source = some bytes)
    (hNext : host.rename refuses source target = some next) :
    next.active = host.active ∧ next.fileBytes target = some bytes := by
  unfold Host.rename at hNext
  rw [hBytes] at hNext
  simp only at hNext
  split at hNext
  · cases hNext
  · cases hNext
    exact ⟨rfl, by simp [Host.fileBytes]⟩

theorem create_spec (host next : Host) (hNext : host.create path = some next) :
    next.active = host.active := by
  unfold Host.create at hNext
  split at hNext
  · cases hNext
  · cases hNext
    rfl

theorem swapOn_spec (usable : Nat) (host next : Host)
    (hBytes : host.fileBytes path = some (usable + header))
    (hNext : host.swapOn header path = some next) : host.isActive path = false ∧ next.active =
        host.active ++ [{ path := path, listed := path, sizeBytes := usable, usedBytes := 0 }] := by
  unfold Host.swapOn at hNext
  rw [hBytes] at hNext
  simp only [Nat.add_sub_cancel] at hNext
  split at hNext
  · cases hNext
  · rename_i hFree
    cases hNext
    exact ⟨Bool.eq_false_iff.mpr hFree, rfl⟩

/- The new file is active with the bytes asked for. -/
theorem makeSwapFile_holds (hEnough : bound ≤ sizes swaps)
    (temporary target : Path) (hTemporary : managedPath root temporary)
    (hTarget : managedPath root target) (usable : Nat) : Job.Holds (Holding root bound swaps)
      (makeSwapFile world header temporary target (usable + header))
      (fun _ =>
        Holding root bound
          (swaps ++ [{ path := target, sizeBytes := usable, usedBytes := 0 }]))
      (Enough root bound) := by
  let holds (path : Path) (host : Host) : Prop := host.fileBytes path = some (usable + header)
  unfold makeSwapFile
  apply Job.Triple.mono (P := Ready root bound swaps (fun _ => True))
    (Q := fun _ => Holding root bound (swaps ++ _))
  · apply Job.Triple.bind
      (perform_keeps world hEnough targets_none _ (fun _ => True)
        (fun host next _ hNext => ⟨create_spec temporary host next hNext, trivial⟩))
    intro _
    apply Job.Triple.bind
      (perform_keeps world hEnough (targets_some _ hTemporary) _ (holds temporary)
        (fun host next _ hNext => allocate_spec temporary _ host next hNext))
    intro _
    apply Job.Triple.bind
      (perform_keeps world hEnough (targets_some _ hTemporary) (holds temporary) (holds temporary)
        (by
          intro host next hBytes hNext
          rw [makeSwap_spec temporary host next hNext]
          exact ⟨rfl, hBytes⟩))
    intro _
    apply Job.Triple.bind
      (perform_keeps world hEnough targets_none (holds temporary) (holds target)
        (fun host next hBytes hNext => rename_spec temporary target _ host next hBytes hNext))
    intro _
    apply Job.Triple.bind
      (perform_keeps world hEnough targets_none (holds target) (holds target) (by
          intro _ _ hBytes hNext
          rw [← Option.some.inj hNext]
          exact ⟨rfl, hBytes⟩))
    intro _
    apply perform_holds
    · intro state host hState hHost
      have hNext := swapOn_spec header target usable state.host host hState.2 hHost
      exact hState.1.add hEnough (targets_some (.swapon target) hTarget) hNext.2 hNext.1
    · intro _ hState
      exact (hState.1.after hEnough (targets_some (.swapon target) hTarget) rfl).enough hEnough
    · intro state host hState _ hHost
      have hNext := swapOn_spec header target usable state.host host hState.2 hHost
      refine (hState.1.add hEnough (targets_some (.swapon target) hTarget)
        hNext.2 hNext.1).enough ?_
      rw [sizes_append]
      omega
  · exact fun state hState => ⟨hState, trivial⟩
  · exact fun _ state hState => hState

variable {P : PassState → Prop}

theorem requireSpace_holds (fileBytes : Nat) :
    Job.Holds P (requireSpace world fileBytes) (fun _ => P) P := by
  apply Job.Triple.bind_read
  rintro ⟨_ | _, _⟩
  · exact Job.Triple.fail (fun state hState => hState.1)
  · exact Job.Triple.require (fun state hState _ => hState.1) (fun state hState => hState.1)

theorem activateSwapFile_holds (hEnough : bound ≤ sizes swaps) (usable : Nat) :
    Job.Holds (Holding root bound swaps) (activateSwapFile world header root usable)
    (fun swap state => swap.sizeBytes = usable ∧ Holding root bound (swaps ++ [swap]) state)
    (PassState.Safe root bound) := by
  apply Job.Triple.bind ((requireSpace_holds world _).weaken (fun state hState => hState.safe))
  intro _
  apply Job.Triple.bind_read
  intro id
  apply Job.Triple.bind
    (M := fun _ =>
      Holding root bound
        (swaps ++ [{ path := root ++ [imageName id], sizeBytes := usable, usedBytes := 0 }]))
  · apply Job.Holds.orUndo (R := Enough root bound)
    · apply Job.Triple.mono (makeSwapFile_holds world header hEnough (root ++ [temporaryName id])
          (root ++ [imageName id]) (managedPath_temporary root id)
          (managedPath_image root id) usable)
      · exact fun state hState => hState.1
      · exact fun _ state hState => hState
    · apply Job.Triple.bind (removeQuietly_enough world _)
      intro _
      apply Job.Triple.mono (removeQuietly_enough world _) (fun state hState => hState)
      exact fun _ state hState => hState.1
  · intro _
    exact Job.Triple.pure (fun state hState => ⟨rfl, hState⟩)

----
-- Release
----

theorem requireMemory_holds (old : ActiveSwap) :
    Job.Holds P (requireMemory world old) (fun _ => P) P := by
  apply Job.Triple.bind_read
  intro found
  -- Said for any condition, so that the one of the source,
  -- with its large numbers, is never evaluated.
  have hRequire (condition : Bool) (failure : Wait) :
      Job.Holds (fun state => P state ∧ world.memAvailable state.time = found)
      (Job.require condition failure) (fun _ => P) P :=
    Job.Triple.require (fun state hState _ => hState.1) (fun state hState => hState.1)
  cases found with
  | none => exact Job.Triple.fail (fun state hState => hState.1)
  | some => exact hRequire _ _

theorem swapOff_spec (host next : Host) (hNext : host.swapOff path = some next) :
    next.active = host.active.filter (fun row => row.path ≠ path) := by
  unfold Host.swapOff at hNext
  split at hNext
  · cases hNext
    rfl
  · cases hNext

/- Only the file that is released goes. -/
theorem releaseSwapFile_holds
    {stay rest : List ActiveSwap}
    (hEnough : bound ≤ sizes stay)
    (old : ActiveSwap)
    (hOld : managedPath root old.path) :
    Job.Holds (Holding root bound (stay ++ old :: rest))
      (releaseSwapFile world header old)
      (fun _ => Holding root bound (stay ++ rest))
      (PassState.Safe root bound) := by
  have hBefore : bound ≤ sizes (stay ++ old :: rest) := by
    rw [sizes_append]
    omega
  have hAfter : bound ≤ sizes (stay ++ rest) := by
    rw [sizes_append]
    omega
  apply Job.Triple.bind ((requireMemory_holds world old).weaken (fun state hState => hState.safe))
  intro _
  apply Job.Triple.bind (M := fun _ => Holding root bound (stay ++ rest))
  · apply perform_holds
    · intro state host hState hHost
      exact hState.remove hAfter (targets_some (.swapoff old.path) hOld)
        (swapOff_spec old.path state.host host hHost)
    · intro _ hState
      exact (hState.after hBefore (targets_some (.swapoff old.path) hOld) rfl).safe
    · intro state host hState _ hHost
      exact (hState.remove hAfter (targets_some (.swapoff old.path) hOld)
          (swapOff_spec old.path state.host host hHost)).safe
  intro _
  apply perform_holds
  · intro state host hState hHost
    exact hState.after hAfter targets_none (active_unlink old.path state.host host hHost)
  · intro _ hState
    exact (hState.after hAfter targets_none rfl).safe
  · intro _ _ _ hCommand
    cases hCommand

theorem release_holds {stay : List ActiveSwap} (hEnough : bound ≤ sizes stay)
    (release : List ActiveSwap) (hRelease : ∀ old ∈ release, managedPath root old.path) :
    Job.Holds (Holding root bound (stay ++ release))
    (Job.forEach (releaseSwapFile world header) release) (fun _ => Holding root bound stay)
    (PassState.Safe root bound) := by
  induction release with
  | nil =>
    rw [List.append_nil]
    exact Job.Triple.pure (fun state hState => hState)
  | cons old _ ih =>
    apply Job.Triple.bind
      (releaseSwapFile_holds world header hEnough old (hRelease old List.mem_cons_self))
    intro _
    exact ih (fun later hLater => hRelease later (List.mem_cons_of_mem _ hLater))

end Steps

----
-- The Plan
----

/- What is found and what is left make up the list. -/
theorem perm_find?_eraseP {α : Type} (picked : α → Bool) (items : List α) :
    items.Perm ((items.find? picked).toList ++ items.eraseP picked) := by
  induction items with
  | nil => exact List.Perm.refl _
  | cons item _ ih =>
    cases hPicked : picked item with
    | true =>
      rw [List.find?_cons_of_pos hPicked, List.eraseP_cons_of_pos hPicked]
      exact List.Perm.refl _
    | false =>
      rw [List.find?_cons_of_neg (by simp [hPicked]), List.eraseP_cons_of_neg (by simp [hPicked])]
      exact (ih.cons item).trans List.perm_middle.symm

/- If only the swap of others is active, none is owned. -/
theorem owned_of_perm {root : Path} (start : Kernel root) {rows : List Row}
    (hActive : (rows.map Row.actual).Perm ((unowned root start.active).map Row.actual)) (row : Row)
    (hRow : row ∈ rows) : owned root row = false := by
  have hOther := hActive.mem_iff.mp (List.mem_map_of_mem hRow)
  rcases List.mem_map.mp hOther with ⟨other, hMem, hSame⟩
  have hPath : other.path = row.path := congrArg ActiveSwap.path hSame
  have hUnowned := (List.mem_filter.mp hMem).2
  rw [owned, ← hPath]
  exact Bool.not_eq_eq_eq_not.mp hUnowned

/- The file that stays beside the swap of others. -/
structure Kept (root : Path) (sizeGib : Nat) (start : Kernel root)
    (kept : Option ActiveSwap) : Prop where
  close : ∀ swap ∈ kept, closeEnough (usableBytes root sizeGib start.toHost) swap = true
  needed : kept = none → usableBytes root sizeGib start.toHost = 0

section Plans

variable
  {root : Path}
  (sizeGib : Nat)
  (start : Kernel root)

/- What the helper does not own. -/
def others : List ActiveSwap := (unowned root start.active).map Row.actual

def thePlan : Plan := planFor root sizeGib start.toHost

theorem usableBytes_thePlan : (thePlan sizeGib start).usableBytes =
    usableBytes root sizeGib start.toHost := by simp only [thePlan, planFor]

/- The swap at the start, as the plan sorts it. -/
theorem plan_perm (hNames : NamesOwn root start.toHost) : (start.active.map Row.actual).Perm
    (others start ++ ((thePlan sizeGib start).keep.toList ++ (thePlan sizeGib start).release)) := by
  have hParts : (start.active.filter (owned root) ++ unowned root start.active).Perm start.active :=
    List.filter_append_perm _ _
  have hSorted :
      (start.active.map Row.actual).Perm (others start ++ managedSwaps root start.toHost) := by
    rw [managedSwaps_eq start hNames, others, ← List.map_append]
    exact ((List.perm_append_comm.trans hParts).map _).symm
  exact hSorted.trans ((perm_find?_eraseP _ _).append_left _)

/- Whatever is released is one of the helper's files. -/
theorem managedPath_of_release (old : ActiveSwap) (hOld : old ∈ (thePlan sizeGib start).release) :
    managedPath root old.path := by
  have hManaged : old ∈ managedSwaps root start.toHost := List.mem_of_mem_eraseP hOld
  rcases List.mem_filterMap.mp hManaged with ⟨_, _, hRow⟩
  rcases Option.map_eq_some_iff.mp hRow with ⟨_, hPath, rfl⟩
  rcases managedRow_spec _ _ _ _ hPath with ⟨name, rfl, _, hName⟩
  exact managedPath_append root name hName

/- The swap of others and the file kept reach the total. -/
theorem Kept.reaches (hNames : NamesOwn root start.toHost)
    {kept : Option ActiveSwap} (hKept : Kept root sizeGib start kept) :
    desiredBytes sizeGib < sizes (others start ++ kept.toList) + toleranceBytes ∧
    (sizes (others start ++ kept.toList) < desiredBytes sizeGib + toleranceBytes ∨ kept = none) :=
    by
  have hOthers : otherBytes root start.toHost = sizes (others start) := by
    rw [otherBytes_eq start hNames, others, sizes_actual]
  have hTolerance : 0 < toleranceBytes := by decide
  rw [sizes_append]
  cases hSwap : kept with
  | none =>
    have hNone := hKept.needed hSwap
    simp only [usableBytes, hOthers] at hNone
    refine ⟨?_, Or.inr rfl⟩
    split at hNone <;> omega
  | some swap =>
    have hClose := hKept.close swap hSwap
    have hSize : sizes (some swap).toList = swap.sizeBytes := by simp [sizes]
    simp only [closeEnough, usableBytes, hOthers, absDiff, decide_eq_true_eq] at hClose
    rw [hSize]
    revert hClose
    split
    · omega
    · split <;> omega

end Plans

----
-- The Pass
----

section Passes

variable
  (world : Surroundings)
  (header : Nat)
  {root : Path}
  {bound : Nat}
  (sizeGib : Nat)
  (start : Kernel root)

theorem planSwap_holds (hNames : NamesOwn root start.toHost) (hBound : bound ≤ total start.active) :
    Job.Holds (fun state => state = PassState.start start.toHost) (planSwap world root sizeGib)
    (fun plan state => plan = thePlan sizeGib start ∧ Holding root bound (others start ++
      ((thePlan sizeGib start).keep.toList ++ (thePlan sizeGib start).release)) state)
    (PassState.Safe root bound) := by
  have hFirst : (PassState.start start.toHost).Safe root bound := by
    intro _ hEvent
    cases hEvent
  apply Job.Triple.bind (M := fun _ state => state.host = start.toHost ∧ state.Safe root bound)
  · apply perform_holds
    · intro _ _ hState hHost
      subst hState
      rw [← Option.some.inj hHost]
      exact ⟨rfl, hFirst.after hBound targets_none⟩
    · intro _ hState
      subst hState
      exact hFirst.after hBound targets_none
    · intro _ _ _ hCommand
      cases hCommand
  intro _
  apply Job.Triple.bind_read
  intro _
  apply Job.Triple.pure
  rintro _ ⟨⟨hHost, hSafe⟩, rfl⟩
  refine ⟨by rw [hHost]; rfl, hSafe, ?_, ?_⟩
  · rw [hHost]
    exact plan_perm sizeGib start hNames
  · have hOnce := start.once
    rw [← ((plan_perm sizeGib start hNames).map ActiveSwap.path).nodup_iff, List.map_map]
    exact hOnce

theorem keepOrActivate_holds
    (hEnough : bound ≤ sizes (others start ++
        ((thePlan sizeGib start).keep.toList ++ (thePlan sizeGib start).release))) : Job.Holds
      (Holding root bound
        (others start ++ ((thePlan sizeGib start).keep.toList ++ (thePlan sizeGib start).release)))
      (keepOrActivate world header root (thePlan sizeGib start))
      (fun kept state => Kept root sizeGib start kept ∧
          Holding root bound (others start ++ kept.toList ++ (thePlan sizeGib start).release) state)
      (PassState.Safe root bound) := by
  unfold keepOrActivate
  cases hKeep : (thePlan sizeGib start).keep with
  | some =>
    apply Job.Triple.pure
    intro _ hState
    refine ⟨⟨?_, by simp⟩, ?_⟩
    · intro _ hOther
      rw [← Option.some.inj hOther]
      exact List.find?_some hKeep
    · rw [List.append_assoc]
      exact hState
  | none =>
    by_cases hNeeded : 0 < (thePlan sizeGib start).usableBytes
    · rw [if_pos hNeeded]
      rw [hKeep] at hEnough
      apply Job.Triple.bind (activateSwapFile_holds world header hEnough _)
      intro _
      apply Job.Triple.pure
      rintro _ ⟨hSize, hState⟩
      refine ⟨⟨?_, by simp⟩, ?_⟩
      · intro _ hOther
        have hTolerance : 0 < toleranceBytes := by decide
        rw [usableBytes_thePlan] at hNeeded hSize
        rw [← Option.some.inj hOther, closeEnough, decide_eq_true_eq, hSize, absDiff,
          if_pos (Nat.le_refl _), Nat.sub_self]
        exact ⟨hNeeded, hTolerance⟩
      · apply hState.of_perm
        simp only [Option.toList_none, List.nil_append, Option.toList_some, List.append_assoc]
        exact List.perm_append_comm.append_left _
    · rw [if_neg hNeeded]
      apply Job.Triple.pure
      intro _ hState
      refine ⟨⟨by simp, fun _ => ?_⟩, ?_⟩
      · rw [← usableBytes_thePlan]
        exact Nat.eq_zero_of_not_pos hNeeded
      · rw [List.append_assoc]
        exact hState

/- What is active once a pass has succeeded. -/
theorem convergeSwap_holds
    (hNames : NamesOwn root start.toHost)
    (hTotal : bound ≤ total start.active)
    (hDesired : bound ≤ desiredBytes sizeGib - toleranceBytes) :
    Job.Holds (fun state => state = PassState.start start.toHost)
      (convergeSwap world header root sizeGib)
      (fun _ state =>
         ∃ kept,
           Kept root sizeGib start kept ∧
           Holding root bound (others start ++ kept.toList) state)
      (PassState.Safe root bound) := by
  have hEnough : bound ≤ sizes (others start ++
        ((thePlan sizeGib start).keep.toList ++ (thePlan sizeGib start).release)) := by
    rw [← sizes_actual] at hTotal
    exact hTotal.trans_eq ((plan_perm sizeGib start hNames).map _).sum_eq
  apply Job.Triple.bind (planSwap_holds world sizeGib start hNames hTotal)
  intro plan
  apply Job.Triple.at_state
  rintro state ⟨rfl, hState⟩
  apply Job.Triple.mono (P := Holding root bound
      (others start ++ ((thePlan sizeGib start).keep.toList ++ (thePlan sizeGib start).release)))
    (Q := fun _ state => ∃ kept, Kept root sizeGib start kept ∧
      Holding root bound (others start ++ kept.toList) state)
  · apply Job.Triple.bind (removeInactiveSwapFiles_holds world hEnough _)
    intro _
    apply Job.Triple.bind (keepOrActivate_holds world header sizeGib start hEnough)
    intro kept
    apply Job.Triple.at_state
    rintro _ ⟨hKept, hNext⟩
    have hReaches := (hKept.reaches sizeGib start hNames).1
    have hStay : bound ≤ sizes (others start ++ kept.toList) := by omega
    apply Job.Triple.bind (M := fun _ => Holding root bound (others start ++ kept.toList))
    · apply Job.Triple.mono (release_holds world header hStay (thePlan sizeGib start).release
          (managedPath_of_release sizeGib start))
      · rintro _ rfl
        exact hNext
      · exact fun _ last hLast => hLast
    · intro _
      exact Job.Triple.pure (fun last hLast => ⟨kept, hKept, hLast⟩)
  · rintro _ rfl
    exact hState
  · exact fun _ last hLast => hLast

/-
  No point of a pass has less swap than before it and less than the desired total but for the
  tolerance, and only own files are targets. A pass that succeeds reaches the total, or leaves just
  the swap of others, which is enough.
-/
theorem swap_pass_never_leaves_less
    (hNames : NamesOwn root start.toHost) :
    let outcome := convergeSwap world header root sizeGib (PassState.start start.toHost)
    (∀ event ∈ outcome.2.events,
       min
         (total start.active) (desiredBytes sizeGib - toleranceBytes) ≤
         total event.active ∧
       ∀ command ∈ event.command,
         managedPath root command.target = true) ∧
    (outcome.1.isOk = true →
     (desiredBytes sizeGib ≤
        total outcome.2.host.active + toleranceBytes ∧
      total outcome.2.host.active ≤
        desiredBytes sizeGib + toleranceBytes) ∨
     (desiredBytes sizeGib <
        total (unowned root start.active) + toleranceBytes ∧
      ∀ row ∈ outcome.2.host.active, owned root row = false)) := by
  have hPass := convergeSwap_holds world header sizeGib start hNames
    (Nat.min_le_left (total start.active) (desiredBytes sizeGib - toleranceBytes))
    (Nat.min_le_right _ _) (PassState.start start.toHost) rfl
  revert hPass
  cases convergeSwap world header root sizeGib (PassState.start start.toHost) with
  | mk ending =>
    cases ending with
    | error =>
      intro hSafe
      refine ⟨fun event hEvent => ?_, fun hOk => ?_⟩
      · exact ⟨(hSafe event hEvent).enough, (hSafe event hEvent).target⟩
      · cases hOk
    | ok =>
      rintro ⟨_, hKept, hState⟩
      refine ⟨fun event hEvent => ?_, fun _ => ?_⟩
      · exact ⟨(hState.safe event hEvent).enough, (hState.safe event hEvent).target⟩
      · have hReaches := hKept.reaches sizeGib start hNames
        rcases hReaches.2 with _ | hNone
        · apply Or.inl
          simp only [hState.total]
          omega
        · apply Or.inr
          subst hNone
          have hActive := hState.active
          simp only [Option.toList_none, List.append_nil] at hActive hReaches
          rw [others, sizes_actual] at hReaches
          refine ⟨hReaches.1, fun row hRow => ?_⟩
          exact owned_of_perm start hActive row hRow

end Passes

----
-- Two Hosts
----

def helperRoot : Path := ["var", "lib", "helper", "swap"]

def zeroUuid : Uuid where
  text := "00000000-0000-0000-0000-000000000000".toList
  canonical := by decide

def otherUuid : Uuid where
  text := "00000000-0000-0000-0000-000000000001".toList
  canonical := by decide

/- A host on which nothing fails. -/
def calm : Surroundings where
  refuses := Host.isActive
  succeeds := fun _ => true
  cause := fun _ => ""
  memAvailable := fun _ => some (100 * gib)
  space := fun _ => some ⟨4000 * gib, 800 * gib⟩
  uuid := fun _ => otherUuid

def swapAt (path : Path) (sizeGib : Nat) : Row where
  path := path
  listed := path
  sizeBytes := sizeGib * gib
  usedBytes := 0

/- The swap of the system and one managed file. -/
def managedHost : Kernel helperRoot where
  active := [swapAt ["swap.img"] 16, swapAt (helperRoot ++ [imageName zeroUuid]) 48]
  files := [⟨helperRoot ++ [imageName zeroUuid], 48 * gib + 4096⟩]
  once := by decide +kernel
  named := by decide +kernel
  present := by decide +kernel
  fits := by decide +kernel

/- A copy elsewhere, active under the name of that file. -/
def namesakeHost : Kernel helperRoot where
  active := [swapAt ["swap.img"] 16, swapAt (helperRoot ++ [imageName zeroUuid]) 48,
      swapAt ["mnt", imageName zeroUuid] 1]
  files := [⟨helperRoot ++ [imageName zeroUuid], 48 * gib + 4096⟩]
  once := by decide +kernel
  named := by decide +kernel
  present := by decide +kernel
  fits := by decide +kernel

/-
  The copy is planned for release under the path of the file to be kept, which goes in its place.
-/
theorem namesake_takes_the_kept_file :
    let outcome := convergeSwap calm 4096 helperRoot 64 (PassState.start namesakeHost.toHost)
    outcome.1.isOk = true ∧
    total outcome.2.host.active = 17 * gib ∧
    ∃ event ∈ outcome.2.events,
      total event.active <
        min (total namesakeHost.active)
          (desiredBytes 64 - toleranceBytes) := by
  decide +kernel

/- A pass that grows the swap reaches its total without a dip. -/
theorem growth_reaches_the_total :
    NamesOwn helperRoot managedHost.toHost ∧
    total
      (convergeSwap calm 4096 helperRoot 96
         (PassState.start managedHost.toHost)).2.host.active =
      96 * gib ∧
    ∀ event ∈
      (convergeSwap calm 4096 helperRoot 96
         (PassState.start managedHost.toHost)).2.events,
      min
        (total managedHost.active) (desiredBytes 96 - toleranceBytes) ≤
        total event.active := by
  have hNames : NamesOwn helperRoot managedHost.toHost := by
    have hAll : ∀ row ∈ managedHost.active,
        (managedRow helperRoot managedHost.toHost row.listed).all (fun path => row.path = path) =
        true := by decide +kernel
    intro row hRow _ hPath
    have hSame := hAll row hRow
    rw [hPath, Option.all_some, decide_eq_true_eq] at hSame
    exact hSame
  have hPass := swap_pass_never_leaves_less calm 4096 96 managedHost hNames
  refine ⟨hNames, by decide +kernel, ?_⟩
  intro event hEvent
  exact (hPass.1 event hEvent).1

end VonkForge.Memory
