import VonkForge.Foundations.Run

/-
  The byte budget of a tunnel (`tunnel_until` and `copy_until` of the egress proxy).

  Both directions of a tunnel count what they have read in one number, before they write it. A
  direction that comes over the budget ends there, so that at most one chunk of each direction is
  counted and not written. The threads take turns in any order.

  Main declarations:
    * `serve`
    * `tunnelMachine`
    * `Within.serve`
    * `tunnel_keeps_its_budget`
-/

----
-- Two Directions
----

namespace VonkForge.Egress

/- `MAX_TUNNEL_BYTES`. -/
def maxTunnelBytes : Nat := 16 * 1024 * 1024 * 1024

/- The buffer of `copy_until`. -/
def bufferBytes : Nat := 64 * 1024

def u64 : Nat := 2 ^ 64

inductive Side where
  | outbound
  | inbound
deriving DecidableEq

/- A call of `copy_until`, with what the writer has got so far. -/
structure Copier where
  ended : Bool
  copied : Nat
  pending : List UInt8
  written : List UInt8
deriving DecidableEq

/- What was counted and not refused. -/
def Copier.taken (copier : Copier) : Nat := copier.written.length + copier.pending.length

def Copier.stop (copier : Copier) : Copier := { copier with ended := true, pending := [] }

structure Tunnel where
  budget : Nat
  copiers : Side → Copier

/- A read or a write that returns, or anything that fails. -/
inductive TunnelInput where
  | read (side : Side) (chunk : List UInt8)
  | write (side : Side) (count : Nat)
  | fail (side : Side)

def TunnelInput.buffered : TunnelInput → Prop
  | .read _ chunk => chunk.length ≤ bufferBytes
  | _ => True

structure TunnelServed where
  tunnel : Tunnel
  -- The direction that the budget refused.
  refused : Option Side

namespace Tunnel

def begin : Tunnel := ⟨0, fun _ => ⟨false, 0, [], []⟩⟩

variable (tunnel : Tunnel) (side : Side) (copier : Copier)

def put : Tunnel := { tunnel with copiers := Function.update tunnel.copiers side copier }

/- `fetch_add` wraps around; the sum that is compared does not. -/
def count (chunk : List UInt8) : TunnelServed :=
  let total := tunnel.budget + chunk.length
  let counted := { tunnel with budget := total % u64 }
  let copied := { copier with copied := copier.copied + chunk.length }
  if u64 ≤ total ∨ maxTunnelBytes < total then ⟨counted.put side copied.stop, some side⟩
  else ⟨counted.put side { copied with pending := chunk }, none⟩

def serve : TunnelInput → TunnelServed
  | .read side chunk =>
    let copier := tunnel.copiers side
    if copier.ended ∨ copier.pending ≠ [] then ⟨tunnel, none⟩
    else if chunk = [] ∨ u64 ≤ copier.copied + chunk.length then ⟨tunnel.put side copier.stop, none⟩
    else tunnel.count side copier chunk
  | .write side count =>
    let copier := tunnel.copiers side
    if copier.ended ∨ copier.pending = [] then ⟨tunnel, none⟩
    else if count = 0 then ⟨tunnel.put side copier.stop, none⟩
    else
      let written := copier.written ++ copier.pending.take count
      ⟨tunnel.put side { copier with pending := copier.pending.drop count, written }, none⟩
  | .fail side => ⟨tunnel.put side (tunnel.copiers side).stop, none⟩

end Tunnel

def tunnelMachine : Machine Tunnel TunnelInput TunnelServed where
  answer := Tunnel.serve
  next := TunnelServed.tunnel

----
-- The Budget
----

namespace Tunnel

variable {tunnel : Tunnel} {side : Side} {copier : Copier}

def taken (tunnel : Tunnel) : Nat :=
  (tunnel.copiers .outbound).taken + (tunnel.copiers .inbound).taken

/- What a direction may have counted in vain. -/
def slack (copier : Copier) : Nat := if copier.ended then bufferBytes else 0

structure Within (tunnel : Tunnel) : Prop where
  taken_le : tunnel.taken ≤ tunnel.budget
  within : tunnel.taken ≤ maxTunnelBytes
  counted : tunnel.budget ≤
    tunnel.taken + slack (tunnel.copiers .outbound) + slack (tunnel.copiers .inbound)
  pending : ∀ side, (tunnel.copiers side).pending.length ≤ bufferBytes
  ended : ∀ side, (tunnel.copiers side).ended → (tunnel.copiers side).pending = []

theorem Within.begin : Within begin := by constructor <;> simp [Tunnel.begin, taken, Copier.taken]

section

variable (hWithin : Within tunnel)

include hWithin

theorem Within.no_wrap {chunk : List UInt8}
    (hChunk : chunk.length ≤ bufferBytes) : tunnel.budget + chunk.length < u64 := by
  have hCounted := hWithin.counted
  have hTaken := hWithin.within
  have hSlack (copier : Copier) : slack copier ≤ bufferBytes := by
    unfold slack
    split <;> omega
  have hOut := hSlack (tunnel.copiers .outbound)
  have hIn := hSlack (tunnel.copiers .inbound)
  simp only [bufferBytes, maxTunnelBytes, u64] at *
  omega

/- A direction changes, and the number by what it counted. -/
theorem Within.put {budget : Nat}
    (hTaken : copier.taken + tunnel.budget ≤ (tunnel.copiers side).taken + budget)
    (hLimit : copier.taken ≤ (tunnel.copiers side).taken ∨ budget ≤ maxTunnelBytes)
    (hCounted : budget + ((tunnel.copiers side).taken + slack (tunnel.copiers side)) ≤
      tunnel.budget + (copier.taken + slack copier))
    (hPending : copier.pending.length ≤ bufferBytes) (hEnded : copier.ended → copier.pending = []) :
    Within (Tunnel.put { tunnel with budget := budget } side copier) := by
  have hAll := hWithin.taken_le
  have hMost := hWithin.within
  have hBudget := hWithin.counted
  constructor
  · cases side <;> simp only [Tunnel.put, taken, Function.update_apply, reduceCtorEq, if_true,
      if_false] at * <;> omega
  · cases side <;> simp only [Tunnel.put, taken, Function.update_apply, reduceCtorEq, if_true,
      if_false] at * <;> omega
  · cases side <;> simp only [Tunnel.put, taken, Function.update_apply, reduceCtorEq, if_true,
      if_false] at * <;> omega
  · intro other
    simp only [Tunnel.put, Function.update_apply]
    split
    · exact hPending
    · exact hWithin.pending other
  · intro other
    simp only [Tunnel.put, Function.update_apply]
    split
    · exact hEnded
    · exact hWithin.ended other

theorem Within.stop (side : Side) : Within (tunnel.put side (tunnel.copiers side).stop) := by
  have hPending := hWithin.pending side
  refine hWithin.put ?_ (Or.inl ?_) ?_ (Nat.zero_le _) fun _ => rfl
  · simp [Copier.stop, Copier.taken]
  · simp [Copier.stop, Copier.taken]
  · simp only [Copier.stop, Copier.taken, slack, List.length_nil, if_true]
    cases hEnded : (tunnel.copiers side).ended with
    | true => simp [hWithin.ended side hEnded]
    | false => simpa using hPending

/- A step of either direction stays within the budget. -/
theorem Within.serve {input : TunnelInput} (hInput : input.buffered) :
    Within (tunnel.serve input).tunnel := by
  cases input with
  | read side chunk =>
    have hWrap := hWithin.no_wrap hInput
    simp only [Tunnel.serve, count, Nat.mod_eq_of_lt hWrap, not_le.mpr hWrap, false_or]
    split_ifs with hBusy hEnd hOver
    · exact hWithin
    · exact hWithin.stop side
    · have hOpen : (tunnel.copiers side).ended = false ∧ (tunnel.copiers side).pending = [] := by
        simpa using hBusy
      have hChunk : chunk.length ≤ bufferBytes := hInput
      refine hWithin.put ?_ (Or.inl ?_) ?_ (Nat.zero_le _) fun _ => rfl
      · simp [Copier.stop, Copier.taken, hOpen.2]
      · simp [Copier.stop, Copier.taken, hOpen.2]
      · simp [Copier.stop, Copier.taken, slack, hOpen]
        omega
    · have hOpen : (tunnel.copiers side).ended = false ∧ (tunnel.copiers side).pending = [] := by
        simpa using hBusy
      refine hWithin.put ?_ (Or.inr (not_lt.mp hOver)) ?_ hInput (by simp [hOpen.1])
      all_goals
        simp [Copier.taken, slack, hOpen]
        omega
  | write side =>
    simp only [Tunnel.serve]
    split_ifs with hIdle hZero
    · exact hWithin
    · exact hWithin.stop side
    · have hPending := hWithin.pending side
      refine hWithin.put ?_ (Or.inl ?_) ?_ ?_ ?_
      · simp [Copier.taken]
        omega
      · simp [Copier.taken]
        omega
      · simp [Copier.taken, slack]
        omega
      · simp
        omega
      · simp_all
  | fail side => exact hWithin.stop side

end

----
-- Refusals
----

/- What has ended writes no more. -/
theorem ended_serve {written : List UInt8} (input : TunnelInput)
    (hEnded : (tunnel.copiers side).ended ∧ (tunnel.copiers side).written = written) :
    ((tunnel.serve input).tunnel.copiers side).ended ∧
    ((tunnel.serve input).tunnel.copiers side).written = written := by
  cases input with
  | read other =>
    simp only [Tunnel.serve, count]
    split_ifs <;> by_cases hOther : side = other <;>
      simp_all [Tunnel.put, Copier.stop]
  | write other =>
    simp only [Tunnel.serve]
    split_ifs <;> by_cases hOther : side = other <;>
      simp_all [Tunnel.put, Copier.stop]
  | fail other =>
    simp only [Tunnel.serve]
    by_cases hOther : side = other <;> simp_all [Tunnel.put, Copier.stop]

theorem refused_serve {input : TunnelInput} (hRefused : (tunnel.serve input).refused = some side) :
    ((tunnel.serve input).tunnel.copiers side).ended ∧
    ((tunnel.serve input).tunnel.copiers side).written = (tunnel.copiers side).written := by
  cases input with
  | read other =>
    simp only [Tunnel.serve, count] at hRefused ⊢
    split_ifs at hRefused ⊢ with hBusy hEnd hOver
    obtain rfl : other = side := by simpa using hRefused
    simp [Tunnel.put, Copier.stop]
  | write =>
    simp only [Tunnel.serve] at hRefused
    split_ifs at hRefused
  | fail => cases hRefused

end Tunnel

/- What a direction has written after a run. -/
def written (inputs : List TunnelInput) (side : Side) : List UInt8 :=
  ((tunnelMachine.final .begin inputs).copiers side).written

/-
  Both directions of a tunnel together never pass its budget, and the side whose bytes would pass it
  is not written to any more.
-/
theorem tunnel_keeps_its_budget
    (inputs : List TunnelInput)
    (hBuffered : ∀ input ∈ inputs, input.buffered) :
    (written inputs .outbound).length
      + (written inputs .inbound).length ≤
      maxTunnelBytes ∧
    ∀ before input after side,
      inputs = before ++ input :: after →
      ((tunnelMachine.final .begin before).serve input).refused =
        some side →
      written inputs side = written before side := by
  constructor
  · have hWithin : Tunnel.Within (tunnelMachine.final .begin inputs) :=
      tunnelMachine.invariant (P := fun step => step.input.buffered)
      (fun _ _ hWithin hInput => hWithin.serve hInput) Tunnel.Within.begin fun step hStep =>
      hBuffered step.input (tunnelMachine.input_mem_of_mem_trace hStep)
    have hTaken := hWithin.within
    simp only [Tunnel.taken, Copier.taken] at hTaken
    unfold written
    omega
  · rintro before input after side rfl hRefused
    rw [written, Machine.final_append, Machine.final_cons]
    refine (tunnelMachine.final_of_absorbing (A := fun tunnel =>
      (tunnel.copiers side).ended = true ∧ (tunnel.copiers side).written = written before side)
      (fun _ input hEnded => Tunnel.ended_serve input hEnded) ?_ after).2
    exact Tunnel.refused_serve hRefused

/- A chunk that is written in two parts. -/
def partialWrites : List TunnelInput :=
  [.read .inbound [1, 2, 3], .write .inbound 2, .read .outbound [4], .write .inbound 1]

/- Writes that are taken in parts count what was taken. -/
theorem partial_writes_within :
    written partialWrites .inbound = [1, 2, 3] ∧
    (written partialWrites .outbound).length +
      (written partialWrites .inbound).length ≤
      maxTunnelBytes := by
  refine ⟨by decide +kernel, (tunnel_keeps_its_budget partialWrites ?_).1⟩
  simp [partialWrites, TunnelInput.buffered, bufferBytes]

end VonkForge.Egress
