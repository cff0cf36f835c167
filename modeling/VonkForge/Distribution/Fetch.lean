import VonkForge.Foundations.Run

/-
  Fetching one range of an object.

  A range is asked for until its bytes are written. Bytes are accepted into a buffer and written at
  their place; a write that does not finish gives them up, and the range goes on from where they
  started. The network, the disk and the clock are the inputs. The inactivity window shows as the
  errors it ends a wait with, and the wait between two attempts as the time until the next slot.

  Source: `fetch_range` and `write_accepted` of the agent's client, `ClientError::retryable`.

  Main declarations:
    * `ClientError.retryable`
    * `RangeTransfer.sound_serve`
    * `RangeTransfer.rank_serve`
    * `requests_are_bounded`
-/

namespace VonkForge.Distribution

----
-- Errors
----

/-
  What ends a call of the client. A transport error carries what `transport_retryable` makes of it,
  a refusal its status.
-/
inductive ClientError where
  | credentialRead
  | localIo
  | identity
  | transport (again : Bool)
  | controller (status : Nat)
  | stalled
  | retryable
  | unsettled (cause : String)
  | protocol
  | resultSuperseded
  | resultRejected (status : Nat)
  | pin
deriving DecidableEq

/- `ControllerError::retryable`. -/
def refusalRetryable (status : Nat) : Bool := status = 429 ∨ 500 ≤ status ∧ status ≤ 599

/- `ClientError::retryable`. -/
def ClientError.mayRetry : ClientError → Bool
  | .retryable => true
  | .unsettled _ => true
  | .stalled => true
  | .transport again => again
  | .controller status => refusalRetryable status
  | _ => false

----
-- One Range
----

/- What a range request has to fetch: `start` to `last`. -/
structure PendingRange where
  index : Nat
  start : Nat
  last : Nat
deriving DecidableEq

/- The bytes of a range that are still to be fetched. -/
def PendingRange.length (range : PendingRange) : Nat := range.last + 1 - range.start

/- Where the loop of `fetch_range` stands. -/
inductive Stage where
  -- The slot of the next attempt is not there yet.
  | waiting
  -- The request is out.
  | asking
  -- The head was right, the body comes.
  | reading
  -- Accepted bytes are being written, the last of the range
  -- or a full buffer.
  | writing (final : Bool)
  -- `record.complete`
  | completing
  | ended (result : Except ClientError Unit)

/- The variables of the loop. The bytes of `buffer` belong right before `offset`. -/
structure RangeFetch where
  range : PendingRange
  offset : Nat
  buffer : List UInt8
  started : Nat
  retries : Nat
  stage : Stage

/- The head of an answer: its readable headers. -/
structure Answer where
  status : Nat
  contentLength : Option Nat
  etag : Option String
  contentRange : Option String
deriving DecidableEq

/- What happens to a range from outside. -/
inductive FetchEvent where
  | granted
  -- `current_client` or `send_streaming` failed.
  | unanswered (error : ClientError)
  | answered (answer : Answer)
  | chunk (bytes : List UInt8)
  -- `next_chunk` failed.
  | broken (error : ClientError)
  | bodyEnded
  | written (result : Except ClientError Unit)
  | recorded (result : Except ClientError Unit)

/- What a range does to the rest of the transfer. -/
inductive Effect where
  | request (first last : Nat)
  -- `Accepted::add`
  | add (count : Nat)
  -- `Accepted::report`
  | report
  -- `RangeRecord::write`
  | write (place : Nat) (bytes : List UInt8)
  -- `RangeRecord::complete`
  | complete (range : PendingRange)
deriving DecidableEq

/- The range after an event, and what it did. -/
structure Served where
  fetch : RangeFetch
  effects : List Effect

def maxAttempts : Nat := 4

/- `WRITE_BUFFER_BYTES`. -/
def writeBufferBytes : Nat := 1024 * 1024

namespace RangeFetch

/- The start of `fetch_range`. -/
def begin (range : PendingRange) : RangeFetch where
  range := range
  offset := range.start
  buffer := []
  started := range.start
  retries := 0
  stage := .waiting

variable (fetch : RangeFetch)

/- Where the accepted bytes belong. -/
def place : Nat := fetch.offset - fetch.buffer.length

/- The retries after an attempt: any byte resets them. -/
def retriesAfter : Nat :=
  if fetch.started < fetch.offset then 0
  else fetch.retries

/- The next turn of the loop. -/
def again : RangeFetch :=
  { fetch with retries := fetch.retriesAfter + 1, started := fetch.offset, stage := .waiting }

/- The loop is left with the error of its last attempt. -/
def giveUp (error : ClientError) : RangeFetch :=
  { fetch with retries := fetch.retriesAfter, stage := .ended (.error error) }

/- The end of an attempt. -/
def settle : Except ClientError Unit → Served
  | .ok _ =>
    ⟨{ fetch with retries := fetch.retriesAfter, stage := .completing },
      [.complete fetch.range]⟩
  | .error error =>
    if error.mayRetry ∧ fetch.retriesAfter < maxAttempts then ⟨fetch.again, [.report]⟩
    else ⟨fetch.giveUp error, []⟩

/- A failed attempt is followed by another or is the last. -/
theorem settle_error (error : ClientError) :
    (fetch.retriesAfter < maxAttempts ∧ fetch.settle (.error error) = ⟨fetch.again, [.report]⟩) ∨
    fetch.settle (.error error) = ⟨fetch.giveUp error, []⟩ := by
  by_cases hAgain : error.mayRetry ∧ fetch.retriesAfter < maxAttempts
  · exact Or.inl ⟨hAgain.2, if_pos hAgain⟩
  · exact Or.inr (if_neg hAgain)

/- `write_accepted` up to its wait. -/
def writeAccepted (final : Bool) : RangeFetch := { fetch with stage := .writing final }

/- The accepted bytes are at their place. -/
def wrote : RangeFetch := { fetch with buffer := [] }

/- The accepted bytes are given up. -/
def dropped : RangeFetch := { fetch with offset := fetch.place, buffer := [] }

/- A chunk that fits is accepted. -/
def accept (bytes : List UInt8) : RangeFetch :=
  { fetch with buffer := fetch.buffer ++ bytes, offset := fetch.offset + bytes.length }

/- One chunk of the body. -/
def read (bytes : List UInt8) : Served :=
  if fetch.range.last + 1 - fetch.offset < bytes.length then
    fetch.settle (.error (.unsettled "answer exceeds the requested range"))
  else if
      writeBufferBytes ≤ (fetch.accept bytes).buffer.length
    then
    ⟨(fetch.accept bytes).writeAccepted false,
      [.add bytes.length, .write (fetch.accept bytes).place (fetch.accept bytes).buffer]⟩
  else ⟨fetch.accept bytes, [.add bytes.length]⟩

/- The end of the body. -/
def closeBody : Served :=
  if fetch.offset = fetch.range.last + 1 then
    ⟨fetch.writeAccepted true, [.write fetch.place fetch.buffer]⟩
  else fetch.settle (.error (.unsettled "answer ended before the requested range"))

/- The end of a write. -/
def endWrite (final : Bool) : Except ClientError Unit → Served
  | .ok done =>
    if final then fetch.wrote.settle (.ok done)
    else ⟨{ fetch.wrote with stage := .reading }, []⟩
  | .error error => fetch.dropped.settle (.error error)

end RangeFetch

/- What the ranges of one object share. -/
structure RangeTransfer where
  sha256 : String
  total : Nat
deriving DecidableEq

namespace RangeTransfer

variable (transfer : RangeTransfer)

def expectedEtag : String := "\"sha256:" ++ transfer.sha256 ++ "\""

variable (first last : Nat)

def expectedRange : String :=
  "bytes " ++ toString first ++ "-" ++ toString last ++ "/" ++ toString transfer.total

/-
  What the head of an answer is taken for. `end - offset + 1` wraps to zero where all bytes were
  accepted already.
-/
def checkAnswer (answer : Answer) : Except ClientError Unit :=
  if ¬ (200 ≤ answer.status ∧ answer.status < 300) then .error (.controller answer.status)
  else if answer.etag.any (· ≠ transfer.expectedEtag) then .error .protocol
  else if answer.status ≠ 206 ∨ answer.contentLength ≠ some (last + 1 - first) ∨
      answer.etag = none ∨ answer.contentRange ≠ some (transfer.expectedRange first last) then
    .error (.unsettled "answer range differs from the requested range")
  else .ok ()

/- The answer that was asked for. -/
def rightAnswer : Answer where
  status := 206
  contentLength := some (last + 1 - first)
  etag := some transfer.expectedEtag
  contentRange := some (transfer.expectedRange first last)

@[simp] theorem checkAnswer_rightAnswer :
    transfer.checkAnswer first last (transfer.rightAnswer first last) = .ok () := by
  simp [checkAnswer, rightAnswer]

/- The head of the answer arrived. -/
def openAnswer (fetch : RangeFetch) (answer : Answer) : Served :=
  match transfer.checkAnswer fetch.offset fetch.range.last answer with
  | .ok _ => ⟨{ fetch with stage := .reading }, []⟩
  | .error error => fetch.settle (.error error)

/- One event of a range. What does not fit the stage does not happen. -/
def serve (fetch : RangeFetch) (event : FetchEvent) : Served :=
  match fetch.stage, event with
  | .waiting, .granted =>
    ⟨{ fetch with stage := .asking }, [.request fetch.offset fetch.range.last]⟩
  | .asking, .unanswered error => fetch.settle (.error error)
  | .asking, .answered answer => transfer.openAnswer fetch answer
  | .reading, .chunk bytes => fetch.read bytes
  | .reading, .broken error => fetch.settle (.error error)
  | .reading, .bodyEnded => fetch.closeBody
  | .writing final, .written result => fetch.endWrite final result
  | .completing, .recorded result => ⟨{ fetch with stage := .ended result }, []⟩
  | _, _ => ⟨fetch, []⟩

----
-- What an Event Does
----

/- Every way an event changes a range. -/
inductive Happened (fetch : RangeFetch) : FetchEvent → Served → Prop where
  | granted : fetch.stage = .waiting → Happened fetch .granted
        ⟨{ fetch with stage := .asking }, [.request fetch.offset fetch.range.last]⟩
  | failed (event : FetchEvent) (error : ClientError) :
      (fetch.stage = .asking ∨ fetch.stage = .reading) →
      Happened fetch event (fetch.settle (.error error))
  | opened (answer : Answer) : fetch.stage = .asking →
      Happened fetch (.answered answer) ⟨{ fetch with stage := .reading }, []⟩
  | accepted (bytes : List UInt8) : fetch.stage = .reading →
      bytes.length ≤ fetch.range.last + 1 - fetch.offset →
      Happened fetch (.chunk bytes) ⟨fetch.accept bytes, [.add bytes.length]⟩
  | filled (bytes : List UInt8) : fetch.stage = .reading →
      bytes.length ≤ fetch.range.last + 1 - fetch.offset → Happened fetch (.chunk bytes)
        ⟨(fetch.accept bytes).writeAccepted false,
          [.add bytes.length, .write (fetch.accept bytes).place (fetch.accept bytes).buffer]⟩
  | closed : fetch.stage = .reading → fetch.offset = fetch.range.last + 1 →
      Happened fetch .bodyEnded ⟨fetch.writeAccepted true, [.write fetch.place fetch.buffer]⟩
  | wrote : fetch.stage = .writing false →
      Happened fetch (.written (.ok ())) ⟨{ fetch.wrote with stage := .reading }, []⟩
  | wroteAll : fetch.stage = .writing true →
      Happened fetch (.written (.ok ())) (fetch.wrote.settle (.ok ()))
  | dropped (final : Bool) (error : ClientError) : fetch.stage = .writing final →
      Happened fetch (.written (.error error)) (fetch.dropped.settle (.error error))
  | recorded (result : Except ClientError Unit) : fetch.stage = .completing →
      Happened fetch (.recorded result) ⟨{ fetch with stage := .ended result }, []⟩
  | idle (event : FetchEvent) : Happened fetch event ⟨fetch, []⟩

variable {transfer} {fetch : RangeFetch}

theorem read_happened (hStage : fetch.stage = .reading) (bytes : List UInt8) :
    Happened fetch (.chunk bytes) (fetch.read bytes) := by
  unfold RangeFetch.read
  split
  · exact .failed _ _ (Or.inr hStage)
  · next hFits =>
      split
      · exact .filled bytes hStage (Nat.le_of_not_lt hFits)
      · exact .accepted bytes hStage (Nat.le_of_not_lt hFits)

theorem closeBody_happened (hStage : fetch.stage = .reading) :
    Happened fetch .bodyEnded fetch.closeBody := by
  unfold RangeFetch.closeBody
  split
  · next hWhole => exact .closed hStage hWhole
  · exact .failed _ _ (Or.inr hStage)

theorem endWrite_happened {final : Bool} (hStage : fetch.stage = .writing final)
    (result : Except ClientError Unit) :
    Happened fetch (.written result) (fetch.endWrite final result) := by
  cases result with
  | error error => exact .dropped final error hStage
  | ok =>
    cases final with
    | true => exact .wroteAll hStage
    | false => exact .wrote hStage

theorem openAnswer_happened (hStage : fetch.stage = .asking) (answer : Answer) :
    Happened fetch (.answered answer) (transfer.openAnswer fetch answer) := by
  unfold openAnswer
  split
  · exact .opened answer hStage
  · exact .failed _ _ (Or.inl hStage)

theorem serve_happened (transfer : RangeTransfer) (fetch : RangeFetch) (event : FetchEvent) :
    Happened fetch event (transfer.serve fetch event) := by
  unfold serve
  split
  · next hStage => exact .granted hStage
  · next hStage => exact .failed _ _ (Or.inl hStage)
  · next hStage => exact openAnswer_happened hStage _
  · next hStage => exact read_happened hStage _
  · next hStage => exact .failed _ _ (Or.inr hStage)
  · next hStage => exact closeBody_happened hStage
  · next hStage => exact endWrite_happened hStage _
  · next hStage => exact .recorded _ hStage
  · exact .idle _

end RangeTransfer

/- The machine of one range. -/
def fetchMachine (transfer : RangeTransfer) : Machine RangeFetch FetchEvent Served where
  answer := transfer.serve
  next := Served.fetch

----
-- The Variables of the Loop
----

/-
  What holds of the variables at every event: the offset stays in the range, behind the accepted
  bytes, and the attempts without a byte stay counted up to the last one.
-/
structure Sound (fetch : RangeFetch) : Prop where
  behind : fetch.range.start + fetch.buffer.length ≤ fetch.offset
  within : fetch.offset ≤ fetch.range.last + 1
  retries : fetch.retries ≤ maxAttempts

namespace Sound

theorem begin {range : PendingRange} (hRange : range.start ≤ range.last + 1) :
    Sound (.begin range) :=
  ⟨Nat.le_refl _, hRange, Nat.zero_le _⟩

variable {fetch : RangeFetch}

section

variable (hSound : Sound fetch)

include hSound

/- The offset leaves room for the accepted bytes. -/
theorem place_add : fetch.place + fetch.buffer.length = fetch.offset := by
  have hBehind := hSound.behind
  unfold RangeFetch.place
  omega

theorem start_le_place : fetch.range.start ≤ fetch.place := by
  have hBehind := hSound.behind
  unfold RangeFetch.place
  omega

theorem retriesAfter_le : fetch.retriesAfter ≤ maxAttempts := by
  unfold RangeFetch.retriesAfter
  split
  · exact Nat.zero_le _
  · exact hSound.retries

theorem settle (attempt : Except ClientError Unit) : Sound (fetch.settle attempt).fetch := by
  cases attempt with
  | ok => exact ⟨hSound.behind, hSound.within, hSound.retriesAfter_le⟩
  | error error =>
    rcases fetch.settle_error error with ⟨hMore, hEq⟩ | hEq
    · rw [hEq]
      exact ⟨hSound.behind, hSound.within, hMore⟩
    · rw [hEq]
      exact ⟨hSound.behind, hSound.within, hSound.retriesAfter_le⟩

theorem accept {bytes : List UInt8}
    (hFits : bytes.length ≤ fetch.range.last + 1 - fetch.offset) : Sound (fetch.accept bytes) := by
  have hBehind := hSound.behind
  have hWithin := hSound.within
  constructor
  · simp only [RangeFetch.accept, List.length_append]
    omega
  · simp only [RangeFetch.accept]
    omega
  · exact hSound.retries

theorem wrote : Sound fetch.wrote := by
  have hBehind := hSound.behind
  constructor
  · simp only [RangeFetch.wrote, List.length_nil]
    omega
  · exact hSound.within
  · exact hSound.retries

theorem dropped : Sound fetch.dropped := by
  have hPlace := hSound.place_add
  have hWithin := hSound.within
  constructor
  · exact hSound.start_le_place
  · simp only [RangeFetch.dropped]
    omega
  · exact hSound.retries

/- The stage has no part in it. -/
theorem stage (stage : Stage) : Sound { fetch with stage := stage } :=
  ⟨hSound.behind, hSound.within, hSound.retries⟩

end

end Sound

variable {fetch : RangeFetch}

/- Every event keeps the variables of the loop sound. -/
theorem RangeTransfer.sound_serve {transfer : RangeTransfer} (hSound : Sound fetch)
    (event : FetchEvent) : Sound (transfer.serve fetch event).fetch := by
  have hHappened := RangeTransfer.serve_happened transfer fetch event
  generalize transfer.serve fetch event = served at hHappened ⊢
  cases hHappened with
  | granted => exact hSound.stage .asking
  | failed => exact hSound.settle _
  | opened => exact hSound.stage .reading
  | accepted _ _ hFits => exact hSound.accept hFits
  | filled _ _ hFits => exact (hSound.accept hFits).stage _
  | closed | recorded => exact hSound.stage _
  | wrote => exact hSound.wrote.stage .reading
  | wroteAll => exact hSound.wrote.settle _
  | dropped => exact hSound.dropped.settle _
  | idle => exact hSound

/- The range itself stays. -/
theorem RangeTransfer.range_serve (transfer : RangeTransfer) (fetch : RangeFetch)
    (event : FetchEvent) : (transfer.serve fetch event).fetch.range = fetch.range := by
  have hSettle : ∀ (some : RangeFetch) attempt, (some.settle attempt).fetch.range = some.range := by
    intro some attempt
    cases attempt with
    | ok => rfl
    | error error =>
      rcases some.settle_error error with ⟨_, hEq⟩ | hEq
      all_goals
        rw [hEq]
        rfl
  have hHappened := RangeTransfer.serve_happened transfer fetch event
  generalize transfer.serve fetch event = served at hHappened ⊢
  cases hHappened with
  | granted | opened | accepted | filled | closed | wrote | recorded | idle => rfl
  | failed | wroteAll | dropped => exact hSettle _ _

----
-- Requests
----

def Effect.isRequest : Effect → Bool
  | .request _ _ => true
  | _ => false

/- The requests of one event. -/
def Served.requests (served : Served) : Nat := served.effects.countP Effect.isRequest

/- The requests of a run. -/
def requestsOf (steps : List (Machine.Step RangeFetch FetchEvent Served)) : Nat :=
  Machine.total (fun step => step.output.requests) steps

variable (step : Machine.Step RangeFetch FetchEvent Served)

/- No write of accepted bytes completes: this event is not the good end of one. -/
def NotWritten : Prop := ∀ final done, step.before.stage = .writing final →
    step.before.buffer ≠ [] → step.input ≠ .written (.ok done)

/- A write that fails gives up only bytes that were accepted in its own attempt. -/
def DropsOwn : Prop := ∀ final error, step.before.stage = .writing final →
    step.input = .written (.error error) → step.before.started ≤ step.before.place

/- The requests that can come if an attempt starts now. -/
def RangeFetch.budget (fetch : RangeFetch) : Nat :=
  maxAttempts * (fetch.range.last + 1 - fetch.started) + (maxAttempts + 1 - fetch.retries)

/- The requests that can still come. -/
def RangeFetch.rank (fetch : RangeFetch) : Nat :=
  match fetch.stage with
  | .waiting => fetch.budget
  | .completing => 0
  | .ended _ => 0
  | _ => fetch.budget - 1

/- The attempt has not lost a byte it started with. -/
structure Kept (fetch : RangeFetch) : Prop where
  sound : Sound fetch
  began : fetch.started ≤ fetch.offset

theorem RangeFetch.one_le_budget (hSound : Sound fetch) : 1 ≤ fetch.budget := by
  have hRetries := hSound.retries
  unfold budget
  omega

/- Inside of an attempt its own request is made. -/
theorem RangeFetch.rank_attempt (hStage : fetch.stage = .asking ∨ fetch.stage = .reading ∨
      ∃ final, fetch.stage = .writing final) : fetch.rank = fetch.budget - 1 := by
  unfold rank
  rcases hStage with hStage | hStage | ⟨_, hStage⟩
  all_goals rw [hStage]

section

variable (hKept : Kept fetch)

include hKept

theorem Kept.again (hMore : fetch.retriesAfter < maxAttempts) : Kept fetch.again :=
  ⟨⟨hKept.sound.behind, hKept.sound.within, hMore⟩, Nat.le_refl _⟩

/- Another attempt has one request less to come. -/
theorem Kept.budget_again (hMore : fetch.retriesAfter < maxAttempts) :
    fetch.again.budget ≤ fetch.budget - 1 := by
  have hWithin := hKept.sound.within
  have hBegan := hKept.began
  have hRetries := hKept.sound.retries
  unfold RangeFetch.retriesAfter at hMore
  simp only [RangeFetch.budget, RangeFetch.again, RangeFetch.retriesAfter, maxAttempts] at *
  by_cases hGained : fetch.started < fetch.offset
  · -- One byte pays for the retries that are forgotten.
    rw [if_pos hGained]
    omega
  · rw [if_neg hGained] at hMore ⊢
    omega

theorem Kept.settle (attempt : Except ClientError Unit) :
    Kept (fetch.settle attempt).fetch ∧ (fetch.settle attempt).requests = 0 ∧
    (fetch.settle attempt).fetch.rank ≤ fetch.budget - 1 := by
  cases attempt with
  | ok => exact ⟨⟨hKept.sound.settle _, hKept.began⟩, rfl, Nat.zero_le _⟩
  | error error =>
    rcases fetch.settle_error error with ⟨hMore, hEq⟩ | hEq
    · rw [hEq]
      exact ⟨hKept.again hMore, rfl, hKept.budget_again hMore⟩
    · have hSound := hKept.sound.settle (.error error)
      rw [hEq] at hSound ⊢
      exact ⟨⟨hSound, hKept.began⟩, rfl, Nat.zero_le _⟩

/- Every event lowers the requests that can still come by the requests it makes. -/
theorem RangeTransfer.rank_serve
    {transfer : RangeTransfer}
    {event : FetchEvent}
    (hOwn : DropsOwn ((fetchMachine transfer).step fetch event)) :
    Kept (transfer.serve fetch event).fetch ∧
    (transfer.serve fetch event).requests +
      (transfer.serve fetch event).fetch.rank ≤
      fetch.rank :=
    by
  have hSound : Sound (transfer.serve fetch event).fetch :=
    RangeTransfer.sound_serve hKept.sound event
  have hBegan := hKept.began
  have hHappened := RangeTransfer.serve_happened transfer fetch event
  generalize transfer.serve fetch event = served at hHappened hSound ⊢
  cases hHappened with
  | granted hStage =>
    have hOne := RangeFetch.one_le_budget hKept.sound
    have hRank : fetch.rank = fetch.budget := by rw [RangeFetch.rank, hStage]
    refine ⟨⟨hSound, hBegan⟩, ?_⟩
    change 1 + (fetch.budget - 1) ≤ fetch.rank
    omega
  | failed _ error hStage =>
    rcases hKept.settle (.error error) with ⟨hNext, _, _⟩
    have hHere := RangeFetch.rank_attempt (hStage.imp_right Or.inl)
    exact ⟨hNext, by omega⟩
  | opened _ hStage =>
    have hHere := RangeFetch.rank_attempt (Or.inl hStage)
    refine ⟨⟨hSound, hBegan⟩, ?_⟩
    change 0 + (fetch.budget - 1) ≤ fetch.rank
    omega
  | accepted bytes hStage =>
    have hHere := RangeFetch.rank_attempt (Or.inr (Or.inl hStage))
    have hNext : (fetch.accept bytes).rank = fetch.budget - 1 :=
      RangeFetch.rank_attempt (Or.inr (Or.inl hStage))
    refine ⟨⟨hSound, Nat.le_add_right_of_le hBegan⟩, ?_⟩
    change 0 + (fetch.accept bytes).rank ≤ fetch.rank
    omega
  | filled _ hStage =>
    have hHere := RangeFetch.rank_attempt (Or.inr (Or.inl hStage))
    refine ⟨⟨hSound, Nat.le_add_right_of_le hBegan⟩, ?_⟩
    change 0 + (fetch.budget - 1) ≤ fetch.rank
    omega
  | closed hStage =>
    have hHere := RangeFetch.rank_attempt (Or.inr (Or.inl hStage))
    refine ⟨⟨hSound, hBegan⟩, ?_⟩
    change 0 + (fetch.budget - 1) ≤ fetch.rank
    omega
  | wrote hStage =>
    have hHere := RangeFetch.rank_attempt (Or.inr (Or.inr ⟨_, hStage⟩))
    refine ⟨⟨hSound, hBegan⟩, ?_⟩
    change 0 + (fetch.budget - 1) ≤ fetch.rank
    omega
  | wroteAll hStage =>
    have hHere := RangeFetch.rank_attempt (Or.inr (Or.inr ⟨_, hStage⟩))
    have hWrote : Kept fetch.wrote := ⟨hKept.sound.wrote, hBegan⟩
    have hBudget : fetch.wrote.budget = fetch.budget := rfl
    rcases hWrote.settle (.ok ()) with ⟨hNext, _, _⟩
    exact ⟨hNext, by omega⟩
  | dropped final error hStage =>
    have hHere := RangeFetch.rank_attempt (Or.inr (Or.inr ⟨_, hStage⟩))
    have hDropped : Kept fetch.dropped := ⟨hKept.sound.dropped, hOwn final error hStage rfl⟩
    have hBudget : fetch.dropped.budget = fetch.budget := rfl
    rcases hDropped.settle (.error error) with ⟨hNext, _, _⟩
    exact ⟨hNext, by omega⟩
  | recorded => exact ⟨⟨hSound, hBegan⟩, Nat.zero_le _⟩
  | idle =>
    refine ⟨hKept, ?_⟩
    change 0 + fetch.rank ≤ fetch.rank
    omega

end

/-
  A range ends. As long as no failing write gives up bytes of an earlier attempt, a range makes no
  more requests than its length allows, whatever the network and the disk do.
-/
theorem requests_are_bounded
    (transfer : RangeTransfer)
    (range : PendingRange)
    (hRange : range.start ≤ range.last + 1)
    (events : List FetchEvent)
    (hOwn :
      ∀ step ∈ (fetchMachine transfer).trace (.begin range) events,
        DropsOwn step) :
    requestsOf ((fetchMachine transfer).trace (.begin range) events) ≤
      4 * range.length + 5 := by
  have hStart : Kept (.begin range) := ⟨.begin hRange, Nat.le_refl _⟩
  have hTotal := (fetchMachine transfer).total_le_rank (fun step => step.output.requests)
    RangeFetch.rank (fun fetch event hKept hStep => RangeTransfer.rank_serve hKept hStep) hStart
    hOwn
  have hRank : (RangeFetch.begin range).rank = 4 * range.length + 5 := rfl
  unfold requestsOf
  omega

/- An object of two bytes, fetched in one range. -/
def twoBytes : RangeTransfer where
  sha256 := String.ofList (List.replicate 64 'a')
  total := 2

def bothBytes : PendingRange where
  index := 0
  start := 0
  last := 1

/- Both bytes arrive, and their write stalls. -/
def stalledTurn : List FetchEvent := [.granted, .answered (twoBytes.rightAnswer 0 1),
    .chunk [0, 0], .bodyEnded, .written (.error .stalled)]

/- The bound holds where a write stalls and its bytes are fetched again. -/
theorem stalled_write_is_bounded :
    requestsOf
      ((fetchMachine twoBytes).trace (.begin bothBytes) stalledTurn) ≤
      4 * bothBytes.length + 5 := by
  apply requests_are_bounded twoBytes bothBytes (by decide)
  intro _ hStep _ _ _ _
  simp [stalledTurn, RangeFetch.begin, bothBytes, fetchMachine, Machine.move, Machine.step,
    RangeTransfer.serve, RangeTransfer.openAnswer, RangeFetch.read, RangeFetch.closeBody,
    RangeFetch.accept, RangeFetch.writeAccepted, writeBufferBytes] at hStep
  rcases hStep with rfl | rfl | rfl | rfl | rfl
  all_goals simp_all [RangeFetch.place]

----
-- A Range that Does Not End
----

/-
  The first answer is cut behind its first byte, the second brings the other one, and the write of
  both stalls.
-/
def lossyTurn : List FetchEvent :=
  [.granted, .answered (twoBytes.rightAnswer 0 1), .chunk [0], .bodyEnded, .granted,
      .answered (twoBytes.rightAnswer 1 1), .chunk [0], .bodyEnded, .written (.error .stalled)]

/- The range between two such turns. -/
def rewound (retries : Nat) : RangeFetch := { RangeFetch.begin bothBytes with retries := retries }

theorem trace_lossyTurn (retries : Nat) :
    requestsOf ((fetchMachine twoBytes).trace (rewound retries) lossyTurn) = 2 ∧
    (fetchMachine twoBytes).final (rewound retries) lossyTurn = rewound 2 ∧
    ∀ step ∈ (fetchMachine twoBytes).trace (rewound retries) lossyTurn, NotWritten step := by
  refine ⟨?_, ?_, ?_⟩
  · simp [lossyTurn, rewound, RangeFetch.begin, bothBytes, fetchMachine, Machine.move,
      RangeTransfer.serve, RangeTransfer.openAnswer, RangeFetch.read, RangeFetch.closeBody,
      RangeFetch.settle, RangeFetch.endWrite, RangeFetch.dropped, RangeFetch.accept,
      RangeFetch.writeAccepted, writeBufferBytes, RangeFetch.retriesAfter, RangeFetch.again,
      ClientError.mayRetry, maxAttempts, RangeFetch.place,
      requestsOf, Served.requests, Effect.isRequest]
  · simp [lossyTurn, rewound, RangeFetch.begin, bothBytes, fetchMachine, Machine.move,
      RangeTransfer.serve, RangeTransfer.openAnswer, RangeFetch.read, RangeFetch.closeBody,
      RangeFetch.settle, RangeFetch.endWrite, RangeFetch.dropped, RangeFetch.accept,
      RangeFetch.writeAccepted, writeBufferBytes, RangeFetch.retriesAfter, RangeFetch.again,
      ClientError.mayRetry, maxAttempts, RangeFetch.place]
  · intro _ hStep _ _ _ _ hInput
    have hMem := (fetchMachine twoBytes).input_mem_of_mem_trace hStep
    rw [hInput] at hMem
    simp [lossyTurn] at hMem

theorem trace_lossyTurns (retries turns : Nat) :
    requestsOf ((fetchMachine twoBytes).trace (rewound retries)
      (List.replicate turns lossyTurn).flatten) = 2 * turns ∧
    ∀ step ∈ (fetchMachine twoBytes).trace (rewound retries)
    (List.replicate turns lossyTurn).flatten, NotWritten step := by
  induction turns generalizing retries with
  | zero => simp [requestsOf]
  | succ _ ih =>
    rcases trace_lossyTurn retries with ⟨hRequests, hFinal, hSteps⟩
    rcases ih 2 with ⟨hRest, hRestSteps⟩
    rw [List.replicate_succ, List.flatten_cons, Machine.trace_append, hFinal]
    constructor
    · unfold requestsOf at *
      rw [Machine.total, List.map_append, List.sum_append]
      unfold Machine.total at hRequests hRest
      omega
    · intro step hStep
      rcases List.mem_append.mp hStep with hNow | hLater
      · exact hSteps step hNow
      · exact hRestSteps step hLater

/-
  Two bytes keep a range busy forever. The byte of the first answer resets the retries, and the
  write that gives both up ends an attempt that began behind it.
-/
theorem lossy_writes_repeat_forever :
    ¬ ∃ bound : Nat, ∀ events : List FetchEvent,
      (∀ step ∈ (fetchMachine twoBytes).trace (.begin bothBytes) events,
         NotWritten step)
      → requestsOf
      ((fetchMachine twoBytes).trace (.begin bothBytes) events)
      ≤ bound := by
  rintro ⟨bound, hBound⟩
  rcases trace_lossyTurns 0 (bound + 1) with ⟨_, hSteps⟩
  have hAtMost := hBound _ hSteps
  have hStart : rewound 0 = .begin bothBytes := rfl
  rw [← hStart] at hAtMost
  omega

end VonkForge.Distribution
