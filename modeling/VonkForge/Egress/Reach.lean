import VonkForge.Egress.Forwarding
import VonkForge.Egress.Proxy
import VonkForge.Egress.Public

/-
  The proxy reaches only public addresses of allowed hosts.

  An answer is used only if all of its lines were taken, so every line is an address on the port
  that passed. What is tried afterwards is what was taken, and nothing is resolved between the two.

  Main declarations:
    * `taken`
    * `scanLines_denied`
    * `judge_ok`
    * `connects_only_to_public_addresses`
-/

----
-- Scanning an Answer
----

namespace VonkForge.Egress

open Text

section Scan

variable (parsers : Parsers) (port : Nat)

/- A line of an answer that can be used. -/
def Usable (line : List Char) (address : SocketAddr) : Prop :=
  parsers.socketAddr line = some address ∧ address.port = port ∧ publicIp address.ip = true

instance (line : List Char) (address : SocketAddr) : Decidable (Usable parsers port line address) :=
  inferInstanceAs (Decidable (parsers.socketAddr line = some address ∧ address.port = port ∧
      publicIp address.ip = true))

/- The addresses that a scan takes from lines. -/
def taken (seen : List (List Char)) : List SocketAddr := (seen.filterMap parsers.socketAddr).filter
    (fun address => address.port = port ∧ publicIp address.ip = true)

theorem mem_insertAddress (address other : SocketAddr) (addresses : List SocketAddr) :
    other ∈ insertAddress address addresses ↔ other = address ∨ other ∈ addresses := by
  unfold insertAddress
  split
  · rename_i hMem
    constructor
    · exact Or.inr
    · rintro (rfl | hOld)
      · exact hMem
      · exact hOld
  · exact List.mem_orderedInsert _

variable {addresses : List SocketAddr}

theorem nodup_insertAddress (address : SocketAddr)
    (hNodup : addresses.Nodup) : (insertAddress address addresses).Nodup := by
  unfold insertAddress
  split
  · exact hNodup
  · rename_i hNew
    rw [(List.perm_orderedInsert _ _ _).nodup_iff]
    exact List.nodup_cons.mpr ⟨hNew, hNodup⟩

variable {line : List Char} {valid : Bool} {addresses next : List SocketAddr}

/- A line that keeps an answer valid is one to use. -/
theorem scanLine_valid
    (hScan : scanLine parsers port addresses valid line = some (next, true)) : valid ∧
      ∃ address,
        Usable parsers port line address ∧ next = insertAddress address addresses := by
  revert hScan
  fun_cases scanLine with
  | case1 address hParsed hPort hPublic =>
    intro hScan
    cases hScan
    exact ⟨rfl, address, ⟨hParsed, hPort, hPublic⟩, rfl⟩
  | _ => exact fun hScan => by cases hScan

/- A valid answer: each line, and what it adds. -/
theorem scanLines_answer {seen : List (List Char)} {addresses found : List SocketAddr}
    (hScan : scanLines parsers port addresses valid seen = .answer found true) : valid ∧
    (∀ line ∈ seen, ∃ address, Usable parsers port line address) ∧
    ∀ address ∈ found, address ∈ addresses ∨ ∃ line ∈ seen, Usable parsers port line address := by
  induction seen generalizing addresses valid with
  | nil =>
    cases hScan
    refine ⟨rfl, ?_, fun address hMem => Or.inl hMem⟩
    intro _ hLine
    cases hLine
  | cons first rest ih =>
    unfold scanLines at hScan
    split at hScan
    · cases hScan
    · rename_i next still hFirst
      split at hScan
      · cases hScan
      · rcases ih hScan with ⟨rfl, hLines, hFound⟩
        rcases scanLine_valid parsers port hFirst with ⟨hValid, address, hUsable, rfl⟩
        refine ⟨hValid, ?_, ?_⟩
        · intro line hLine
          rcases List.mem_cons.mp hLine with rfl | hRest
          · exact ⟨address, hUsable⟩
          · exact hLines line hRest
        · intro other hOther
          rcases hFound other hOther with hNext | ⟨line, hLine, hOtherUsable⟩
          · rcases (mem_insertAddress address other addresses).mp hNext with rfl | hOld
            · exact Or.inr ⟨first, List.mem_cons_self, hUsable⟩
            · exact Or.inl hOld
          · exact Or.inr ⟨line, List.mem_cons_of_mem _ hLine, hOtherUsable⟩

/- What a line adds to the addresses, if it is not denied. -/
theorem scanLine_taken {valid still : Bool}
    (hNodup : addresses.Nodup)
    (hScan : scanLine parsers port addresses valid line = some (next, still)) : next.Nodup ∧
      ∀ address, address ∈ next ↔ address ∈ addresses ∨ address ∈ taken parsers port [line] := by
  revert hScan
  fun_cases scanLine with
  | case1 address hParsed hPort hPublic =>
    intro hScan
    cases hScan
    refine ⟨nodup_insertAddress address hNodup, fun other => ?_⟩
    rw [mem_insertAddress]
    simp [taken, hParsed, hPort, hPublic, or_comm]
  | case2 => exact fun hScan => by cases hScan
  | _ =>
    intro hScan
    cases hScan
    simp [taken, *]

theorem taken_append (left right : List (List Char)) :
    taken parsers port (left ++ right) = taken parsers port left ++ taken parsers port right := by
  simp [taken]

/-
  A denied address ends the scan, as long as no more than the allowed number of addresses were taken
  before it.
-/
theorem scanLines_denied
    {seen rest : List (List Char)}
    {address : SocketAddr}
    (hParsed : parsers.socketAddr line = some address)
    (hPort : address.port = port)
    (hDenied : publicIp address.ip = false)
    (hNodup : addresses.Nodup)
    (hFew :
      (addresses.toFinset ∪ (taken parsers port seen).toFinset).card ≤
        maxResolvedAddresses) :
    scanLines parsers port addresses valid (seen ++ line :: rest) =
      .denied := by
  induction seen generalizing addresses valid with
  | nil => simp [scanLines, scanLine, hParsed, hPort, hDenied]
  | cons first others ih =>
    rw [List.cons_append, scanLines]
    split
    · rfl
    · rename_i next still hFirst
      rcases scanLine_taken parsers port hNodup hFirst with ⟨hNext, hMem⟩
      have hSame : next.toFinset = addresses.toFinset ∪ (taken parsers port [first]).toFinset := by
        ext other
        simp [hMem]
      have hAll : next.toFinset ∪
              (taken parsers port others).toFinset =
            addresses.toFinset ∪ (taken parsers port (first :: others)).toFinset := by
        have hTaken := taken_append parsers port [first] others
        rw [List.singleton_append] at hTaken
        rw [hSame, hTaken, List.toFinset_append, Finset.union_assoc]
      rw [← hAll] at hFew
      have hLength : ¬ maxResolvedAddresses < next.length := by
        rw [← List.toFinset_card_of_nodup hNext]
        have hSubset : next.toFinset ⊆
              next.toFinset ∪ (taken parsers port others).toFinset :=
          Finset.subset_union_left
        have hCard := Finset.card_le_card hSubset
        omega
      rw [if_neg hLength]
      exact ih hNext hFew

end Scan

----
-- Resolving and Connecting
----

open Text

section Resolve

variable (parsers : Parsers) (world : World) (host : List Char) (port : Nat)

/- An answer from which the addresses were taken. -/
structure Answer (output : List UInt8) (addresses : List SocketAddr) : Prop where
  text : ∃ text, decode output = some text ∧
    (∀ line ∈ lines text, ∃ address, Usable parsers port line address) ∧
    ∀ address ∈ addresses, ∃ line ∈ lines text, Usable parsers port line address

/- The addresses of an accepted answer are lines of it, and every line of it is usable. -/
theorem judge_ok
    {output : Option (List UInt8)}
    {addresses : List SocketAddr}
    (hJudge : judge parsers port output = some (.ok addresses)) :
    ∃ bytes,
      output = some bytes ∧ Answer parsers port bytes addresses := by
  revert hJudge
  fun_cases judge with
  | case3 text hText _ _ hScan hUsed =>
    intro hJudge
    rcases Option.bind_eq_some_iff.mp hText with ⟨bytes, hBytes, hDecode⟩
    have hValidated := Option.some.inj hJudge
    unfold validateResolved at hValidated
    split at hValidated
    · cases hValidated
    · cases hValidated
      rw [hUsed.1] at hScan
      rcases scanLines_answer parsers port hScan with ⟨_, hLines, hFound⟩
      refine ⟨bytes, hBytes, text, hDecode, hLines, fun address hAddress => ?_⟩
      exact (hFound address hAddress).resolve_left List.not_mem_nil
  | _ => exact fun hJudge => by cases hJudge

/- What the attempts did, and the answer that was used. -/
theorem resolveFrom_spec (attempts : List Nat) :
    (∀ event ∈ (resolveFrom parsers world host port attempts).1, ∃ output,
      event = .observed host port output) ∧
    ∀ addresses, (resolveFrom parsers world host port attempts).2 = .ok addresses →
    ∃ earlier bytes, (resolveFrom parsers world host port attempts).1 = earlier ++
    [.observed host port (some bytes)] ∧ Answer parsers port bytes addresses := by
  induction attempts with
  | nil =>
    constructor
    · intro _ hEvent
      cases hEvent
    · intro _ hResult
      cases hResult
  | cons attempt rest ih =>
    rw [resolveFrom]
    simp only
    split
    · constructor
      · intro _ hEvent
        cases hEvent
      · intro _ hResult
        cases hResult
    · split
      · rename_i result hJudge
        constructor
        · intro _ hEvent
          exact ⟨_, List.mem_singleton.mp hEvent⟩
        · rintro _ rfl
          rcases judge_ok parsers port hJudge with ⟨bytes, hBytes, hAnswer⟩
          refine ⟨[], bytes, ?_, hAnswer⟩
          rw [hBytes]
          rfl
      · rcases ih with ⟨hEvents, hResult⟩
        constructor
        · intro event hEvent
          rcases List.mem_cons.mp hEvent with rfl | hRest
          · exact ⟨_, rfl⟩
          · exact hEvents event hRest
        · intro addresses hOk
          rcases hResult addresses hOk with ⟨earlier, bytes, hSame, hAnswer⟩
          refine ⟨.observed host port (world.attempts attempt).output ::
              earlier, bytes, ?_, hAnswer⟩
          rw [hSame]
          rfl

/- An answer with a denied address settles the request. -/
theorem resolveFrom_denied (attempts : List Nat)
    {bytes : List UInt8} (hObserved :
      .observed host port (some bytes) ∈ (resolveFrom parsers world host port attempts).1)
    (hJudge : judge parsers port (some bytes) = some (.error 403)) :
    ∃ earlier, resolveFrom parsers world host port attempts =
    (earlier ++ [.observed host port (some bytes)], .error 403) := by
  induction attempts with
  | nil => cases hObserved
  | cons attempt _ ih =>
    simp only [resolveFrom] at hObserved ⊢
    by_cases hLate : (world.attempts attempt).late = true
    · rw [if_pos hLate] at hObserved
      cases hObserved
    · rw [if_neg hLate] at hObserved ⊢
      cases hMet : judge parsers port (world.attempts attempt).output with
      | some =>
        simp only [hMet, List.mem_singleton, Event.observed.injEq, true_and] at hObserved ⊢
        rw [← hObserved, hJudge] at hMet
        refine ⟨[], ?_⟩
        rw [← hObserved, ← Option.some.inj hMet]
        rfl
      | none =>
        simp only [hMet, List.mem_cons, Event.observed.injEq, true_and] at hObserved ⊢
        rcases hObserved with hFirst | hRest
        · rw [← hFirst, hJudge] at hMet
          cases hMet
        · rcases ih hRest with ⟨earlier, hSame⟩
          refine ⟨.observed host port (world.attempts attempt).output :: earlier, ?_⟩
          rw [hSame]
          rfl

end Resolve

/- Only addresses of the list are tried. -/
theorem connectFrom_spec (world : World) (index : Nat) (addresses : List SocketAddr) :
    ∀ event ∈ (connectFrom world index addresses).1, ∃ address ∈ addresses,
    event = .connecting address := by
  induction addresses generalizing index with
  | nil =>
    intro _ hEvent
    cases hEvent
  | cons first _ ih =>
    intro event hEvent
    rw [connectFrom] at hEvent
    simp only at hEvent
    split at hEvent
    · cases hEvent
    · split at hEvent
      · exact ⟨first, List.mem_cons_self, List.mem_singleton.mp hEvent⟩
      · rcases List.mem_cons.mp hEvent with rfl | hRest
        · exact ⟨first, List.mem_cons_self, rfl⟩
        · rcases ih (index + 1) event hRest with ⟨address, hAddress, hSame⟩
          exact ⟨address, List.mem_cons_of_mem _ hAddress, hSame⟩

/- An answer with a denied address among those scanned. -/
theorem judge_denied (parsers : Parsers) (port : Nat) {bytes : List UInt8}
    {text line : List Char} {seen rest : List (List Char)}
    {address : SocketAddr} (hText : decode bytes = some text)
    (hLines : lines text = seen ++ line :: rest) (hParsed : parsers.socketAddr line = some address)
    (hPort : address.port = port) (hDenied : publicIp address.ip = false)
    (hFew : (taken parsers port seen).toFinset.card ≤ maxResolvedAddresses) :
    judge parsers port (some bytes) = some (.error 403) := by
  have hScan : scanLines parsers port [] true (seen ++ line :: rest) = .denied :=
    scanLines_denied parsers port hParsed hPort hDenied List.nodup_nil (by simpa using hFew)
  rw [judge, Option.bind_some, hText]
  simp only [hLines, hScan]

/- An item after a part that does not hold it. -/
theorem append_eq_append_of_notMem {left right before after : List Event} {event : Event}
    (hLeft : event ∉ left) (hSame : left ++ right = before ++ event :: after) :
    ∃ middle, before = left ++ middle ∧ right = middle ++ event :: after := by
  rcases List.append_eq_append_iff.mp hSame with
    ⟨middle, hBefore, hRight⟩ | ⟨middle, hOther, hRight⟩
  · exact ⟨middle, hBefore, hRight⟩
  · cases middle with
    | nil =>
      refine ⟨[], ?_, ?_⟩
      · simpa using hOther.symm
      · simpa using hRight.symm
    | cons first =>
      have hFirst : event = first := (List.cons.inj hRight).1
      exfalso
      apply hLeft
      rw [hOther, hFirst]
      simp

section

variable (parsers : Parsers) (hosts : List (List Char)) (world : World) (header : List UInt8)
  (request : Request)

/- What serving a request that is accepted records. -/
theorem handleUntil_ok
    (hAccepted : parseRequest parsers header hosts = .ok request) : ∃ dialed last,
      handleUntil parsers hosts world (some header) =
          (resolveObserved parsers world request.host request.port).1 ++ (dialed ++ [last]) ∧
        (∀ address, last ≠ .connecting address) ∧
        (∀ host port output, last ≠ .observed host port output) ∧
        (∀ event ∈ dialed, ∃ address addresses, event = .connecting address ∧ address ∈ addresses ∧
            (resolveObserved parsers world request.host request.port).2 = .ok addresses) ∧ ∀ status,
          (resolveObserved parsers world request.host request.port).2 = .error status →
            dialed = [] ∧ last = .rejected status := by
  unfold handleUntil
  simp only [hAccepted]
  split
  · rename_i status hResolved
    refine ⟨[], .rejected status, rfl, by simp, by simp, by simp, ?_⟩
    intro _ hOther
    rw [hResolved] at hOther
    cases hOther
    exact ⟨rfl, rfl⟩
  · rename_i addresses hResolved
    refine ⟨_, _, rfl, ?_, ?_, ?_, ?_⟩
    · intro _
      split <;> simp
    · intro _ _ _
      split <;> simp
    · intro event hEvent
      rcases connectFrom_spec world 0 addresses event hEvent with ⟨address, hAddress, hSame⟩
      exact ⟨address, addresses, hSame, hAddress, hResolved⟩
    · intro _ hStatus
      rw [hResolved] at hStatus
      cases hStatus

/- An attempt to connect follows the answer it is from. -/
theorem connecting_spec
    (hAccepted : parseRequest parsers header hosts = .ok request)
    {before after : List Event} {address : SocketAddr}
    (hEvents :
      handleUntil parsers hosts world (some header) = before ++ .connecting address :: after) :
    ∃ earlier output dialed addresses,
      before = earlier ++ .observed request.host request.port (some output) :: dialed ∧
        (∀ event ∈ dialed, ∃ other, event = .connecting other) ∧ address ∈ addresses ∧
        Answer parsers request.port output addresses := by
  rcases handleUntil_ok parsers hosts world header request
    hAccepted with
    ⟨tried, last, hRun, hLast, _, hTried, _⟩
  rcases resolveFrom_spec parsers world request.host
    request.port [0, 1, 2] with ⟨hObserved, hAnswer⟩
  rw [hRun] at hEvents
  have hResolving :
      .connecting address ∉ (resolveObserved parsers world request.host request.port).1 := by
    intro hMem
    rcases hObserved _ hMem with ⟨_, hSame⟩
    cases hSame
  rcases append_eq_append_of_notMem hResolving hEvents with ⟨dialed, rfl, hRest⟩
  -- The attempts up to this one are among those recorded.
  have hPart : dialed <+: tried := by
    apply List.prefix_of_prefix_length_le (List.prefix_append dialed (.connecting address :: after))
    · rw [← hRest]
      exact List.prefix_append tried [last]
    · have hLength := congrArg List.length hRest
      simp only [List.length_append, List.length_cons, List.length_nil] at hLength
      omega
  have hMem : .connecting address ∈ tried := by
    have hEither : .connecting address ∈ tried ++ [last] := by
      rw [hRest]
      simp
    rcases List.mem_append.mp hEither with hHere | hEnd
    · exact hHere
    · exact absurd (List.mem_singleton.mp hEnd).symm (hLast address)
  rcases hTried _ hMem with ⟨_, addresses, hSame, hAddress, hResolved⟩
  cases hSame
  rcases hAnswer addresses hResolved with ⟨earlier, output, hUsed, hFrom⟩
  refine ⟨earlier, output, dialed, addresses, ?_, ?_, hAddress, hFrom⟩
  · rw [resolveObserved, hUsed]
    simp
  · intro event hEvent
    rcases hTried event (hPart.subset hEvent) with ⟨found, _, hFound, _⟩
    exact ⟨found, hFound⟩

/- A denied address in an answer ends the request. -/
theorem denied_spec
    (hAccepted : parseRequest parsers header hosts = .ok request)
    {host : List Char} {port : Nat} {output : List UInt8}
    (hMem : .observed host port (some output) ∈ handleUntil parsers hosts world (some header))
    (hJudge : judge parsers port (some output) = some (.error 403)) : ∃ earlier,
      handleUntil parsers hosts world (some header) =
        earlier ++ [.observed host port (some output), .rejected 403] := by
  rcases handleUntil_ok parsers hosts world header request
    hAccepted with
    ⟨_, _, hRun, _, hLast, hTried, hError⟩
  rcases resolveFrom_spec parsers world request.host request.port [0, 1, 2] with ⟨hObserved, _⟩
  have hResolving : .observed host port (some output) ∈
      (resolveObserved parsers world request.host request.port).1 := by
    rw [hRun] at hMem
    rcases List.mem_append.mp hMem with hHere | hRest
    · exact hHere
    · rcases List.mem_append.mp hRest with hDialed | hEnd
      · rcases hTried _ hDialed with ⟨_, _, hSame, _⟩
        cases hSame
      · exact absurd (List.mem_singleton.mp hEnd).symm (hLast host port (some output))
  rcases hObserved _ hResolving with ⟨_, hSame⟩
  cases hSame
  rcases resolveFrom_denied parsers world request.host
    request.port [0, 1, 2] hResolving hJudge with
    ⟨earlier, hResolved⟩
  rcases hError 403 (by rw [resolveObserved, hResolved]) with ⟨rfl, rfl⟩
  refine ⟨earlier, ?_⟩
  rw [hRun, resolveObserved, hResolved]
  simp

end

/-
  A connection is tried only to an address of the answer that was used, all lines of which are
  addresses on the port that are not special; and a denied address ends the request.
-/
theorem connects_only_to_public_addresses
    (parsers : Parsers)
    (hosts : List (List Char))
    (world : World)
    (header : Option (List UInt8)) :
    (∀ before after address,
       handleUntil parsers hosts world header =
         before ++ .connecting address :: after →
       ∃ bytes request earlier output text dialed,
         header = some bytes ∧
         parseRequest parsers bytes hosts = .ok request ∧
         request.host ∈ hosts ∧
         (request.port = 80 ∨ request.port = 443) ∧
         before =
           earlier ++ .observed request.host request.port (some output)
             :: dialed ∧
         (∀ event ∈ dialed, ∃ other, event = .connecting other) ∧
         decode output = some text ∧
         address.port = request.port ∧
         (∃ line ∈ lines text, parsers.socketAddr line = some address) ∧
         ∀ line ∈ lines text,
           ∃ listed,
             parsers.socketAddr line = some listed ∧
             listed.port = request.port ∧
             ¬ Special listed.ip) ∧
    ∀ host port output text seen line rest address,
      .observed host port (some output) ∈
        handleUntil parsers hosts world header →
      decode output = some text →
      lines text = seen ++ line :: rest →
      parsers.socketAddr line = some address →
      address.port = port →
      publicIp address.ip = false →
      (taken parsers port seen).toFinset.card ≤ maxResolvedAddresses →
      ∃ earlier,
        handleUntil parsers hosts world header =
          earlier
            ++ [.observed host port (some output), .rejected 403] := by
  cases header with
  | none =>
    constructor
    · intro _ _ _ hEvents
      have hLength := congrArg List.length hEvents
      simp [handleUntil] at hLength
    · intro _ _ _ _ _ _ _ _ hObserved
      cases hObserved
  | some bytes =>
    cases hParsed : parseRequest parsers bytes hosts with
    | error status =>
      have hEvents : handleUntil parsers hosts world (some bytes) = [.rejected status] := by
        simp only [handleUntil, hParsed]
      rw [hEvents]
      constructor
      · intro _ _ address hSame
        have hMem : Event.connecting address ∈ [Event.rejected status] := by
          rw [hSame]
          simp
        cases List.mem_singleton.mp hMem
      · intro _ _ _ _ _ _ _ _ hObserved
        cases List.mem_singleton.mp hObserved
    | ok request =>
      rcases parseRequest_allowed parsers hosts bytes request hParsed with ⟨hHost, hPort⟩
      constructor
      · intro _ _ address hEvents
        rcases connecting_spec parsers hosts world bytes
          request hParsed hEvents with
          ⟨earlier, output, dialed, _, hBefore, hDialed, hAddress, ⟨text, hText, hLines, hTaken⟩⟩
        rcases hTaken address hAddress with ⟨line, hLine, hRead, hSame, _⟩
        refine ⟨bytes, request, earlier, output, text, dialed, rfl, hParsed, hHost, hPort, hBefore,
          hDialed, hText, hSame, ⟨line, hLine, hRead⟩, ?_⟩
        intro other hOther
        rcases hLines other hOther with ⟨listed, hListed, hListedPort, hPublic⟩
        exact ⟨listed, hListed, hListedPort, publicIp_not_special hPublic⟩
      · intro host port output text seen line rest address hObserved hText hLines hRead hSame
          hDenied hFew
        exact denied_spec parsers hosts world bytes request hParsed hObserved
          (judge_denied parsers port hText hLines hRead hSame hDenied hFew)

/- Two addresses, one of them in a private network. -/
def outside : SocketAddr where
  ip := .v4 93 184 216 34
  port := 80
  scopeId := 0

def inside : SocketAddr where
  ip := .v4 10 0 0 1
  port := 80
  scopeId := 0

def listedParsers : Parsers where
  ipAddr := fun _ => none
  socketAddr := fun line =>
    if line = "93.184.216.34:80".toList then some outside
    else if line = "10.0.0.1:80".toList then some inside
    else none

def answering (output : List UInt8) : World where
  attempts := fun _ => { late := false, output := output }
  dials := fun _ => { late := false, connects := true }

def publicOutput : List UInt8 := encode "93.184.216.34:80\n".toList

def mixedOutput : List UInt8 := encode "93.184.216.34:80\n10.0.0.1:80\n".toList

/- A public answer is connected to; one with a private address among it is refused as a whole. -/
theorem public_answer_is_tried_private_is_refused :
    handleUntil listedParsers exampleHosts (answering publicOutput)
      (some plainHeader) =
      [.observed "example.com".toList 80 (some publicOutput),
        .connecting outside, .relayed false plainRequest.forward] ∧
    ¬ Special outside.ip ∧
    ∃ earlier,
      handleUntil listedParsers exampleHosts (answering mixedOutput)
        (some plainHeader) =
        earlier ++
          [.observed "example.com".toList 80 (some mixedOutput), .rejected 403] := by
  have hTried : handleUntil listedParsers exampleHosts (answering publicOutput)
    (some plainHeader) = [.observed "example.com".toList 80 (some publicOutput),
      .connecting outside, .relayed false plainRequest.forward] := by decide +kernel
  have hFirst := (connects_only_to_public_addresses listedParsers exampleHosts
      (answering publicOutput) (some plainHeader)).1
    [.observed "example.com".toList 80 (some publicOutput)] _ outside hTried
  rcases hFirst with ⟨_, _, _, _, _, _, _, _, _, _, _, _, _, _, ⟨line, hLine, hRead⟩, hAll⟩
  rcases hAll line hLine with ⟨_, hListed, _, hPublic⟩
  rw [hRead] at hListed
  refine ⟨hTried, ?_, ?_⟩
  · rw [Option.some.inj hListed]
    exact hPublic
  · exact (connects_only_to_public_addresses listedParsers exampleHosts (answering mixedOutput)
        (some plainHeader)).2 "example.com".toList 80 mixedOutput
      "93.184.216.34:80\n10.0.0.1:80\n".toList ["93.184.216.34:80".toList] "10.0.0.1:80".toList []
      inside (by decide +kernel) (decode_encode _) (by decide +kernel)
      (by decide +kernel) rfl rfl (by decide +kernel)

end VonkForge.Egress
