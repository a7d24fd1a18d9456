import ArbNautilus.Journal.Event

namespace ArbNautilus.Journal

open Base

inductive JournalFile
  | identity
  | events
deriving DecidableEq, Repr

structure SubmitRequest where
  order : Submission
  /-- The operation is `close_position`. -/
  closing : Bool
deriving DecidableEq, Repr

/-- What reaches the outside: bytes of a file, a reservation's broker call. -/
inductive Effect
  | create (file : JournalFile) (contents : Text) (kept : ℕ) (confirmed : Bool)
  | append (event : JournalEvent) (kept : ℕ) (confirmed : Bool)
  | orderSend (request : SubmitRequest) (loaded : List JournalEvent)
deriving DecidableEq, Repr

/-- How the terminal answers one line's write. -/
inductive WriteAnswer
  | refused
  | wrote (kept : ℕ) (flushed : Bool)
deriving DecidableEq, Repr

/-- The journal's globals in a running expert. -/
structure Ea where
  journalNamespace : Text
  streamId : Text
  firstCursor : Text
  events : List JournalEvent
  journalReady : Bool
  recoveryReady : Bool
  executionEnabled : Bool
  bootId : Text
deriving DecidableEq, Repr

/-- A call's return value, with the globals and the effects it leaves behind. -/
structure Ran (α : Type) where
  value : α
  ea : Ea
  effects : List Effect
deriving DecidableEq, Repr

def crlfToLf : Text → Text
  | [] => []
  | '\r' :: '\n' :: rest => '\n' :: crlfToLf rest
  | c :: rest => c :: crlfToLf rest

def lfToCrlf : Text → Text
  | [] => []
  | '\n' :: rest => '\r' :: '\n' :: lfToCrlf rest
  | c :: rest => c :: lfToCrlf rest

/-- What a `FILE_TXT` handle writes for a line of these contents. -/
def wireText (contents : Text) : Text := lfToCrlf (crlfToLf (contents ++ ['\n']))

/-- The bytes that are kept, and whether the write and its flush are known to be whole. -/
def writeLine (contents : Text) : WriteAnswer → Option (ℕ × Bool)
  | .refused => none
  | .wrote kept flushed => some (kept, decide ((wireText contents).length ≤ kept) && flushed)

def Effect.confirmed : Effect → Bool
  | .create _ _ _ confirmed | .append _ _ confirmed => confirmed
  | .orderSend .. => true

def createLine (file : JournalFile) (contents : Text) (answer : WriteAnswer) : Option Effect :=
  (writeLine contents answer).map fun (kept, confirmed) => .create file contents kept confirmed

def appendLine (event : JournalEvent) (answer : WriteAnswer) : Option Effect :=
  (writeLine event.line answer).map fun (kept, confirmed) => .append event kept confirmed

structure Disk where
  identity : Option Text
  events : Option Text
deriving DecidableEq, Repr

def Disk.after (disk : Disk) : Effect → Disk
  | .create .identity contents kept _ =>
    { disk with identity := some (disk.identity.getD [] ++ (wireText contents).take kept) }
  | .create .events contents kept _ =>
    { disk with events := some (disk.events.getD [] ++ (wireText contents).take kept) }
  | .append event kept _ =>
    { disk with events := some (disk.events.getD [] ++ (wireText event.line).take kept) }
  | .orderSend .. => disk

def identityFields (journalNamespace streamId : Text) : List Text :=
  ["I".toList, "1".toList, journalNamespace, streamId]

def headerFields (journalNamespace streamId firstCursor : Text) : List Text :=
  ["H".toList, "1".toList, journalNamespace, streamId, firstCursor]

def loadIdentity (journalNamespace content : Text) : Option Text :=
  match fileLines content with
  | [line] =>
    match verifiedParts line 5 with
    | none => none
    | some parts =>
      let part index := parts.getD index []
      if part 0 ≠ "I".toList ∨ part 1 ≠ "1".toList ∨ part 2 ≠ journalNamespace ∨
          ¬safeToken (part 3) then none
      else some (part 3)
  | _ => none

/-- One event of a history that so far holds `prior`. -/
def validEvent (prior : List JournalEvent) (current : JournalEvent) : Bool :=
  match current.body with
  | .streamStarted .. => prior.all fun event =>
      !(event.body.eventType == .streamStarted && event.bootId == current.bootId)
  | .submissionReserved order => order.closeTargetValid && prior.all fun event =>
      !(event.body.eventType.isOrderEvent && event.isFor order.clientRequestId)
  | .orderRejected order .. | .orderUnknown order .. => settled order
  | .orderFilled order fill => settled order &&
      (!order.hasCloseTarget || fill.venuePositionId == order.positionIdentifier)
where
  /-- A terminal event: its order is the reserved one, and has no terminal yet. -/
  settled (order : Submission) : Bool :=
    order.closeTargetValid && (prior.all fun event => !event.settles order.clientRequestId) &&
      match (prior.filter fun event => event.reserves order.clientRequestId).getLast? with
      | none => false
      | some reservation => reservation.body.order == some order

def validHistory : List JournalEvent → List JournalEvent → Bool
  | _, [] => true
  | prior, current :: rest => validEvent prior current && validHistory (prior ++ [current]) rest

def reservedEvent (events : List JournalEvent) (clientRequestId : Text) : Option JournalEvent :=
  events.find? fun event => event.reserves clientRequestId

def outcomeEvent (events : List JournalEvent) (clientRequestId : Text) : Option JournalEvent :=
  events.find? fun event => event.settles clientRequestId

/-- Every reservation has a terminal event, and no terminal event is unknown. -/
def recovered (events : List JournalEvent) : Bool :=
  events.all fun event => match event.body with
    | .submissionReserved order =>
      (outcomeEvent events order.clientRequestId).any fun outcome =>
        outcome.body.eventType != .orderUnknown
    | _ => true

/-- The history's verdict, and the recovery flag it leaves. -/
def validateExecutionHistory (events : List JournalEvent) : Bool × Bool :=
  if validHistory [] events then (true, recovered events) else (false, true)

def readEvents (streamId : Text) : Text → List Text → Option (List JournalEvent)
  | _, [] => some []
  | expected, line :: rest =>
    if line = [] then none
    else match parseEvent streamId line expected with
    | none => none
    | some event =>
      if increment expected = [] ∧ rest ≠ [] then none
      else (readEvents streamId (increment expected) rest).map (event :: ·)

/-- The first cursor, the events and the recovery flag, when the whole file is in order. -/
def loadEvents (journalNamespace streamId content : Text) :
    Option (Text × List JournalEvent × Bool) :=
  match fileLines content with
  | [] => none
  | header :: rest =>
    match verifiedParts header 6 with
    | none => none
    | some parts =>
      let part index := parts.getD index []
      if part 0 ≠ "H".toList ∨ part 1 ≠ "1".toList ∨ part 2 ≠ journalNamespace ∨
          part 3 ≠ streamId ∨ ¬canonicalUint64 (part 4) false then none
      else match readEvents streamId (increment (part 4)) rest with
      | none => none
      | some events =>
        let (valid, recovery) := validateExecutionHistory events
        if valid then some (part 4, events, recovery) else none

def journalPrefix : Text := "PY000_MT5_V1_".toList

def createNew (ea : Ea) (newStreamId : Text) (identityWrite headerWrite : WriteAnswer) : Ran Bool :=
  let ea := { ea with streamId := newStreamId }
  if ¬safeToken newStreamId then ⟨false, ea, []⟩
  else
    let identity := createLine .identity (sealLine (identityFields ea.journalNamespace newStreamId))
      identityWrite
    if ¬identity.any Effect.confirmed then ⟨false, ea, identity.toList⟩
    else
      let header := createLine .events
        (sealLine (headerFields ea.journalNamespace newStreamId "0".toList)) headerWrite
      if ¬header.any Effect.confirmed then ⟨false, ea, identity.toList ++ header.toList⟩
      else
        ⟨true, { ea with events := [], journalReady := true, recoveryReady := true },
          identity.toList ++ header.toList⟩

/-- The journal part of a start; an expert without a ready journal serves no event. -/
def init (journalNamespace : Text) (enabled : Bool) (disk : Disk) (newStreamId : Text)
    (identityWrite headerWrite : WriteAnswer) : Ran Bool :=
  let ea : Ea := ⟨journalNamespace, [], "0".toList, [], false, true, enabled, []⟩
  if ¬(journalPrefix.isPrefixOf journalNamespace ∧ safeToken journalNamespace) then ⟨false, ea, []⟩
  else match disk.identity, disk.events with
  | none, none => createNew ea newStreamId identityWrite headerWrite
  | none, some _ => ⟨false, ea, []⟩
  | some identity, events =>
    match loadIdentity journalNamespace identity with
    | none => ⟨false, ea, []⟩
    | some streamId =>
      let ea := { ea with streamId }
      match events.bind (loadEvents journalNamespace streamId) with
      | none => ⟨true, ea, []⟩
      | some (firstCursor, events, recoveryReady) =>
        ⟨true, { ea with firstCursor, events, recoveryReady, journalReady := true }, []⟩

def lastCursor (ea : Ea) : Text :=
  match ea.events.getLast? with
  | none => ea.firstCursor
  | some event => event.eventSeq

def appendStreamStarted (ea : Ea) (bootId eventTimeMs eaBuildId : Text) (enabled : Bool)
    (write : WriteAnswer) : Ran Bool :=
  if ¬ea.journalReady ∨ ¬safeToken bootId ∨ ¬canonicalUint64 eventTimeMs true ∨
      ¬safeToken eaBuildId then ⟨false, ea, []⟩
  else if ea.events.any fun event =>
      event.body.eventType == .streamStarted && event.bootId == bootId then ⟨false, ea, []⟩
  else
    let sequence := increment (lastCursor ea)
    if sequence = [] then ⟨false, ea, []⟩
    else
      let event : JournalEvent :=
        ⟨sequence, eventTimeMs, ea.streamId, bootId, .streamStarted eaBuildId enabled⟩
      let written := appendLine event write
      if ¬written.any Effect.confirmed then ⟨false, ea, written.toList⟩
      else ⟨true, { ea with events := ea.events ++ [event] }, written.toList⟩

/-- A failed store disables the journal. -/
def storeEvent (ea : Ea) (event : JournalEvent) (stored : Bool) : Bool × Ea :=
  if stored then (true, { ea with events := ea.events ++ [event] })
  else (false, { ea with journalReady := false, recoveryReady := false })

def appendReserved (ea : Ea) (bootId eventTimeMs : Text) (order : Submission)
    (write : WriteAnswer) (stored : Bool) : Ran Bool :=
  if ¬ea.journalReady ∨ ¬ea.recoveryReady ∨ ¬safeToken bootId ∨
      ¬canonicalUint64 eventTimeMs true ∨ ¬safeToken order.clientRequestId ∨
      ¬positiveDecimal order.quantityLots ∨ ¬order.closeTargetValid ∨
      (reservedEvent ea.events order.clientRequestId).isSome ∨
      (outcomeEvent ea.events order.clientRequestId).isSome then ⟨false, ea, []⟩
  else
    let sequence := increment (lastCursor ea)
    if sequence = [] then ⟨false, ea, []⟩
    else
      let event : JournalEvent :=
        ⟨sequence, eventTimeMs, ea.streamId, bootId, .submissionReserved order⟩
      let written := appendLine event write
      if ¬written.any Effect.confirmed then ⟨false, ea, written.toList⟩
      else
        let (kept, ea) := storeEvent { ea with recoveryReady := false } event stored
        ⟨kept, ea, written.toList⟩

/-- A terminal event's sequence and order, taken from the reservation. -/
def prepareTerminal (ea : Ea) (bootId eventTimeMs clientRequestId : Text) :
    Option (Text × Submission) :=
  if ¬ea.journalReady ∨ ¬safeToken bootId ∨ ¬canonicalUint64 eventTimeMs true ∨
      ¬safeToken clientRequestId ∨ (outcomeEvent ea.events clientRequestId).isSome then none
  else match (reservedEvent ea.events clientRequestId).bind (·.body.order) with
  | none => none
  | some order =>
    if increment (lastCursor ea) = [] then none else some (increment (lastCursor ea), order)

/-- The end both terminal appends share: write, store, and check the history again. -/
def appendTerminal (ea : Ea) (event : JournalEvent) (write : WriteAnswer) (stored : Bool) :
    Ran (Option JournalEvent) :=
  let written := appendLine event write
  if ¬written.any Effect.confirmed then
    ⟨none, { ea with recoveryReady := false }, written.toList⟩
  else
    let (kept, ea) := storeEvent ea event stored
    let (valid, recovery) := validateExecutionHistory ea.events
    if ¬kept ∨ ¬valid then
      ⟨none, { ea with journalReady := false, recoveryReady := false }, written.toList⟩
    else ⟨some event, { ea with recoveryReady := recovery }, written.toList⟩

/-- Which of the two simple terminals is written. -/
inductive SimpleOutcome
  | rejected
  | unknown
deriving DecidableEq, Repr

def SimpleOutcome.body : SimpleOutcome → Submission → Text → Text → EventBody
  | .rejected => .orderRejected
  | .unknown => .orderUnknown

def appendRejectedOrUnknown (ea : Ea) (bootId eventTimeMs : Text) (outcome : SimpleOutcome)
    (clientRequestId reason brokerRetcode : Text) (write : WriteAnswer) (stored : Bool) :
    Ran (Option JournalEvent) :=
  if ¬safeToken reason ∨ ¬canonicalUint64 brokerRetcode false then ⟨none, ea, []⟩
  else match prepareTerminal ea bootId eventTimeMs clientRequestId with
  | none => ⟨none, ea, []⟩
  | some (sequence, order) =>
    appendTerminal ea ⟨sequence, eventTimeMs, ea.streamId, bootId,
      outcome.body order reason brokerRetcode⟩ write stored

def appendFilled (ea : Ea) (bootId eventTimeMs clientRequestId : Text) (fill : Fill)
    (write : WriteAnswer) (stored : Bool) : Ran (Option JournalEvent) :=
  if ¬fill.valid then ⟨none, ea, []⟩
  else match prepareTerminal ea bootId eventTimeMs clientRequestId with
  | none => ⟨none, ea, []⟩
  | some (sequence, order) =>
    appendTerminal ea ⟨sequence, eventTimeMs, ea.streamId, bootId, .orderFilled order fill⟩
      write stored

end ArbNautilus.Journal
