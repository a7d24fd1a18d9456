import ArbNautilus.Base.Coroutine
import ArbNautilus.Mt5.Client

namespace ArbNautilus.Mt5

open Base Journal Handler Coroutine

/-- What a task of the client waits for: the state lock, the clock, the poll
task it cancelled, or the transport. -/
inductive Wait
  | lock
  | sleep
  | pollTask
  | open
  | hello
  | snapshot (binding : Binding)
  | executionEvents (binding : Binding) (afterCursor : Text) (limit : ℕ)
  | mutation (mutation : Mutation)
deriving DecidableEq

def Reply : Wait → Type
  | .lock | .sleep | .pollTask | .open => Unit
  | .hello => Identity × RecoveryState
  | .snapshot _ => Snapshot
  | .executionEvents .. => EventPage
  | .mutation _ => SubmitData

/-- A task of the client. Every wait may end in any error instead. -/
abbrev Task := Coroutine Client Raised Reply

def acquire : Task Unit := ask Wait.lock

def sleep : Task Unit := ask Wait.sleep

def joinPollTask : Task Unit := ask Wait.pollTask

namespace Transport

def «open» : Task Unit := ask Wait.open

def hello : Task (Identity × RecoveryState) := ask Wait.hello

def snapshot (binding : Binding) : Task Snapshot := ask (Wait.snapshot binding)

def executionEvents (binding : Binding) (afterCursor : Text) (limit : ℕ) : Task EventPage :=
  ask (Wait.executionEvents binding afterCursor limit)

/-- `submit_market_delta` or `close_position`. -/
def mutate (mutation : Mutation) : Task SubmitData := ask (Wait.mutation mutation)

end Transport

section Waits

variable {ω : Type} {D : Discipline Client ω Raised Reply} {since : Client} {now : Client × ω}

@[simp] theorem safe_acquire {post : Except Raised Unit → Client → Client × ω → Prop} :
    acquire.Safe D post since now ↔ D.inv now ∧ D.guarantee since now.1 ∧
      ∀ later (reply : Except Raised Unit), D.rely now later → D.inv later →
        D.admits Wait.lock later reply → post reply later.1 later := Iff.rfl

@[simp] theorem safe_sleep {post : Except Raised Unit → Client → Client × ω → Prop} :
    sleep.Safe D post since now ↔ D.inv now ∧ D.guarantee since now.1 ∧
      ∀ later (reply : Except Raised Unit), D.rely now later → D.inv later →
        D.admits Wait.sleep later reply → post reply later.1 later := Iff.rfl

@[simp] theorem safe_joinPollTask {post : Except Raised Unit → Client → Client × ω → Prop} :
    joinPollTask.Safe D post since now ↔ D.inv now ∧ D.guarantee since now.1 ∧
      ∀ later (reply : Except Raised Unit), D.rely now later → D.inv later →
        D.admits Wait.pollTask later reply → post reply later.1 later := Iff.rfl

@[simp] theorem safe_open {post : Except Raised Unit → Client → Client × ω → Prop} :
    Transport.open.Safe D post since now ↔ D.inv now ∧ D.guarantee since now.1 ∧
      ∀ later (reply : Except Raised Unit), D.rely now later → D.inv later →
        D.admits Wait.open later reply → post reply later.1 later := Iff.rfl

@[simp] theorem safe_hello
    {post : Except Raised (Identity × RecoveryState) → Client → Client × ω → Prop} :
    Transport.hello.Safe D post since now ↔ D.inv now ∧ D.guarantee since now.1 ∧
      ∀ later (reply : Except Raised (Identity × RecoveryState)), D.rely now later → D.inv later →
        D.admits Wait.hello later reply → post reply later.1 later := Iff.rfl

@[simp] theorem safe_snapshot {binding : Binding}
    {post : Except Raised Snapshot → Client → Client × ω → Prop} :
    (Transport.snapshot binding).Safe D post since now ↔ D.inv now ∧ D.guarantee since now.1 ∧
      ∀ later (reply : Except Raised Snapshot), D.rely now later → D.inv later →
        D.admits (Wait.snapshot binding) later reply → post reply later.1 later := Iff.rfl

@[simp] theorem safe_executionEvents {binding : Binding} {afterCursor : Text} {limit : ℕ}
    {post : Except Raised EventPage → Client → Client × ω → Prop} :
    (Transport.executionEvents binding afterCursor limit).Safe D post since now ↔
      D.inv now ∧ D.guarantee since now.1 ∧
      ∀ later (reply : Except Raised EventPage), D.rely now later → D.inv later →
        D.admits (Wait.executionEvents binding afterCursor limit) later reply →
          post reply later.1 later := Iff.rfl

@[simp] theorem safe_mutate {mutation : Mutation}
    {post : Except Raised SubmitData → Client → Client × ω → Prop} :
    (Transport.mutate mutation).Safe D post since now ↔ D.inv now ∧ D.guarantee since now.1 ∧
      ∀ later (reply : Except Raised SubmitData), D.rely now later → D.inv later →
        D.admits (Wait.mutation mutation) later reply → post reply later.1 later := Iff.rfl

end Waits

/-- `async with self._state_lock`. -/
def withStateLock {α : Type} (task : ℕ) (body : Task α) : Task α := do
  acquire
  perform (change fun c => { c with stateLock := some task })
  body.tryFinally (change fun c => { c with stateLock := none })

section Journal

variable (config : Config) (identity : Identity)

/-- `_read_complete_journal`'s local variables. -/
structure Reading where
  cursor : Text
  events : List JournalEvent
  lastCursor : Option Text

def readEvent (r : Reading) (event : JournalEvent) : Except Raised Reading := do
  raiseIf (intOf event.eventSeq ≠ intOf r.cursor + 1)
    (.executionError "execution journal cursor is not contiguous")
  pure { r with cursor := event.eventSeq, events := r.events ++ [event] }

def readPage (r : Reading) (page : EventPage) : Except Raised Reading := do
  validatePageIdentity page identity
  raiseIf (page.firstRetainedCursor ≠ ['0'])
    (.executionError "execution journal history is not fully retained")
  raiseIf (r.lastCursor ≠ none ∧ r.lastCursor ≠ some page.lastCursor)
    (.executionError "execution journal tail changed during pagination")
  let r ← page.events.foldlM readEvent { r with lastCursor := some page.lastCursor }
  raiseIf (page.nextCursor ≠ r.cursor)
    (.executionError "execution journal page cursor is inconsistent")
  raiseIf (page.hasMore = false ∧ r.cursor ≠ page.lastCursor)
    (.executionError "execution journal ended before its declared tail")
  pure r

/-- Reads at most this many pages more. -/
def readPages : ℕ → Reading → Task (List JournalEvent × Text)
  | 0, _ => Coroutine.raise
    (.executionError "execution journal pagination exceeded its page budget")
  | pages + 1, r => do
    let page ← Transport.executionEvents identity.binding r.cursor config.eventPageLimit
    let r ← perform (check (readPage identity r page))
    if page.hasMore then readPages pages r else pure (r.events, r.cursor)

/-- `asyncio.timeout`, whose expiry the caller reports. -/
def withPaginationTimeout {α : Type} (body : Task α) : Task α :=
  body.tryCatch fun
    | .timeoutError =>
      Coroutine.raise (.executionError "execution journal pagination exceeded its time budget")
    | e => Coroutine.raise e

def readCompleteJournal : Task (List JournalEvent × Text) :=
  withPaginationTimeout (readPages config identity config.eventPaginationMaxPages ⟨['0'], [], none⟩)

def verifyUnchangedJournalTail (cursor : Text) : Task Unit := do
  let page ← Transport.executionEvents identity.binding cursor config.eventPageLimit
  perform (check (do
    validatePageIdentity page identity
    raiseIf (page.firstRetainedCursor ≠ ['0'] ∨ page.nextCursor ≠ cursor ∨
      page.lastCursor ≠ cursor ∨
        page.events ≠ [])
      (.executionError "execution journal changed while snapshot was captured")))

end Journal

section Consume

variable (config : Config) (expectedOutcome : Option JournalEvent)

/-- Applies a page's events in order, up to the expected outcome; the answer is
whether that was reached. -/
def applyEvents : List JournalEvent → Call Bool
  | [] => pure false
  | event :: events => do
    let cursor ← look Client.cursor
    raiseWhen (intOf event.eventSeq ≠ intOf cursor + 1)
      (.executionError "execution journal cursor is not contiguous")
    let expected := expectedOutcome.any fun outcome =>
      intOf event.eventSeq = intOf outcome.eventSeq
    raiseWhen (expected = true ∧ some event ≠ expectedOutcome)
      (.executionError "submit outcome differs from its durable execution event")
    applyEvent config event
    change fun c => { c with cursor := event.eventSeq, history := c.history ++ [event] }
    if expected then pure true else applyEvents events

def pageTarget (target : Option ℕ) (page : EventPage) : Except Raised ℕ :=
  let last := intOf page.lastCursor
  match target with
  | none => do
    raiseIf (∃ outcome ∈ expectedOutcome, last < intOf outcome.eventSeq)
      (.executionError "submit outcome exceeds the durable execution stream tail")
    pure last
  | some target => do
    raiseIf (last < target)
      (.executionError "execution journal tail moved behind the pagination target")
    pure target

/-- The stream is read to the target; an expected outcome was not in it. -/
def reachedTarget : Task Unit :=
  if expectedOutcome.isSome then
    Coroutine.raise (.executionError "submit outcome is missing from the durable execution stream")
  else pure ()

def consumePages (identity : Identity) : ℕ → Option ℕ → Task Unit
  | 0, _ => Coroutine.raise
    (.executionError "execution journal pagination exceeded its page budget")
  | pages + 1, target => do
    let cursor ← perform (look Client.cursor)
    if ∃ last ∈ target, last ≤ intOf cursor then reachedTarget expectedOutcome
    else
      let limit := match target with
        | none => config.eventPageLimit
        | some target => min config.eventPageLimit (target - intOf cursor)
      let page ← Transport.executionEvents identity.binding cursor limit
      perform (check (validatePageIdentity page identity))
      let target ← perform (check (pageTarget expectedOutcome target page))
      let reached ← perform (applyEvents config expectedOutcome page.events)
      if reached then pure ()
      else
        let cursor ← perform (look Client.cursor)
        if target ≤ intOf cursor then reachedTarget expectedOutcome
        else if page.hasMore = false then
          Coroutine.raise (.executionError "execution journal ended before its pagination target")
        else consumePages identity pages (some target)

/-- `_consume_event_pages`. -/
def consumeEventPages : Task Unit := do
  let identity ← perform currentIdentity
  withPaginationTimeout (consumePages config expectedOutcome identity
    config.eventPaginationMaxPages none)

end Consume

section Tasks

variable (config : Config)

/-- What a failed refresh leaves behind before its error goes on. -/
def refreshFailed : Raised → Call Unit
  | .requestTimeout message => markSnapshotUnavailable config (.requestTimeout message)
  | .remoteError code message =>
    if code = "SNAPSHOT_UNAVAILABLE" then markSnapshotUnavailable config (.remoteError code message)
    else do
      fail (.remoteError code message)
      failClosedDisconnect
  | e => do
    fail e
    failClosedDisconnect

def refreshSnapshotIfDue (force : Bool) : Task Unit := do
  let due ← perform
    (look fun c => force || c.nextSnapshotRefreshAt.any (· ≤ c.surroundings.loopTime))
  if due then
    (do
      let identity ← perform currentIdentity
      let snapshot ← Transport.snapshot identity.binding
      perform fun c =>
        (validateSnapshot config snapshot identity c.recoveryState c.executionSpec, c)
      let cursor ← perform (look Client.cursor)
      verifyUnchangedJournalTail config identity cursor
      perform do
        installSnapshot config snapshot
        clearTransientRequestTimeout
        scheduleSnapshotRefresh config : Task Unit).tryCatch fun e => do
      perform (refreshFailed config e)
      Coroutine.raise e

/-- What `_connect` installs once the journal's tail is verified. -/
def install (identity : Identity) (recovery : RecoveryState) (snapshot : Snapshot)
    (events : List JournalEvent) (cursor : Text) : Call Unit := do
  let projection ← check (projectJournal events identity.bootId)
  change fun c => { c with
    boundStreamId := some identity.streamId
    identity := some identity
    executionSpec := some (snapshotExecutionSpec snapshot) }
  installSnapshot config snapshot
  change fun c => { c with
    cursor
    history := events
    projection
    seenRequestIds := projection.seenRequestIds ++ c.pending.keys
    recoveryState := some recovery }
  recoverLocalPendingFromJournal config
  change fun c => { c with transientRequestFailure := none }
  refreshExecutionHold
  scheduleSnapshotRefresh config
  change fun c => { c with lastFailure := none }

/-- The `try` of `_connect`. -/
def connecting : Task Unit := do
  Transport.open
  let hello ← Transport.hello
  perform (check (validateIdentity config hello.1))
  let bound ← perform (look Client.boundStreamId)
  perform (check (raiseIf (bound ≠ none ∧ bound ≠ some hello.1.streamId)
    (.executionError "MT5 execution journal stream changed")))
  let journal ← readCompleteJournal config hello.1
  let snapshot ← Transport.snapshot hello.1.binding
  perform (check (validateSnapshot config snapshot hello.1 (some hello.2) none))
  verifyUnchangedJournalTail config hello.1 journal.2
  perform (install config hello.1 hello.2 snapshot journal.1 journal.2)

def connect : Task Unit :=
  (connecting config).tryCatch fun e => do
    perform do
      fail e
      change Client.unbound
    Coroutine.raise e

def finishConnect : Task Unit :=
  perform (change fun c => { c with running := true, pollTask := true })

def disconnect : Task Unit := do
  perform (change fun c => { c with running := false })
  let polling ← perform (look Client.pollTask)
  if polling then
    joinPollTask
  perform (change fun c => { c with pollTask := false }.unbound)

/-- The body of `_poll_once`, under the state lock. -/
def pollLocked : Task Unit := do
  let whole ← (do
    consumeEventPages config none
    refreshSnapshotIfDue config false
    pure true : Task Bool).tryCatch fun
      | .requestTimeout message => do
        perform (markTransientRequestTimeout (.requestTimeout message))
        pure false
      | .remoteError code message =>
        if code ≠ "SNAPSHOT_UNAVAILABLE" then Coroutine.raise (.remoteError code message)
        else pure false
      | e => Coroutine.raise e
  if whole then
    perform clearTransientRequestTimeout

def pollOnce (task : ℕ) : Task Unit := withStateLock task (pollLocked config)

/-- A failed poll ends the loop, and the connection with it. -/
def pollFailed (e : Raised) : Call Unit := do
  fail e
  if (← look Client.identity).isSome then failClosedDisconnect

/-- `_poll_events`, over at most this many turns. -/
def pollEvents (task : ℕ) : ℕ → Task Unit
  | 0 => pure ()
  | turns + 1 => do
    let running ← perform (look Client.running)
    if running then
      sleep
      let again ← (do
        pollOnce config task
        pure true : Task Bool).tryCatch fun
          | .cancelledError => Coroutine.raise .cancelledError
          | .requestTimeout message => do
            perform (markTransientRequestTimeout (.requestTimeout message))
            pure true
          | e => do
            perform (pollFailed e)
            pure false
      if again then pollEvents task turns

/-- The mutation of a prepared submission. -/
def Pending.mutation (pending : Pending) (binding : Binding) : Mutation :=
  ⟨binding, pending.order.clientOrderId, pending.order.side, pending.quantityLots,
    pending.closeTarget⟩

/-- Sends the mutation and reads the journal up to its outcome. -/
def sendMutation (pending : Pending) : Task Unit := do
  let identity ← perform currentIdentity
  let mutation := pending.mutation identity.binding
  perform (change fun c => { c with
    sent := c.sent ++ [⟨mutation, c.pending.keys, c.projection⟩] })
  let data ← Transport.mutate mutation
  perform do
    let identity ← currentIdentity
    raiseWhen (data.identity ≠ identity) (.executionError "submit identity changed")
    let cursor ← look Client.cursor
    raiseWhen (intOf data.outcome.eventSeq ≤ intOf cursor)
      (.executionError "submit outcome does not advance the journal cursor")
  consumeEventPages config (some data.outcome)

/-- A submission without its outcome stays pending, as UNKNOWN. -/
def submissionFailed (id : Text) (e : Raised) : Call Unit := do
  change (·.setUnknown id)
  fail e
  if let .requestTimeout _ := e then
    change fun c => { c with transientRequestFailure := c.lastFailure }
  refreshExecutionHold

def submitPrepared (pending : Pending) : Task Unit := do
  let id := pending.order.clientOrderId
  perform do
    publish fun c => .submitted pending.order c.surroundings.timestampNs
    change fun c => { c with
      pending := c.pending.set id pending
      seenRequestIds := id :: c.seenRequestIds }
  (sendMutation config pending).tryCatch fun e => do
    perform (submissionFailed id e)
    if e ≠ .timeoutError ∧ e.isTransport = false then
      Coroutine.raise e

/-- From the hold check on. -/
def submitAdmitted (command : SubmitOrder) (planned : Bool) (expected : Option ℚ) : Task Unit := do
  let order := command.order
  let c ← perform (look id)
  match c.executionHoldReason with
  | some reason => perform (deny order ("MT5 execution HOLD: " ++ reason))
  | none =>
    if c.pending.entries ≠ [] then
      perform (deny order "MT5 execution is blocked by an unresolved UNKNOWN submission")
    else match c.prepare config order command.positionId planned expected with
      | .error (.executionError message) => perform (deny order message)
      | .error e => Coroutine.raise e
      | .ok pending => submitPrepared config pending

def refreshDenied (order : Order) (e : Raised) : Call Unit := do
  if let .requestTimeout _ := e then markTransientRequestTimeout e
  deny order ("MT5 snapshot refresh failed: " ++ e.text)

/-- The body of `_submit_order`, under the state lock. -/
def submitLocked (command : SubmitOrder) : Task Unit := do
  let order := command.order
  let seen ← perform (look fun c => decide (order.clientOrderId ∈ c.seenRequestIds))
  if seen then
    perform (deny order "MT5 execution journal already contains this order ID")
  else match hedgePlanPrecondition command with
    | .error e => perform (deny order e.message)
    | .ok (planned, expected) => do
      let refreshed ← (do
        refreshSnapshotIfDue config ((order.isReduceOnly || command.positionId.isSome) || planned)
        pure true : Task Bool).tryCatch fun
          | .cancelledError => Coroutine.raise .cancelledError
          | e => do
            perform (refreshDenied order e)
            pure false
      if refreshed then submitAdmitted config command planned expected

def submitOrder (task : ℕ) (command : SubmitOrder) : Task Unit :=
  let order := command.order
  if order.orderType ≠ .market ∨ order.timeInForce ≠ .fok then
    perform (deny order "MT5 v1 execution supports MARKET FOK orders only")
  else if order.isReduceOnly ≠ command.positionId.isSome then
    perform (deny order "MT5 close requires both reduce-only and an exact position ID")
  else if order.isQuoteQuantity = true ∨ order.hasExecAlgorithm = true then
    perform (deny order "MT5 v1 execution does not support additional order semantics")
  else withStateLock task (submitLocked config command)

end Tasks

end ArbNautilus.Mt5
