import ArbNautilus.Bitfinex.Book

/-! The public data client's subscriptions: its commands, the tasks they leave suspended and the
frames it reads. -/

namespace ArbNautilus.Bitfinex.DataClient

open Base Book

section Source

/-- The two channels that are subscribed. -/
inductive Kind
  | book
  | funding
deriving DecidableEq, Repr

/-- What the client asks of the venue. -/
inductive Request
  | conf
  | subscribe (kind : Kind)
  | unsubscribe (channelId : ℤ)
deriving DecidableEq, Repr

abbrev Members := List (PyStr × Value)

/-- A decoded frame: a control event, or one of a channel. -/
inductive Frame
  | control (members : Members)
  | channel (items : List Value)

structure Config where
  instrumentId : String
  rawSymbol : String
  /-- A price and a quantity that the instrument's precision and increments keep. -/
  exactPrice : Decimal → Bool
  exactQuantity : Decimal → Bool
  repr : Value → String

inductive Published
  | quote (bid ask : P0Book.Quoted) (timestamp : ℤ)
  | deltas (bids asks : List P0Book.Quoted) (timestamp : ℤ)
  | funding (rate : Decimal) (timestampMs timestamp : ℤ)
deriving DecidableEq

/-- The fields of one kind: `_channel_id` and `_funding_channel_id`, and so on. -/
structure Lane where
  channelId : Option ℤ := none
  pendingUnsubscribeChannelId : Option ℤ := none
  unsubscribeOnAck : Bool := false
  subscriptionRequested : Bool := false
  /-- The channel a deferred task gives up, and whether it is done. -/
  unsubscribeTask : Option (ℤ × Bool) := none
  /-- The subscribe calls that await that task, and those that it has woken. -/
  waiting : ℕ := 0
  woken : ℕ := 0

structure Client where
  lanes : Kind → Lane := fun _ => {}
  preAckHeartbeatChannelIds : Finset ℤ := ∅
  publishQuotes : Bool := false
  publishDeltas : Bool := false
  publishFunding : Bool := false
  book : P0Book := .empty
  checksumConfigured : Bool := false
  /-- The calls that wait in `_ensure_checksum_configured`; the first holds its lock and has sent
  the flag. -/
  configuring : List Kind := []
  running : Bool := true
  lastFailure : Option BookError := none

namespace Client

def setLane (c : Client) (k : Kind) (lane : Lane) :
    Client := { c with lanes := Function.update c.lanes k lane }

/-- A kind that something still publishes. -/
def wanted (c : Client) : Kind → Bool
  | .book => c.publishQuotes || c.publishDeltas
  | .funding => c.publishFunding

/-- A new channel starts from an empty book. -/
def clearData (c : Client) : Kind → Client
  | .book => { c with book := c.book.clear }
  | .funding => c

/-- Go through `_ensure_checksum_configured`, then ask for the channel. -/
def sendSubscription (c : Client) (k : Kind) : Client × List Request :=
  if c.configuring ≠ [] then ({ c with configuring := c.configuring ++ [k] }, [])
  else if c.checksumConfigured then (c, [.subscribe k])
  else ({ c with configuring := [k] }, [.conf])

/-- The call at the head of the lock goes on. -/
def configured (c : Client) : Client × List Request :=
  match c.configuring with
  | [] => (c, [])
  | k :: rest => ({ c with checksumConfigured := true, configuring := rest }, [.subscribe k])

/-- A subscribe call once no deferred task holds it up. -/
def requestSubscription (c : Client) (k : Kind) : Client × List Request :=
  let lane := { c.lanes k with unsubscribeTask := none, unsubscribeOnAck := false }
  if lane.subscriptionRequested then (c.setLane k lane, [])
  else (c.setLane k { lane with subscriptionRequested := true }).sendSubscription k

/-- `_ensure_book_subscription` and `_ensure_funding_subscription`. -/
def ensureSubscription (c : Client) (k : Kind) : Client × List Request :=
  match (c.lanes k).unsubscribeTask with
  | some (_, false) => (c.setLane k { c.lanes k with waiting := (c.lanes k).waiting + 1 }, [])
  | _ => c.requestSubscription k

/-- A subscribe call that the deferred task has woken. -/
def resumeSubscription (c : Client) (k : Kind) : Client × List Request :=
  match (c.lanes k).woken with
  | 0 => (c, [])
  | left + 1 => (c.setLane k { c.lanes k with woken := left }).requestSubscription k

/-- The deferred task sends its request and wakes the calls that await it. -/
def runUnsubscribeTask (c : Client) (k : Kind) : Client × List Request :=
  match (c.lanes k).unsubscribeTask with
  | some (channelId, false) =>
    let lane := c.lanes k
    (c.setLane k { lane with
      unsubscribeTask := some (channelId, true)
      waiting := 0
      woken := lane.woken + lane.waiting }, [.unsubscribe channelId])
  | _ => (c, [])

/-- What is left of an unsubscribe call once nothing publishes the kind. -/
def giveUpChannel (c : Client) (k : Kind) : Client × List Request :=
  let lane := c.lanes k
  if lane.subscriptionRequested = false then (c, [])
  else match lane.channelId with
    | none => (c.setLane k { lane with unsubscribeOnAck := true }, [])
    | some channelId =>
      (c.setLane k { lane with
        subscriptionRequested := false
        channelId := none
        pendingUnsubscribeChannelId := some channelId }, [.unsubscribe channelId])

def unsubscribeBookIfUnused (c : Client) : Client × List Request :=
  if c.publishQuotes ∨ c.publishDeltas then (c, [])
  else { c with book := c.book.clear }.giveUpChannel .book

def failClosed (c : Client) (e : BookError) : Client :=
  { c with
    lanes := fun _ => {}
    preAckHeartbeatChannelIds := ∅
    publishQuotes := false
    publishDeltas := false
    publishFunding := false
    book := c.book.clear
    checksumConfigured := false
    running := false
    lastFailure := some e }

end Client

/-- A call of the data engine; `deep` where it asks for an L2_MBP book of depth 25. -/
inductive Command
  | subscribeQuoteTicks (instrumentId : String)
  | subscribeOrderBookDeltas (instrumentId : String) (deep : Bool)
  | subscribeFundingRates (instrumentId : String)
  | unsubscribeQuoteTicks (instrumentId : String)
  | unsubscribeOrderBookDeltas (instrumentId : String)
  | unsubscribeFundingRates (instrumentId : String)

/-- A call up to its first await; one for another instrument raises before it does anything. -/
def Client.command (cfg : Config) (c : Client) : Command → Client × List Request
  | .subscribeQuoteTicks instrumentId =>
    if instrumentId ≠ cfg.instrumentId then (c, [])
    else { c with publishQuotes := true }.ensureSubscription .book
  | .subscribeOrderBookDeltas instrumentId deep =>
    if instrumentId ≠ cfg.instrumentId ∨ deep = false then (c, [])
    else { c with publishDeltas := true }.ensureSubscription .book
  | .subscribeFundingRates instrumentId =>
    if instrumentId ≠ cfg.instrumentId then (c, [])
    else { c with publishFunding := true }.ensureSubscription .funding
  | .unsubscribeQuoteTicks instrumentId =>
    if instrumentId ≠ cfg.instrumentId then (c, [])
    else { c with publishQuotes := false }.unsubscribeBookIfUnused
  | .unsubscribeOrderBookDeltas instrumentId =>
    if instrumentId ≠ cfg.instrumentId then (c, [])
    else { c with publishDeltas := false }.unsubscribeBookIfUnused
  | .unsubscribeFundingRates instrumentId =>
    if instrumentId ≠ cfg.instrumentId then (c, [])
    else { c with publishFunding := false }.giveUpChannel .funding

section Frames

def isText (value : Value) (text : String) : Bool :=
  match value with
  | .str (.text t) => t = text.toList
  | _ => false

def text (value : String) : Value := .str (.text value.toList)

/-- `frame.get(key)`. -/
def get (frame : Members) (key : String) :
    Value := (Json.member? (.text key.toList) frame).getD .null

def bookSubId : String := "py000-xaut-book-v1"

/-- `_subscription` and `_funding_subscription`, without their event. -/
def subscription (cfg : Config) : Kind → List (String × String)
  | .book => [("channel", "book"), ("symbol", cfg.rawSymbol), ("prec", "P0"), ("freq", "F0"),
      ("len", "25"), ("subId", bookSubId)]
  | .funding => [("channel", "status"), ("key", "deriv:" ++ cfg.rawSymbol)]

def Kind.name : Kind → String
  | .book => "book"
  | .funding => "funding"

def checkMember (frame : Members) (expected : String × String) : Except BookError Unit :=
  raiseIf (isText (get frame expected.1) expected.2 = false)
    (.dataError ("Bitfinex subscribed with wrong " ++
      if expected.1 = "channel" ∨ expected.1 = "symbol" then "book" else expected.1))

namespace Client

def pending (c : Client) (k : Kind) : Bool :=
  (c.lanes k).subscriptionRequested && (c.lanes k).channelId.isNone

def pendingSubscriptionAckCount (c : Client) :
    ℕ := (c.pending .book).toNat + (c.pending .funding).toNat

/-- The channel that was asked for is there; it is given up at once where nothing publishes it any
more. -/
def bindChannel (c : Client) (k : Kind) (channelId : ℤ) : Client :=
  let lane := c.lanes k
  if lane.unsubscribeOnAck then
    (c.clearData k).setLane k { lane with
      unsubscribeOnAck := false
      subscriptionRequested := false
      channelId := none
      pendingUnsubscribeChannelId := some channelId
      unsubscribeTask := some (channelId, false) }
  else (c.clearData k).setLane k { lane with channelId := some channelId }

def subscribedKind (frame : Members) : Except BookError Kind :=
  if isText (get frame "channel") "book" then pure .book
  else if isText (get frame "channel") "status" then pure .funding
  else throw (.dataError "Bitfinex subscribed an unsupported channel")

def consumeSubscribed (cfg : Config) (c : Client) (frame : Members) : Except BookError Client := do
  let k ← subscribedKind frame
  raiseIf ((c.lanes k).subscriptionRequested = false)
    (.dataError ("unsolicited Bitfinex " ++ k.name ++ " subscription"))
  raiseIf ((c.lanes k).channelId ≠ none)
    (.dataError ("Bitfinex repeated the " ++ k.name ++ " subscription"))
  (subscription cfg k).forM (checkMember frame)
  let channelId ← integer (get frame "chanId") "subscription channel id"
  raiseIf (channelId ≤ 0) (.dataError "Bitfinex subscription channel must be positive")
  raiseIf (some channelId ∈ [(c.lanes .book).channelId, (c.lanes .book).pendingUnsubscribeChannelId,
      (c.lanes .funding).channelId, (c.lanes .funding).pendingUnsubscribeChannelId])
    (.dataError "Bitfinex reused an active or pending channel")
  raiseIf (channelId ∉ c.preAckHeartbeatChannelIds ∧
      c.pendingSubscriptionAckCount < c.preAckHeartbeatChannelIds.card + 1)
    (.dataError "Bitfinex subscription ACK does not match pre-ACK heartbeat channel")
  pure ({ c with preAckHeartbeatChannelIds :=
    c.preAckHeartbeatChannelIds.erase channelId }.bindChannel k channelId)

def endPending (c : Client) (k : Kind) : Client :=
  c.setLane k { c.lanes k with pendingUnsubscribeChannelId := none }

def endActive (c : Client) (k : Kind) : Except BookError Client := do
  raiseIf ((c.lanes k).subscriptionRequested ∨ c.wanted k)
    (.dataError ("Bitfinex unexpectedly ended the " ++ k.name ++ " subscription"))
  pure ((c.clearData k).setLane k { c.lanes k with channelId := none })

def consumeUnsubscribed (c : Client) (frame : Members) : Except BookError Client := do
  raiseIf (isText (get frame "status") "OK" = false)
    (.dataError "Bitfinex unsubscribe was not acknowledged")
  let channelId ← integer (get frame "chanId") "unsubscribe channel id"
  if some channelId = (c.lanes .book).pendingUnsubscribeChannelId then pure (c.endPending .book)
  else if some channelId = (c.lanes .funding).pendingUnsubscribeChannelId then
    pure (c.endPending .funding)
  else if some channelId = (c.lanes .book).channelId then c.endActive .book
  else if some channelId = (c.lanes .funding).channelId then c.endActive .funding
  else throw (.dataError "Bitfinex unsubscribed the wrong channel")

/-- `value == 2`. -/
def isTwo : Value → Bool
  | .int number => number = 2
  | .real (.finite number) => number.value = 2
  | _ => false

def consumeControl (cfg : Config) (c : Client) (frame : Members) : Except BookError Client :=
  let event := get frame "event"
  if isText event "info" ∧ isTwo (get frame "version") ∧
      Json.member? (.text "code".toList) frame = none then
    match get frame "platform" with
    | .obj platform => do
      let status ← integer (get platform "status") "platform status"
      raiseIf (status ≠ 1) (.dataError "Bitfinex platform is not operational")
      pure c
    | _ => throw (.dataError "Bitfinex platform status is missing")
  else if isText event "conf" ∧ isText (get frame "status") "OK" then pure c
  else if isText event "subscribed" then c.consumeSubscribed cfg frame
  else if isText event "unsubscribed" then c.consumeUnsubscribed frame
  else throw (.dataError ("unsupported Bitfinex control event " ++ cfg.repr event))

end Client

/-- `_quote_tick`. -/
def quoteTick (cfg : Config) (book : P0Book) (timestamp : ℤ) : Except BookError Published := do
  let (bid, ask) ← book.quote
  raiseIf (cfg.exactPrice bid.price = false ∨ cfg.exactPrice ask.price = false ∨
      cfg.exactQuantity bid.size = false ∨ cfg.exactQuantity ask.size = false)
    (.dataError "Bitfinex book exceeds configured instrument precision")
  pure (.quote bid ask timestamp)

def orderBookSnapshot (cfg : Config) (book : P0Book) (timestamp : ℤ) :
    Except BookError Published := do
  let (bids, asks) ← book.levels
  raiseIf (∃ level ∈ bids ++ asks, cfg.exactPrice level.price = false ∨
    cfg.exactQuantity level.size = false)
    (.dataError "Bitfinex book exceeds configured instrument precision")
  pure (.deltas bids asks timestamp)

/-- A value, where the flag asks for it. -/
def onlyIf (flag : Bool) (item : Except BookError Published) : Except BookError (List Published) :=
  if flag then do
    let value ← item
    pure [value]
  else pure []

def publishBook (cfg : Config) (quotes deltas : Bool) (book : P0Book) (nowNs : ℤ) :
    Except BookError (List Published) := do
  let first ← onlyIf quotes (quoteTick cfg book nowNs)
  let second ← onlyIf deltas (orderBookSnapshot cfg book nowNs)
  pure (first ++ second)

def consumeBookFrame (cfg : Config) (quotes deltas : Bool) (book : P0Book) (items : List Value)
    (nowNs : ℤ) :
    Except BookError (P0Book × List Published) :=
  match items with
  | [_, payload, checksum] =>
    if isText payload "cs" then do
      let number ← integer checksum "checksum"
      let (book, same) ← book.verify number
      raiseIf (same = false) (.dataError "Bitfinex book checksum mismatch")
      let published ← publishBook cfg quotes deltas book nowNs
      pure (book, published)
    else throw (.dataError "Bitfinex book frame is malformed")
  | [_, .arr (.arr first :: rest)] => do
    let book ← book.applySnapshot (.arr first :: rest)
    let published ← publishBook cfg quotes deltas book nowNs
    pure (book, published)
  | [_, .arr (first :: rest)] => do
    let book ← book.applyDelta (first :: rest)
    pure (book, [])
  | _ => throw (.dataError "Bitfinex book frame is malformed")

def consumeFundingFrame (funding : Bool) (items : List Value) (nowNs : ℤ) :
    Except BookError (List Published) :=
  match items with
  | [_, payload] => match payload with
    | .arr fields =>
      if 9 ≤ fields.length then do
        let timestampMs ← integer (fields.getD 0 .null) "derivatives status timestamp"
        raiseIf (¬(0 < timestampMs ∧ timestampMs ≤ (2 ^ 64 - 1) / 1000000))
          (.dataError "Bitfinex derivatives status timestamp is invalid")
        let rate ← decimal (fields.getD 8 .null) "next funding accrued"
        match rate.abs defaultContext with
        | .error e => throw (.decimal e)
        | .ok size =>
          raiseIf (1 < size.value) (.dataError "Bitfinex next funding accrued is outside [-1, 1]")
          pure (if funding then [.funding rate timestampMs nowNs] else [])
      else throw (.dataError "Bitfinex derivatives status does not contain its funding field")
    | _ => throw (.dataError "Bitfinex derivatives status does not contain its funding field")
  | _ => throw (.dataError "Bitfinex derivatives status frame is malformed")

/-- How a channel that may be missing is written. -/
def shown : Option ℤ → String
  | none => "None"
  | some channelId => toString channelId

def flag (value : Bool) : String := if value then "1" else "0"

namespace Client

def unknownHeartbeat (c : Client) (channelId : ℤ) : BookError :=
  .dataError ("Bitfinex unknown hb requested=book:" ++ flag (c.lanes .book).subscriptionRequested ++
    ",funding:" ++ flag (c.lanes .funding).subscriptionRequested ++ " deferred=book:" ++
    flag (c.lanes .book).unsubscribeOnAck ++ ",funding:" ++ flag
      (c.lanes .funding).unsubscribeOnAck ++
    " channels=book:" ++ shown (c.lanes .book).channelId ++ ",funding:" ++ shown
      (c.lanes .funding).channelId ++
    ",pend_book:" ++ shown (c.lanes .book).pendingUnsubscribeChannelId ++ ",pend_funding:" ++
    shown (c.lanes .funding).pendingUnsubscribeChannelId ++ ",in:" ++ shown (some channelId))

def unexpectedChannel (c : Client) (channelId : ℤ) : BookError :=
  .dataError
    ("Bitfinex frame belongs to an unexpected channel " ++ shown (some channelId) ++ " (book=" ++
    shown (c.lanes .book).channelId ++ ", funding=" ++ shown
      (c.lanes .funding).channelId ++ ", pending_book=" ++
    shown (c.lanes .book).pendingUnsubscribeChannelId ++ ", pending_funding=" ++
    shown (c.lanes .funding).pendingUnsubscribeChannelId ++ ")")

def consumeHeartbeat (cfg : Config) (c : Client) (channelId : ℤ) (nowNs : ℤ) :
    Except BookError (Client × List Published) :=
  if some channelId = (c.lanes .book).channelId then
    -- Bound-channel FIFO makes this a local re-observation, not a price change.
    do
      let published ← onlyIf (c.publishQuotes && c.book.actionable) (quoteTick cfg c.book nowNs)
      pure (c, published)
  else if some channelId = (c.lanes .funding).channelId then pure (c, [])
  else if c.pendingSubscriptionAckCount ≠ 0 ∧ channelId ∈ c.preAckHeartbeatChannelIds then
    pure (c, [])
  else if c.preAckHeartbeatChannelIds.card < c.pendingSubscriptionAckCount then
    pure ({ c with preAckHeartbeatChannelIds := insert channelId c.preAckHeartbeatChannelIds }, [])
  else throw (c.unknownHeartbeat channelId)

def consumeFrame (cfg : Config) (c : Client) (frame : Frame) (nowNs : ℤ) :
    Except BookError (Client × List Published) :=
  match frame with
  | .control members => (c.consumeControl cfg members).map (·, [])
  | .channel items =>
    match items with
    | number :: payload :: rest =>
      if 2 ≤ rest.length then throw (.dataError "Bitfinex channel frame has invalid length")
      else do
        let channelId ← integer number "channel id"
        if some channelId = (c.lanes .book).pendingUnsubscribeChannelId ∨
            some channelId = (c.lanes .funding).pendingUnsubscribeChannelId then pure (c, [])
        else if isText payload "hb" ∧ rest = [] then c.consumeHeartbeat cfg channelId nowNs
        else if some channelId = (c.lanes .book).channelId then do
          let (book, published) ← consumeBookFrame cfg c.publishQuotes c.publishDeltas c.book items
            nowNs
          pure ({ c with book := book }, published)
        else if some channelId = (c.lanes .funding).channelId then do
          let published ← consumeFundingFrame c.publishFunding items nowNs
          pure (c, published)
        else throw (c.unexpectedChannel channelId)
    | _ => throw (.dataError "Bitfinex channel frame has invalid length")

/-- One turn of the read loop; a frame that raises closes the client. -/
def readFrame (cfg : Config) (c : Client) (frame : Frame) (nowNs : ℤ) : Client × List Published :=
  match c.consumeFrame cfg frame nowNs with
  | .ok result => result
  | .error e => (c.failClosed e, [])

end Client

end Frames

end Source

end ArbNautilus.Bitfinex.DataClient
