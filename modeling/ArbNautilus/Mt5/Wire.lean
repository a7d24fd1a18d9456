import ArbNautilus.Journal.Event
import Mathlib.Data.Rat.Init

namespace ArbNautilus.Mt5

open Base Journal

structure Binding where
  accountId : Text
  symbol : Text
  eaBuildId : Text
  streamId : Text
  bootId : Text
deriving DecidableEq, Repr

structure Identity where
  accountId : Text
  brokerServer : Text
  brokerLogin : Text
  serverTimezone : Text
  symbol : Text
  terminalBuild : ℕ
  eaBuildId : Text
  declaredSourceSha256 : Text
  streamId : Text
  bootId : Text
  magic : Text
  executionEnabled : Bool
deriving DecidableEq, Repr

def Identity.binding (i : Identity) : Binding :=
  ⟨i.accountId, i.symbol, i.eaBuildId, i.streamId, i.bootId⟩

inductive RecoveryState
  | ready
  | blocked
deriving DecidableEq, Repr

/-- The symbol's fields that a connection pins. -/
structure SymbolSpec where
  symbol : Text
  contractSize : Text
  currencyBase : Text
  currencyMargin : Text
  currencyProfit : Text
  digits : ℕ
  fillingMode : ℕ
  orderMode : ℕ
  point : Text
  tickSize : Text
  tradeCalcMode : ℕ
  tradeMode : ℕ
  volumeMax : Text
  volumeMin : Text
  volumeStep : Text
deriving DecidableEq, Repr

structure Position where
  identifier : Text
  ticket : Text
  magic : Text
  side : Side
  volumeLots : Text
deriving DecidableEq, Repr

structure Account where
  currency : Text
  balance : Text
  equity : Text
  margin : Text
  marginFree : Text
  marginLevel : Text
  leverage : ℕ
deriving DecidableEq, Repr

/-- The decoded snapshot, as far as the execution client reads it. -/
structure Snapshot where
  identity : Identity
  executionEnabled : Bool
  recoveryState : RecoveryState
  account : Account
  maxOrderLots : Text
  symbolSpec : SymbolSpec
  positions : List Position
  observedUtcMs : Text
deriving DecidableEq, Repr

/-- The decoded page of one `get_execution_events` request. -/
structure EventPage where
  identity : Identity
  streamId : Text
  firstRetainedCursor : Text
  lastCursor : Text
  nextCursor : Text
  hasMore : Bool
  events : List JournalEvent
deriving DecidableEq, Repr

structure SubmitData where
  identity : Identity
  outcome : JournalEvent
deriving DecidableEq, Repr

/-- One order request: `close_position` when it names a target, else
`submit_market_delta`. The lots stand for their text. -/
structure Mutation where
  binding : Binding
  clientRequestId : Text
  side : Side
  quantityLots : ℚ
  closeTarget : Option (Text × Text)
deriving DecidableEq, Repr

end ArbNautilus.Mt5
