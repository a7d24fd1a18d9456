import ArbNautilus.Base.Rounding
import ArbNautilus.Base.Dict
import ArbNautilus.Base.Raise
import ArbNautilus.Store.Models
import ArbNautilus.Store.Json
import ArbNautilus.Store.Obligations
import ArbNautilus.Store.Effects
import ArbNautilus.Store.Run
import ArbNautilus.Store.LateFill
import ArbNautilus.Store.Loosen
import ArbNautilus.Store.Sticky
import ArbNautilus.Store.Atomic
import ArbNautilus.Store.Stop
import ArbNautilus.Base.Once
import ArbNautilus.Store.Custody
import ArbNautilus.Base.Text
import ArbNautilus.Store.Owner
import ArbNautilus.Store.Validate
import ArbNautilus.Store.Maker
import ArbNautilus.Store.Balances
import ArbNautilus.Store.Tally
import ArbNautilus.Store.Conservation
import ArbNautilus.Store.Hedge
import ArbNautilus.Base.Precedes
import ArbNautilus.Store.Dispatch
import ArbNautilus.Store.Lane
import ArbNautilus.Base.Schedule
import ArbNautilus.Store.Admission
import ArbNautilus.Store.WorstFill
import ArbNautilus.Store.CancelFill
import ArbNautilus.Store.CarryBounds
import ArbNautilus.Store.Plan
import ArbNautilus.Base.Drain
import ArbNautilus.Store.HedgePlan
import ArbNautilus.Store.HedgeCaught
import ArbNautilus.Base.Traverse
import ArbNautilus.Store.RestartRecovery
import ArbNautilus.Store.Settlement
import ArbNautilus.Base.Lines
import ArbNautilus.Journal.Append
import ArbNautilus.Journal.AtMostOnce
import ArbNautilus.Base.Handler
import ArbNautilus.Base.Along
import ArbNautilus.Bitfinex.Client
import ArbNautilus.Bitfinex.ExactlyOnce
import ArbNautilus.Bitfinex.CancelRace
import ArbNautilus.Bitfinex.Pagination
import ArbNautilus.Base.Decimal
import ArbNautilus.Base.Calendar
import ArbNautilus.Bitfinex.CidRuns
import ArbNautilus.Base.JsonText
import ArbNautilus.Base.JsonDump
import ArbNautilus.Mt5.Totality
import ArbNautilus.Mt5.RequestWire
import ArbNautilus.Base.Coroutine
import ArbNautilus.Mt5.Incremental
import ArbNautilus.Mt5.SingleMutation
import ArbNautilus.Base.Context
import ArbNautilus.Margin.Capacity
import ArbNautilus.Base.DecimalContext
import ArbNautilus.Bitfinex.Book
import ArbNautilus.Bitfinex.BookRuns
import ArbNautilus.Bitfinex.MarginPositions
import ArbNautilus.Base.Evidence
import ArbNautilus.Bitfinex.FeeEvidence
import ArbNautilus.Bitfinex.FeeConfluence
import ArbNautilus.Base.DecimalSum
import ArbNautilus.Bitfinex.FeeCoverage
import ArbNautilus.Bitfinex.FeeSummary
import ArbNautilus.Journal.Cursor
import ArbNautilus.Journal.WrittenLine
import ArbNautilus.Base.Bytes
import ArbNautilus.Mt5.Wide
import ArbNautilus.Mt5.BrokerText
import ArbNautilus.Mt5.Identity
import ArbNautilus.Base.Binary64
import ArbNautilus.Base.NumberText
import ArbNautilus.Base.Trimmed
import ArbNautilus.Bitfinex.Token
import ArbNautilus.Base.WallClock
import ArbNautilus.Mt5.WallTime
import ArbNautilus.Base.Cuts
import ArbNautilus.Base.Fraction
import ArbNautilus.Store.Payload
import ArbNautilus.Store.OwnerFile
import ArbNautilus.Store.HedgeRuns
import ArbNautilus.Store.StrictPreflight
import ArbNautilus.Store.TicketRuns
import ArbNautilus.Store.TicketEnds
import ArbNautilus.Base.Alike
import ArbNautilus.Base.JsonPrint
import ArbNautilus.Base.JsonAscii
import ArbNautilus.Store.Reorder
import ArbNautilus.Store.SortedFile
import ArbNautilus.Store.Amounts
import ArbNautilus.Store.Reopened
import ArbNautilus.Store.StateFiles
import ArbNautilus.Store.Migration
import ArbNautilus.Store.Migrated
import ArbNautilus.Store.SourceProjection
import ArbNautilus.Store.SourceFacts
import ArbNautilus.Store.SourceApplied
import ArbNautilus.Store.SourceCaught
import ArbNautilus.Store.SourceAgain
import ArbNautilus.Store.SourceLive
import ArbNautilus.Store.Earlier
import ArbNautilus.Store.SourceLived
import ArbNautilus.Bitfinex.BudgetRuns
import ArbNautilus.Bitfinex.SubscriptionsDrained
import ArbNautilus.Base.JsonSize
import ArbNautilus.Journal.Stretch
import ArbNautilus.Mt5.EventsResponse
import ArbNautilus.Mt5.EventsWire
import ArbNautilus.Mt5.EventsPages
import ArbNautilus.Mt5.JournalRead
import ArbNautilus.Journal.Torn
import ArbNautilus.Journal.Boots
import ArbNautilus.Mt5.JournalAgreement
