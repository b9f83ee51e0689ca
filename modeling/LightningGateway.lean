import LightningGateway.GuardedRuns
import LightningGateway.EffectPrograms
import LightningGateway.TaskPools
import LightningGateway.SerialHandlers
import LightningGateway.FirstReports
import LightningGateway.RecordedSpecs
import LightningGateway.SoloRuns
import LightningGateway.InputTurns
import LightningGateway.CursorFeeds
import LightningGateway.PagedReads
import LightningGateway.ExpiringCache
import LightningGateway.EventSourcing
import LightningGateway.EventTables
import LightningGateway.CappedScans
import LightningGateway.Rounding
import LightningGateway.Primitives
import LightningGateway.OwnershipChecker
import LightningGateway.PaymentAggregate
import LightningGateway.InvoiceAggregate
import LightningGateway.PaymentLogs
import LightningGateway.InvoiceLogs
import LightningGateway.AggregateMethods
import LightningGateway.EventWords
import LightningGateway.AggregateGuards
import LightningGateway.OutboxRows
import LightningGateway.JsonCodecs
import LightningGateway.LndWire
import LightningGateway.InvoiceListener
import LightningGateway.SymphonyWire
import LightningGateway.GatewayStore
import LightningGateway.StoreSpecs
import LightningGateway.GatewayEffects
import LightningGateway.PeerCalls
import LightningGateway.PaymentFlows
import LightningGateway.InvoiceFlows
import LightningGateway.FeePolicy
import LightningGateway.GatewayMachine
import LightningGateway.InvoiceMonitor
import LightningGateway.ListenerSlots
import LightningGateway.PaymentSubscription
import LightningGateway.Supervisor
import LightningGateway.OutgoingAmounts
import LightningGateway.RecordedRoutes
import LightningGateway.CallSites
import LightningGateway.CallSiteProofs
import LightningGateway.FixedPrices
import LightningGateway.GatewayInvariant
import LightningGateway.ProjectionColumns
import LightningGateway.EventDocuments
import LightningGateway.OutboxHistory
import LightningGateway.IncomingAmounts
import LightningGateway.HeldAmounts
import LightningGateway.UseCaseAuthority
import LightningGateway.InvoiceCreation
import LightningGateway.WatchedInvoices
import LightningGateway.CallerTokens
import LightningGateway.InvoiceTerms
import LightningGateway.HexIdentifiers
import LightningGateway.SweepSafety
import LightningGateway.SweepTries
import LightningGateway.SweepProgress
import LightningGateway.TrackedReplays
import LightningGateway.PaymentLedger
import LightningGateway.InvoiceLedger
import LightningGateway.TransferBooks
import LightningGateway.LedgerRefinement
import LightningGateway.SpendGate
import LightningGateway.RepeatedAttempts
import LightningGateway.LndReports
import LightningGateway.FundSafety
import LightningGateway.IntraledgerTransfers
import LightningGateway.SingleCredit
import LightningGateway.HoldInvoices
import LightningGateway.TransferPayers
import LightningGateway.DurableOutcomes
import LightningGateway.PaymentRaces
import LightningGateway.ClientAnswers
import LightningGateway.EventStream
import LightningGateway.OutboxRecords
import LightningGateway.Reconnects
import LightningGateway.StreamGaps
import LightningGateway.EventDelivery
import LightningGateway.ResumePosition
import LightningGateway.StatusMapping
import LightningGateway.StatusFeed
import LightningGateway.StatusRows
import LightningGateway.FeedSteps
import LightningGateway.FeedInvariant
import LightningGateway.BackfillPaging
import LightningGateway.StatusSoundness
import LightningGateway.PreimageSecrecy
import LightningGateway.StatusReplay
import LightningGateway.FeedGaps
import LightningGateway.LagRecovery
import LightningGateway.LagFreeRuns
