import PaperTrade.Runtime.Spelling
import PaperTrade.Runtime.Text
import PaperTrade.Runtime.Table
import PaperTrade.Runtime.DateTime
import PaperTrade.Runtime.Coroutine
import PaperTrade.Runtime.Serial
import PaperTrade.Worker.Connection
import PaperTrade.Worker.Duration
import PaperTrade.Worker.Metadata
import PaperTrade.Worker.Models
import PaperTrade.Worker.Fill
import PaperTrade.Worker.Database
import PaperTrade.Worker.Executor
import PaperTrade.Worker.Main
import PaperTrade.Worker.Behaviour
import PaperTrade.Worker.Delivery
import PaperTrade.Worker.Redelivery
import PaperTrade.Worker.Conservation
import PaperTrade.Worker.Rows
import PaperTrade.Worker.Duplicates
import PaperTrade.Worker.TrailingStop
import PaperTrade.Worker.VirtualLedger
import PaperTrade.Worker.Isolation
import PaperTrade.Worker.Slippage
import PaperTrade.Worker.Closable
import PaperTrade.Worker.Rejection
import PaperTrade.Worker.Accounts
import PaperTrade.Worker.Interleaving
import PaperTrade.Runner.Dispatcher
import PaperTrade.Runner.Strategy
import PaperTrade.Runner.SuploXau
import PaperTrade.Runner.LegacyStandalone
import PaperTrade.Runner.SuploSignals
import PaperTrade.Runner.Dedup
import PaperTrade.Runner.VirtualTradeLedger
import PaperTrade.Runner.VirtualAgreement
import PaperTrade.Runtime.Invariant
import PaperTrade.Worker.Finite
import PaperTrade.Runtime.SortedMap
import PaperTrade.Runner.CandleBuffer
import PaperTrade.Runner.CandleCache
import PaperTrade.Runner.CacheGaps
import PaperTrade.Runner.Warmup
import PaperTrade.Runner.WarmupFill
import PaperTrade.Runtime.Roots
import PaperTrade.CrossAlpha.Spec
import PaperTrade.Runner.CrossSectional
import PaperTrade.Runner.RebalanceCloses
import PaperTrade.Runner.OpenInStream
import PaperTrade.Runner.RebalanceFollows
import PaperTrade.Runner.SupertrendAdx
import PaperTrade.Runner.LegacyBook
import PaperTrade.Runner.SupertrendFollows
import PaperTrade.Runner.LegacyFollows
import PaperTrade.Runner.BooksFollow
import PaperTrade.Worker.VirtualEvents
import PaperTrade.Worker.VirtualConsumer
import PaperTrade.Worker.EquitySnapshots
import PaperTrade.Worker.PositionSnapshots
import PaperTrade.Base.Reconcile
import PaperTrade.Base.InFlight
import PaperTrade.CrossAlpha.Schedule
import PaperTrade.Runner.Scan
import PaperTrade.Runner.ShadowRestart
import PaperTrade.Runner.DueRebalances
import PaperTrade.Runner.EquityIntervals
import PaperTrade.Runtime.Weights
import PaperTrade.Runtime.Expiring
import PaperTrade.PortfolioManager.Overlays
import PaperTrade.PortfolioManager.Blend
import PaperTrade.PortfolioManager.Engine
import PaperTrade.PortfolioManager.Exposure
import PaperTrade.PortfolioManager.StaleSleeves
import PaperTrade.Runner.PubSub
import PaperTrade.Runner.PubSubRegistry
import PaperTrade.Runner.QueueEviction
import PaperTrade.Runner.PriceAlerts
import PaperTrade.Runner.Lease
import PaperTrade.Runner.LeaseFencing
import PaperTrade.Base.RuntimeMetadata
import PaperTrade.Base.PushSignal
import PaperTrade.Base.ClaimedCandles
import PaperTrade.Base.ClaimedOnce
import PaperTrade.Runtime.Unwinding
import PaperTrade.Worker.Quotes
import PaperTrade.Worker.QuoteIsolation
import PaperTrade.CrossAlpha.Cadence
import PaperTrade.Runtime.Buckets
import PaperTrade.Runner.Rollup
import PaperTrade.Runner.RollupComposes
import PaperTrade.Runner.RollupComplete
import PaperTrade.Runtime.StableSort
import PaperTrade.Runtime.Frame
import PaperTrade.Runner.SharedPanel
import PaperTrade.Recovery.Replay
import PaperTrade.Recovery.Candidate
import PaperTrade.Recovery.CandidateAgrees
import PaperTrade.Runtime.Isoformat
import PaperTrade.Worker.Metrics
import PaperTrade.Runner.Context
import PaperTrade.Base.RoundTrip
import PaperTrade.Base.RuntimeState
import PaperTrade.Runtime.Along
import PaperTrade.Runner.Acts
import PaperTrade.Runner.MinuteTrailing
import PaperTrade.Runner.SmoothChan
import PaperTrade.Runtime.FlipCycle
import PaperTrade.Runner.FlipTrades
import PaperTrade.Runner.SuploCycle
import PaperTrade.Runner.AdxCycle
import PaperTrade.Runner.MinuteCycle
import PaperTrade.Runner.SmoothCycle
import PaperTrade.Runner.CashUntilFlip
import PaperTrade.Runner.FlipWatch
import PaperTrade.Runner.SuploFlips
import PaperTrade.Runner.MinuteFlips
import PaperTrade.Runner.AdxFlips
import PaperTrade.Runner.SmoothFlips
import PaperTrade.Runner.RealFlips
import PaperTrade.Worker.Levels
import PaperTrade.Runner.Wire
import PaperTrade.Runner.TrailingAgreement
import PaperTrade.Runtime.Series
import PaperTrade.CrossAlpha.Selection
import PaperTrade.CrossAlpha.Neutral
import PaperTrade.CrossAlpha.WinsorBook
import PaperTrade.CrossAlpha.WinsorLaw
import PaperTrade.CrossAlpha.TrimOrder
import PaperTrade.Runner.LeaseRenewal
import PaperTrade.Alphas.HyperTurbo
import PaperTrade.Runner.SuploRefines
import PaperTrade.Runner.BollingerLs
import PaperTrade.Runner.Twins
import PaperTrade.Runner.Vn30Tcbs
import PaperTrade.Runner.ReverseMirror
import PaperTrade.Runtime.ValidTimes
import PaperTrade.Worker.SessionTime
import PaperTrade.Worker.OffsetFree
import PaperTrade.Runner.PairedBook
import PaperTrade.Runner.AlphaClaim
import PaperTrade.Runner.ParquetRead
import PaperTrade.Runtime.Breaker
import PaperTrade.Worker.SlippageClient
import PaperTrade.Worker.FillService
import PaperTrade.Runtime.Bisect
import PaperTrade.Runtime.PartialStores
import PaperTrade.Base.CandleUpsert
import PaperTrade.Runner.CandleWrites
import PaperTrade.Runtime.FloatNeg
import PaperTrade.Runner.ExactCandle
import PaperTrade.Runner.TrailingLaw
import PaperTrade.Runner.Chandelier
import PaperTrade.Runner.SupertrendBands
import PaperTrade.Runner.ZoneLaw
import PaperTrade.CrossAlpha.Overlay
import PaperTrade.Runner.ThreeHour
import PaperTrade.Runtime.ExpAverage
import PaperTrade.Runner.XauM30
import PaperTrade.Runner.XauIndicators
import PaperTrade.Runner.XauMirror
import PaperTrade.Runner.XauDivisions
import PaperTrade.Runner.XauBook
import PaperTrade.Runner.XauLaw
import PaperTrade.Runner.DedupMirror
import PaperTrade.Runtime.Window
import PaperTrade.Runtime.MonotoneDeque
import PaperTrade.Indicators.RollingExtreme
import PaperTrade.Indicators.Statistics
import PaperTrade.Indicators.V5
import PaperTrade.Indicators.V5Agree
import PaperTrade.Alphas.SwingLevels
import PaperTrade.Alphas.SongThan
import PaperTrade.Runner.Top10Votes
import PaperTrade.Runtime.RowSets
import PaperTrade.Recovery.Merge
import PaperTrade.Runtime.FaultyWrites
import PaperTrade.Recovery.Promotion
import PaperTrade.Runtime.Folds
import PaperTrade.Recovery.EquityCandidate
import PaperTrade.Recovery.StagedRecovery
import PaperTrade.Runtime.ConsumerGroup
import PaperTrade.Worker.Reconciliation
import PaperTrade.Worker.Acceptance
import PaperTrade.PortfolioManager.Service
import PaperTrade.PortfolioManager.Converges
import PaperTrade.Runtime.NumberSpelling
import PaperTrade.Runtime.JsonSpelling
import PaperTrade.Recovery.Ledger
import PaperTrade.PortfolioManager.BookStore
import PaperTrade.Runner.ConfigSync
import PaperTrade.Runner.Scaler
import PaperTrade.Runner.ParquetRollup
import PaperTrade.Alphas.HigherTimeframes
import PaperTrade.Worker.OrphanCleanup
