import PoolExchange.Config.Load
import PoolExchange.Config.Record
import PoolExchange.Json.Events
import PoolExchange.Json.Reports
import PoolExchange.Ledger.Liquidity
import PoolExchange.Proofs.Across
import PoolExchange.Proofs.Backing
import PoolExchange.Proofs.Curve
import PoolExchange.Proofs.Exchange.Account
import PoolExchange.Proofs.Exchange.Arrival
import PoolExchange.Proofs.Exchange.Attention
import PoolExchange.Proofs.Exchange.Consistency
import PoolExchange.Proofs.Exchange.Isolation
import PoolExchange.Proofs.Exchange.Price
import PoolExchange.Proofs.Exchange.Soundness
import PoolExchange.Proofs.Exit
import PoolExchange.Proofs.Flow
import PoolExchange.Proofs.Issue
import PoolExchange.Proofs.Json.Reading
import PoolExchange.Proofs.Ledger.Conservation
import PoolExchange.Proofs.Ledger.Funds
import PoolExchange.Proofs.Ledger.Procedure
import PoolExchange.Proofs.LimitKey
import PoolExchange.Proofs.Names
import PoolExchange.Proofs.Payment
import PoolExchange.Proofs.Queue.Account
import PoolExchange.Proofs.Queue.Arrival
import PoolExchange.Proofs.Queue.Attempts
import PoolExchange.Proofs.Queue.Completion
import PoolExchange.Proofs.Queue.Discovery
import PoolExchange.Proofs.Queue.Effects
import PoolExchange.Proofs.Queue.Filing
import PoolExchange.Proofs.Queue.Flags
import PoolExchange.Proofs.Queue.History
import PoolExchange.Proofs.Queue.Index
import PoolExchange.Proofs.Queue.Interval
import PoolExchange.Proofs.Queue.Journal
import PoolExchange.Proofs.Queue.Outcome
import PoolExchange.Proofs.Queue.PairIndex
import PoolExchange.Proofs.Queue.Payments
import PoolExchange.Proofs.Queue.Precedence
import PoolExchange.Proofs.Queue.Prefilter
import PoolExchange.Proofs.Queue.Price
import PoolExchange.Proofs.Queue.Settlement
import PoolExchange.Proofs.Queue.Slices
import PoolExchange.Proofs.Queue.Soundness
import PoolExchange.Proofs.Queue.Step
import PoolExchange.Proofs.Queue.Turns
import PoolExchange.Proofs.Queue.Wakeup
import PoolExchange.Proofs.Queue.Walk
import PoolExchange.Proofs.Root
import PoolExchange.Proofs.SliceCount
import PoolExchange.Proofs.Slicing
import PoolExchange.Proofs.SlipFloor
import PoolExchange.Proofs.Soundness
import PoolExchange.Proofs.Store
import PoolExchange.Proofs.Store.Snapshot
import PoolExchange.Proofs.Trade
import PoolExchange.Proofs.UnitValue
import PoolExchange.Proofs.Withdrawal
import PoolExchange.Queue.Block
import PoolExchange.Queue.Script
import PoolExchange.Store.Audit
import PoolExchange.Store.Snapshot
import PoolExchange.Proofs.Queue.Admission
import PoolExchange.Proofs.Queue.Rate
import PoolExchange.Proofs.RoundTrip
import PoolExchange.Proofs.ScaledCurve
import PoolExchange.Proofs.ScaledDepth
import PoolExchange.Proofs.Overrides
import PoolExchange.Proofs.Ledger.Staging
import PoolExchange.Proofs.Vault
import PoolExchange.Proofs.Queue.Drain
