import AtomicSwaps.Basic
import AtomicSwaps.Semantics.Nested
import AtomicSwaps.Data.Total
import AtomicSwaps.Eth.HTLC
import AtomicSwaps.Eth.Reentrancy
import AtomicSwaps.Lez.Escrow
import AtomicSwaps.Lez.Program
import AtomicSwaps.Lez.Runtime
import AtomicSwaps.Lez.Lifecycle
import AtomicSwaps.Cli.StateStore
import AtomicSwaps.Data.Hex
import AtomicSwaps.Semantics.Interaction
import AtomicSwaps.Swap.Interface
import AtomicSwaps.Lez.Client
import AtomicSwaps.Eth.Client
import AtomicSwaps.Swap.Taker
import AtomicSwaps.Swap.TakerReveal
import AtomicSwaps.Eth.Chain
import AtomicSwaps.Lez.Chain
import AtomicSwaps.Swap.World
import AtomicSwaps.Swap.TakerOutcome
import AtomicSwaps.Cli.Reconcile
import AtomicSwaps.Semantics.Process
import AtomicSwaps.Swap.Evidence
import AtomicSwaps.Swap.Witness
import AtomicSwaps.Cli.MakerLoop
import AtomicSwaps.Swap.MakerRule
import AtomicSwaps.Cli.RecoveryRule
import AtomicSwaps.Cli.MakerProcess
import AtomicSwaps.Cli.EthLeg
import AtomicSwaps.Cli.Journal
import AtomicSwaps.Cli.Wedge
import AtomicSwaps.Cli.OpsLedger
import AtomicSwaps.Cli.OpsReplay
import AtomicSwaps.Mcp.Transfer
import AtomicSwaps.Mcp.TransferRule
import AtomicSwaps.Semantics.Authored
import AtomicSwaps.Mcp.PreviewGate
import AtomicSwaps.Eth.SwapTally
import AtomicSwaps.Eth.TallyHistory
import AtomicSwaps.Mcp.ScanCache
import AtomicSwaps.Mcp.ScanCoherence
import AtomicSwaps.Eth.CollectTally
import AtomicSwaps.Eth.ScanRange
import AtomicSwaps.Eth.TallyCoverage
import AtomicSwaps.Ui.OfferBoard
import AtomicSwaps.Lez.EscrowReads
import AtomicSwaps.Swap.MatchTime
import AtomicSwaps.Ui.GhostOffers
import AtomicSwaps.Module.Jobs
import AtomicSwaps.Module.StopRequests
import AtomicSwaps.Module.DeliveryFate
import AtomicSwaps.Mcp.Faucet
import AtomicSwaps.Mcp.WriteRule
import AtomicSwaps.Mcp.WriteGate
import AtomicSwaps.Mcp.GatedWrites
import AtomicSwaps.Mcp.SigningRule
import AtomicSwaps.Mcp.Submissions
import AtomicSwaps.Mcp.SubmissionRule
import AtomicSwaps.Mcp.SerializedWrites
import AtomicSwaps.Cli.Timelocks
import AtomicSwaps.Data.Decimal
import AtomicSwaps.Data.Utf8
import AtomicSwaps.Swap.EthAmount
import AtomicSwaps.Module.OfferAmounts
import AtomicSwaps.Data.Calendar
import AtomicSwaps.Eth.TimeArg
import AtomicSwaps.Eth.Watcher
import AtomicSwaps.Lez.RefundConfirmed
import AtomicSwaps.Data.Tiling
import AtomicSwaps.Eth.ScanSpans
import AtomicSwaps.Cli.ReportWindow
import AtomicSwaps.Cli.ManualRefund
import AtomicSwaps.Lez.ClaimTally
import AtomicSwaps.Mcp.HtlcStatus
import AtomicSwaps.Ui.EthFundsGuard
import AtomicSwaps.Module.JsonFields
import AtomicSwaps.Data.Trimming
import AtomicSwaps.Ui.OfferGates
import AtomicSwaps.Data.Double
import AtomicSwaps.Ui.Number
import AtomicSwaps.Publisher.Rfq
import AtomicSwaps.Publisher.OfferAge
import AtomicSwaps.Ui.PinnedVenue
import AtomicSwaps.Cli.EscrowOwner
import AtomicSwaps.Cli.FundOnce
import AtomicSwaps.Ui.BalanceRefresh
import AtomicSwaps.Cli.MakerSafety
import AtomicSwaps.Cli.Exposure
import AtomicSwaps.Cli.JournalSafety
import AtomicSwaps.Semantics.Chronicle
import AtomicSwaps.Cli.WatchedMaker
