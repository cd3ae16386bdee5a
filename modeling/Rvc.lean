import Rvc.Beacon.Regions
import Rvc.Beacon.SszDeser
import Rvc.BlockService.Order
import Rvc.BlockService.Propose
import Rvc.BlockService.Published
import Rvc.BnManager.Broadcast
import Rvc.BnManager.Query
import Rvc.BnManager.Selection
import Rvc.BnManager.Sse
import Rvc.Crypto.KeyManager
import Rvc.Crypto.Keystore
import Rvc.DeletionDenylist.Durable
import Rvc.DeletionDenylist.File
import Rvc.Doppelganger.ForwardWindow
import Rvc.Doppelganger.Gate
import Rvc.Doppelganger.IndexRegistry
import Rvc.Doppelganger.Liveness
import Rvc.Doppelganger.LivenessLoop
import Rvc.EthTypes.Canonical
import Rvc.EthTypes.Fork
import Rvc.EthTypes.PubkeyHex
import Rvc.EthTypes.SszHelpers
import Rvc.EthTypes.TreeHash
import Rvc.EthTypes.Uint256
import Rvc.KeymanagerAdapters.Admission
import Rvc.KeymanagerAdapters.Concurrent
import Rvc.KeymanagerAdapters.Coverage
import Rvc.KeymanagerAdapters.Delete
import Rvc.KeymanagerAdapters.DuplicateImport
import Rvc.KeymanagerAdapters.DutyMap
import Rvc.KeymanagerAdapters.Export
import Rvc.KeymanagerAdapters.ImportWindow
import Rvc.KeymanagerAdapters.KdfBudget
import Rvc.KeymanagerAdapters.Restart
import Rvc.KeymanagerApi.Lifecycle
import Rvc.KeymanagerApi.Stale
import Rvc.KeymanagerApi.Tokens
import Rvc.Lib.Bits
import Rvc.Lib.Counting
import Rvc.Lib.Decimal
import Rvc.Lib.Enumerate
import Rvc.Lib.Except
import Rvc.Lib.Grouping
import Rvc.Lib.Hex
import Rvc.Lib.Int64
import Rvc.Lib.Interpolation
import Rvc.Lib.Keyed
import Rvc.Lib.Lines
import Rvc.Lib.Lucas
import Rvc.Lib.Merkle
import Rvc.Lib.Overflow
import Rvc.Lib.Ownership
import Rvc.Lib.Radix
import Rvc.Lib.Semaphore
import Rvc.Lib.Settles
import Rvc.Lib.Slices
import Rvc.Lib.Steps
import Rvc.Lib.Table
import Rvc.Lib.Traced
import Rvc.Lib.Txn
import Rvc.Lib.Utf8
import Rvc.Lib.Votes
import Rvc.Observability.Pubkey
import Rvc.Orchestrator.Attestation
import Rvc.Orchestrator.AttestationSlot
import Rvc.Orchestrator.Breaker
import Rvc.Orchestrator.Wave
import Rvc.Signer.Core
import Rvc.Signer.Envelope
import Rvc.Signer.Gate
import Rvc.Signer.Locks
import Rvc.Signer.Safety
import Rvc.SignerServer.Dvt.Combination
import Rvc.SignerServer.Dvt.Coordinate
import Rvc.SignerServer.Dvt.ExportedRoots
import Rvc.SignerServer.Dvt.Lagrange
import Rvc.SignerServer.Dvt.PeerService
import Rvc.SignerServer.Dvt.Spelling
import Rvc.SignerServer.Dvt.TwoPaths
import Rvc.SignerServer.Reload
import Rvc.Slashing.Agreement
import Rvc.Slashing.FullScan
import Rvc.Slashing.GroupCommit
import Rvc.Slashing.GroupQueue
import Rvc.Slashing.History
import Rvc.Slashing.Interchange.Commute
import Rvc.Slashing.Interchange.Eip3076
import Rvc.Slashing.Interchange.Export
import Rvc.Slashing.Interchange.Exportable
import Rvc.Slashing.Interchange.Import
import Rvc.Slashing.Interchange.LeastFloor
import Rvc.Slashing.Interchange.Roots
import Rvc.Slashing.Interchange.Transport
import Rvc.Slashing.Interchange.Wire
import Rvc.Slashing.Migration.Resolve
import Rvc.Slashing.Migration.V3
import Rvc.Slashing.Operations
import Rvc.Slashing.Protection
import Rvc.Slashing.Prune
import Rvc.Slashing.Reconcile
import Rvc.Slashing.ReconcileFrame
import Rvc.Slashing.Rejections
import Rvc.Slashing.Rules
import Rvc.Slashing.Shadow
import Rvc.Slashing.Stage
import Rvc.Slashing.Staged
import Rvc.Slashing.Types
import Rvc.Slashing.WatermarkOrder
import Rvc.Slashing.Watermarks
import Rvc.Timing.Clock
import Rvc.ValidatorStore.Effects
import Rvc.ValidatorStore.Kept
import Rvc.ValidatorStore.Restart
import Rvc.ValidatorStore.RoundTrip
import Rvc.ValidatorStore.Store
import Rvc.ValidatorStore.Survive
