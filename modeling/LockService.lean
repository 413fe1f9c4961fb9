import LockService.Connection.Script
import LockService.Core.Description
import LockService.Core.Handles
import LockService.Core.Producer
import LockService.Load.Run
import LockService.Main
import LockService.Proofs.Table.Agreement
import LockService.Proofs.Table.Arrival
import LockService.Proofs.Text.ByteOrder
import LockService.Proofs.Table.Effects
import LockService.Proofs.Table.Refinement
import LockService.Proofs.Core.Grants
import LockService.Proofs.Connection.Callers
import LockService.Proofs.Connection.Steps
import LockService.Proofs.Connection.Waking
import LockService.Proofs.Core.Repliers
import LockService.Proofs.Core.Audience
import LockService.Proofs.Core.Orderly
import LockService.Proofs.Core.Balance
import LockService.Proofs.Core.Conversations
import LockService.Proofs.Stream.Pieces
import LockService.Proofs.Connection.Flow
import LockService.Proofs.Connection.Faithful
import LockService.Proofs.Connection.Account
import LockService.Proofs.Connection.Linearization
import LockService.Proofs.Connection.Conversations
import LockService.Proofs.Connection.Gaps
import LockService.Proofs.Connection.Batches
import LockService.Proofs.Connection.Cleanup
import LockService.Proofs.Connection.Headroom
import LockService.Proofs.Connection.Throttling
import LockService.Proofs.Stream.Lines
import LockService.Proofs.Text.Cuts
import LockService.Proofs.Text.Words
import LockService.Proofs.Terminal.Timing
import LockService.Proofs.Connection.Truncation
import LockService.Proofs.Stream.Reader
import LockService.Proofs.Core.Effects
import LockService.Proofs.Core.Isolation
import LockService.Proofs.Core.Bystanders
import LockService.Proofs.Json.Grammar
import LockService.Proofs.Json.Spelling
import LockService.Proofs.Json.Scanning
import LockService.Proofs.Record.Acceptance
import LockService.Proofs.Core.Tenures
import LockService.Proofs.Text.Numerals
import LockService.Proofs.Core.Numbers
import LockService.Proofs.Core.Refusals
import LockService.Proofs.Core.Counting
import LockService.Proofs.Core.Moves
import LockService.Proofs.Core.Handles
import LockService.Proofs.Load.Measurements
import LockService.Proofs.Terminal.Language
import LockService.Proofs.Connection.Sizes
import LockService.Proofs.Connection.Scheduling
