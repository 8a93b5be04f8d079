import StreamMachine.Config.Load
import StreamMachine.Registry.Global
import StreamMachine.Session.Blobs
import StreamMachine.Session.Logging
import StreamMachine.Session.Operand
import StreamMachine.Session.Registry
import StreamMachine.Proofs.Turn
import StreamMachine.Proofs.Ledger
import StreamMachine.Proofs.Stack
import StreamMachine.Proofs.Guard
import StreamMachine.Proofs.Alike
import StreamMachine.Proofs.Reads
import StreamMachine.Proofs.Onto
import StreamMachine.Proofs.Alone
import StreamMachine.Proofs.Interleave
import StreamMachine.Proofs.Parallel
import StreamMachine.Proofs.Verdict
import StreamMachine.Proofs.Sequence
import StreamMachine.Proofs.Failure
import StreamMachine.Proofs.Confluence
import StreamMachine.Proofs.Share
import StreamMachine.Proofs.Registration
import StreamMachine.Proofs.Nesting
import StreamMachine.Proofs.Routing
import StreamMachine.Proofs.Life
import StreamMachine.Proofs.Accounts
import StreamMachine.Proofs.Reference
import StreamMachine.Proofs.Confined
import StreamMachine.Proofs.Refinement
import StreamMachine.Proofs.Layout
import StreamMachine.Proofs.Capacity
import StreamMachine.Proofs.Stored
import StreamMachine.Proofs.Lexing
import StreamMachine.Proofs.Reading
import StreamMachine.Proofs.RoundTrip
import StreamMachine.Proofs.Document
import StreamMachine.Proofs.Decoding
import StreamMachine.Proofs.Members
import StreamMachine.Proofs.Description
import StreamMachine.Proofs.Recast
import StreamMachine.Proofs.Publication
import StreamMachine.Proofs.Initialization
import StreamMachine.Proofs.Await
import StreamMachine.Proofs.Recovery
import StreamMachine.Proofs.Retry
import StreamMachine.Proofs.Prompt
import StreamMachine.Proofs.Resilience
import StreamMachine.Proofs.Wakeup
import StreamMachine.Proofs.Sweep
import StreamMachine.Proofs.Forest
import StreamMachine.Proofs.BreadthFirst
import StreamMachine.Proofs.Sowing
import StreamMachine.Proofs.Transcription
import StreamMachine.Proofs.Validation
import StreamMachine.Proofs.Stretch
import StreamMachine.Proofs.Lease
import StreamMachine.Proofs.Leased
import StreamMachine.Proofs.Refusal
import StreamMachine.Proofs.Beside
import StreamMachine.Proofs.Salvage
import StreamMachine.Proofs.Phases
import StreamMachine.Proofs.Attempts
import StreamMachine.Proofs.Spelling
import StreamMachine.Proofs.Keys
import StreamMachine.Proofs.Spans
