import MeteredChunk.Chunk.Basic
import MeteredChunk.Chunk.Instruction
import MeteredChunk.Chunk.LineRuns
import MeteredChunk.Chunk.Listing
import MeteredChunk.Command.Arguments
import MeteredChunk.Command.LogFilter
import MeteredChunk.Command.Run
import MeteredChunk.Decimal
import MeteredChunk.Heap.Basic
import MeteredChunk.Heap.Counters
import MeteredChunk.Json
import MeteredChunk.Main
import MeteredChunk.Proofs.Block
import MeteredChunk.Proofs.Chunk.Balance
import MeteredChunk.Proofs.Chunk.Continuation
import MeteredChunk.Proofs.Chunk.Equality
import MeteredChunk.Proofs.Chunk.Grammar
import MeteredChunk.Proofs.Chunk.Growth
import MeteredChunk.Proofs.Chunk.Lockstep
import MeteredChunk.Proofs.Chunk.Reach
import MeteredChunk.Proofs.Chunk.Readback
import MeteredChunk.Proofs.Chunk.Reading
import MeteredChunk.Proofs.Chunk.Refinement
import MeteredChunk.Proofs.Chunk.Repair
import MeteredChunk.Proofs.Chunk.Runs
import MeteredChunk.Proofs.Chunk.Tiling
import MeteredChunk.Proofs.Chunk.Validation
import MeteredChunk.Proofs.Command.Assembly
import MeteredChunk.Proofs.Command.Report
import MeteredChunk.Proofs.Command.Reread
import MeteredChunk.Proofs.Command.Verdict
import MeteredChunk.Proofs.Decimal.Nearest
import MeteredChunk.Proofs.Decimal.Ratio
import MeteredChunk.Proofs.Decimal.Reading
import MeteredChunk.Proofs.Decimal.Rounded
import MeteredChunk.Proofs.Dialogue.Backing
import MeteredChunk.Proofs.Dialogue.Basic
import MeteredChunk.Proofs.Dialogue.Delivery
import MeteredChunk.Proofs.Dialogue.Recording
import MeteredChunk.Proofs.Heap.Balance
import MeteredChunk.Proofs.Heap.Call
import MeteredChunk.Proofs.Heap.Delivery
import MeteredChunk.Proofs.Heap.Passage
import MeteredChunk.Proofs.Heap.Protocol
import MeteredChunk.Proofs.Session.Balance
import MeteredChunk.Proofs.Session.Conservation
import MeteredChunk.Proofs.Session.Delivery
import MeteredChunk.Proofs.Session.Dialogue
import MeteredChunk.Proofs.Session.Influence
import MeteredChunk.Proofs.Session.Interleaving
import MeteredChunk.Proofs.Session.Peak
import MeteredChunk.Proofs.Session.Release
import MeteredChunk.Proofs.Session.Replay
import MeteredChunk.Proofs.Store.Balance
import MeteredChunk.Proofs.Store.Contents
import MeteredChunk.Proofs.Store.Granted
import MeteredChunk.Proofs.Store.Growth
import MeteredChunk.Proofs.Store.Stripped
import MeteredChunk.Proofs.Value.Form
import MeteredChunk.Proofs.Value.General
import MeteredChunk.Proofs.Value.Order
import MeteredChunk.Proofs.Value.Reread
import MeteredChunk.Session.Basic
import MeteredChunk.Store
import MeteredChunk.Text.Basic
import MeteredChunk.Text.Pattern
import MeteredChunk.Value
