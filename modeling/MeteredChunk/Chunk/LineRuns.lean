import MeteredChunk.Chunk.Basic

/-!
Stretches of code that come from one source line.
-/

namespace MeteredChunk

/-- The offsets from `start` up to `stop`, without `stop`. -/
structure LineRun where
  start : Nat
  stop : Nat
  line : UInt32
  deriving DecidableEq

namespace LineRun

def ofLines (start : Nat) : List UInt32 → List LineRun
  | [] => []
  | line :: rest =>
      match ofLines (start + 1) rest with
      | [] => [⟨start, start + 1, line⟩]
      | run :: runs =>
          if run.line = line then ⟨start, run.stop, line⟩ :: runs
          else ⟨start, start + 1, line⟩ :: run :: runs

end LineRun

def Chunk.lineRuns (chunk : Chunk) : Except Fault (List LineRun) :=
  return LineRun.ofLines 0 (← chunk.lines)

end MeteredChunk
