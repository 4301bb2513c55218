import MeteredChunk.Command.Run

/-!
The command line.
-/

def main (arguments : List String) : IO UInt32 := do
  let outcome := MeteredChunk.Command.invoke arguments (← IO.getEnv "RUST_LOG")
  (← IO.getStdout).putStr outcome.output
  for line in outcome.log do
    (← IO.getStderr).putStrLn line
  return UInt32.ofNat outcome.exit
