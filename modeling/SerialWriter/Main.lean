import SerialWriter.Demo

/-!
The command line: it runs the demonstration.
-/

/-- Prints what the demonstration prints and gives its exit code. -/
def main : IO UInt32 := do
  let d := SerialWriter.Demo.run true
  IO.print d.output
  IO.eprint d.errors
  return (d.exit?.getD 1).toUInt32
