import RomanInvoice.Command.Run

/-!
# The command

Reads the arguments and the standard input, runs the command, and writes what it leaves behind.
-/

namespace RomanInvoice.Command

/-- How the command is called. -/
def usage : String :=
  "Usage: invoice-calc [--normalized] [--debug-tokens] [--max-length N] [--max-tokens N] " ++
    "[--] [EXPRESSION]\n"

/-- All that can still be read of a stream, after what was read before. -/
partial def readAll (stream : IO.FS.Stream) (before : ByteArray) : IO ByteArray := do
  let bytes ← stream.read 65536
  if bytes.isEmpty then return before
  readAll stream (before ++ bytes)

end RomanInvoice.Command

open RomanInvoice.Command in
/-- The command. Its input is read only where no argument is an expression. -/
def main (arguments : List String) : IO UInt32 := do
  match Options.ofArguments (arguments.map String.toList) with
  | .error .help =>
    IO.print usage
    return 0
  | .error .usage =>
    IO.eprint usage
    return 2
  | .ok options =>
    let input ←
      if options.expression?.isSome then pure ByteArray.empty
      else readAll (← IO.getStdin) ByteArray.empty
    let output := options.run input.toList
    IO.print output.stdout
    IO.eprint output.stderr
    return output.status.toUInt32
