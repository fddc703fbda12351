import GrammarRules.Command.Run

/-!
# The program

The command line of the program: the outcome of `Command.run` on its arguments, on a console with
the columns it has where there is no terminal, is written to the standard streams and to files.
Errors that the command does not handle end the program with code 1, errors of usage with code 2.
-/

namespace GrammarRules.Command

def Failure.exitCode : Failure → UInt32
  | .usage _ => 2
  | _ => 1

end GrammarRules.Command

open GrammarRules GrammarRules.Command in
def main (arguments : List String) : IO UInt32 := do
  let (ending, output) := run [] arguments Console.usualColumns
  for (path, content) in output.files do
    IO.FS.writeFile path content
  (← IO.getStderr).putStr output.stderr
  (← IO.getStdout).putStr output.stdout
  match ending with
  | .exit code => return code.toUInt32
  | .failed failure =>
      (← IO.getStderr).putStrLn ("Error: " ++ failure.message)
      return failure.exitCode
