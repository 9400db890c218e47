import BraceTemplate.Cli.Run

/- The program on the files and streams of the system. -/
namespace BraceTemplate
namespace Cli

/-- The files of the system. A file that is no text counts as one that cannot be read. -/
def systemFiles : Files IO where
  isFile path := do
    try return (← (← IO.FS.realPath path).metadata).type == .file
    catch _ => return false
  read? path := do
    try return some (← IO.FS.readFile path)
    catch _ => return none

end Cli
end BraceTemplate

def main (args : List String) : IO UInt32 := do
  let outcome ← BraceTemplate.Cli.run BraceTemplate.Cli.systemFiles args
  (← IO.getStdout).putStr outcome.output
  (← IO.getStderr).putStr outcome.errors
  return outcome.status.toUInt32
