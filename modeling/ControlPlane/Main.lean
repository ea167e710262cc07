import ControlPlane.Cli
import ControlPlane.Shell.Machine
-- The command line as a program. Build commands run over a tree in memory, which starts
-- out empty.
namespace ControlPlane.Cli

def timedBuildId : IO String := do
  let digits := Nat.toDigits 16 (← IO.monoNanosNow)
  return "build-" ++ String.ofList (List.replicate (16 - digits.length) '0' ++ digits)

def runOverEmpty (args : List String) : IO UInt32 := do
  let setting : Setting := ⟨Shell.runIn, "/", ← timedBuildId, "127.0.0.1:0"⟩
  let result := run setting args (.ofRoot (.dir []))
  (← IO.getStdout).write ⟨result.stdout.toArray⟩
  return UInt32.ofNat result.code

end ControlPlane.Cli

def main (args : List String) : IO UInt32 := ControlPlane.Cli.runOverEmpty args
