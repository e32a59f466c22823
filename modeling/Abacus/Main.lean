import Abacus.Console.Command

/-! The program. All that is decided is decided by the command; here it meets the standard streams,
and a session is read and answered line by line. -/
namespace Abacus

open Console

def put (e : Emission) : IO Unit := do
  let stamp := toString (← IO.monoMsNow)
  IO.eprint (e.stderrText stamp)
  IO.print e.stdoutText
  (← IO.getStdout).flush

def putAll (verbose : Bool) (es : List Emission) : IO Unit :=
  (Emission.visible verbose es).forM put

partial def converse (s : Session) : IO Nat := do
  put s.prompt
  let line ← (← IO.getStdin).getLine
  if line.isEmpty then
    let (last, status) := Session.farewell .closed
    putAll s.settings.verbose last
    return status
  if s.isExit line then return 0
  putAll s.settings.verbose (s.exchange line)
  converse s

/-- A session is held live; every other run is over before its output is shown. -/
def perform (arguments : List String) : IO Nat := do
  if let .ok request := Request.ofArguments arguments then
    if request.expression.isNone then
      let s : Session := { settings := request.settings }
      putAll s.settings.verbose s.greeting
      return ← converse s
  let report := command arguments .closed ""
  putAll true report.emissions
  return report.status

end Abacus

def main (arguments : List String) : IO UInt32 := do
  return (← Abacus.perform arguments).toUInt32
