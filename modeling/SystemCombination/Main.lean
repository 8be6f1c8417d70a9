import Std.Async.Signal
import SystemCombination.Host.Socket
import SystemCombination.Service.Life

/-! The program. It loads its model, opens its socket, and serves requests until it is sent a
termination signal. It keeps no log. -/

namespace SystemCombination

open Std.Async

namespace Host

/-- The signals that end the service. -/
def endingSignals : List Signal := [.sigterm, .sigint, .sigquit, .sighup]

/-- Register the termination signals; the action says whether one of them has come. -/
def awaitTermination : IO (IO Bool) := do
  let tasks ← endingSignals.mapM fun signal => do (← Signal.Waiter.mk signal false).wait
  return tasks.anyM fun task => IO.hasFinished task

/-- The socket that has been bound, and the model that connections to it are served with. -/
structure Session where
  socket : Option TCP.Socket.Server := none
  serving : Option Model := none

/-- Perform an action on the machine. Clients are served while a termination signal is awaited. -/
def perform : Performer (StateT Session IO)
  | .report _ => return ()
  | .startLog log => return LogFilter.check log.filter
  | .readModel path => return (← files [path]).readPath path
  | .bind endpoint => do
    match ← listen endpoint with
    | .error error => return .error error
    | .ok socket =>
      modify fun session => { session with socket := some socket }
      return .ok ()
  | .startServing model => do
    modify fun session => { session with serving := some model }
    return .ok ()
  | .awaitSignal => do
    match ← awaitTermination.toBaseIO with
    | .error error => return .error (.other (toString error))
    | .ok stopping =>
      if let ⟨some socket, some model⟩ := ← get then serveUntil stopping model socket
      return .ok ()
  | .stopServing => return .ok ()

/-- The life of the service on the machine, from the arguments of its command line. -/
def run (arguments : List String) : IO (Except Life.Error Unit) :=
  (Life.run perform (CommandLine.configure (arguments.map Text.encode))).run' {}

end Host

end SystemCombination

open SystemCombination in
def main (arguments : List String) : IO UInt32 := do
  let (status, message) := Life.exitStatus (← Host.run arguments)
  IO.eprint (message.getD "memtd: invalid usage\n")
  return status.toUInt32
