import SystemCombination.Service.Action
import SystemCombination.Service.Turns

/-! Networks: which addresses can be bound, and whether a client gets through to an address that is
bound. A machine in a network performs the actions of a service on a tree of files. -/

namespace SystemCombination

structure Network where
  bind : Endpoint → Except EndpointError Unit
  connected : Bool

/-- What a client gets for its request, and the files after it. -/
structure Reply where
  response : Except IoError (List UInt8)
  files : Files

/-- A machine in a network. -/
structure Machine where
  files : Files
  /-- The events that have been reported. -/
  events : List Event := []
  /-- The model that connections are served with, if any are. -/
  serving : Option Model := none
  served : List Served := []
  /-- Whether a panic ended the turns of the service. -/
  brokenDown : Bool := false

namespace Network

/-- A host with a NUL character in it does not resolve. -/
def resolve (endpoint : Endpoint) : Except EndpointError Unit :=
  if '\x00' ∈ endpoint.host.toList then .error (.resolve endpoint .nulInName) else .ok ()

/-- A network without routes: any address that resolves can be bound, and no client gets through.
-/
def isolated : Network := ⟨resolve, false⟩

/-- The loopback network: only its own addresses can be bound, and every client gets through. -/
def loopback : Network where
  bind endpoint := do
    resolve endpoint
    if endpoint.host ∈ ["127.0.0.1", Endpoint.anyHost] then return ()
    throw (.bind (endpoint.host ++ ":" ++ toString endpoint.port) .addressNotAvailable)
  connected := true

/-- What a client is told that does not get through. -/
def unreachable : IoError := .other "network unreachable"

/-- The turns that clients bring about who connect one after the other. -/
def turns {m : Type → Type} [Pure m] (network : Network) (connections : List Connection) :
    List (Turn m) :=
  if network.connected then connections.map .yielding else []

/-- Serve the clients of a network until the termination signal comes. -/
def serve (network : Network) (engine : Engine) (connections : List Connection) :
    StateM Machine Unit := fun machine =>
  match machine.serving with
  | none => ((), machine)
  | some model =>
    let turns := serveTurns (Connection.handle engine model) (network.turns connections)
    match turns.run machine.files with
    | (.ok served, files) => ((), { machine with served := machine.served ++ served, files })
    | (.error _, files) => ((), { machine with files, brokenDown := true })

/-- How a machine performs actions to which the given clients connect while it waits for the
termination signal. -/
def perform (network : Network) (checkFilter : LogFilter.Check) (engine : Engine)
    (connections : List Connection) : Performer (StateM Machine)
  | .report event => modify fun machine => { machine with events := machine.events ++ [event] }
  | .startLog log => return checkFilter log.filter
  | .readModel path => return (← get).files.readPath path
  | .bind endpoint => return network.bind endpoint
  | .startServing model => do
    modify fun machine => { machine with serving := some model }
    return .ok ()
  | .awaitSignal => do
    network.serve engine connections
    return .ok ()
  | .stopServing => do
    modify fun machine => { machine with serving := none }
    return if (← get).brokenDown then .error .brokenDown else .ok ()

def replies (network : Network) (connections : List Connection) (machine : Machine) : List Reply :=
  if network.connected then machine.served.map fun served => ⟨.ok served.sent, served.files⟩
  else connections.map fun _ => ⟨.error unreachable, machine.files⟩

end Network

end SystemCombination
