import Std.Async.DNS
import Std.Async.TCP
import SystemCombination.Connection
import SystemCombination.Host.Files
import SystemCombination.Service.Action

/-! The socket of the service on the machine. Clients are polled for and served one at a time;
whatever becomes of one, the socket stays open until it is time to stop. -/

namespace SystemCombination.Host

open Std.Async Std.Net

/-- Why the machine refused an address. -/
def addressError (error : IO.Error) : IoError :=
  match error with
  | .unsupportedOperation code details =>
    if errorNumber code = 99 then .addressNotAvailable else .other details
  | _ => .other (toString error)

/-- The first address of a host. -/
def resolve (endpoint : Endpoint) : IO (Except EndpointError IPAddr) := do
  if '\x00' ∈ endpoint.host.toList then return .error (.resolve endpoint .nulInName)
  match ← (DNS.getAddrInfo endpoint.host "").block.toBaseIO with
  | .error error => return .error (.resolve endpoint (addressError error))
  | .ok addresses =>
    match addresses[0]? with
    | some address => return .ok address
    | none => return .error (.resolvedToNothing endpoint)

/-- The address of a socket and its text. -/
def socketAddress (port : UInt16) : IPAddr → SocketAddress × String
  | .v4 address => (.v4 ⟨address, port⟩, toString address ++ ":" ++ toString port)
  | .v6 address => (.v6 ⟨address, port⟩, "[" ++ toString address ++ "]:" ++ toString port)

/-- How many clients may wait. -/
def backlog : UInt32 := 128

/-- Open a socket that listens on an endpoint. -/
def listen (endpoint : Endpoint) : IO (Except EndpointError TCP.Socket.Server) := do
  match ← resolve endpoint with
  | .error error => return .error error
  | .ok address =>
    let (address, text) := socketAddress endpoint.port.toUInt16 address
    let opened : IO TCP.Socket.Server := do
      let server ← TCP.Socket.Server.mk
      server.bind address
      server.listen backlog
      return server
    match ← opened.toBaseIO with
    | .ok server => return .ok server
    | .error error => return .error (.bind text (addressError error))

/-- How many bytes are received at once. -/
def chunkSize : UInt64 := 65536

/-- Receive what a client sends, as far as it is read. -/
def receive (client : TCP.Socket.Client) : IO Connection := do
  let mut body := ByteArray.empty
  while body.size ≤ Request.sizeLimit do
    match ← (client.recv? chunkSize).block.toBaseIO with
    | .ok (some chunk) => body := body ++ chunk
    | .ok none => return { body := body.toList }
    | .error error =>
      return { body := body.toList, readError := some (.other (toString error)) }
  return { body := body.toList }

/-- The paths that serving a body may lead to. -/
def pathsOf (body : List UInt8) : List String :=
  match Request.parse body with
  | .ok request => [request.matchedFile, request.oneBest, request.oraclePath]
  | .error _ => []

/-- Serve one client. -/
def serve (model : Model) (client : TCP.Socket.Client) : IO Unit := do
  let connection ← receive client
  let before ← files (pathsOf connection.body)
  let served := connection.serve Engine.onFiles model before
  store before served.files
  unless served.sent.isEmpty do (client.send ⟨served.sent.toArray⟩).block
  client.shutdown.block

/-- How long to wait for a client before the next poll, in milliseconds. -/
def pollDelay : UInt32 := 25

/-- How long to wait after a poll that failed. -/
def errorDelay : UInt32 := 150

/-- Serve clients until it is time to stop. -/
def serveUntil (stopping : IO Bool) (model : Model) (server : TCP.Socket.Server) : IO Unit := do
  while !(← stopping) do
    match ← server.tryAccept.toBaseIO with
    | .ok (some client) => discard (serve model client).toBaseIO
    | .ok none => IO.sleep pollDelay
    | .error _ => IO.sleep errorDelay

end SystemCombination.Host
