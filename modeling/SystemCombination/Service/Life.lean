import SystemCombination.Service.Preparation

/-! The life of the service: preparation, binding, serving connections, and the end on a termination
signal. The address is bound only after a preparation that succeeded. -/

namespace SystemCombination.Life

inductive Error
  | preparation (error : Preparation.Error)
  | listen (error : EndpointError)
  | signals (error : IoError)
deriving DecidableEq, Repr

def Error.message : Error → String
  | preparation error => "startup failed: " ++ error.message
  | listen error => "request listener failed: " ++ error.message
  | signals error =>
    "cannot wait for termination signals: cannot register termination signal handlers: " ++
      error.message

variable {m : Type → Type} [Monad m]

/-- Bind the address of a service that has been prepared, and serve connections until a termination
signal comes. -/
def serve (perform : Performer m) (service : Service) : m (Except Error Unit) := do
  match ← perform (.bind service.config.listen) with
  | .error error => return .error (.listen error)
  | .ok () =>
    match ← perform (.startServing service.model) with
    | .error error => return .error (.listen error)
    | .ok () =>
      perform (.report .listening)
      match ← perform .awaitSignal with
      | .error error => return .error (.signals error)
      | .ok () =>
        match ← perform .stopServing with
        | .error error => return .error (.listen error)
        | .ok () => return .ok ()

def run (perform : Performer m) (loaded : Except CommandLine.Error Config) :
    m (Except Error Unit) := do
  match ← Preparation.run perform loaded with
  | .error error => return .error (.preparation error)
  | .ok service => serve perform service

/-- The exit status of the process and, unless it is up to the command line, what it writes to
standard error. -/
def exitStatus : Except Error Unit → Nat × Option String
  | .ok () => (0, some "")
  | .error (.preparation (.configuration (.usage usage))) =>
    if usage = .displayHelp ∨ usage = .displayVersion then (0, some "") else (2, none)
  | .error error => (1, some ("memtd: " ++ error.message ++ "\n"))

end SystemCombination.Life
