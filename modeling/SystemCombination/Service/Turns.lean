import SystemCombination.Connection

/-! The turns of a service that listens. Each turn first checks whether it is time to stop and then
polls for a connection, which is served to its end before the next turn. Neither a failed poll nor
the end of a connection ends the turns, and a handler that panics is caught. -/

namespace SystemCombination

inductive Poll
  | connection (connection : Connection)
  | nothing
  | failed (error : IoError)

/-- What is asked in one turn: whether it is time to stop, and for a connection. -/
structure Turn (m : Type → Type) where
  stopping : m Bool
  poll : m Poll

/-- What a handler leaves that panics: the bytes that were sent until then, and the files. -/
structure Panic where
  sent : List UInt8
  files : Files

/-- A connection whose handler panicked. -/
def Panic.served (panic : Panic) : Served := ⟨.crashed, panic.sent, panic.files⟩

variable {m : Type → Type}

/-- A turn that goes on with a connection. -/
def Turn.yielding [Pure m] (connection : Connection) : Turn m where
  stopping := pure false
  poll := pure (.connection connection)

/-- Serve a connection with a handler, and catch the handler where it panics. -/
def serveIsolated [Monad m] [MonadExceptOf Panic m] (handle : Connection → m Served)
    (connection : Connection) : m Served :=
  tryCatch (handle connection) fun (panic : Panic) => return panic.served

/-- Serve what the turns yield, until one asks to stop. -/
def serveTurns [Monad m] [MonadExceptOf Panic m] (handle : Connection → m Served) :
    List (Turn m) → m (List Served)
  | [] => return []
  | turn :: turns => do
    if ← turn.stopping then return []
    match ← turn.poll with
    | .connection connection =>
      let served ← serveIsolated handle connection
      return served :: (← serveTurns handle turns)
    | .nothing | .failed _ => serveTurns handle turns

/-- Serve a connection on the files that the one before has left. An engine that crashes makes the
handler panic. -/
def Connection.handle (engine : Engine) (model : Model) (connection : Connection) :
    ExceptT Panic (StateM Files) Served := ExceptT.mk fun files =>
  let served := connection.serve engine model files
  match served.ending with
  | .crashed => (.error ⟨served.sent, served.files⟩, served.files)
  | .completed _ | .rejected _ | .failed _ => (.ok served, served.files)

end SystemCombination
