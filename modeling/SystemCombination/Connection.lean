import SystemCombination.Engine

/-! One connection. A client sends the body of a request and closes its side; the answer is one
line: `Done`, or `error:` and the reason why the request is rejected. A failure of the stream or
of the decode is not answered. -/

namespace SystemCombination

/-- What a client sends, and where its stream fails. -/
structure Connection where
  body : List UInt8
  /-- What reading past the body is answered with, instead of the end of the stream. -/
  readError : Option IoError := none
  /-- What sending the answer is answered with, if it fails. -/
  writeError : Option IoError := none
  /-- How many bytes of the answer are out when sending fails. -/
  sendable : Nat := 0

inductive Connection.Failure
  | io (error : IoError)
  | decode (error : DecodeFailure)
deriving DecidableEq, Repr

def Connection.Failure.message : Connection.Failure → String
  | io error => "connection I/O failed: " ++ error.message
  | decode error => "decode failed: " ++ error.message

inductive Ending
  | completed (summary : Summary)
  | rejected (error : Request.Error)
  | failed (error : Connection.Failure)
  | crashed

inductive Conclusion
  | done (summary : Summary)
  | failed (error : DecodeFailure)
  | crashed

/-- What decodes a request: it changes files and concludes. -/
abbrev Engine := Model → Request → Files → Conclusion × Files

/-- The engine that runs a request on files; it never crashes. -/
def Engine.onFiles : Engine := fun model request files =>
  match Engine.run model request files with
  | (.ok summary, files) => (.done summary, files)
  | (.error error, files) => (.failed error, files)

/-- The end of a connection, the bytes that were sent on it, and the files it leaves. -/
structure Served where
  ending : Ending
  sent : List UInt8
  files : Files

namespace Connection

/-- The body as far as it is read: one byte past the size limit is enough to reject it. -/
def received (connection : Connection) : Except IoError (List UInt8) :=
  if Request.sizeLimit < connection.body.length then
    .ok (connection.body.take (Request.sizeLimit + 1))
  else
    match connection.readError with
    | some error => .error error
    | none => .ok connection.body

/-- Send a line, after which the connection ends as given. -/
def answer (connection : Connection) (line : String) (ending : Ending) (files : Files) : Served :=
  let bytes := Text.encode (line ++ "\n")
  match connection.writeError with
  | some error => ⟨.failed (.io error), bytes.take connection.sendable, files⟩
  | none => ⟨ending, bytes, files⟩

def doneLine : String := "Done"

def rejectionLine (error : Request.Error) : String := "error: " ++ error.message

def serve (engine : Engine) (model : Model) (connection : Connection) (files : Files) : Served :=
  match connection.received with
  | .error error => ⟨.failed (.io error), [], files⟩
  | .ok body =>
    match Request.parse body with
    | .error error => connection.answer (rejectionLine error) (.rejected error) files
    | .ok request =>
      match engine model request files with
      | (.done summary, files) => connection.answer doneLine (.completed summary) files
      | (.failed error, files) => ⟨.failed (.decode error), [], files⟩
      | (.crashed, files) => ⟨.crashed, [], files⟩

end Connection

end SystemCombination
