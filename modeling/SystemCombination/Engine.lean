import SystemCombination.Files.Writer
import SystemCombination.Pipeline

/-! Running a request on files. The matched file is opened, then the one-best file and, if one is
wanted, the oracle file are created, and then the segments are read, decoded and written. Writers
that are left over after a failure write what they still hold. -/

namespace SystemCombination.Engine

/-- The files and the writers that are open on them. -/
structure Outputs where
  files : Files
  oneBest : Writer
  oracle : Option Writer

namespace Outputs

/-- The stream of the one-best file. -/
def oneBestStream : Stream Outputs where
  write bytes := ExceptT.mk fun outputs =>
    let (result, oneBest, files) := outputs.oneBest.write outputs.files bytes
    (result, { outputs with oneBest, files })
  flush := ExceptT.mk fun outputs =>
    let (result, oneBest, files) := outputs.oneBest.flush outputs.files
    (result, { outputs with oneBest, files })

/-- An action on the oracle file; there is nothing to do where there is none. -/
def onOracle (action : Writer → Files → Except IoError Unit × Writer × Files) :
    Attempt IoError Outputs Unit :=
  ExceptT.mk fun outputs =>
    match outputs.oracle with
    | none => (.ok (), outputs)
    | some oracle =>
      let (result, oracle, files) := action oracle outputs.files
      (result, { outputs with oracle, files })

/-- The stream of the oracle file. -/
def oracleStream : Stream Outputs where
  write bytes := onOracle fun oracle files => oracle.write files bytes
  flush := onOracle Writer.flush

/-- Close the writers, the oracle's first. -/
def close (outputs : Outputs) : Files :=
  let files := match outputs.oracle with
    | some oracle => oracle.close outputs.files
    | none => outputs.files
  outputs.oneBest.close files

end Outputs

/-- Create the output at a path. -/
def createOutput (files : Files) (path : String) : Except DecodeFailure (Writer × Files) :=
  match files.create path with
  | .ok (location, files) => .ok ({ location }, files)
  | .error error => .error (.createOutput path error)

/-- Decode what was opened at `input`, once the outputs have been created. -/
def decodeInto (model : Model) (request : Request) (input : Location) (outputs : Outputs) :
    Except DecodeFailure Summary × Files :=
  let lines := Text.linesOfSource (outputs.files.read input)
  let decode := Pipeline.run model request Outputs.oneBestStream Outputs.oracleStream lines
  let (result, outputs) := decode outputs
  (result, outputs.close)

/-- Run a request, and give the files it leaves. -/
def run (model : Model) (request : Request) (files : Files) :
    Except DecodeFailure Summary × Files :=
  match files.locate request.matchedFile with
  | .error error => (.error (.openInput request.matchedFile error), files)
  | .ok input =>
    match createOutput files request.oneBest with
    | .error error => (.error error, files)
    | .ok (oneBest, files) =>
      if request.wantsOracle then
        match createOutput files request.oraclePath with
        | .error error => (.error error, files)
        | .ok (oracle, files) => decodeInto model request input ⟨files, oneBest, some oracle⟩
      else decodeInto model request input ⟨files, oneBest, none⟩

end SystemCombination.Engine
