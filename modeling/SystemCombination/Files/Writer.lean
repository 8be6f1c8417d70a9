import SystemCombination.Files.Basic

/-! Buffered writing. A writer stands at an offset of an opened file and keeps what is written
until its buffer would overflow or it is flushed. What a refused flush was to write stays in the
buffer. -/

namespace SystemCombination

structure Writer where
  location : Location
  offset : Nat := 0
  pending : Array UInt8 := #[]

namespace Writer

/-- How many bytes a buffer holds. -/
def capacity : Nat := 8192

/-- Write bytes to the file at once. -/
def send (writer : Writer) (files : Files) (bytes : List UInt8) :
    Except IoError Unit × Writer × Files :=
  match files.writeAt writer.location writer.offset bytes with
  | .ok files => (.ok (), { writer with offset := writer.offset + bytes.length }, files)
  | .error error => (.error error, writer, files)

/-- Write what is pending. -/
def flush (writer : Writer) (files : Files) : Except IoError Unit × Writer × Files :=
  if writer.pending.isEmpty then (.ok (), writer, files)
  else
    match writer.send files writer.pending.toList with
    | (.ok (), writer, files) => (.ok (), { writer with pending := #[] }, files)
    | refused => refused

/-- Put bytes behind what is pending, or write them at once if they fill a buffer alone. -/
def place (writer : Writer) (files : Files) (bytes : List UInt8) :
    Except IoError Unit × Writer × Files :=
  if bytes.length < capacity then
    (.ok (), { writer with pending := writer.pending ++ bytes }, files)
  else writer.send files bytes

/-- Write bytes, after a flush if they do not fit behind what is pending. -/
def write (writer : Writer) (files : Files) (bytes : List UInt8) :
    Except IoError Unit × Writer × Files :=
  if writer.pending.size + bytes.length ≤ capacity then writer.place files bytes
  else
    match writer.flush files with
    | (.ok (), writer, files) => writer.place files bytes
    | refused => refused

/-- Close the writer: what is pending is written if it can be. -/
def close (writer : Writer) (files : Files) : Files := (writer.flush files).2.2

end Writer

end SystemCombination
