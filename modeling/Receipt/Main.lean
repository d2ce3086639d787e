import Receipt.CommandLine.System

/-!
# The program

The program on a console. Everything that is decided is decided by `Receipt.CommandLine`; here stand the
operations of the system alone.
-/

namespace Receipt.CommandLine

def systemWords : IO.Error → String
  | .noFileOrDirectory _ code details => words code details
  | .permissionDenied _ code details => words code details
  | .inappropriateType _ code details => words code details
  | .invalidArgument _ code details => words code details
  | .resourceExhausted _ code details => words code details
  | .resourceBusy code details => words code details
  | .hardwareFault code details => words code details
  | .noSuchThing _ code details => words code details
  | .otherError code details => words code details
  | e => toString e
where
  /-- The system's own text with the number of the error. -/
  words (code : UInt32) (details : String) : String :=
    details ++ " (os error " ++ toString code.toNat ++ ")"

partial def readStream (stream : IO.FS.Stream) (before : ByteArray) : IO ByteArray := do
  let bytes ← stream.read 4096
  if bytes.isEmpty then pure before else readStream stream (before ++ bytes)

def readBytes : Source → IO ByteArray
  | .standardInput => do readStream (← IO.getStdin) .empty
  | .file path => do (← IO.FS.Handle.mk path .read).readBinToEnd

def readSource (source : Source) : IO (Except String String) := do
  try
    match String.fromUTF8? (← readBytes source) with
    | some text => pure (.ok text)
    | none => pure (.error "stream did not contain valid UTF-8")
  catch e => pure (.error (systemWords e))

/-- What an operation of the system gives, or its words if it fails. -/
def orWords {α : Type} (operation : IO α) : IO (Except String α) := do
  try
    pure (.ok (← operation))
  catch e => pure (.error (systemWords e))

def console : System IO IO.FS.Handle where
  access := readSource
  print text := do
    IO.print text
    (← IO.getStdout).flush
  report := IO.eprintln
  openDevice path := orWords (IO.FS.Handle.mk path .readWrite)
  write device chunk := orWords do
    device.write ⟨chunk.toArray⟩
    device.flush
  pause := IO.sleep 2

end Receipt.CommandLine

def main (args : List String) : IO UInt32 :=
  Receipt.CommandLine.console.perform args
