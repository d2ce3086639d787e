import Receipt.CommandLine.Arguments
import Receipt.CommandLine.Run
import Receipt.Printer.Device

/-!
# A run of the program

From arguments to the number with which the program ends. What a run needs of the system around it is
a record of operations, so that the same run can be had on a console or on paper.

A receipt goes to its device in chunks, with a pause between two of them. A device that fails keeps
what it has been sent, and the standard output keeps what has been printed by then.
-/

namespace Receipt.CommandLine

/-- What the program needs of the system around it; `δ` is an open device. -/
structure System (m : Type → Type) (δ : Type) where
  access : Access m
  /-- Writes a text to the standard output. -/
  print : String → m Unit
  /-- Writes a line to the standard error. -/
  report : String → m Unit
  /-- Opens the device at a path, or tells the words of the system. -/
  openDevice : String → m (Except String δ)
  /-- Writes a chunk to an open device, or tells the words of the system. -/
  write : δ → List UInt8 → m (Except String Unit)
  /-- The pause between two chunks. -/
  pause : m Unit

namespace System

variable {m : Type → Type} [Monad m] {δ : Type} (system : System m δ)

/-- Writes chunks to an open device up to the first that fails. -/
def writeChunks (device : δ) : List (List UInt8) → m (Except String Unit)
  | [] => pure (.ok ())
  | chunk :: rest => do
    match ← system.write device chunk with
    | .error reason => pure (.error reason)
    | .ok () =>
      unless rest.isEmpty do system.pause
      writeChunks device rest

/-- Sends a program to the device at a path; the failure, if there is one. -/
def send (path : String) (p : Program) : m (Option Failure) := do
  match ← system.openDevice path with
  | .error reason => pure (some (.device path reason))
  | .ok device =>
    match ← system.writeChunks device (chunks (Printer.standardChunkSize - 1) p.toBytes) with
    | .error reason => pure (some (.write reason))
    | .ok () => pure none

/-- The outcome after its job has been sent, if it has one. -/
def deliver (o : Outcome) : m Outcome :=
  match o.job with
  | none => pure o
  | some (path, p) => do
    match ← system.send path p with
    | none => pure o
    | some f => pure (o.failed f)

/-- Does what is asked for; the number with which the program ends. -/
def serve (r : Request) : m UInt32 := do
  let outcome ← r.outcome system.access
  system.print outcome.output
  let outcome ← system.deliver outcome
  match outcome.errorLine? with
  | none => pure ()
  | some line => system.report line
  pure outcome.exitCode

/-- Does what the arguments ask for; the number with which the program ends. -/
def perform (args : List String) : m UInt32 :=
  match Request.ofArguments args with
  | .ok request => system.serve request
  | .error e => do
    system.report ("error: " ++ e.message)
    pure usageExitCode

end System

end Receipt.CommandLine
