import Receipt.CommandLine.Help
import Receipt.Dialect
import Receipt.Order.Reader
import Receipt.Preview
import Receipt.Program.Dump
import Receipt.Vocabulary.Listing

/-!
# Running requests

What a request comes to. The files are read one after the other, the configuration first, then the
layout, then the order, and none after a fault. A bad layout is no fault here, since it has a receipt
too. The receipt goes to the standard output first and to the device last.
-/

namespace Receipt.CommandLine

/-- Why a command fails. The reasons are the words of the system or of a reader. -/
inductive Failure where
  | config (path reason : String)
  | layout (reason : String)
  | order (path reason : String)
  | device (path reason : String)
  /-- The device does not take the job. -/
  | write (reason : String)
deriving DecidableEq, Repr

def Failure.message : Failure → String
  | config path reason => "Config error: " ++ path ++ ": " ++ reason
  | layout reason => "I/O error: " ++ reason
  | order path reason => "Order error: " ++ path ++ ": " ++ reason
  | device path reason => "Transport error: Failed to open " ++ path ++ ": " ++ reason
  | write reason => "Transport error: Write failed: " ++ reason

/-- What a command leaves behind. -/
structure Outcome where
  /-- The text on the standard output. -/
  output : String := ""
  /-- The program that goes to a device after that, with the path of the device. -/
  job : Option (String × Program) := none
  failure : Option Failure := none
deriving DecidableEq, Repr

namespace Outcome

/-- The outcome if the job fails. What has been printed by then stays. -/
def failed (o : Outcome) (f : Failure) : Outcome :=
  { o with job := none, failure := some f }

def exitCode (o : Outcome) : UInt32 :=
  if o.failure.isSome then 1 else 0

/-- The line on the standard error, if the command failed. -/
def errorLine? (o : Outcome) : Option String :=
  o.failure.map fun f => "Error: " ++ f.message

end Outcome

/-- The number with which the program ends if its arguments are not understood. -/
def usageExitCode : UInt32 := 2

/-- Gets at a text, or tells the words of the system. -/
abbrev Access (m : Type → Type) := Source → m (Except String String)

section Loading

variable {m : Type → Type} [Monad m] (access : Access m)

/-- Reads the configuration; without a file it is the default one. -/
def loadConfig : Option String → ExceptT Failure m Config
  | none => pure {}
  | some path => do
    match ← access (.file path) with
    | .error reason => throw (.config path reason)
    | .ok text =>
      match Config.read text with
      | .error e => throw (.config path e.message)
      | .ok config => pure config

def loadLayout (source : Source) : ExceptT Failure m String := do
  match ← access source with
  | .error reason => throw (.layout reason)
  | .ok text => pure text

/-- Reads the order, if there is one. -/
def loadOrder : Option String → ExceptT Failure m (Option Order)
  | none => pure none
  | some path => do
    match ← access (.file path) with
    | .error reason => throw (.order path reason)
    | .ok text =>
      match Order.read text with
      | .error e => throw (.order path e.message)
      | .ok order => pure (some order)

end Loading

/-- The configuration under the switches of a command line. -/
def PrintOptions.adjust (o : PrintOptions) (c : Config) : Config :=
  { c with options := o.overrides.apply c.options }

/-- What is seen of a receipt on paper of some width. -/
def PrintOptions.view (o : PrintOptions) (p : Program) (width : Nat) : String :=
  (if o.dump then p.dump else "") ++ (if o.showsPreview then Preview.render p width else "")

/-- The outcome of a print command whose files have been read. -/
def PrintOptions.outcome (o : PrintOptions) (c : Config) (layout : String) (order : Option Order) :
    Outcome :=
  let c := o.adjust c
  let p := c.dialect.receipt order layout
  { output := o.view p c.options.lineWidth.toNat
    job := o.device.map fun path => (path, p) }

/-- What a request comes to, unless it fails. -/
def Request.run {m : Type → Type} [Monad m] (access : Access m) :
    Request → ExceptT Failure m Outcome
  | print layout options => do
    let config ← loadConfig access options.config
    let text ← loadLayout access layout
    let order ← loadOrder access options.order
    pure (options.outcome config text order)
  | types config => do
    let config ← loadConfig access config
    pure { output := config.vocabulary.listing }
  | help topic => pure { output := topic.text }
  | version => pure { output := versionLine }

def Request.outcome {m : Type → Type} [Monad m] (access : Access m) (r : Request) : m Outcome := do
  match ← (r.run access).run with
  | .ok outcome => pure outcome
  | .error f => pure { failure := some f }

end Receipt.CommandLine
