import Receipt.Config

/-!
# Requests

What the program can be asked to do, once its arguments are understood. A request still names its
files; nothing has been read.
-/

namespace Receipt.CommandLine

inductive Source where
  | standardInput
  | file (path : String)
deriving DecidableEq, Repr

/-- The source that an argument names; a lone dash is the standard input. -/
def Source.ofArgument (arg : String) : Source :=
  if arg = "-" then standardInput else file arg

/-- The switches that change the options of a configuration for one receipt. -/
structure Overrides where
  autoFeed : Bool := false
  strict : Bool := false
  noPlaceholders : Bool := false
  width : Option UInt64 := none
deriving DecidableEq, Repr, Inhabited

/-- The options of a configuration under the switches. A switch that is not given changes nothing. -/
def Overrides.apply (s : Overrides) (o : Options) : Options where
  autoFeed := o.autoFeed || s.autoFeed
  placeholders := o.placeholders && !s.noPlaceholders
  unknownSections := if s.strict then .error else o.unknownSections
  lineWidth := s.width.getD o.lineWidth

/-- How a receipt is to be printed, whatever its layout. -/
structure PrintOptions where
  /-- The file of the order, if there is one. -/
  order : Option String := none
  /-- The file of the configuration, if it is not the default one. -/
  config : Option String := none
  overrides : Overrides := {}
  /-- The device that the receipt is sent to. -/
  device : Option String := none
  /-- Whether a preview is asked for. -/
  preview : Bool := false
  /-- Whether the primitives are shown. -/
  dump : Bool := false
deriving DecidableEq, Repr, Inhabited

/-- Whether a preview is shown: if it is asked for, or if nothing else would be seen. -/
def PrintOptions.showsPreview (o : PrintOptions) : Bool :=
  o.preview || (o.device.isNone && !o.dump)

/-- A part of the program that has a help text. -/
inductive Topic where
  | program
  | print
  | types
  | help
deriving DecidableEq, Repr

inductive Request where
  /-- Prints the receipt of a layout. -/
  | print (layout : Source) (options : PrintOptions)
  /-- Lists the section types. -/
  | types (config : Option String)
  | help (topic : Topic)
  | version
deriving DecidableEq, Repr

inductive UsageError where
  | missingCommand
  | unknownCommand (word : String)
  | unexpected (argument : String)
  /-- An option stands without its value. -/
  | missingValue (option : String)
  /-- A value is attached to an option that takes none. -/
  | unneededValue (option : String)
  | invalidValue (option value : String)
  | repeated (option : String)
  | missingArgument (name : String)
deriving DecidableEq, Repr

def UsageError.message : UsageError → String
  | missingCommand => "a command is required"
  | unknownCommand word => "unrecognized command '" ++ word ++ "'"
  | unexpected argument => "unexpected argument '" ++ argument ++ "' found"
  | missingValue option => "a value is required for '--" ++ option ++ "' but none was supplied"
  | unneededValue option => "no value is expected for '--" ++ option ++ "'"
  | invalidValue option value => "invalid value '" ++ value ++ "' for '" ++ option ++ "'"
  | repeated option => "the argument '--" ++ option ++ "' cannot be used multiple times"
  | missingArgument name => "the required argument " ++ name ++ " was not provided"

end Receipt.CommandLine
