import Receipt.Style

/-!
# Printer commands

The escape sequences of a StarPRNT receipt printer, as far as styled lines, feeds and cuts need them.
A `Command` is a sequence as a value; `Command.bytes` is what goes over the wire.
-/

namespace Receipt.Printer

/-- Opens every command. -/
def escape : UInt8 := 0x1B

/-- Follows `escape` in the commands of the second group. -/
def groupSeparator : UInt8 := 0x1D

def lineFeed : UInt8 := 0x0A

inductive Command where
  /-- Clears the line buffer and restores the power-on alignment, emphasis and size. -/
  | reset
  /-- Chooses the table of characters. -/
  | codePage (page : UInt8)
  /-- Sets the alignment register. -/
  | align (register : UInt8)
  | boldOn
  | boldOff
  /-- Sets how many times the characters are enlarged, beyond once. -/
  | size (height width : UInt8)
  /-- Feeds the paper by some lines. -/
  | feed (lines : UInt8)
  /-- Feeds to the cutter and cuts. -/
  | cut (mode : UInt8)
deriving DecidableEq, Repr

namespace Command

def bytes : Command → List UInt8
  | reset => [escape, 0x40]
  | codePage page => [escape, groupSeparator, 0x74, page]
  | align register => [escape, groupSeparator, 0x61, register]
  | boldOn => [escape, 0x45]
  | boldOff => [escape, 0x46]
  | size height width => [escape, 0x69, height, width]
  | feed lines => [escape, 0x61, lines]
  | cut mode => [escape, 0x64, mode]

def registerOf : Alignment → UInt8
  | .left => 0
  | .center => 1
  | .right => 2

def alignTo (a : Alignment) : Command :=
  align (registerOf a)

/-- The page in which texts are sent. -/
def selectPage437 : Command :=
  codePage 1

/-- Enlarges by at most five times, the printer's limit. -/
def enlarge (height width : UInt8) : Command :=
  size (min height 5) (min width 5)

def normalSize : Command :=
  enlarge 0 0

def doubleSize : Command :=
  enlarge 1 1

/-- Feeds past the blade and cuts the paper through. -/
def fullCut : Command :=
  cut 2

end Command

end Receipt.Printer
