import Receipt.Chunks
import Receipt.Printer.Job

/-!
# Output device

A printer device as a file that is written from its start and is not shortened. The write head stands
behind the bytes written so far; what the file held beyond it stays. Data goes out in chunks, so that
a slow link is not flooded. Pauses between chunks and failing writes are not modelled.
-/

namespace Receipt.Printer

/-- The bytes that go out at once unless told otherwise. -/
def standardChunkSize : Nat := 4096

structure Device where
  /-- The bytes written since the device was opened. -/
  behind : Array UInt8 := #[]
  /-- What the device still holds beyond the write head. -/
  ahead : List UInt8 := []
  /-- The bytes that go out at once. -/
  chunkSize : Nat
  chunkSize_pos : 0 < chunkSize
deriving DecidableEq, Repr

namespace Device

def ofContent (content : List UInt8) : Device where
  ahead := content
  chunkSize := standardChunkSize
  chunkSize_pos := by decide

def content (d : Device) : List UInt8 :=
  d.behind.toList ++ d.ahead

/-- Sets the chunk size; at least one byte goes out at once. -/
def setChunkSize (d : Device) (n : Nat) : Device :=
  { d with chunkSize := max n 1, chunkSize_pos := by omega }

/-- One write, which overwrites what lies ahead. -/
def put (d : Device) (chunk : List UInt8) : Device :=
  { d with behind := d.behind ++ chunk, ahead := d.ahead.drop chunk.length }

def write (d : Device) (data : List UInt8) : Device :=
  (chunks (d.chunkSize - 1) data).foldl put d

def send (d : Device) (p : Program) : Device :=
  d.write p.toBytes

end Device

end Receipt.Printer
