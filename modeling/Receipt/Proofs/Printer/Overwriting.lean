import Receipt.Printer.Device

/-!
# Output to a file

A file that stands for a device is written from its start and never shortened. Its front then holds
all that has gone out so far, and behind that stands what it held there before. Data goes out in chunks,
whose size may be set anew between two writes; the file does not show where one chunk ended.

`write_eq_put` says that of one write, `Overwritten.run` of any steps.
-/

namespace Receipt.Printer

/-- What can be done with an open device. -/
inductive Device.Step where
  | setChunkSize (n : Nat)
  | write (data : List UInt8)
  | send (p : Program)

namespace Device

namespace Step

/-- The bytes that go out in a step. -/
def output : Step → List UInt8
  | setChunkSize _ => []
  | write data => data
  | send p => p.toBytes

def isWrite : Step → Bool
  | setChunkSize _ => false
  | write _ => true
  | send _ => true

end Step

def take (d : Device) : Step → Device
  | .setChunkSize n => d.setChunkSize n
  | .write data => d.write data
  | .send p => d.send p

def run (d : Device) (steps : List Step) : Device :=
  steps.foldl take d

/-! ### Chunks -/

theorem put_nil (d : Device) : d.put [] = d := by
  simp [put]

/-- Two writes in a row come to one. -/
theorem put_put (d : Device) (chunk rest : List UInt8) :
    (d.put chunk).put rest = d.put (chunk ++ rest) := by
  have hbehind : d.behind ++ chunk ++ rest = d.behind ++ (chunk ++ rest) := by
    rw [← Array.toList_inj]
    simp only [Array.toList_appendList, List.append_assoc]
  simp only [put, hbehind, List.drop_drop, List.length_append]

theorem foldl_put (d : Device) (cs : List (List UInt8)) : cs.foldl put d = d.put cs.flatten := by
  induction cs generalizing d with
  | nil => exact d.put_nil.symm
  | cons chunk cs ih => rw [List.foldl_cons, ih, put_put, List.flatten_cons]

/-- Data that goes out in chunks is written as if it went out at once. -/
theorem write_eq_put (d : Device) (data : List UInt8) : d.write data = d.put data := by
  unfold write
  rw [foldl_put, flatten_chunks]

/-! ### Steps -/

/-- A device whose file had some content when it was opened and of which the front has been written. -/
structure Overwritten (initial written : List UInt8) (d : Device) : Prop where
  behind : d.behind.toList = written
  ahead : d.ahead = initial.drop written.length

theorem overwritten_ofContent (initial : List UInt8) : Overwritten initial [] (ofContent initial) :=
  ⟨rfl, rfl⟩

theorem Overwritten.put {initial written : List UInt8} {d : Device} (h : Overwritten initial written d)
    (data : List UInt8) : Overwritten initial (written ++ data) (d.put data) := by
  have hahead : d.ahead.drop data.length = initial.drop (written ++ data).length := by
    rw [h.ahead, List.drop_drop, List.length_append]
  have hbehind : (d.behind ++ data).toList = written ++ data := by
    rw [Array.toList_appendList, h.behind]
  exact ⟨hbehind, hahead⟩

theorem Overwritten.take {initial written : List UInt8} {d : Device}
    (h : Overwritten initial written d) (step : Step) :
    Overwritten initial (written ++ step.output) (d.take step) := by
  cases step with
  | setChunkSize n =>
    rw [Step.output, List.append_nil]
    exact ⟨h.behind, h.ahead⟩
  | write data =>
    show Overwritten initial (written ++ data) (d.write data)
    rw [write_eq_put]
    exact h.put data
  | send p =>
    show Overwritten initial (written ++ p.toBytes) (d.write p.toBytes)
    rw [write_eq_put]
    exact h.put p.toBytes

theorem Overwritten.run {initial written : List UInt8} {d : Device}
    (h : Overwritten initial written d) (steps : List Step) :
    Overwritten initial (written ++ steps.flatMap Step.output) (d.run steps) := by
  unfold Device.run
  induction steps generalizing written d with
  | nil =>
    rw [List.flatMap_nil, List.append_nil]
    exact h
  | cons step rest ih =>
    rw [List.flatMap_cons, ← List.append_assoc]
    exact ih (h.take step)

theorem Overwritten.content {initial written : List UInt8} {d : Device}
    (h : Overwritten initial written d) : d.content = written ++ initial.drop written.length := by
  unfold Device.content
  rw [h.behind, h.ahead]

theorem flatMap_output_filter (steps : List Step) :
    (steps.filter Step.isWrite).flatMap Step.output = steps.flatMap Step.output := by
  induction steps with
  | nil => rfl
  | cons step rest ih =>
    cases step with
    | setChunkSize n => exact ih
    | write data => exact congrArg (data ++ ·) ih
    | send p => exact congrArg (p.toBytes ++ ·) ih

/-- After any steps the file holds all output so far and behind it what it held there at first. It is
the file that a single write of the output leaves, whatever chunk sizes were set on the way. -/
theorem output_overwrites_front (initial : List UInt8) (steps : List Step) :
    let written := steps.flatMap Step.output
    let file := ((ofContent initial).run steps).content
    file = written ++ initial.drop written.length ∧
      file.length = max initial.length written.length ∧
      file = ((ofContent initial).put written).content ∧
      file = ((ofContent initial).run (steps.filter Step.isWrite)).content := by
  intro written file
  have hfresh := overwritten_ofContent initial
  have hfile : file = written ++ initial.drop written.length := (hfresh.run steps).content
  refine ⟨hfile, ?_, ?_, ?_⟩
  · rw [hfile, List.length_append, List.length_drop]
    omega
  · rw [hfile, (hfresh.put written).content, List.nil_append]
  · rw [hfile, (hfresh.run _).content, List.nil_append, flatMap_output_filter]

end Device

end Receipt.Printer
