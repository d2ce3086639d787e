import Mathlib.Logic.Function.Basic
import Receipt.CommandLine.System
import Receipt.Proofs.Printer.Overwriting

/-!
# Runs in a world of values

The system around the program as a value: what each source holds, the devices, and what has been written
to the two outputs. A run in it is a function, of which `run_serve_ok`, `run_serve_job` and
`run_serve_error` tell the end from the outcome of the request, and `run_send` what becomes of a device.
-/

namespace Receipt.CommandLine

open Printer

/-- A system around the program. Sources and devices that cannot be had give the words of the system. -/
structure World where
  sources : Source → Except String String
  /-- The devices by their paths; a regular file is the device that holds its bytes. -/
  devices : String → Except String Device
  /-- What has been written to the standard output. -/
  output : String := ""
  /-- The lines written to the standard error. -/
  reports : List String := []

namespace World

def setDevice (w : World) (path : String) (d : Device) : World :=
  { w with devices := Function.update w.devices path (.ok d) }

def print (w : World) (text : String) : World :=
  { w with output := w.output ++ text }

def report (w : World) (line : String) : World :=
  { w with reports := w.reports ++ [line] }

/-- The operations of a world. An open device is known by its path, and its write head stands at the
start when it has been opened. -/
def system : System (StateM World) String where
  access source := do return (← get).sources source
  print text := modify (print · text)
  report line := modify (report · line)
  openDevice path := do
    match (← get).devices path with
    | .error reason => return .error reason
    | .ok d =>
      modify (setDevice · path (.ofContent d.content))
      return .ok path
  write path chunk := do
    match (← get).devices path with
    | .error reason => return .error reason
    | .ok d =>
      modify (setDevice · path (d.put chunk))
      return .ok ()
  pause := pure ()

@[simp] theorem devices_setDevice (w : World) (path : String) (d : Device) :
    (w.setDevice path d).devices path = .ok d :=
  Function.update_self path _ w.devices

theorem devices_setDevice_of_ne (w : World) {path other : String} (h : other ≠ path) (d : Device) :
    (w.setDevice path d).devices other = w.devices other :=
  Function.update_of_ne h _ w.devices

theorem setDevice_setDevice (w : World) (path : String) (d e : Device) :
    (w.setDevice path d).setDevice path e = w.setDevice path e := by
  simp only [setDevice, Function.update_idem]

theorem setDevice_eq_self {w : World} {path : String} {d : Device} (h : w.devices path = .ok d) :
    w.setDevice path d = w := by
  unfold setDevice
  rw [← h, Function.update_eq_self]

/-- A run whose first step has been followed. -/
theorem run_bind {α β : Type} {w w' : World} {step : StateM World α} {a : α}
    (h : step.run w = (a, w')) (next : α → StateM World β) :
    (step >>= next).run w = (next a).run w' := by
  rw [StateT.run_bind, h]
  rfl

/-! ### Devices -/

theorem run_openDevice {w : World} {path : String} {d : Device} (h : w.devices path = .ok d) :
    (system.openDevice path).run w = (.ok path, w.setDevice path (.ofContent d.content)) := by
  simp only [system, StateT.run_bind, StateT.run_get, pure_bind, h]
  rfl

theorem run_write {w : World} {path : String} {d : Device} (h : w.devices path = .ok d)
    (chunk : List UInt8) :
    (system.write path chunk).run w = (.ok (), w.setDevice path (d.put chunk)) := by
  simp only [system, StateT.run_bind, StateT.run_get, pure_bind, h]
  rfl

theorem run_writeChunks {w : World} {path : String} {d : Device} (h : w.devices path = .ok d)
    (cs : List (List UInt8)) :
    (system.writeChunks path cs).run w = (.ok (), w.setDevice path (cs.foldl Device.put d)) := by
  induction cs generalizing w d with
  | nil =>
    rw [List.foldl_nil, setDevice_eq_self h]
    rfl
  | cons chunk rest ih =>
    have hnext := ih (devices_setDevice w path (d.put chunk))
    rw [setDevice_setDevice] at hnext
    rw [System.writeChunks, run_bind (run_write h chunk), List.foldl_cons, ← hnext]
    cases rest <;> rfl

/-- In a world a device is sent a program as any device is. -/
theorem run_send {w : World} {path : String} {d : Device} (h : w.devices path = .ok d) (p : Program) :
    (system.send path p).run w = (none, w.setDevice path ((Device.ofContent d.content).send p)) := by
  have hchunks := run_writeChunks (devices_setDevice w path (.ofContent d.content))
    (chunks (standardChunkSize - 1) p.toBytes)
  rw [setDevice_setDevice] at hchunks
  rw [System.send, run_bind (run_openDevice h)]
  dsimp only
  rw [run_bind hchunks]
  rfl

theorem run_deliver {w : World} {o : Outcome} {path : String} {p : Program} {d : Device}
    (hjob : o.job = some (path, p)) (h : w.devices path = .ok d) :
    (system.deliver o).run w = (o, w.setDevice path ((Device.ofContent d.content).send p)) := by
  unfold System.deliver
  rw [hjob]
  dsimp only
  rw [run_bind (run_send h p)]
  rfl

/-! ### Requests -/

/-- A step that loads something: it gives an answer and leaves the world as it is. -/
def Answers {α : Type} (w : World) (step : ExceptT Failure (StateM World) α)
    (answer : Except Failure α) : Prop :=
  step.run.run w = (answer, w)

section Answers

variable {α β : Type} {w : World} {step : ExceptT Failure (StateM World) α}
  {next : α → ExceptT Failure (StateM World) β}

theorem answers_pure (w : World) (a : α) : w.Answers (pure a) (.ok a) := rfl

theorem answers_throw (w : World) (f : Failure) : w.Answers (throw f : ExceptT _ _ α) (.error f) := rfl

theorem Answers.bind_ok {a : α} {answer : Except Failure β} (h : w.Answers step (.ok a))
    (hnext : w.Answers (next a) answer) : w.Answers (step >>= next) answer := by
  unfold Answers at h hnext ⊢
  rw [ExceptT.run_bind, run_bind h]
  exact hnext

theorem Answers.bind_error {f : Failure} (h : w.Answers step (.error f)) :
    w.Answers (step >>= next) (.error f) := by
  unfold Answers at h ⊢
  rw [ExceptT.run_bind, run_bind h]
  rfl

end Answers

theorem run_outcome {w : World} {r : Request} {answer : Except Failure Outcome}
    (h : w.Answers (r.run system.access) answer) :
    (r.outcome system.access).run w =
      (match answer with | .ok outcome => outcome | .error f => { failure := some f }, w) := by
  rw [Request.outcome, run_bind h]
  cases answer <;> rfl

theorem print_empty (w : World) : w.print "" = w := by
  unfold print
  rw [String.append_empty]

/-- A request that fails leaves nothing but its report. -/
theorem run_serve_error {w : World} {r : Request} {f : Failure}
    (h : w.Answers (r.run system.access) (.error f)) :
    (system.serve r).run w = (1, w.report ("Error: " ++ f.message)) := by
  rw [System.serve, run_bind (run_outcome h)]
  show (1, (w.print "").report ("Error: " ++ f.message)) = _
  rw [print_empty]

/-- A request without a job leaves what it prints. -/
theorem run_serve_ok {w : World} {r : Request} {output : String}
    (h : w.Answers (r.run system.access) (.ok { output })) :
    (system.serve r).run w = (0, w.print output) := by
  rw [System.serve, run_bind (run_outcome h)]
  rfl

/-- A request with a job leaves what it prints, and the job on its device. -/
theorem run_serve_job {w : World} {r : Request} {output path : String} {p : Program} {d : Device}
    (h : w.Answers (r.run system.access) (.ok { output, job := some (path, p) }))
    (hdevice : w.devices path = .ok d) :
    (system.serve r).run w =
      (0, (w.print output).setDevice path ((Device.ofContent d.content).send p)) := by
  have hprint : (system.print output).run w = ((), w.print output) := rfl
  have hdeliver := run_deliver (w := w.print output) (o := { output, job := some (path, p) }) rfl hdevice
  rw [System.serve, run_bind (run_outcome h)]
  dsimp only
  rw [run_bind hprint, run_bind hdeliver]
  rfl

end World

end Receipt.CommandLine
