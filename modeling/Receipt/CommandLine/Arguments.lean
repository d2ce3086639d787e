import Receipt.CommandLine.Request

/-!
# Arguments

How arguments become a request. They are understood from left to right, and the first one that settles
the matter does so, be it a fault or a call for help. An option is written with two dashes; its value
is the next argument or follows an equals sign. After two lone dashes nothing is an option any more.
A value that starts with a dash has to be attached, the lone dash excepted.
-/

namespace Receipt.CommandLine

/-- Why arguments are not read to their end. -/
inductive Stop where
  | usage (e : UsageError)
  /-- Something else is asked for. -/
  | instead (r : Request)
deriving DecidableEq, Repr

/-- What an option of a command does to its settings. -/
inductive Effect (σ : Type) where
  /-- Takes no value. -/
  | switch (set : σ → σ)
  /-- Takes a value, and has nothing to say to one that does not fit. -/
  | valued (set : String → σ → Option σ)

structure Form (σ : Type) where
  /-- The options, without their dashes. -/
  options : List (String × Effect σ)
  /-- What a call for help shows. -/
  topic : Topic

/-- What has been understood so far. -/
structure Progress (σ : Type) where
  settings : σ
  /-- The options that have been used; none can be used twice. -/
  used : List String := []
  /-- The arguments that stand for themselves; `missing` more can follow. -/
  plain : List String := []
  missing : Nat

inductive Word where
  /-- Two dashes and nothing else. -/
  | divider
  /-- An option, with the value that is attached. -/
  | long (name : String) (value : Option String)
  /-- One dash and letters, of which the first counts. -/
  | short (letter : Char)
  | plain
deriving DecidableEq, Repr

namespace Word

/-- The name and the attached value of what follows two dashes. -/
def ofOption (cs : List Char) : Word :=
  let name := String.ofList (cs.takeWhile (· ≠ '='))
  match cs.dropWhile (· ≠ '=') with
  | [] => long name none
  | _ :: value => long name (some (String.ofList value))

def ofArgument (arg : String) : Word :=
  match arg.toList with
  | ['-', '-'] => divider
  | '-' :: '-' :: cs => ofOption cs
  | '-' :: c :: _ => short c
  | _ => plain

end Word

namespace Progress

variable {σ : Type}

/-- Uses an option, which no one may do twice. -/
def use (p : Progress σ) (name : String) : Except Stop (Progress σ) :=
  if name ∈ p.used then .error (.usage (.repeated name))
  else .ok { p with used := name :: p.used }

def assign (p : Progress σ) (name : String) (set : String → σ → Option σ) (value : String) :
    Except Stop (Progress σ) := do
  let p ← p.use name
  let some settings := set value p.settings | throw (.usage (.invalidValue name value))
  pure { p with settings }

/-- Takes an argument that stands for itself. An empty one is no value. -/
def place (p : Progress σ) (arg : String) : Except Stop (Progress σ) :=
  match p.missing with
  | 0 => .error (.usage (.unexpected arg))
  | n + 1 =>
    if arg.isEmpty then .error (.usage (.invalidValue "LAYOUT" arg))
    else .ok { p with plain := p.plain ++ [arg], missing := n }

end Progress

namespace Form

variable {σ : Type}

def read (f : Form σ) (p : Progress σ) : List String → Except Stop (Progress σ)
  | [] => .ok p
  | arg :: rest =>
    match Word.ofArgument arg with
    | .divider => rest.foldlM Progress.place p
    | .plain => do f.read (← p.place arg) rest
    | .short c => .error (if c = 'h' then .instead (.help f.topic) else .usage (.unexpected arg))
    | .long name value =>
      match f.options.lookup name, value with
      | none, none =>
        .error (if name = "help" then .instead (.help f.topic) else .usage (.unexpected arg))
      | none, some _ =>
        .error (.usage (if name = "help" then .unneededValue name else .unexpected arg))
      | some (.switch set), none => do
        let p ← p.use name
        f.read { p with settings := set p.settings } rest
      | some (.switch _), some _ => .error (.usage (.unneededValue name))
      | some (.valued set), some value => do f.read (← p.assign name set value) rest
      | some (.valued set), none =>
        match rest with
        | [] => .error (.usage (.missingValue name))
        | value :: rest =>
          if Word.ofArgument value = .plain then do f.read (← p.assign name set value) rest
          else .error (.usage (.missingValue name))

end Form

/-! ### The commands -/

/-- A number of at most 64 bits in decimal digits, after a plus sign if there is one. -/
def word64? (s : String) : Option UInt64 :=
  let digits := match s.toList with
    | '+' :: cs => cs
    | cs => cs
  let n := Nat.ofDigitChars 10 digits 0
  if digits ≠ [] ∧ digits.all Char.isDigit ∧ n < UInt64.size then some n.toUInt64 else none

/-- The value of a path option. An empty path is no value. -/
def path {σ : Type} (set : String → σ → σ) : Effect σ :=
  .valued fun value s => if value.isEmpty then none else some (set value s)

/-- A switch that changes the options of the configuration. -/
def override (set : Overrides → Overrides) : Effect PrintOptions :=
  .switch fun o => { o with overrides := set o.overrides }

def printForm : Form PrintOptions where
  options := [
    ("order", path fun order o => { o with order := some order }),
    ("config", path fun config o => { o with config := some config }),
    ("auto-feed", override fun s => { s with autoFeed := true }),
    ("strict", override fun s => { s with strict := true }),
    ("no-placeholders", override fun s => { s with noPlaceholders := true }),
    ("width", .valued fun value o =>
      (word64? value).map fun width => { o with overrides.width := some width }),
    ("device", path fun device o => { o with device := some device }),
    ("preview", .switch fun o => { o with preview := true }),
    ("ops", .switch fun o => { o with dump := true })]
  topic := .print

def typesForm : Form (Option String) where
  options := [("config", path fun config _ => some config)]
  topic := .types

def ofPrintArguments (args : List String) : Except Stop Request := do
  let p ← printForm.read { settings := {}, missing := 1 } args
  match p.plain with
  | [] => throw (.usage (.missingArgument "<LAYOUT>"))
  | layout :: _ => pure (.print (.ofArgument layout) p.settings)

def ofTypesArguments (args : List String) : Except Stop Request := do
  let p ← typesForm.read { settings := none, missing := 0 } args
  pure (.types p.settings)

def topics : List (String × Topic) :=
  [("print", .print), ("types", .types), ("help", .help)]

def ofHelpArguments : List String → Except Stop Request
  | [] => .ok (.help .program)
  | word :: rest =>
    match topics.lookup word, rest with
    | none, _ => .error (.usage (.unknownCommand word))
    | some _, extra :: _ => .error (.usage (.unknownCommand extra))
    | some topic, [] => .ok (.help topic)

/-- The request of arguments that start with no command. -/
def ofOption (arg : String) : Except Stop Request :=
  match Word.ofArgument arg with
  | .long "help" none => .ok (.help .program)
  | .long "version" none => .ok .version
  | .short 'h' => .ok (.help .program)
  | .short 'V' => .ok .version
  | .plain => .error (.usage (.unknownCommand arg))
  | _ => .error (.usage (.unexpected arg))

/-- What a list of arguments asks for, or why reading them stops. -/
def ofArguments : List String → Except Stop Request
  | [] => .error (.usage .missingCommand)
  | "print" :: args => ofPrintArguments args
  | "types" :: args => ofTypesArguments args
  | "help" :: args => ofHelpArguments args
  | arg :: _ => ofOption arg

def Request.ofArguments (args : List String) : Except UsageError Request :=
  match CommandLine.ofArguments args with
  | .ok r => .ok r
  | .error (.instead r) => .ok r
  | .error (.usage e) => .error e

end Receipt.CommandLine
