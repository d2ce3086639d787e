import Receipt.Proofs.CommandLine.World
import Receipt.Proofs.Program.Dump

/-!
# The print command

Everything that a print command puts out comes from one receipt: the dump, the preview and the bytes on
the device. The receipt may be the notice of a bad layout; the command has then done its work all the
same. What it needs is its three files, and it reads them before it puts out anything: the first that
cannot be loaded is reported, and nothing else is left behind.
-/

namespace Receipt.CommandLine

open Printer

namespace World

variable {α : Type}

/-! ### What the files hold -/

/-- A file holds a text that a reader takes for a value. -/
def Holds (w : World) (read : String → Except Json.Error α) (path : String) (a : α) : Prop :=
  ∃ text, w.sources (.file path) = .ok text ∧ read text = .ok a

/-- A file gives a reader no value: it cannot be had, or the reader refuses its text. -/
inductive Lacks (w : World) (read : String → Except Json.Error α) (path : String) : String → Prop where
  | unreadable (reason : String) (h : w.sources (.file path) = .error reason) : Lacks w read path reason
  | refused (text : String) (e : Json.Error) (h : w.sources (.file path) = .ok text)
      (refusal : read text = .error e) : Lacks w read path e.message

/-- The configuration of a command; without a file it is the default one. -/
def ConfigIs (w : World) : Option String → Config → Prop
  | none, config => config = {}
  | some path, config => w.Holds Config.read path config

/-- The order of a command, if it names one. -/
def OrderIs (w : World) : Option String → Option Order → Prop
  | none, order => order = none
  | some path, order => ∃ o, order = some o ∧ w.Holds Order.read path o

/-- The first file of a print command that cannot be loaded, as a failure. The configuration comes
first, then the layout, then the order. -/
inductive FirstFault (w : World) (layout : Source) (o : PrintOptions) : Failure → Prop where
  | config (path reason : String) (named : o.config = some path)
      (lacks : w.Lacks Config.read path reason) : FirstFault w layout o (.config path reason)
  | layout (config : Config) (reason : String) (configured : w.ConfigIs o.config config)
      (lacks : w.sources layout = .error reason) : FirstFault w layout o (.layout reason)
  | order (config : Config) (text path reason : String) (configured : w.ConfigIs o.config config)
      (holds : w.sources layout = .ok text) (named : o.order = some path)
      (lacks : w.Lacks Order.read path reason) : FirstFault w layout o (.order path reason)

theorem holds_or_lacks (w : World) (read : String → Except Json.Error α) (path : String) :
    (∃ a, w.Holds read path a) ∨ ∃ reason, w.Lacks read path reason := by
  cases hsource : w.sources (.file path) with
  | error reason => exact .inr ⟨reason, .unreadable reason hsource⟩
  | ok text =>
    cases hread : read text with
    | error e => exact .inr ⟨e.message, .refused text e hsource hread⟩
    | ok a => exact .inl ⟨a, text, hsource, hread⟩

theorem configIs_or_lacks (w : World) (file : Option String) :
    (∃ config, w.ConfigIs file config) ∨
      ∃ path reason, file = some path ∧ w.Lacks Config.read path reason := by
  cases file with
  | none => exact .inl ⟨{}, rfl⟩
  | some path =>
    rcases w.holds_or_lacks Config.read path with hconfig | ⟨reason, h⟩
    · exact .inl hconfig
    · exact .inr ⟨path, reason, rfl, h⟩

theorem orderIs_or_lacks (w : World) (file : Option String) :
    (∃ order, w.OrderIs file order) ∨
      ∃ path reason, file = some path ∧ w.Lacks Order.read path reason := by
  cases file with
  | none => exact .inl ⟨none, rfl⟩
  | some path =>
    rcases w.holds_or_lacks Order.read path with ⟨order, h⟩ | ⟨reason, h⟩
    · exact .inl ⟨some order, order, rfl, h⟩
    · exact .inr ⟨path, reason, rfl, h⟩

/-- The files of a print command load, or there is a first that does not. -/
theorem loads_or_firstFault (w : World) (layout : Source) (o : PrintOptions) :
    (∃ config text order,
      w.ConfigIs o.config config ∧ w.sources layout = .ok text ∧ w.OrderIs o.order order) ∨
      ∃ f, w.FirstFault layout o f := by
  rcases w.configIs_or_lacks o.config with ⟨config, hconfig⟩ | ⟨path, reason, hnamed, h⟩
  · cases hlayout : w.sources layout with
    | error reason => exact .inr ⟨_, .layout config reason hconfig hlayout⟩
    | ok text =>
      rcases w.orderIs_or_lacks o.order with ⟨order, horder⟩ | ⟨path, reason, hnamed, h⟩
      · exact .inl ⟨config, text, order, hconfig, rfl, horder⟩
      · exact .inr ⟨_, .order config text path reason hconfig hlayout hnamed h⟩
  · exact .inr ⟨_, .config path reason hnamed h⟩

/-! ### Loading -/

theorem answers_access (w : World) (source : Source) :
    w.Answers (liftM (system.access source)) (.ok (w.sources source)) := rfl

theorem answers_loadConfig {w : World} {file : Option String} {config : Config}
    (h : w.ConfigIs file config) : w.Answers (loadConfig system.access file) (.ok config) := by
  cases file with
  | none =>
    cases h
    exact answers_pure w _
  | some path =>
    obtain ⟨text, hsource, hread⟩ := h
    refine Answers.bind_ok (answers_access w _) ?_
    simp only [hsource, hread]
    exact answers_pure w config

theorem answers_loadConfig_of_lacks {w : World} {path reason : String}
    (h : w.Lacks Config.read path reason) :
    w.Answers (loadConfig system.access (some path)) (.error (.config path reason)) := by
  refine Answers.bind_ok (answers_access w _) ?_
  cases h with
  | unreadable reason h =>
    simp only [h]
    exact answers_throw w _
  | refused text e h refusal =>
    simp only [h, refusal]
    exact answers_throw w _

theorem answers_loadLayout {w : World} {source : Source} {text : String}
    (h : w.sources source = .ok text) : w.Answers (loadLayout system.access source) (.ok text) := by
  refine Answers.bind_ok (answers_access w _) ?_
  simp only [h]
  exact answers_pure w text

theorem answers_loadLayout_of_lacks {w : World} {source : Source} {reason : String}
    (h : w.sources source = .error reason) :
    w.Answers (loadLayout system.access source) (.error (.layout reason)) := by
  refine Answers.bind_ok (answers_access w _) ?_
  simp only [h]
  exact answers_throw w _

theorem answers_loadOrder {w : World} {file : Option String} {order : Option Order}
    (h : w.OrderIs file order) : w.Answers (loadOrder system.access file) (.ok order) := by
  cases file with
  | none =>
    cases h
    exact answers_pure w _
  | some path =>
    obtain ⟨o, rfl, text, hsource, hread⟩ := h
    refine Answers.bind_ok (answers_access w _) ?_
    simp only [hsource, hread]
    exact answers_pure w _

theorem answers_loadOrder_of_lacks {w : World} {path reason : String}
    (h : w.Lacks Order.read path reason) :
    w.Answers (loadOrder system.access (some path)) (.error (.order path reason)) := by
  refine Answers.bind_ok (answers_access w _) ?_
  cases h with
  | unreadable reason h =>
    simp only [h]
    exact answers_throw w _
  | refused text e h refusal =>
    simp only [h, refusal]
    exact answers_throw w _

/-- A print command whose files load comes to the outcome that they tell. -/
theorem answers_print {w : World} {layout : Source} {o : PrintOptions} {config : Config}
    {text : String} {order : Option Order} (hconfig : w.ConfigIs o.config config)
    (hlayout : w.sources layout = .ok text) (horder : w.OrderIs o.order order) :
    w.Answers ((Request.print layout o).run system.access) (.ok (o.outcome config text order)) := by
  refine Answers.bind_ok (answers_loadConfig hconfig) ?_
  refine Answers.bind_ok (answers_loadLayout hlayout) ?_
  refine Answers.bind_ok (answers_loadOrder horder) ?_
  exact answers_pure w _

/-- A print command whose files do not all load fails by the first of them. -/
theorem answers_print_of_firstFault {w : World} {layout : Source} {o : PrintOptions} {f : Failure}
    (h : w.FirstFault layout o f) :
    w.Answers ((Request.print layout o).run system.access) (.error f) := by
  cases h with
  | config path reason named lacks =>
    have hload := answers_loadConfig_of_lacks lacks
    rw [← named] at hload
    exact Answers.bind_error hload
  | layout config reason configured lacks =>
    refine Answers.bind_ok (answers_loadConfig configured) ?_
    exact Answers.bind_error (answers_loadLayout_of_lacks lacks)
  | order config text path reason configured holds named lacks =>
    have hload := answers_loadOrder_of_lacks lacks
    rw [← named] at hload
    refine Answers.bind_ok (answers_loadConfig configured) ?_
    refine Answers.bind_ok (answers_loadLayout holds) ?_
    exact Answers.bind_error hload

/-! ### Printing -/

theorem content_send (content : List UInt8) (p : Program) :
    ((Device.ofContent content).send p).content =
      p.toBytes ++ content.drop p.toBytes.length :=
  ((Device.overwritten_ofContent content).take (.send p)).content

/-- The world after a receipt has been printed in it and sent to its device. -/
theorem run_print {w : World} {layout : Source} {o : PrintOptions} {config : Config} {text : String}
    {order : Option Order} (hconfig : w.ConfigIs o.config config)
    (hlayout : w.sources layout = .ok text) (horder : w.OrderIs o.order order)
    (hdevice : ∀ path, o.device = some path → ∃ d, w.devices path = .ok d) :
    let c := o.adjust config
    let p := c.dialect.receipt order text
    let printed := w.print (o.view p c.options.lineWidth.toNat)
    ∃ after, (system.serve (.print layout o)).run w = (0, after) ∧
      after.output = printed.output ∧ after.reports = w.reports ∧
      ∀ path d, w.devices path = .ok d → ∃ d', after.devices path = .ok d' ∧
        d'.content =
          if o.device = some path then p.toBytes ++ d.content.drop p.toBytes.length
          else d.content := by
  intro c p printed
  have hanswer := answers_print hconfig hlayout horder
  cases hto : o.device with
  | none =>
    have houtcome : o.outcome config text order = { output := o.view p c.options.lineWidth.toNat } := by
      simp only [PrintOptions.outcome, hto, Option.map_none]
      rfl
    rw [houtcome] at hanswer
    refine ⟨printed, run_serve_ok hanswer, rfl, rfl, ?_⟩
    intro path d hd
    exact ⟨d, hd, rfl⟩
  | some target =>
    obtain ⟨d, hd⟩ := hdevice target hto
    have houtcome : o.outcome config text order =
        { output := o.view p c.options.lineWidth.toNat, job := some (target, p) } := by
      simp only [PrintOptions.outcome, hto, Option.map_some]
      rfl
    rw [houtcome] at hanswer
    refine ⟨_, run_serve_job hanswer hd, rfl, rfl, ?_⟩
    intro path e he
    by_cases hpath : path = target
    · subst hpath
      obtain rfl : d = e := Except.ok.inj (hd.symm.trans he)
      refine ⟨_, devices_setDevice printed path _, ?_⟩
      rw [if_pos rfl, content_send]
    · refine ⟨e, (devices_setDevice_of_ne printed hpath _).trans he, ?_⟩
      rw [if_neg fun h => hpath (Option.some.inj h).symm]

end World

theorem showsPreview_iff (o : PrintOptions) :
    o.showsPreview = true ↔ o.preview = true ∨ (o.device = none ∧ o.dump = false) := by
  unfold PrintOptions.showsPreview
  rw [Bool.or_eq_true, Bool.and_eq_true, Option.isNone_iff_eq_none, Bool.not_eq_true']

/-- A print command that is understood either finds its three files in order or not. If it does, its
dump, its preview and the bytes on its device all come from one receipt, whatever that receipt is; the
dump has a line for each primitive and is that of no other program. If not, it reports the first file that
cannot be loaded, and that is all. -/
theorem print_shows_one_receipt (w : World) (args : List String) (layout : Source) (o : PrintOptions)
    (understood : Request.ofArguments args = .ok (.print layout o))
    (writable : ∀ path, o.device = some path → ∃ d, w.devices path = .ok d) :
    let after := (World.system.perform args).run w
    -- The files load, or there is a first that does not.
    ((∃ config text order,
        w.ConfigIs o.config config ∧ w.sources layout = .ok text ∧ w.OrderIs o.order order) ∨
      ∃ f, w.FirstFault layout o f) ∧
    -- What is left behind if they load.
    (∀ config text order,
      w.ConfigIs o.config config → w.sources layout = .ok text → w.OrderIs o.order order →
      let options : Options :=
        { autoFeed := config.options.autoFeed || o.overrides.autoFeed
          placeholders := config.options.placeholders && !o.overrides.noPlaceholders
          unknownSections := if o.overrides.strict then .error else config.options.unknownSections
          lineWidth := o.overrides.width.getD config.options.lineWidth }
      let p := ({ config with options } : Config).dialect.receipt order text
      let preview := if o.preview ∨ (o.device = none ∧ o.dump = false) then
        Preview.render p options.lineWidth.toNat else ""
      after.1 = 0 ∧
        after.2.output = w.output ++ (if o.dump then p.dump else "") ++ preview ∧
        p.dump.toList.splitOn '\n' = p.map (fun op => op.dump.toList) ++ [[]] ∧
        (∀ q : Program, q.dump = p.dump → q = p) ∧
        after.2.reports = w.reports ∧
        ∀ path d, w.devices path = .ok d → ∃ d', after.2.devices path = .ok d' ∧
          d'.content =
            if o.device = some path then p.toBytes ++ d.content.drop p.toBytes.length
            else d.content) ∧
    -- What is left behind if one does not.
    ∀ f, w.FirstFault layout o f → after = (1, w.report ("Error: " ++ f.message)) := by
  have hperform : World.system.perform args = World.system.serve (.print layout o) := by
    unfold System.perform
    rw [understood]
  rw [hperform]
  intro after
  refine ⟨w.loads_or_firstFault layout o, ?_, ?_⟩
  · intro config text order hconfig hlayout horder options p preview
    obtain ⟨w', hrun, houtput, hreports, hdevices⟩ :=
      World.run_print hconfig hlayout horder writable
    have hafter : after = (0, w') := hrun
    have hview : o.view p options.lineWidth.toNat = (if o.dump then p.dump else "") ++ preview := by
      unfold PrintOptions.view
      simp only [showsPreview_iff]
      rfl
    rw [hafter]
    refine ⟨rfl, ?_, splitOn_dump p, fun _ => Program.dump_injective, hreports, hdevices⟩
    rw [String.append_assoc, ← hview]
    exact houtput
  · intro f hf
    exact World.run_serve_error (World.answers_print_of_firstFault hf)

/-- A document that is no object is printed with every output at once: its notice is dumped, drawn on
twenty columns and sent. With an order that cannot be had, the command leaves nothing but its report. -/
theorem bad_layout_is_printed_everywhere :
    let args := ["print", "--ops", "--preview", "layout", "--device", "lp", "--width=20"]
    let o : PrintOptions :=
      { device := some "lp", preview := true, dump := true, overrides := { width := some 20 } }
    let w : World :=
      { sources := fun source => if source = .file "layout" then .ok "[]" else .error "no such file"
        devices := fun _ => .ok (Device.ofContent (List.replicate 90 0)) }
    let p := (Fault.layout .notAnObject).notice.finish
    let printed := (World.system.perform args).run w
    let refused := (World.system.perform (args ++ ["--order", "o"])).run w
    Request.ofArguments args = .ok (.print (.file "layout") o) ∧
      (∀ path, o.device = some path → ∃ d, w.devices path = .ok d) ∧
      printed.1 = 0 ∧
      printed.2.output = p.dump ++
        "ERROR: document must\n  be a JSON object\n\n\n------- cut --------\n" ∧
      (∃ d, printed.2.devices "lp" = .ok d ∧
        d.content = p.toBytes ++ (List.replicate 90 0).drop p.toBytes.length) ∧
      refused = (1, w.report "Error: Order error: o: no such file") := by
  intro args o w p printed refused
  have hunderstood : Request.ofArguments args = .ok (.print (.file "layout") o) := by rfl
  have hordered : Request.ofArguments (args ++ ["--order", "o"]) =
      .ok (.print (.file "layout") { o with order := some "o" }) := by rfl
  have hwritable : ∀ path, o.device = some path → ∃ d, w.devices path = .ok d :=
    fun _ _ => ⟨_, rfl⟩
  obtain ⟨hcode, houtput, -, -, -, hdevices⟩ :=
    (print_shows_one_receipt w args _ o hunderstood hwritable).2.1 {} "[]" none rfl rfl rfl
  obtain ⟨d, hd, hcontent⟩ := hdevices "lp" _ rfl
  have hfault : w.FirstFault (.file "layout") { o with order := some "o" }
      (.order "o" "no such file") :=
    .order {} "[]" "o" "no such file" rfl rfl rfl (.unreadable _ rfl)
  refine ⟨hunderstood, hwritable, hcode, houtput.trans ?_, ⟨d, hd, hcontent.trans ?_⟩,
    (print_shows_one_receipt w _ _ _ hordered hwritable).2.2 _ hfault⟩
  · decide +kernel
  · decide +kernel

end Receipt.CommandLine
