import CodeScribe.Proofs.Page.Frames

/-!
# What the page leaves in the environment

While something is made with the chosen model, two variables of the environment hold the choice.
Afterwards they are put back, whatever came of it, unless the local provider was chosen without a
model: then nothing was kept, and both variables are removed.

* `Session.environment_display` — what showing the page leaves in the environment, and when the
  variables are what they were;
* `Session.noModel_removes_variable` — a variable that is lost.
-/

namespace CodeScribe

open CodeScribe.Frame World

namespace Page

def choiceVariables : List String := ["OLLAMA_MODEL", "OLLAMA_BASE_URL"]

def hasModel (s : Session) : Bool := ((s.memory.get? "ollama_model").getD .null).isPresent

def lacksModel (provider : Value) (s : Session) : Bool := isLocal provider && !hasModel s

/-! ### Steps -/

variable {α β : Type} {provider : Value} {s t : Session}

theorem runIn_bind_ok {x : Page α} {f : α → Page β} {a : α} (h : x.runIn s = (.ok a, t)) :
    (x >>= f).runIn s = (f a).runIn t := run_bind_of_ok h

theorem runIn_bind_error {x : Page α} {f : α → Page β} {e : Halt}
    (h : x.runIn s = (.error e, t)) : (x >>= f).runIn s = (.error e, t) := run_bind_of_error h

/-- What is done in any case is done last. -/
theorem snd_runIn_ensure (p : Page α) (after : Page Unit) (s : Session) :
    ((ensure p after).runIn s).2 = (after.runIn (p.runIn s).2).2 := by
  simp only [runIn, ensure, ExceptT.run_mk, StateT.run_bind]
  dsimp only [bind]
  cases ((ExceptT.run after).run ((ExceptT.run p).run s).2) with
  | mk r t => cases r <;> rfl

/-- The frame in which only some variables can change. -/
def touching (names : List String) : Frame Session where
  rel s t := t.memory = s.memory ∧ t.begun = s.begun ∧ ∀ name ∉ names,
    t.world.environment.get? name = s.world.environment.get? name
  refl _ := ⟨rfl, rfl, fun _ _ => rfl⟩
  trans h h' := ⟨h'.1.trans h.1, h'.2.1.trans h.2.1, fun name hname =>
    (h'.2.2 name hname).trans (h.2.2 name hname)⟩

theorem environment_setEnv (name : String) (value : Option String) (s : Session) (key : String) :
    ((work (Work.setEnv name value)).runIn s).2.world.environment.get? key =
      if key = name then value else s.world.environment.get? key := by
  cases value with
  | some v => exact Table.get?_set _ _ _ _
  | none => exact Table.get?_filter_ne _ _ _

@[grind ←] theorem keeps_setEnv {names : List String} {name : String} (h : name ∈ names)
    (value : Option String) : (touching names).Keeps (work (Work.setEnv name value)) := by
  refine fun s => ⟨rfl, rfl, fun key hkey => ?_⟩
  have hne : key ≠ name := fun heq => hkey (heq ▸ h)
  exact (environment_setEnv name value s key).trans (if_neg hne)

/-! ### Keeping, applying and putting back -/

theorem runIn_applies (provider : Value) (s : Session) :
    (applies provider).runIn s = (.ok (isLocal provider && hasModel s), s) := rfl

def keptIn (provider : Value) (s : Session) : Kept :=
  if isLocal provider && hasModel s then
    ⟨s.world.environment.get? "OLLAMA_MODEL", s.world.environment.get? "OLLAMA_BASE_URL"⟩
  else {}

theorem runIn_keep (provider : Value) (s : Session) :
    (keep provider).runIn s = (.ok (keptIn provider s), s) := by
  rw [keep, runIn_bind_ok (runIn_applies provider s), keptIn]
  cases isLocal provider && hasModel s <;> rfl

theorem runIn_applyChoice (h : (isLocal provider && hasModel s) = false) :
    (applyChoice provider).runIn s = (.ok (), s) := by
  rw [applyChoice, runIn_bind_ok (runIn_applies provider s), h]
  rfl

theorem touching_applyChoice (provider : Value) :
    (touching choiceVariables).Keeps (applyChoice provider) := by
  have hmodel : "OLLAMA_MODEL" ∈ choiceVariables := by decide
  have hurl : "OLLAMA_BASE_URL" ∈ choiceVariables := by decide
  have happlies : (touching choiceVariables).Keeps (applies provider) := Frame.refl _
  unfold applyChoice
  refine happlies.bind fun _ => ?_
  grind

theorem environment_putBack (provider : Value) (kept : Kept) (s : Session) (name : String) :
    ((putBack provider kept).runIn s).2.world.environment.get? name =
      if isLocal provider then
        if name = "OLLAMA_BASE_URL" then kept.url
        else if name = "OLLAMA_MODEL" then kept.model else s.world.environment.get? name
      else s.world.environment.get? name := by
  rw [putBack]
  split
  · have hmodel : (work (Work.setEnv "OLLAMA_MODEL" kept.model)).runIn s =
        (.ok (), ((work (Work.setEnv "OLLAMA_MODEL" kept.model)).runIn s).2) := rfl
    rw [runIn_bind_ok hmodel, environment_setEnv, environment_setEnv]
  · rfl

/-! ### Making something with the chosen model -/

/-- A later session in which the chosen model is the same, and so is the environment, apart from
the variables that hold the choice if there is one. -/
structure Choosing (provider : Value) (s t : Session) : Prop where
  model : t.memory.get? "ollama_model" = s.memory.get? "ollama_model"
  begun : s.begun → t.begun
  environment : ∀ name,
    (name ∈ choiceVariables → (isLocal provider && hasModel s) = false) →
      t.world.environment.get? name = s.world.environment.get? name

theorem Choosing.hasModel (h : Choosing provider s t) : hasModel t = hasModel s := by
  rw [Page.hasModel, Page.hasModel, h.model]

def choosing (provider : Value) : Frame Session where
  rel := Choosing provider
  refl _ := ⟨rfl, id, fun _ _ => rfl⟩
  trans h h' := ⟨h'.model.trans h.model, h'.begun ∘ h.begun, fun name hname =>
    (h'.environment name (by rwa [h.hasModel])).trans (h.environment name hname)⟩

theorem choosing_of_quiet {x : Page α} (hx : (quiet ["ollama_model"]).Keeps x) :
    (choosing provider).Keeps x :=
  hx.mono fun s t h => ⟨h.memory _ (by simp), fun hb => h.begun.trans hb, fun name _ => by
    rw [h.environment]⟩

theorem choosing_applyChoice (provider : Value) :
    (choosing provider).Keeps (applyChoice provider) := by
  intro s
  cases happlies : isLocal provider && hasModel s with
  | false =>
    rw [← runIn, runIn_applyChoice happlies]
    exact Frame.refl _ s
  | true =>
    obtain ⟨hmemory, hbegun, henv⟩ := touching_applyChoice provider s
    refine ⟨by rw [hmemory], fun hb => hbegun.trans hb, fun name hname => henv name fun hmem => ?_⟩
    rw [hname hmem] at happlies
    cases happlies

theorem touching_putBack (provider : Value) (kept : Kept) :
    (touching choiceVariables).Keeps (putBack provider kept) := by
  have hmodel : "OLLAMA_MODEL" ∈ choiceVariables := by decide
  have hurl : "OLLAMA_BASE_URL" ∈ choiceVariables := by decide
  unfold putBack
  grind

/-- Putting back what was kept restores the variables, unless there was no model. -/
theorem environment_putBack_keptIn (h : Choosing provider s t) (name : String) :
    ((putBack provider (keptIn provider s)).runIn t).2.world.environment.get? name =
      if name ∈ choiceVariables ∧ lacksModel provider s then none
      else s.world.environment.get? name := by
  have hname : name ∈ choiceVariables ↔ name = "OLLAMA_MODEL" ∨ name = "OLLAMA_BASE_URL" := by
    simp [choiceVariables]
  have henv := h.environment name
  rw [environment_putBack, keptIn, lacksModel]
  grind

/-- Something that is made with the chosen model; faults are told. -/
def telling (provider : Value) (opening : String) (make : Page Unit)
    (onFault : Fault → Page Unit) : Page Unit := do
  match ← attempt (do status opening; progress 10; applyChoice provider; make) with
  | .ok _ => return
  | .error fault =>
    tellFault fault
    onFault fault
    details Document.traceText

theorem withChoice_eq (provider : Value) (opening : String) (make : Page Unit)
    (onFault : Fault → Page Unit) : withChoice provider opening make onFault = (do
      call "progress" [.nat 0] []
      call "empty" [] []
      let kept ← keep provider
      ensure (telling provider opening make onFault) (putBack provider kept)) := rfl

theorem runIn_call (element : String) (args : List Value) (options : Table Value) (s : Session) :
    (call element args options).runIn s =
      (.ok (), { s with calls := s.calls ++ [⟨element, args, options⟩] }) := rfl

section WithChoice

variable {make : Page Unit} {onFault : Fault → Page Unit}
  (hmake : (quiet ["ollama_model"]).Keeps make)
  (hfault : ∀ fault, (quiet ["ollama_model"]).Keeps (onFault fault))

include hmake hfault

theorem choosing_telling (provider : Value) (opening : String) :
    (choosing provider).Keeps (telling provider opening make onFault) := by
  have hbody : (choosing provider).Keeps
      (do status opening; progress 10; applyChoice provider; make) := by
    refine (choosing_of_quiet (keeps_shown (by decide) _)).bind fun _ => ?_
    refine (choosing_of_quiet (keeps_call (by decide) _ _)).bind fun _ => ?_
    exact (choosing_applyChoice provider).bind fun _ => choosing_of_quiet hmake
  refine (keeps_attempt hbody).bind fun result => ?_
  cases result with
  | ok _ => exact keeps_pure _
  | error fault =>
    exact choosing_of_quiet ((keeps_tellFault fault).bind fun _ => (hfault fault).bind fun _ =>
      keeps_details _)

/-- What is left by making something with the chosen model, whatever comes of it. -/
theorem environment_withChoice (provider : Value) (opening : String) (s : Session) :
    let t := ((withChoice provider opening make onFault).runIn s).2
    t.begun ∧ t.memory.get? "ollama_model" = s.memory.get? "ollama_model" ∧
      ∀ name, t.world.environment.get? name =
        if name ∈ choiceVariables ∧ lacksModel provider s then none
        else s.world.environment.get? name := by
  intro t
  let s₁ : Session := { s with
    calls := s.calls ++ [⟨"progress", [.nat 0], []⟩] ++ [⟨"empty", [], []⟩] }
  let t₁ : Session := ((telling provider opening make onFault).runIn s₁).2
  have ht : t = ((putBack provider (keptIn provider s₁)).runIn t₁).2 := by
    show ((withChoice provider opening make onFault).runIn s).2 = _
    rw [withChoice_eq, runIn_bind_ok (runIn_call _ _ _ _), runIn_bind_ok (runIn_call _ _ _ _),
      runIn_bind_ok (runIn_keep provider _)]
    exact snd_runIn_ensure _ _ s₁
  have hbegun : s₁.begun := by simp [s₁, Session.begun]
  have hchoosing : Choosing provider s₁ t₁ := choosing_telling hmake hfault provider opening s₁
  obtain ⟨hmemory, hbegun', -⟩ := touching_putBack provider (keptIn provider s₁) t₁
  rw [ht]
  refine ⟨hbegun'.trans (hchoosing.begun hbegun), ?_, environment_putBack_keptIn hchoosing⟩
  exact (congrArg (Table.get? · "ollama_model") hmemory).trans hchoosing.model

end WithChoice

/-! ### The whole page -/

/-- A session later on the page than the choice of a provider: the chosen model is the same, and
the environment is what it was, unless something was begun without a model. -/
structure PutBack (provider : Value) (s t : Session) : Prop where
  model : t.memory.get? "ollama_model" = s.memory.get? "ollama_model"
  environment : ∀ name, t.world.environment.get? name =
    if name ∈ choiceVariables ∧ t.begun ∧ lacksModel provider s then none
    else s.world.environment.get? name

def puttingBack (provider : Value) (s : Session) : Frame Session := .invariant (PutBack provider s)

@[grind ←] theorem puttingBack_of_quiet {x : Page α} (hx : (quiet ["ollama_model"]).Keeps x) :
    (puttingBack provider s).Keeps x := by
  refine hx.mono fun t u h hput => ⟨(h.memory _ (by simp)).trans hput.model, fun name => ?_⟩
  rw [h.environment, h.begun, hput.environment]

theorem puttingBack_withChoice {make : Page Unit} {onFault : Fault → Page Unit}
    (hmake : (quiet ["ollama_model"]).Keeps make)
    (hfault : ∀ fault, (quiet ["ollama_model"]).Keeps (onFault fault)) (opening : String) :
    (puttingBack provider s).Keeps (withChoice provider opening make onFault) := by
  intro t hput
  obtain ⟨hbegun, hmodel, henv⟩ := environment_withChoice hmake hfault provider opening t
  refine ⟨hmodel.trans hput.model, fun name => (henv name).trans ?_⟩
  have hlacks : lacksModel provider t = lacksModel provider s := by
    rw [lacksModel, lacksModel, hasModel, hasModel, hput.model]
  have hbefore := hput.environment name
  rw [runIn] at hbegun
  rw [hlacks]
  grind

theorem puttingBack_generateTab (c : Chosen) :
    (puttingBack provider s).Keeps (generateTab provider c) := by
  have hgenerate : (puttingBack provider s).Keeps (withChoice provider
      "🔄 Initializing generator..." (generate provider c) rememberFault) :=
    puttingBack_withChoice (keeps_generate provider c) keeps_rememberFault _
  have hbutton : (puttingBack provider s).Keeps (do
      if ← button "🚀 Generate Documentation" [("type", .text "primary"), wide] then
        remember "source_path" c.place
        remember "source_type" c.kind
        withChoice provider "🔄 Initializing generator..." (generate provider c) rememberFault) := by
    refine (puttingBack_of_quiet (keeps_button _ _)).bind fun pressed => ?_
    split
    · refine (puttingBack_of_quiet (keeps_remember (by decide) _)).bind fun _ => ?_
      exact (puttingBack_of_quiet (keeps_remember (by decide) _)).bind fun _ => hgenerate
    · exact keeps_pure _
  unfold generateTab
  refine (puttingBack_of_quiet (keeps_shown (by decide) _)).bind fun _ => ?_
  split
  · exact puttingBack_of_quiet ((keeps_shown (by decide) _).bind fun _ => keeps_pure _)
  · refine (puttingBack_of_quiet (keeps_call (by decide) _ _)).bind fun _ => ?_
    refine (puttingBack_of_quiet (keeps_shown (by decide) _)).bind fun _ => ?_
    refine (puttingBack_of_quiet (keeps_known _)).bind fun branch => ?_
    split
    · exact (puttingBack_of_quiet (keeps_shown (by decide) _)).bind fun _ => hbutton
    · exact hbutton

theorem puttingBack_dependencyTab :
    (puttingBack provider s).Keeps (dependencyTab provider) := by
  have hanalyse : (puttingBack provider s).Keeps (withChoice provider
      "🔄 Initializing dependency analyzer..." (analyse provider) fun _ => pure ()) :=
    puttingBack_withChoice (keeps_analyse provider) (fun _ => keeps_pure ()) _
  have hfindings (analysis map : Value) :
      (puttingBack provider s).Keeps (findings analysis map) :=
    puttingBack_of_quiet (keeps_findings analysis map)
  unfold dependencyTab
  refine (puttingBack_of_quiet (keeps_shown (by decide) _)).bind fun _ => ?_
  refine (puttingBack_of_quiet (keeps_known _)).bind fun files => ?_
  split
  · exact puttingBack_of_quiet ((keeps_shown (by decide) _).bind fun _ =>
      (keeps_shown (by decide) _).bind fun _ => keeps_pure _)
  · refine (puttingBack_of_quiet (keeps_ofOutcome _)).bind fun number => ?_
    refine (puttingBack_of_quiet (keeps_call (by decide) _ _)).bind fun _ => ?_
    refine (puttingBack_of_quiet (keeps_shown (by decide) _)).bind fun _ => ?_
    grind

def rest (provider : Value) : Page Unit := do
  call "tabs" [.texts ["📁 Source Selection", "⚡ Generate", "📄 Preview",
    "🔗 Correlation & Dependencies"]] []
  let chosen ← sourceTab
  generateTab provider chosen
  previewTab
  dependencyTab provider
  foot

theorem puttingBack_rest : (puttingBack provider s).Keeps (rest provider) := by
  refine (puttingBack_of_quiet (keeps_call (by decide) _ _)).bind fun _ => ?_
  refine (puttingBack_of_quiet keeps_sourceTab).bind fun chosen => ?_
  refine (puttingBack_generateTab chosen).bind fun _ => ?_
  refine (puttingBack_of_quiet keeps_previewTab).bind fun _ => ?_
  exact puttingBack_dependencyTab.bind fun _ => puttingBack_of_quiet keeps_foot

/-- The page up to the choice of a provider, which it gives. -/
def settings : Page Value := do
  head
  sidebar

theorem keeps_settings : (quiet []).Keeps settings := keeps_head.bind fun _ => keeps_sidebar

theorem whole_eq : whole = settings >>= rest := by
  rw [settings, bind_assoc]
  rfl

end Page

namespace Session

/-- The session in which the page is shown to a user who entered something. -/
def opened (s : Session) (entered : Table Value) : Session :=
  { s with entered, calls := [], memory := completed s.memory }

/-- Whether the local provider is chosen beside the page, but no model. -/
def lacksModel (s : Session) (entered : Table Value) : Bool :=
  let ending := Page.settings.runIn (s.opened entered)
  ending.1.toOption.any fun provider => Page.lacksModel provider ending.2

theorem display_eq (s : Session) (entered : Table Value) :
    s.display entered = (Page.settings >>= Page.rest).runIn (s.opened entered) := by
  rw [← Page.whole_eq]
  rfl

theorem get?_environment_display (s : Session) (entered : Table Value) (name : String) :
    (s.display entered).2.world.environment.get? name =
      if name ∈ Page.choiceVariables ∧ (s.display entered).2.begun ∧ s.lacksModel entered then none
      else s.world.environment.get? name := by
  have hquiet : (s.opened entered).Follows [] (Page.settings.runIn (s.opened entered)).2 :=
    Page.keeps_settings (s.opened entered)
  rw [display_eq, lacksModel]
  generalize hrun : Page.settings.runIn (s.opened entered) = ending at hquiet ⊢
  obtain ⟨result, t⟩ := ending
  have henv : t.world.environment = s.world.environment := hquiet.environment
  have hbegun : t.begun = false := hquiet.begun
  cases result with
  | error h =>
    rw [Page.runIn_bind_error hrun, henv]
    simp [hbegun]
  | ok provider =>
    have hput : Page.PutBack provider t t := ⟨rfl, fun name => by simp [hbegun]⟩
    have hend : Page.PutBack provider t ((Page.rest provider).runIn t).2 :=
      Page.puttingBack_rest t hput
    rw [Page.runIn_bind_ok hrun, hend.environment, henv]
    rfl

def withVariable : Session where
  world := { disk := { home := "/w" }, environment := [("OLLAMA_MODEL", "m")] }

/-- What a user enters to make a document of a repository with a model. -/
def entering (model : String) : Table Value :=
  [("Source Type", .text "Git Repository"), ("Git Repository URL", .text "https://h/x"),
    ("Model", .text model), ("🚀 Generate Documentation", .bool true)]

set_option maxRecDepth 10000 in
example : (withVariable.display (entering "n")).2.begun ∧
    (withVariable.display (entering "n")).2.world.environment.get? "OLLAMA_MODEL" = some "m" := by
  decide +kernel

end Session

end CodeScribe
