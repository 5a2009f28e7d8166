import CodeScribe.Proofs.Scribe.Uses

/-!
# A scribe that is created again

Creating a scribe makes the folder for templates and puts the default one down, if they are missing.
So a scribe that was created once can be created again later, and then no file changes.

* `Work.Looks`, `Config.looks_load` — reading the settings changes nothing;
* `TemplateFolder.repeats_ofSetting`, `TemplateFolder.repeats_ensureDefault` — the templates are
  put in place once.
-/

namespace CodeScribe

open Document Work

variable {u : World}

/-! ### Work that can be done again -/

namespace Work

variable {α β : Type}
variable {x : Work α} {f : α → Work β} {u : World} {b : β} {k : Option Dependency.Graph}

/-- Work that ended well can be done again in every later world, where it changes no files. -/
def Repeats (found : Option Dependency.Graph) (x : Work α) : Prop :=
  ∀ u a u', x.runIn u = (.ok a, u') → u.After found u' ∧
    ∀ g w, u'.After g w → ∃ w', x.runIn w = (.ok a, w') ∧ w.After found w' ∧ w'.disk = w.disk

/-- Work that ends well is put together from parts that do. -/
theorem bind_ok {u'' : World} (h : (x >>= f).runIn u = (.ok b, u'')) :
    ∃ a u', x.runIn u = (.ok a, u') ∧ (f a).runIn u' = (.ok b, u'') := by
  rw [runIn_bind] at h
  cases hrun : x.runIn u with
  | mk r u' =>
    rw [hrun] at h
    cases r with
    | ok a => exact ⟨a, u', rfl, h⟩
    | error fault => cases h

theorem Repeats.bind {l : Option Dependency.Graph} (hx : Repeats k x) (hf : ∀ a, Repeats l (f a)) :
    Repeats (l.or k) (x >>= f) := by
  intro u b u'' h
  obtain ⟨a, u', hrun, h⟩ := bind_ok h
  obtain ⟨hafter, hagain⟩ := hx u a u' hrun
  obtain ⟨hafter', hagain'⟩ := hf a u' b u'' h
  refine ⟨hafter.trans hafter', ?_⟩
  intro g w hw
  obtain ⟨w', hw', hthen, hdisk⟩ := hagain _ w (hafter'.trans hw)
  obtain ⟨w'', hw'', hthen', hdisk'⟩ := hagain' _ w' (hw.trans hthen)
  exact ⟨w'', (runIn_bind_ok hw').trans hw'', hthen.trans hthen', hdisk'.trans hdisk⟩

theorem Repeats.before (hx : Repeats none x) (hf : ∀ a, Repeats k (f a)) : Repeats k (x >>= f) := by
  have h := hx.bind hf
  rwa [Option.or_none] at h

theorem Repeats.either {y : Work α} (c : Prop) [Decidable c] (hx : Repeats none x)
    (hy : Repeats none y) (hf : ∀ a, Repeats k (f a)) :
    Repeats k (if c then x >>= f else y >>= f) := by
  split
  · exact hx.before hf
  · exact hy.before hf

theorem repeats_ofOutcome (o : Outcome α) : Repeats none (ofOutcome o) := by
  intro u a u' h
  cases h
  exact ⟨World.After.refl u, fun g w _ => ⟨w, rfl, World.After.refl w, rfl⟩⟩

theorem repeats_pure (a : α) : Repeats none (pure a : Work α) := repeats_ofOutcome (.ok a)

theorem repeats_changeDisk {change : Disk → Outcome Disk}
    (h : ∀ d e, change d = .ok e → d.Grows e ∧ ∀ e', e.Grows e' → change e' = .ok e') :
    Repeats none (changeDisk change) := by
  intro u a u' hrun
  rw [runIn_changeDisk] at hrun
  cases hd : change u.disk with
  | error fault =>
    rw [hd] at hrun
    cases hrun
  | ok e =>
    rw [hd] at hrun
    cases hrun
    obtain ⟨hgrows, hagain⟩ := h _ _ hd
    refine ⟨{ World.After.refl u with disk := hgrows }, ?_⟩
    intro g w hw
    refine ⟨w, ?_, World.After.refl w, rfl⟩
    rw [runIn_changeDisk, hagain _ hw.disk]

theorem repeats_forget :
    Repeats (some {}) (modify fun w : World => { w with graph := {} } : Work Unit) := by
  intro u a u' h
  cases h
  exact ⟨{ World.After.refl u with graph := rfl }, fun g w _ =>
    ⟨_, rfl, { World.After.refl w with graph := rfl }, rfl⟩⟩

/-! ### Reading the settings -/

/-- Work that leaves the world as it is. -/
def Looks (x : Work α) : Prop := ∀ w, (x.runIn w).2 = w

theorem Looks.bind (hx : Looks x) (hf : ∀ a, Looks (f a)) : Looks (x >>= f) := by
  intro w
  have hlook := hx w
  rw [runIn_bind]
  cases hrun : x.runIn w with
  | mk r w' =>
    rw [hrun] at hlook
    obtain rfl : w' = w := hlook
    cases r with
    | ok a => exact hf a w'
    | error fault => rfl

theorem looks_ofOutcome (o : Outcome α) : Looks (ofOutcome o) := fun _ => rfl

theorem Looks.bind_ok {v : World} (hx : Looks x) (h : (x >>= f).runIn u = (.ok b, v)) :
    ∃ a, x.runIn u = (.ok a, u) ∧ (f a).runIn u = (.ok b, v) := by
  obtain ⟨a, u', hrun, hrest⟩ := Work.bind_ok h
  have hlook := hx u
  rw [hrun] at hlook
  obtain rfl : u' = u := hlook
  exact ⟨a, hrun, hrest⟩

/-- Work that only looks ends in the same way in two worlds if its parts do. -/
theorem Looks.bind_eq {w : World} (hx : Looks x) (h : (x.runIn w).1 = (x.runIn u).1)
    (hf : ∀ a, ((f a).runIn w).1 = ((f a).runIn u).1) :
    ((x >>= f).runIn w).1 = ((x >>= f).runIn u).1 := by
  have hw : x.runIn w = ((x.runIn u).1, w) := Prod.ext h (hx w)
  have hu : x.runIn u = ((x.runIn u).1, u) := Prod.ext rfl (hx u)
  generalize (x.runIn u).1 = r at hw hu
  rw [runIn_bind, runIn_bind, hw, hu]
  cases r with
  | ok a => exact hf a
  | error fault => rfl

theorem ofOutcome_bind_eq {w : World} (o : Outcome α)
    (hf : ∀ a, ((f a).runIn w).1 = ((f a).runIn u).1) :
    ((ofOutcome o >>= f).runIn w).1 = ((ofOutcome o >>= f).runIn u).1 :=
  (looks_ofOutcome o).bind_eq rfl hf

theorem runIn_disk_bind (f : Disk → Work α) (w : World) :
    (disk >>= f).runIn w = (f w.disk).runIn w := rfl

theorem Looks.either_ok {c : Prop} [Decidable c] {y : Work α} {v : World} (hx : Looks x)
    (hy : Looks y) (h : (if c then x >>= f else y >>= f).runIn u = (.ok b, v)) :
    ∃ a, (f a).runIn u = (.ok b, v) := by
  split at h
  · obtain ⟨a, -, hrest⟩ := hx.bind_ok h
    exact ⟨a, hrest⟩
  · obtain ⟨a, -, hrest⟩ := hy.bind_ok h
    exact ⟨a, hrest⟩

end Work

theorem Config.looks_read (path : String) : Looks (Config.read path) := by
  refine Looks.bind (fun _ => rfl) fun disk => ?_
  dsimp only
  split
  · exact fun _ => rfl
  · refine (looks_ofOutcome _).bind fun content => ?_
    refine (looks_ofOutcome _).bind fun text => ?_
    exact (looks_ofOutcome _).bind fun v => looks_ofOutcome (.ok _)

theorem Config.looks_load (path : Option String) : Looks (Config.load path) := by
  refine (Config.looks_read _).bind fun v => ?_
  refine Looks.bind (fun _ => rfl) fun url => (looks_ofOutcome _).bind fun v => ?_
  refine Looks.bind (fun _ => rfl) fun model => (looks_ofOutcome _).bind fun v => ?_
  exact Looks.bind (fun _ => rfl) fun provider => looks_ofOutcome _

def Config.fileOf (path : Option String) : String :=
  Path.normal (match path with
    | some p => if p == "" then "config.yaml" else p
    | none => "config.yaml")

theorem Config.read_again {path : String} {w : World}
    (hfile : u.disk.SameAt w.disk (Path.normal path)) :
    ((Config.read path).runIn w).1 = ((Config.read path).runIn u).1 := by
  rw [Config.read, runIn_disk_bind, runIn_disk_bind]
  dsimp only
  rw [hfile.isThere, hfile.read]
  split
  · rfl
  · refine ofOutcome_bind_eq _ fun content => ?_
    refine ofOutcome_bind_eq _ fun text => ?_
    exact ofOutcome_bind_eq _ fun v => rfl

/-- With the same file and the same environment, the same settings are read. -/
theorem Config.load_again {path : Option String} {w : World}
    (hfile : u.disk.SameAt w.disk (Config.fileOf path)) (henv : w.environment = u.environment) :
    ((Config.load path).runIn w).1 = ((Config.load path).runIn u).1 := by
  have henv? (name : String) : ((env? name).runIn w).1 = ((env? name).runIn u).1 := by
    show Except.ok (w.environment.get? name) = Except.ok (u.environment.get? name)
    rw [henv]
  refine (Config.looks_read _).bind_eq (Config.read_again hfile) fun v => ?_
  refine Looks.bind_eq (fun _ => rfl) (henv? _) fun url => ?_
  refine ofOutcome_bind_eq _ fun v => ?_
  refine Looks.bind_eq (fun _ => rfl) (henv? _) fun model => ?_
  refine ofOutcome_bind_eq _ fun v => ?_
  exact Looks.bind_eq (fun _ => rfl) (henv? _) fun provider => rfl

/-! ### The parts of a scribe -/

theorem Model.repeats_openAt (provider settings : Value) :
    Repeats none (Model.openAt provider settings) := by
  refine (repeats_ofOutcome _).before fun m => ?_
  intro u a u' h
  cases h
  refine ⟨{ World.After.refl u with }, ?_⟩
  intro g w hw
  refine ⟨{ w with opened := w.opened ++ [m.provider.name] }, ?_, { World.After.refl w with }, rfl⟩
  rw [← hw.standsInForAll]
  rfl

theorem Model.standsIn_openAt {provider settings : Value} {v : World} {m : Model}
    (h : (Model.openAt provider settings).runIn u = (.ok m, v)) :
    m.standsIn = u.standsInForAll := by
  obtain ⟨model, hcreate, h⟩ := (looks_ofOutcome _).bind_ok h
  cases h
  rfl

namespace Document.TemplateFolder

theorem repeats_ofSetting (setting : Value) : Repeats none (ofSetting setting) := by
  unfold ofSetting
  split
  · intro u a u' h
    cases h
    refine ⟨World.After.refl u, fun g w hw => ⟨w, ?_, World.After.refl w, rfl⟩⟩
    rw [← hw.program]
    rfl
  · cases setting with
    | text s =>
      refine Repeats.before (repeats_changeDisk ?_) fun _ => repeats_pure _
      intro d e hmake
      refine ⟨Disk.grows_makeFolders hmake, ?_⟩
      intro e' hgrows
      exact Disk.makeFolders_of_isFolder (hgrows.isFolder (Disk.isFolder_of_makeFolders hmake))
    | _ =>
      intro u a u' h
      cases h

/-- The default template is written only where it is missing. -/
theorem runIn_ensureDefault (path : String) (u : World) :
    (folder path).ensureDefault.runIn u =
      let file := Path.below path defaultName
      if u.disk.isThere file then (.ok file, u)
      else match u.disk.write file (.text defaultTemplate) with
        | .ok d => (.ok file, { u with disk := d })
        | .error fault => (.error fault, u) := by
  rw [ensureDefault]
  dsimp only
  rw [runIn_disk_bind, TemplateFolder.path]
  cases u.disk.isThere (Path.below path defaultName) with
  | true => rfl
  | false =>
    rw [Bool.not_false, if_pos rfl, if_neg Bool.false_ne_true, runIn_bind, runIn_changeDisk]
    cases u.disk.write (Path.below path defaultName) (.text defaultTemplate) <;> rfl

theorem repeats_ensureDefault (f : TemplateFolder) : Repeats none f.ensureDefault := by
  cases f with
  | builtIn program => exact repeats_pure _
  | folder path =>
    intro u a u' h
    have hagain (hthere : u'.disk.isThere (Path.below path defaultName) = true)
        (ha : a = Path.below path defaultName) (g : Option Dependency.Graph) (w : World)
        (hw : u'.After g w) : ∃ w', (folder path).ensureDefault.runIn w = (.ok a, w') ∧
          w.After none w' ∧ w'.disk = w.disk := by
      refine ⟨w, ?_, World.After.refl w, rfl⟩
      rw [runIn_ensureDefault, ha]
      exact if_pos (hw.disk.isThere hthere)
    rw [runIn_ensureDefault] at h
    dsimp only at h
    split at h
    · rename_i hthere
      cases h
      exact ⟨World.After.refl u, hagain hthere rfl⟩
    · cases hwrite : u.disk.write (Path.below path defaultName) (.text defaultTemplate) with
      | error fault =>
        rw [hwrite] at h
        cases h
      | ok d =>
        rw [hwrite] at h
        cases h
        exact ⟨{ World.After.refl u with disk := Disk.grows_write hwrite },
          hagain (Disk.isThere_of_write hwrite) rfl⟩

end Document.TemplateFolder

namespace Scribe

theorem create_eq (provider : Value) : ∃ rest : Value → Work Scribe,
    (∀ path, create path provider = Config.load path >>= rest) ∧
    ∀ config, Repeats (some {}) (rest config) := by
  refine ⟨_, fun path => rfl, ?_⟩
  intro config
  refine Repeats.either _ (repeats_pure provider) (repeats_ofOutcome _) fun provider => ?_
  refine (Model.repeats_openAt provider config).before fun model => ?_
  refine (repeats_ofOutcome _).before fun options => ?_
  refine (repeats_ofOutcome _).before fun diagramsOn => ?_
  -- Nothing after this looks for dependencies.
  refine Repeats.bind (l := none) repeats_forget fun _ => ?_
  refine (repeats_ofOutcome _).before fun documentation => ?_
  refine (repeats_ofOutcome _).before fun setting => ?_
  refine (TemplateFolder.repeats_ofSetting setting).before fun templates => ?_
  refine (repeats_ofOutcome _).before fun template => ?_
  refine (TemplateFolder.repeats_ensureDefault templates).before fun _ => ?_
  refine (repeats_ofOutcome _).before fun size => ?_
  refine (repeats_ofOutcome _).before fun overlap => ?_
  refine (repeats_ofOutcome _).before fun streaming => ?_
  exact repeats_pure _

/-- A scribe can be created again in every later world with the same settings. -/
theorem create_again {path : Option String} {provider : Value} {u v : World} {s : Scribe}
    (hcreate : (create path provider).runIn u = (.ok s, v)) :
    u.After (some {}) v ∧ ∀ g w, v.After g w →
      ((Config.load path).runIn w).1 = ((Config.load path).runIn u).1 →
      ∃ w', (create path provider).runIn w = (.ok s, w') ∧ w.After (some {}) w' ∧
        w'.disk = w.disk := by
  obtain ⟨rest, hrest, hrepeats⟩ := create_eq provider
  rw [hrest] at hcreate ⊢
  obtain ⟨config, hload, hrun⟩ := (Config.looks_load path).bind_ok hcreate
  obtain ⟨hafter, hagain⟩ := hrepeats config u s v hrun
  refine ⟨hafter, ?_⟩
  intro g w hw hsettings
  rw [hload] at hsettings
  obtain ⟨w', hw', hthen, hdisk⟩ := hagain g w hw
  have hreload : (Config.load path).runIn w = (.ok config, w) :=
    Prod.ext hsettings (Config.looks_load path w)
  exact ⟨w', (runIn_bind_ok hreload).trans hw', hthen, hdisk⟩

/-- The stand-in answers in place of the model of a scribe if it answers for all models. -/
theorem standsIn_create {path : Option String} {provider : Value} {u v : World} {s : Scribe}
    (hcreate : (create path provider).runIn u = (.ok s, v)) :
    s.model.standsIn = u.standsInForAll := by
  obtain ⟨config, hload, h⟩ := (Config.looks_load path).bind_ok hcreate
  obtain ⟨p, h⟩ := Looks.either_ok (looks_ofOutcome (.ok provider)) (looks_ofOutcome _) h
  obtain ⟨model, w, hopen, h⟩ := bind_ok h
  -- What follows puts the model into the scribe as it is.
  iterate 11 obtain ⟨_, _, -, h⟩ := bind_ok h
  cases h
  exact Model.standsIn_openAt hopen

end Scribe

end CodeScribe
