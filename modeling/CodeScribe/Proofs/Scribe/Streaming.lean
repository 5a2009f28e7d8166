import CodeScribe.Proofs.Document.Sections
import CodeScribe.Proofs.Scribe.Uses
import CodeScribe.Proofs.Workspace.Reading

/-!
# Documents written as the files come, against documents made at once

With a model whose answers depend on the questions alone, the sections that are written one after
another are known from the files, and so are the entries of a document that is made at once.

* `Scribe.streamed_without_end` — the document is left without its end, and its sections agree with
  these entries for exactly the files that could be described and do not publish on a channel.
-/

namespace CodeScribe

open Document Work

/-! ### Models with fixed answers -/

def asTexts (answer : Prompt → Outcome String) : Prompt → Outcome Value :=
  fun p => (answer p).map .text

theorem exists_text_of_asTexts {answer : Prompt → Outcome String} (p : Prompt) (v : Value)
    (h : asTexts answer p = .ok v) : ∃ s, v = .text s := by
  obtain ⟨s, -, rfl⟩ := exists_of_map h
  exact ⟨s, rfl⟩

theorem Document.Settles.exists_runIn {α : Type} {J : World → Prop} {x : Work α} {o : Outcome α}
    (h : Settles J x o) {v : World} (hv : J v) : ∃ v', x.runIn v = (o, v') ∧ J v' := by
  obtain ⟨hvalue, hstate⟩ := h v hv
  exact ⟨_, Prod.ext hvalue rfl, hstate⟩

/-- A scribe whose models answer by fixed functions in all worlds of a kind.  Files, lines printed
and repositories make no difference, and neither questions nor reports change the files. -/
structure Scribe.Steady (s : Scribe) (c : Choices) (I : World → Prop)
    (answer own : Prompt → Outcome String) : Prop where
  ask : ∀ p d, Settles (fun v => I v ∧ v.disk = d) ((s.modelFor c).ask p) (asTexts answer p)
  askOwn : ∀ p d, Settles (fun v => I v ∧ v.disk = d) (s.model.ask p) (asTexts own p)
  report : ∀ done total name d,
    Settles (fun v => I v ∧ v.disk = d) (c.report done total name) (.ok ())
  overlooks : World.Overlooks (.invariant I)

namespace Scribe

variable {s : Scribe} {c : Choices} {I : World → Prop} {answer own : Prompt → Outcome String}

theorem Steady.makerIn (h : s.Steady c I answer own) (w : World) (style : EntryStyle) (d : Disk) :
    (s.makerIn c w style).Steady (fun v => I v ∧ v.disk = d) (asTexts answer) (asTexts own) where
  ask p := h.ask p d
  askOwn p := h.askOwn p d
  report done total name := h.report done total name d

/-- The stand-in for a model, if it answers by a fixed function and nothing is told. -/
theorem steady_of_standsIn {standIn : Nat → Prompt → Outcome String}
    (hmodel : (s.modelFor c).standsIn = true) (hown : s.model.standsIn = true)
    (hreport : c.report = silent) (hanswer : ∀ n p, standIn n p = answer p) :
    s.Steady c (fun v => v.standIn = standIn) answer answer := by
  have hask (m : Model) (hm : m.standsIn = true) (p : Prompt) (d : Disk) :
      Settles (fun v : World => v.standIn = standIn ∧ v.disk = d) (m.ask p)
        (asTexts answer p) := by
    rw [Model.ask, if_pos hm]
    refine Settles.map (o := answer p) ?_ Value.text
    intro v hv
    refine ⟨?_, hv⟩
    show v.standIn v.asked p = answer p
    rw [hv.1, hanswer]
  refine ⟨hask _ hmodel, hask _ hown, ?_, fun _ _ => id, fun _ _ => id, fun _ _ => id⟩
  intro done total name d
  rw [hreport]
  exact fun _ hv => ⟨rfl, hv⟩

/-! ### One file -/

section Files

variable {mk : Maker (StateM World)} {answer own : Prompt → Outcome Value}

/-- The messages of a file, if it could be described. -/
def passingsOf (answer : Prompt → Outcome Value) (style : EntryStyle) (l : Language)
    (f : SourceFile) : List Passing :=
  match describedAs answer style l f with
  | .ok d => Passing.ofDescribed d
  | .error _ => []

theorem runIn_attempt_file (hmk : ∀ d, mk.Steady (fun v => I v ∧ v.disk = d) answer own)
    (l : Language) (f : SourceFile) {v : World} (hv : I v) :
    ∃ v', (Work.attempt (Describe.file mk.ask l mk.style.options mk.style.size mk.style.overlap
      f)).runIn v = (.ok (describedAs answer mk.style l f), v') ∧ I v' ∧ v'.disk = v.disk := by
  have hrel : (Runs.settled fun v' : World => I v' ∧ v'.disk = v.disk).Rel
      (Describe.file mk.ask l mk.style.options mk.style.size mk.style.overlap f)
      (Describe.file (askFixed answer) l mk.style.options mk.style.size mk.style.overlap f) :=
    Runs.rel_file (hmk v.disk).ask l _ _ _ f
  obtain ⟨hvalue, hstate, hdisk⟩ := hrel v ⟨hv, rfl⟩
  exact ⟨_, congrArg (fun o => (Except.ok o, _)) hvalue, hstate, hdisk⟩

theorem runIn_streamFile (hmk : ∀ d, mk.Steady (fun v => I v ∧ v.disk = d) answer own)
    (hanswer : ∀ p v, answer p = .ok v → ∃ s, v = .text s) (l : Language) (f : SourceFile)
    {v : World} (hv : I v) {d : Stream} (hd : d.finished = false) :
    ∃ v' d' text, (streamFile mk l f d).runIn v =
        (.ok (d', passingsOf answer mk.style l f), v') ∧ I v' ∧ v'.disk = v.disk ∧
      d'.text = d.text ++ text ∧ d'.finished = false ∧
      Streamed l f (describedAs answer mk.style l f) text := by
  obtain ⟨v', hdescribed, hv', hdisk⟩ := runIn_attempt_file hmk l f hv
  rw [streamFile, passingsOf]
  dsimp only
  rw [runIn_bind_ok hdescribed]
  cases ho : describedAs answer mk.style l f with
  | error fault =>
    obtain ⟨d', hrun, htext, hfinished⟩ := adds_noteSection l f fault d hd
    refine ⟨v', d', _, ?_, hv', hdisk, htext, hfinished, .note⟩
    have hsection : Stream.run (Stream.fileSection _ _) d = (.ok (), d') := hrun
    dsimp only
    rw [hsection]
    rfl
  | ok info =>
    have hknown := wellDescribed_of_describedAs hanswer ho
    obtain ⟨doc, hdoc⟩ := hknown.documentation
    dsimp only
    -- Where the section breaks off, what went wrong becomes a section of its own behind it.
    cases hchannel : publishesOnChannel info with
    | false =>
      obtain ⟨rest, hrest⟩ := completes_closing hknown hchannel
      obtain ⟨d', hrun, htext, hfinished⟩ := adds_fileSection hknown hdoc hrest l d hd
      refine ⟨v', d', _, ?_, hv', hdisk, htext, hfinished, .whole hdoc hchannel hrest⟩
      have hsection : Stream.run (Stream.fileSection _ _) d = (.ok (), d') := hrun
      rw [hsection]
      rfl
    | true =>
      obtain ⟨t, hfacts, ht⟩ := hknown.facts
      obtain ⟨shown, hshown⟩ : Stream.Completes (Stream.factsPart info.facts) := by
        rw [hfacts]
        exact Stream.completes_factsPart ht
      have hrest := adds_closing_publishing hknown hchannel hshown
      obtain ⟨d₁, hrun, htext, hfinished⟩ := adds_fileSection hknown hdoc hrest l d hd
      obtain ⟨d₂, hrun', htext', hfinished'⟩ := adds_noteSection l f _ d₁ hfinished
      have hsection : Stream.run (Stream.fileSection info.toValue (.text l.id)) d = (.error _, d₁) :=
        hrun
      have hnote : Stream.run (Stream.fileSection (Described.bare f _).toValue (.text l.id)) d₁ =
        (.ok (), d₂) := hrun'
      refine ⟨v', d₂, _, ?_, hv', hdisk, ?_, hfinished', .cut hdoc hchannel hshown⟩
      · rw [hsection]
        dsimp only
        rw [hnote]
        rfl
      · rw [htext', htext, String.append_assoc]

/-! ### All files -/

/-- The files that can be read, with their languages. -/
def readables (files : List SourceFile) : List (Language × SourceFile) :=
  files.filterMap fun f => (f.language.bind readable?).map (·, f)

theorem readable?_of_isUnknown {v : Value} (h : isUnknown v = true) : readable? v = none := by
  obtain rfl := same_text.mp h
  rfl

/-- What all files add to a document, which stands in its file from beginning to end. -/
theorem runIn_streamFiles (hmk : ∀ d, mk.Steady (fun v => I v ∧ v.disk = d) answer own)
    (hdisk : ∀ v d, I v → I { v with disk := d })
    (hanswer : ∀ p v, answer p = .ok v → ∃ s, v = .text s) {path : String} {files : List SourceFile}
    (hfiles : HaveLanguages files) (done : Nat) {v : World} (hv : I v)
    {d : Stream} (hd : d.finished = false) (hstands : v.disk.Stands path d.text) :
    ∃ v' texts, (streamFiles mk path done files d).runIn v =
        (.ok ((readables files).flatMap fun x => passingsOf answer mk.style x.1 x.2), v') ∧
      v'.disk.Stands path (d.text ++ String.join texts) ∧
      List.Forall₂ (fun x text => Streamed x.1 x.2 (describedAs answer mk.style x.1 x.2) text)
        (readables files) texts := by
  -- The document is put down after every file, which needs that it stands in its file already.
  induction files generalizing done v d with
  | nil => exact ⟨v, [], rfl, by simpa using hstands, .nil⟩
  | cons f rest ih =>
    obtain ⟨⟨key, hkey⟩, hrest⟩ := List.forall_mem_cons.mp hfiles
    have hlanguage := language_of_languageOf hkey
    have hkeyed : (Work.ofOutcome (languageOf f)).runIn v = (.ok key, v) := by
      rw [hkey]
      rfl
    have hreadable : (if isUnknown key then none else readable? key) = readable? key := by
      split
      · rename_i hunknown
        exact (readable?_of_isUnknown hunknown).symm
      · rfl
    rw [streamFiles, runIn_bind_ok hkeyed, hreadable]
    cases hl : readable? key with
    | none =>
      have hskip : readables (f :: rest) = readables rest := by
        simp [readables, hlanguage, hl]
      rw [hskip]
      exact ih hrest done hv hd hstands
    | some l =>
      have htake : readables (f :: rest) = (l, f) :: readables rest := by
        simp [readables, hlanguage, hl]
      obtain ⟨v₁, hreport, hv₁, hdisk₁⟩ :=
        ((hmk v.disk).report (done + 1) none (nameOf f)).exists_runIn ⟨hv, rfl⟩
      obtain ⟨v₂, d', text, hfile, hv₂, hdisk₂, htext, hfinished, hstreamed⟩ :=
        runIn_streamFile hmk hanswer l f hv₁ hd
      have hstands₂ : v₂.disk.Stands path d.text := by
        rwa [hdisk₂, hdisk₁]
      obtain ⟨e, hwrite, hstands₃⟩ := hstands₂.write d'.text
      have hput : (putDown path d').runIn v₂ = (.ok (), { v₂ with disk := e }) := by
        rw [putDown, runIn_changeDisk, hwrite]
      obtain ⟨v', texts, hfiles', hstands', hforall⟩ :=
        ih hrest (done + 1) (hdisk v₂ e hv₂) hfinished hstands₃
      refine ⟨v', text :: texts, ?_, ?_, ?_⟩
      · dsimp only
        rw [runIn_bind_ok hreport, runIn_bind_ok hfile]
        dsimp only
        rw [runIn_bind_ok hput, runIn_bind_ok hfiles', htake, List.flatMap_cons]
        rfl
      · rw [String.join_cons, ← String.append_assoc, ← htext]
        exact hstands'
      · rw [htake]
        exact .cons hstreamed hforall

end Files

/-! ### The whole document -/

/-- The entries that some files have in a document that is made at once: under the name of each
language, those of its files in the order in which they come. -/
def Entered (I : World → Prop) (mk : Maker (StateM World)) (files : List SourceFile)
    (entry : Language → SourceFile → FileEntry) : Prop :=
  ∃ entries, Settles I (mk.entries files) (.ok entries) ∧
    ∀ l : Language, under l.id entries = nonEmpty ((filesOf l.id files).map (entry l))

/-- The text that a document which is written as the files come begins with. -/
def headText (s : Scribe) (c : Choices) : String :=
  (Stream.start (c.provider.orElse s.provider) (s.modelFor c).name).text

def openDocument (s : Scribe) (c : Choices) (path : String) : Work Unit := do
  makeParent path
  putDown path (.start (c.provider.orElse s.provider) (s.modelFor c).name)

/-- The fault that a document which is written as the files come ends with. -/
def closingFault (passings : List Passing) : Fault :=
  match Passing.integrationGraph passings with
  | .ok _ => .undefinedName "messaging_flows"
  | .error fault => fault

theorem Steady.settles (h : s.Steady c I answer own) (w : World) (style : EntryStyle) :
    (s.makerIn c w style).Steady I (asTexts answer) (asTexts own) := by
  have hany {α : Type} {x : Work α} {o : Outcome α}
      (hx : ∀ d, Settles (fun v => I v ∧ v.disk = d) x o) : Settles I x o := by
    intro v hv
    obtain ⟨hvalue, hstate, -⟩ := hx v.disk v ⟨hv, rfl⟩
    exact ⟨hvalue, hstate⟩
  exact ⟨fun p => hany (h.ask p), fun p => hany (h.askOwn p),
    fun done total name => hany (h.report done total name)⟩

theorem entered_entryOf (h : s.Steady c I answer own) (w : World) (style : EntryStyle)
    {files : List SourceFile} (hfiles : HaveLanguages files) :
    Entered I (s.makerIn c w style) files (entryOf (asTexts answer) (asTexts own) style) := by
  obtain ⟨groups, hgroups, hunder⟩ := under_byLanguage hfiles
  refine ⟨_, settles_entries (h.settles w style) hgroups, fun l => ?_⟩
  rw [under_groupEntries, hunder]
  cases filesOf l.id files <;> rfl

theorem Steady.keeps_openDocument (h : s.Steady c I answer own) (path : String) :
    (Frame.invariant I).Keeps (s.openDocument c path) :=
  (h.overlooks.keeps_changeDisk _).bind fun _ => h.overlooks.keeps_changeDisk _

theorem stands_openDocument {path : String} {w w₁ : World}
    (h : (s.openDocument c path).runIn w = (.ok (), w₁)) :
    w₁.disk.Stands path (s.headText c) := by
  rw [openDocument, runIn_bind] at h
  cases hparent : (makeParent path).runIn w with
  | mk r u =>
    rw [hparent] at h
    cases r with
    | error fault => cases h
    | ok =>
      dsimp only at h
      rw [putDown, runIn_changeDisk] at h
      cases hwrite : u.disk.write path (.text _) with
      | error fault =>
        rw [hwrite] at h
        cases h
      | ok e =>
        rw [hwrite] at h
        cases h
        exact Disk.stands_of_write hwrite

theorem stream_eq (s : Scribe) (c : Choices) (selection : Selection) (source : Source)
    (path : String) : s.stream c selection source path = (do
      let w ← get
      let style ← Work.ofOutcome (s.styleFor c)
      s.openDocument c (Path.normal path)
      let files ← source.each selection
      let passings ← streamFiles (s.makerIn c w style) (Path.normal path) 0 files
        (.start (c.provider.orElse s.provider) (s.modelFor c).name)
      let _ ← Work.ofOutcome (Passing.integrationGraph passings)
      throw (.undefinedName "messaging_flows")) := by
  rw [stream]
  dsimp only
  rw [maker_bind]
  simp [openDocument, makerIn]

/-- Once all files have been written, nothing but a fault can come. -/
theorem runIn_stream {selection : Selection} {source : Source} {path : String}
    {w w₁ w₂ w' : World} {style : EntryStyle} {files : List SourceFile} {passings : List Passing}
    (hstyle : s.styleFor c = .ok style)
    (hopen : (s.openDocument c (Path.normal path)).runIn w = (.ok (), w₁))
    (hread : (source.each selection).runIn w₁ = (.ok files, w₂))
    (hrun : (streamFiles (s.makerIn c w style) (Path.normal path) 0 files
      (.start (c.provider.orElse s.provider) (s.modelFor c).name)).runIn w₂ = (.ok passings, w')) :
    (s.stream c selection source path).runIn w = (.error (closingFault passings), w') := by
  have hget : (get : Work World).runIn w = (.ok w, w) := rfl
  have hstyled : (Work.ofOutcome (s.styleFor c)).runIn w = (.ok style, w) := by
    rw [hstyle]
    rfl
  rw [stream_eq, runIn_bind_ok hget, runIn_bind_ok hstyled, runIn_bind_ok hopen,
    runIn_bind_ok hread, runIn_bind_ok hrun, closingFault]
  cases Passing.integrationGraph passings with
  | ok graph => rfl
  | error fault => rfl

/-- How a document that is written as the files come is left. -/
structure LeftOpen (mk : Maker (StateM World)) (I : World → Prop)
    (answer : Prompt → Outcome Value) (head path : String) (files : List SourceFile)
    (result : Outcome String × World) (texts : List String)
    (entry : Language → SourceFile → FileEntry) : Prop where
  /-- It ends in a fault, so that no path is given. -/
  fails : result.1 = .error (closingFault
    ((readables files).flatMap fun x => passingsOf answer mk.style x.1 x.2))
  /-- The head and what comes of each file that can be read stand in the document, and nothing
  else. -/
  stands : result.2.disk.read? path = some (.text (head ++ String.join texts))
  /-- A document that is made at once has these entries. -/
  entered : Entered I mk files entry
  /-- What comes of the files, in their order. -/
  streamed : List.Forall₂
    (fun x text => Streamed x.1 x.2 (describedAs answer mk.style x.1 x.2) text)
    (readables files) texts
  /-- It is one section with the documentation of the entry exactly if the file can be described
  and does not publish on a channel. -/
  agrees : List.Forall₂
    (fun x text => Shows x.1 x.2 (entry x.1 x.2) text ↔
      ∃ d, describedAs answer mk.style x.1 x.2 = .ok d ∧ publishesOnChannel d = false)
    (readables files) texts

/-- With answers that depend on the questions alone, a document that is written as the files come
is left without its end, whatever the files are.  Its sections are those of the files in their
order, and they agree with the entries in a document made at once for exactly the files that can be
described and do not publish on a channel. -/
theorem streamed_without_end {selection : Selection} {source : Source} {path : String}
    {w w₁ w₂ : World} {style : EntryStyle} {files : List SourceFile}
    (hsteady : s.Steady c I answer own) (hI : I w) (hkeys : selection.HasKeys)
    (hstyle : s.styleFor c = .ok style)
    (hopen : (s.openDocument c (Path.normal path)).runIn w = (.ok (), w₁))
    (hread : (source.each selection).runIn w₁ = (.ok files, w₂))
    (hkept : ∀ address branch, source = .repository address branch →
      w₂.disk.Stands (Path.normal path) (s.headText c)) :
    ∃ texts entry, LeftOpen (s.makerIn c w style) I (asTexts answer) (s.headText c)
      (Path.normal path) files ((s.stream c selection source path).runIn w) texts entry := by
  have hI₁ : I w₁ := rel_of_runIn (hsteady.keeps_openDocument (Path.normal path)) hopen hI
  have hI₂ : I w₂ :=
    rel_of_runIn (Source.keeps_each hsteady.overlooks selection source) hread hI₁
  have hfiles : HaveLanguages files :=
    Source.yields_each hkeys source w₁ files (congrArg Prod.fst hread)
  have hstands : w₂.disk.Stands (Path.normal path) (s.headText c) := by
    by_cases hsource : ∃ address branch, source = .repository address branch
    · obtain ⟨address, branch, hsource⟩ := hsource
      exact hkept address branch hsource
    · have hdisk := Source.disk_of_each selection
        (fun address branch heq => hsource ⟨address, branch, heq⟩) w₁
      rw [hread] at hdisk
      dsimp only at hdisk
      rw [hdisk]
      exact stands_openDocument hopen
  obtain ⟨w', texts, hrun, hstands', hforall⟩ := runIn_streamFiles (hsteady.makerIn w style)
    hsteady.overlooks.disk exists_text_of_asTexts hfiles 0 hI₂ rfl hstands
  refine ⟨texts, entryOf (asTexts answer) (asTexts own) style, ?_⟩
  rw [runIn_stream hstyle hopen hread hrun]
  exact {
    fails := rfl
    stands := hstands'.read
    entered := entered_entryOf hsteady w style hfiles
    streamed := hforall
    agrees := hforall.imp fun x text hstreamed => shows_iff exists_text_of_asTexts hstreamed }

def oneClass : World where
  disk := ⟨"/w", [(["A.java"], .file (.text "class A \x7b\x7d"))]⟩
  standIn _ _ := .ok "T"

def standInScribe : Scribe where
  config := .map []
  provider := .text "ollama"
  model := { provider := .ollama, url := .null, name := .text "m", temperature := .null,
             maxTokens := .null, standsIn := true }
  options := {}
  diagramsOn := true
  templates := .folder "t"
  template := .text "default.md"
  size := .int 0
  overlap := .int 0
  streaming := .bool true

/-- How the entries of its documents are made. -/
def plainStyle : EntryStyle where
  options := {}
  size := .int 0
  overlap := .int 0
  diagrams := true
  diagramsOn := true

/-- Files in one language. -/
def javaOnly : Selection where
  config := .record [("extensions", .record [("java", .texts [".java"])])]
  exclude := .list []
  included := .list []
  limit := .whole 1000

theorem steady_standInScribe :
    standInScribe.Steady {} (fun v => v.standIn = oneClass.standIn) (fun _ => .ok "T")
      (fun _ => .ok "T") :=
  steady_of_standsIn rfl rfl rfl fun _ _ => rfl

theorem exists_read_oneClass : ∃ w₁ f w₂ d,
    (standInScribe.openDocument {} (Path.normal "out.md")).runIn oneClass = (.ok (), w₁) ∧
    ((Source.file "A.java").each javaOnly).runIn w₁ = (.ok [f], w₂) ∧
    f.language = some (.text "java") ∧
    describedAs (asTexts fun _ => .ok "T") plainStyle .java f = .ok d ∧
    publishesOnChannel d = false := by
  -- Worlds cannot be compared, so only outcomes are evaluated.
  generalize hrun : (standInScribe.openDocument {} (Path.normal "out.md")).runIn oneClass = r
  have hopened : r.1.isOk = true := by
    rw [← hrun]
    decide +kernel
  have hchecked : (((((Source.file "A.java").each javaOnly).runIn r.2).1.toOption.getD []).map
      fun f => f.language.any (·.same (.text "java")) &&
        (describedAs (asTexts fun _ => .ok "T") plainStyle .java f).toOption.any
          (!publishesOnChannel ·)) = [true] := by
    rw [← hrun]
    decide +kernel
  obtain ⟨o, w₁⟩ := r
  cases o with
  | error fault => cases hopened
  | ok =>
    cases hread : ((Source.file "A.java").each javaOnly).runIn w₁ with
    | mk o w₂ =>
      rw [hread] at hchecked
      cases o with
      | error fault => cases hchecked
      | ok files =>
        obtain ⟨f, rfl, hf⟩ := List.map_eq_singleton_iff.mp hchecked
        rw [Bool.and_eq_true, Option.any_eq_true, Option.any_eq_true] at hf
        obtain ⟨⟨v, hv, hsame⟩, d, hd, hchannel⟩ := hf
        refine ⟨w₁, f, w₂, d, rfl, hread, ?_, ?_, by simpa using hchannel⟩
        · rw [hv, same_text.mp hsame]
        · cases ho : describedAs (asTexts fun _ => .ok "T") plainStyle .java f with
          | ok info =>
            rw [ho] at hd
            cases hd
            rfl
          | error fault =>
            rw [ho] at hd
            cases hd

/-- The document of one class is left with one section, which agrees with its entry. -/
theorem class_streamed_without_end : ∃ w₁ f w₂ text entry,
    (standInScribe.openDocument {} (Path.normal "out.md")).runIn oneClass = (.ok (), w₁) ∧
    ((Source.file "A.java").each javaOnly).runIn w₁ = (.ok [f], w₂) ∧
    LeftOpen (standInScribe.makerIn {} oneClass plainStyle)
      (fun v => v.standIn = oneClass.standIn) (asTexts fun _ => .ok "T")
      (standInScribe.headText {}) (Path.normal "out.md") [f]
      ((standInScribe.stream {} javaOnly (.file "A.java") "out.md").runIn oneClass) [text] entry ∧
    Shows .java f (entry .java f) text := by
  obtain ⟨w₁, f, w₂, d, hopen, hread, hlanguage, hd, hchannel⟩ := exists_read_oneClass
  have hkeys : javaOnly.HasKeys := by
    intro entries hentries
    cases hentries
    simp [Value.isKey]
  have hstyle : standInScribe.styleFor {} = .ok plainStyle := rfl
  have hnowhere : ∀ address branch, Source.file "A.java" = .repository address branch →
      w₂.disk.Stands (Path.normal "out.md") (standInScribe.headText {}) := by simp
  obtain ⟨texts, entry, h⟩ :=
    streamed_without_end steady_standInScribe rfl hkeys hstyle hopen hread hnowhere
  have hreadable : f.language.bind readable? = some .java := by
    rw [hlanguage]
    rfl
  have hreadables : readables [f] = [(.java, f)] := by
    rw [readables, List.filterMap_cons, hreadable]
    rfl
  have hagrees := h.agrees
  rw [hreadables] at hagrees
  obtain ⟨text, rest, hshows, hrest, rfl⟩ := List.forall₂_cons_left_iff.mp hagrees
  obtain rfl := List.forall₂_nil_left_iff.mp hrest
  exact ⟨w₁, f, w₂, text, entry, hopen, hread, h, hshows.mpr ⟨d, hd, hchannel⟩⟩

/-- The document of one class has no summary, and its path is not given. -/
theorem class_left_open : ∃ w',
    (standInScribe.stream {} javaOnly (.file "A.java") "out.md").runIn oneClass =
      (.error (.undefinedName "messaging_flows"), w') ∧
    w'.disk.read? "out.md" = some (.text ("# Technical Documentation\n\n" ++
      "**TechDocGen by IBMC**  \n**Model Use :** local m\n\n---\n\n## Files\n\n" ++
      "### A.java (JAVA)\n\n**Path:** `A.java`\n\nT\n\n#### Code Structure\n\n" ++
      "- Classes: 1\n\n---\n\n")) := by
  have hchecked : (match (standInScribe.stream {} javaOnly (.file "A.java") "out.md").runIn
      oneClass with
      | (.error (.undefinedName name), w') => name == "messaging_flows" &&
        decide (w'.disk.read? "out.md" = some (.text ("# Technical Documentation\n\n" ++
          "**TechDocGen by IBMC**  \n**Model Use :** local m\n\n---\n\n## Files\n\n" ++
          "### A.java (JAVA)\n\n**Path:** `A.java`\n\nT\n\n#### Code Structure\n\n" ++
          "- Classes: 1\n\n---\n\n")))
      | _ => false) = true := by decide +kernel
  split at hchecked
  · rename_i name w' hrun
    rw [Bool.and_eq_true, beq_iff_eq, decide_eq_true_eq] at hchecked
    obtain ⟨rfl, hstands⟩ := hchecked
    exact ⟨w', hrun, hstands⟩
  · cases hchecked

end Scribe

end CodeScribe
