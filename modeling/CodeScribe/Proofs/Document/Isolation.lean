import CodeScribe.Proofs.Document.Related
import CodeScribe.Proofs.Frame
import Mathlib.Data.List.Induction

/-!
# Files do not disturb each other

With a model whose answers depend on the questions alone, the entry of a file in a document depends
on the file alone, also if some other file cannot be described.

* `Isolated`, `files_by_language_isolated` — the entries of a document are, language by language,
  those that its files have alone.
-/

namespace CodeScribe.Document

/-! ### Runs that end in one way -/

variable {σ : Type}
variable {α β : Type} {x : ExceptT Fault (StateM σ) α} {f : SourceFile} {files : List SourceFile}

/-- Runs from states of a kind end in one way, and in a state of that kind. -/
def Runs.settled (I : σ → Prop) : Runs (StateM σ) Id where
  rel x y := ∀ s, I s → (x.run s).1 = y ∧ I (x.run s).2
  pure _ := fun _ hs => ⟨rfl, hs⟩
  bind := by
    intro α β x y f g hx hf s hs
    obtain ⟨hvalue, hstate⟩ := hx s hs
    subst hvalue
    exact hf _ _ hstate

/-- From every state of a kind, a run has one outcome, and ends in a state of that kind. -/
def Settles {α : Type} (I : σ → Prop) (x : ExceptT Fault (StateM σ) α) (o : Outcome α) : Prop :=
  (Runs.settled I).Rel x (lift o)

theorem Settles.bind_ok {I : σ → Prop} {f : α → ExceptT Fault (StateM σ) β} {a : α} {o : Outcome β}
    (hx : Settles I x (.ok a)) (hf : Settles I (f a) o) : Settles I (x >>= f) o := by
  intro s hs
  obtain ⟨hvalue, hstate⟩ := hx s hs
  rw [Frame.run_bind, hvalue]
  exact hf _ hstate

theorem Settles.bind_error {I : σ → Prop} {f : α → ExceptT Fault (StateM σ) β} {fault : Fault}
    (hx : Settles I x (.error fault)) : Settles I (x >>= f) (.error fault) := by
  intro s hs
  obtain ⟨hvalue, hstate⟩ := hx s hs
  rw [Frame.run_bind, hvalue]
  exact ⟨rfl, hstate⟩

theorem settles_lift (I : σ → Prop) (o : Outcome α) : Settles I (lift o) o :=
  Runs.Rel.lift o

theorem Settles.map {I : σ → Prop} {o : Outcome α} (hx : Settles I x o) (f : α → β) :
    Settles I (x >>= fun a => pure (f a)) (o.map f) := by
  have hrel : (Runs.settled I).Rel (x >>= fun a => pure (f a)) (lift o >>= fun a => pure (f a)) :=
    Runs.Rel.bind hx fun a => Runs.Rel.pure (f a)
  have hlift : (lift o >>= fun a => pure (f a) : ExceptT Fault Id β) = lift (o.map f) := by
    cases o <;> rfl
  rwa [hlift] at hrel

/-- A maker whose questions are answered by fixed functions, and whose reports do no harm. -/
structure Maker.Steady (mk : Maker (StateM σ)) (I : σ → Prop)
    (answer own : Prompt → Outcome Value) : Prop where
  ask : ∀ p, Settles I (mk.ask p) (answer p)
  askOwn : ∀ p, Settles I (mk.askOwn p) (own p)
  report : ∀ done total name, Settles I (mk.report done total name) (.ok ())

/-! ### The entry of one file -/

/-- Without a state, a run goes on with the value of its first part. -/
theorem run_bind_ok {x : ExceptT Fault Id α} {f : α → ExceptT Fault Id β} {a : α}
    (h : x.run = .ok a) : (x >>= f).run = (f a).run := by
  rw [ExceptT.run_bind, h]
  rfl

def askFixed (answer : Prompt → Outcome Value) : Ask Id := fun p => lift (answer p)

/-- Nothing is told. -/
def untold : Report Id := fun _ _ _ => pure ()

variable (answer own : Prompt → Outcome Value) (style : EntryStyle)

def describedAs (language : Language) (f : SourceFile) : Outcome Described :=
  (Describe.file (askFixed answer) language style.options style.size style.overlap f).run

def sequenceAs (language : Language) (facts content : Value) : Option String :=
  (sequenceOf (askFixed own) style language facts content).run.toOption.join

def entryOf (language : Language) (f : SourceFile) : FileEntry :=
  match describedAs answer style language f with
  | .ok d => ⟨d, sequenceAs own style language d.facts (f.content.getD .null)⟩
  | .error fault => ⟨.bare f (failureDetails fault), none⟩

theorem run_askedSequence (ask : Ask Id) (on : Bool) (facts : Value) (code : List Char) :
    ∃ diagram, (askedSequence ask on facts code).run = .ok diagram := by
  unfold askedSequence
  split
  · exact ⟨_, rfl⟩
  · split
    · have hattempt (p : Prompt) : (attempt (ask p)).run = .ok (ask p).run := rfl
      rw [run_bind_ok (hattempt _)]
      split
      · exact ⟨_, rfl⟩
      · exact ⟨_, rfl⟩
    · exact ⟨_, rfl⟩

theorem run_sequenceOf (language : Language) (facts content : Value) :
    (sequenceOf (askFixed own) style language facts content).run =
      .ok (sequenceAs own style language facts content) := by
  have hok : ∃ diagram,
      (sequenceOf (askFixed own) style language facts content).run = .ok diagram := by
    unfold sequenceOf
    cases content with
    | text s =>
      dsimp only
      split
      · exact ⟨_, rfl⟩
      · split
        · exact ⟨_, rfl⟩
        · split
          · exact run_askedSequence _ _ _ _
          · exact ⟨_, rfl⟩
    | _ => exact ⟨_, rfl⟩
  obtain ⟨diagram, hdiagram⟩ := hok
  rw [sequenceAs, hdiagram]
  rfl

theorem run_ofFile (language : Language) (f : SourceFile) :
    (FileEntry.ofFile (askFixed answer) (askFixed own) style language f).run =
      .ok (entryOf answer own style language f) := by
  have hattempt : (attempt (Describe.file (askFixed answer) language style.options style.size
      style.overlap f)).run = .ok (describedAs answer style language f) := rfl
  rw [FileEntry.ofFile, run_bind_ok hattempt, entryOf]
  cases describedAs answer style language f with
  | ok d =>
    dsimp only
    rw [run_bind_ok (run_sequenceOf own style language _ _)]
    rfl
  | error fault => rfl

/-! ### The entries of all files -/

theorem run_entriesOf (total : Nat) (language : Language) (done : Nat) (files : List SourceFile) :
    (entriesOf (askFixed answer) (askFixed own) untold style total language done files).run =
      .ok (files.map (entryOf answer own style language)) := by
  induction files generalizing done with
  | nil => rfl
  | cons f rest ih =>
    have htold : (untold (done + 1) (some total) (nameOf f)).run = .ok () := rfl
    rw [entriesOf, run_bind_ok htold, run_bind_ok (run_ofFile answer own style language f),
      run_bind_ok (ih (done + 1))]
    rfl

def groupEntries (group : Value × List SourceFile) : Value × List FileEntry :=
  (group.1, match readable? group.1 with
    | some language => group.2.map (entryOf answer own style language)
    | none => [])

/-- All files have their entries, in the order of the files. -/
theorem run_entriesByLanguage (total done : Nat) (groups : List (Value × List SourceFile)) :
    (entriesByLanguage (askFixed answer) (askFixed own) untold style total done groups).run =
      .ok ((groups.filter (!isUnknown ·.1)).map (groupEntries answer own style)) := by
  induction groups generalizing done with
  | nil => rfl
  | cons group rest ih =>
    obtain ⟨language, files⟩ := group
    rw [entriesByLanguage, List.filter_cons]
    cases hunknown : isUnknown language with
    | true => simpa [hunknown] using ih done
    | false =>
      simp only [Bool.not_false, if_true, Bool.false_eq_true, if_false, List.map_cons]
      cases hreadable : readable? language with
      | none =>
        rw [run_bind_ok (ih done), groupEntries, hreadable]
        rfl
      | some l =>
        rw [run_bind_ok (run_entriesOf answer own style total l done files),
          run_bind_ok (ih (done + files.length)), groupEntries, hreadable]
        rfl

/-! ### Files under the name of a language -/

def under {α : Type} (name : String) (groups : List (Value × α)) : Option α :=
  (groups.find? fun g => g.1.same (.text name)).map (·.2)

theorem same_text {v : Value} {name : String} : v.same (.text name) = true ↔ v = .text name := by
  cases v <;> simp [Value.same, Value.whole?]

theorem text_same {v : Value} {name : String} :
    (Value.text name).same v = true ↔ v = .text name := by
  cases v with
  | text s => rw [Value.same, beq_iff_eq, Value.text.injEq, eq_comm]
  | _ => simp [Value.same, Value.whole?]

theorem under_cons (name : String) (l : Value) (a : α) (rest : List (Value × α)) :
    under name ((l, a) :: rest) = if l.same (.text name) then some a else under name rest := by
  rw [under, List.find?_cons]
  cases hl : l.same (.text name) with
  | true => simp
  | false => simp [under]

/-- One more file stands behind the others of its language. -/
theorem under_addToGroup (name : String) (key : Value) (f : SourceFile)
    (groups : List (Value × List SourceFile)) :
    under name (addToGroup key f groups) =
      if key.same (.text name) then some ((under name groups).getD [] ++ [f])
      else under name groups := by
  induction groups with
  | nil => rw [addToGroup, under_cons]; rfl
  | cons group rest ih =>
    obtain ⟨l, fs⟩ := group
    rw [addToGroup, under_cons]
    by_cases hl : l.same (.text name) = true
    · obtain rfl := same_text.mp hl
      rw [if_pos hl]
      by_cases hkey : key.same (.text name) = true
      · rw [if_pos (text_same.mpr (same_text.mp hkey)), under_cons, if_pos hl, if_pos hkey]
        rfl
      · rw [if_neg fun h => hkey (same_text.mpr (text_same.mp h)), under_cons, if_pos hl,
          if_neg hkey]
    · rw [if_neg hl]
      by_cases hsame : l.same key = true
      · have hkey : ¬ key.same (.text name) = true := fun hkey => hl (same_text.mp hkey ▸ hsame)
        rw [if_pos hsame, under_cons, if_neg hl, if_neg hkey]
      · rw [if_neg hsame, under_cons, if_neg hl, ih]

def filesOf (name : String) (files : List SourceFile) : List SourceFile :=
  files.filter fun f => f.language.any (·.same (.text name))

def nonEmpty {α : Type} (as : List α) : Option (List α) := if as.isEmpty then none else some as

theorem getD_nonEmpty (as : List α) : (nonEmpty as).getD [] = as := by
  cases as <;> rfl

theorem nonEmpty_append_singleton (as : List α) (a : α) :
    nonEmpty (as ++ [a]) = some (as ++ [a]) := by
  simp [nonEmpty]

theorem language_of_languageOf {key : Value} (h : languageOf f = .ok key) :
    f.language = some key := by
  rw [languageOf] at h
  split at h
  · rename_i l hl
    rw [Value.asKey] at h
    split at h
    · cases h
      exact hl
    · cases h
  · cases h

/-- Files stand under the name of their language in the order in which they come. -/
theorem under_byLanguage (hfiles : ∀ f ∈ files, ∃ key, languageOf f = .ok key) :
    ∃ groups, byLanguage files = .ok groups ∧
      ∀ name, under name groups = nonEmpty (filesOf name files) := by
  induction files using List.reverseRecOn with
  | nil => exact ⟨[], rfl, fun name => rfl⟩
  | append_singleton files f ih =>
    obtain ⟨groups, hgroups, hunder⟩ := ih fun g hg => hfiles g (List.mem_append_left _ hg)
    obtain ⟨key, hkey⟩ := hfiles f (by simp)
    have hlanguage := language_of_languageOf hkey
    refine ⟨addToGroup key f groups, ?_, ?_⟩
    · rw [byLanguage] at hgroups ⊢
      rw [List.foldlM_append, hgroups]
      simp [hkey]
      rfl
    · intro name
      rw [under_addToGroup, hunder, getD_nonEmpty, filesOf, filesOf, List.filter_append,
        List.filter_cons, List.filter_nil, hlanguage]
      cases hsame : key.same (.text name) with
      | true => simp [hsame, nonEmpty_append_singleton]
      | false => simp [hsame]

/-! ### The entries of a document -/

theorem readable?_id (l : Language) : readable? (.text l.id) = some l := by
  cases l <;> rfl

theorem isUnknown_id (l : Language) : isUnknown (.text l.id) = false := by
  cases l <;> rfl

/-- Under the name of a language that can be read stand the entries of its files. -/
theorem under_groupEntries (l : Language) (groups : List (Value × List SourceFile)) :
    under l.id ((groups.filter (!isUnknown ·.1)).map (groupEntries answer own style)) =
      (under l.id groups).map (List.map (entryOf answer own style l)) := by
  induction groups with
  | nil => rfl
  | cons group rest ih =>
    obtain ⟨key, files⟩ := group
    rw [under_cons, List.filter_cons]
    by_cases hkey : key.same (.text l.id) = true
    · obtain rfl := same_text.mp hkey
      rw [if_pos hkey, isUnknown_id, Bool.not_false, if_pos rfl, List.map_cons, groupEntries,
        under_cons, if_pos hkey, readable?_id]
      rfl
    · rw [if_neg hkey, ← ih]
      split
      · rw [List.map_cons, groupEntries, under_cons, if_neg hkey]
      · rfl

def entriesValue (entries : List (Value × List FileEntry)) : Value :=
  .map (entries.map fun (l, es) => (l, .list (es.map (·.toValue))))

theorem get?_entriesValue (name : String) (entries : List (Value × List FileEntry)) :
    (entriesValue entries).get? name =
      (under name entries).map fun es => .list (es.map (·.toValue)) := by
  rw [entriesValue, Value.get?]
  induction entries with
  | nil => rfl
  | cons entry rest ih =>
    obtain ⟨l, es⟩ := entry
    rw [List.map_cons, Value.lookup, ih, under_cons]
    split <;> rfl

def Maker.entries {m : Type → Type} [Monad m] (mk : Maker m) (files : List SourceFile) :
    ExceptT Fault m (List (Value × List FileEntry)) := do
  let groups ← lift (byLanguage files)
  entriesByLanguage mk.ask mk.askOwn mk.report mk.style files.length 0 groups

variable {answer own} {I : σ → Prop} {mk : Maker (StateM σ)}

theorem settles_entries (hmk : mk.Steady I answer own) {groups : List (Value × List SourceFile)}
    (hgroups : byLanguage files = .ok groups) :
    Settles I (mk.entries files)
      (.ok ((groups.filter (!isUnknown ·.1)).map (groupEntries answer own mk.style))) := by
  have hrel : (Runs.settled I).Rel
      (entriesByLanguage mk.ask mk.askOwn mk.report mk.style files.length 0 groups)
      (entriesByLanguage (askFixed answer) (askFixed own) untold mk.style files.length 0 groups) :=
    Runs.rel_entriesByLanguage hmk.ask hmk.askOwn hmk.report mk.style files.length 0 groups
  have hentries : Settles I
      (entriesByLanguage mk.ask mk.askOwn mk.report mk.style files.length 0 groups)
      (.ok ((groups.filter (!isUnknown ·.1)).map (groupEntries answer own mk.style))) := by
    rw [← run_entriesByLanguage answer own mk.style files.length 0 groups]
    exact hrel
  rw [Maker.entries, hgroups]
  exact Settles.bind_ok (settles_lift I _) hentries

theorem document_eq (extras : Extras) (graph : Option Dependency.Graph)
    (files : List SourceFile) : mk.document extras graph files = (do
      let entries ← mk.entries files
      let names ← lift (contextOf mk extras graph files entries)
      return filled mk names) := by
  simp [Maker.document, Maker.entries]

theorem describedAs_eq (hmk : mk.Steady I answer own) {language : Language} {s : σ} (hs : I s) :
    ((Describe.file mk.ask language mk.style.options mk.style.size mk.style.overlap f).run.run s).1
      = describedAs answer mk.style language f := by
  have hrel : (Runs.settled I).Rel
      (Describe.file mk.ask language mk.style.options mk.style.size mk.style.overlap f)
      (Describe.file (askFixed answer) language mk.style.options mk.style.size mk.style.overlap
        f) :=
    Runs.rel_file hmk.ask language _ _ _ f
  exact (hrel s hs).1

/-- The values for a template hold the entries by language. -/
theorem get?_contextOf {extras : Extras} {graph : Option Dependency.Graph}
    {entries : List (Value × List FileEntry)} {names : Table Value}
    (h : contextOf mk extras graph files entries = .ok names) :
    names.get? "files_by_language" = some (entriesValue entries) := by
  simp only [contextOf, bind, Except.bind] at h
  split at h
  · cases h
  · split at h
    · cases h
    · split at h
      · cases h
      · cases h
        rfl

theorem byLanguage_singleton {l : Language} (hf : f ∈ filesOf l.id files) :
    byLanguage [f] = .ok [(.text l.id, [f])] := by
  obtain ⟨-, hany⟩ := List.mem_filter.mp hf
  cases hlanguage : f.language with
  | none => rw [hlanguage] at hany; cases hany
  | some v =>
    rw [hlanguage] at hany
    obtain rfl := same_text.mp hany
    have hkey : languageOf f = .ok (.text l.id) := by rw [languageOf, hlanguage]; rfl
    rw [byLanguage, List.foldlM_cons, hkey]
    rfl

structure Isolated (I : σ → Prop) (mk : Maker (StateM σ)) (files : List SourceFile)
    (entries : List (Value × List FileEntry)) (entry : Language → SourceFile → FileEntry) :
    Prop where
  /-- All files have their entries, whatever goes wrong with some of them. -/
  ends : Settles I (mk.entries files) (.ok entries)
  /-- A document is filled from these entries. -/
  fills : ∀ extras graph, Settles I (mk.document extras graph files)
    ((contextOf mk extras graph files entries).map (filled mk))
  /-- By language, a template sees the entries of exactly the files of that language. -/
  shown : ∀ extras graph names, contextOf mk extras graph files entries = .ok names →
    ∃ byLanguage, names.get? "files_by_language" = some byLanguage ∧
      ∀ l : Language, byLanguage.get? l.id = (nonEmpty ((filesOf l.id files).map (entry l))).map
        fun es => .list (es.map (·.toValue))
  /-- A file that is documented alone has the same entry. -/
  alone : ∀ l, ∀ f ∈ filesOf l.id files,
    Settles I (mk.entries [f]) (.ok [(.text l.id, [entry l f])])
  /-- A file that cannot be described has an entry that says so. -/
  failed : ∀ l f fault s, I s →
    ((Describe.file mk.ask l mk.style.options mk.style.size mk.style.overlap f).run.run s).1
      = .error fault → entry l f = ⟨.bare f (failureDetails fault), none⟩

/-- With answers that depend on the questions alone, files with a language do not disturb each
other: there is one entry for each file, in the order of the files, and it is the one that the file
has alone. -/
theorem files_by_language_isolated (hmk : mk.Steady I answer own) (files : List SourceFile)
    (hfiles : ∀ f ∈ files, ∃ key, languageOf f = .ok key) :
    ∃ entries entry, Isolated I mk files entries entry := by
  obtain ⟨groups, hgroups, hunder⟩ := under_byLanguage hfiles
  have hends := settles_entries hmk hgroups
  refine ⟨_, entryOf answer own mk.style, hends, ?_, ?_, ?_, ?_⟩
  · intro extras graph
    rw [document_eq]
    exact hends.bind_ok ((settles_lift I _).map (filled mk))
  · intro extras graph names hnames
    refine ⟨_, get?_contextOf hnames, ?_⟩
    intro l
    rw [get?_entriesValue, under_groupEntries, hunder]
    cases filesOf l.id files <;> rfl
  · intro l f hf
    have halone := settles_entries hmk (byLanguage_singleton hf)
    simpa [isUnknown_id, groupEntries, readable?_id] using halone
  · intro l f fault s hs hfault
    rw [describedAs_eq hmk hs] at hfault
    rw [entryOf, hfault]

/-- A model that does not answer questions about one class. -/
def choosyAnswer (p : Prompt) : Outcome Value :=
  if Text.contains p.user "Bad" then .error (.failed "no answer") else .ok (.text "Fine.")

def tallyMaker : Maker (StateM Nat) where
  ask p := do
    modify (· + 1)
    lift (choosyAnswer p)
  askOwn p := do
    modify (· + 1)
    lift (choosyAnswer p)
  report _ _ _ := modify (· + 1)
  style :=
    { options := {}, size := .int 0, overlap := .int 0, diagrams := true, diagramsOn := true }
  provider := .text "ollama"
  modelName := .text "m"
  date := "today"
  fill _ _ := .ok ""
  template := .text "default.md"

theorem steady_tallyMaker : tallyMaker.Steady (fun _ => True) choosyAnswer choosyAnswer where
  ask _ := fun _ _ => ⟨rfl, trivial⟩
  askOwn _ := fun _ _ => ⟨rfl, trivial⟩
  report _ _ _ := fun _ _ => ⟨rfl, trivial⟩

def goodFile : SourceFile :=
  .ofTexts "Good.java" "Good.java" "Good.java" "java" "class Good \x7b\x7d"

def badFile : SourceFile := .ofTexts "Bad.java" "Bad.java" "Bad.java" "java" "class Bad \x7b\x7d"

theorem bad_file_isolated :
    ∃ entries entry, Isolated (fun _ => True) tallyMaker [badFile, goodFile] entries entry ∧
      (∃ fault, entry .java badFile = ⟨.bare badFile (failureDetails fault), none⟩) ∧
      filesOf "java" [badFile, goodFile] = [badFile, goodFile] := by
  obtain ⟨entries, entry, h⟩ := files_by_language_isolated steady_tallyMaker [badFile, goodFile]
    (by simp [badFile, goodFile, languageOf, SourceFile.ofTexts, Value.asKey, Value.isKey])
  refine ⟨entries, entry, h, ?_, by rfl⟩
  have hfails : ((Describe.file tallyMaker.ask .java tallyMaker.style.options tallyMaker.style.size
      tallyMaker.style.overlap badFile).run.run 0).1.isOk = false := by decide +kernel
  cases hresult : ((Describe.file tallyMaker.ask .java tallyMaker.style.options
      tallyMaker.style.size tallyMaker.style.overlap badFile).run.run 0).1 with
  | ok d => rw [hresult] at hfails; cases hfails
  | error fault => exact ⟨fault, h.failed _ _ _ 0 trivial hresult⟩

end CodeScribe.Document
