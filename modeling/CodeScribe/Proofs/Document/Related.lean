import CodeScribe.Document.ByStructure

/-!
# Making documents in two monads

Documents are made in any monad in which questions can be put and progress can be told.  They do
nothing else in it, so two makers whose questions and reports are related make related documents.

* `Runs.rel_file`, `Runs.rel_ofFile`, `Runs.rel_entriesByLanguage` — describing a file, the entry
  of a file, and the entries of all files, from how questions and reports are related;
* `Runs.rel_ofStructure`, `Runs.rel_readByLanguage` — the parts of a document structure, and
  reading all files.
-/

namespace CodeScribe.Document

/-- A relation between runs in two monads. -/
structure Runs (m n : Type → Type) [Monad m] [Monad n] where
  rel : ∀ {α : Type}, m α → n α → Prop
  pure : ∀ {α : Type} (a : α), rel (Pure.pure a) (Pure.pure a)
  bind : ∀ {α β : Type} {x : m α} {y : n α} {f : α → m β} {g : α → n β},
    rel x y → (∀ a, rel (f a) (g a)) → rel (x >>= f) (y >>= g)

namespace Runs

variable {m n : Type → Type} [Monad m] [Monad n] (R : Runs m n) {α β : Type}
variable {f : α → ExceptT Fault m β} {g : α → ExceptT Fault n β}

/-- Runs that can fail are related by how they end. -/
def Rel (x : ExceptT Fault m α) (y : ExceptT Fault n α) : Prop := R.rel x.run y.run

variable {R}

/-! ### Putting runs together -/

theorem Rel.lift (x : Outcome α) : R.Rel (lift x) (lift x) := R.pure x

theorem Rel.pure (a : α) : R.Rel (Pure.pure a) (Pure.pure a) :=
  R.pure (Except.ok a : Outcome α)

theorem Rel.bind {x : ExceptT Fault m α} {y : ExceptT Fault n α} (h : R.Rel x y)
    (hf : ∀ a, R.Rel (f a) (g a)) : R.Rel (x >>= f) (y >>= g) := by
  refine R.bind h ?_
  intro r
  cases r with
  | ok a => exact hf a
  | error fault => exact R.pure (Except.error fault : Outcome β)

theorem Rel.attempt {x : ExceptT Fault m α} {y : ExceptT Fault n α} (h : R.Rel x y) :
    R.Rel (attempt x) (attempt y) :=
  R.bind h fun r => R.pure (Except.ok r : Outcome (Outcome α))

theorem Rel.mapM_loop (h : ∀ a, R.Rel (f a) (g a)) (l : List α) (acc : List β) :
    R.Rel (List.mapM.loop f l acc) (List.mapM.loop g l acc) := by
  induction l generalizing acc with
  | nil => exact Rel.pure _
  | cons a l ih => exact Rel.bind (h a) fun b => ih (b :: acc)

theorem Rel.mapM (h : ∀ a, R.Rel (f a) (g a)) (l : List α) : R.Rel (l.mapM f) (l.mapM g) :=
  Rel.mapM_loop h l []

/-! ### The entry of a file -/

variable {ask askOwn : Ask m} {ask' askOwn' : Ask n}

theorem rel_chunk (hask : ∀ p, R.Rel (ask p) (ask' p)) (language : Language)
    (options : ReadOptions) (messaging : Option Value) (total : Nat) (numbered : Value × Nat) :
    R.Rel (Describe.chunk ask language options messaging total numbered)
      (Describe.chunk ask' language options messaging total numbered) := by
  refine Rel.bind (Rel.lift _) fun facts => ?_
  refine Rel.bind (Rel.lift _) fun prompt => ?_
  exact Rel.bind (hask prompt) fun doc => Rel.pure _

theorem rel_file (hask : ∀ p, R.Rel (ask p) (ask' p)) (language : Language)
    (options : ReadOptions) (size overlap : Value) (f : SourceFile) :
    R.Rel (Describe.file ask language options size overlap f)
      (Describe.file ask' language options size overlap f) := by
  refine Rel.bind (Rel.lift _) fun content => ?_
  refine Rel.bind (Rel.lift _) fun messaging => ?_
  refine Rel.bind (Rel.lift _) fun chunks => ?_
  refine Rel.bind (Rel.mapM (rel_chunk hask language options messaging _) _) fun described => ?_
  exact Rel.bind (Rel.lift _) fun facts => Rel.pure _

theorem rel_askedSequence (hask : ∀ p, R.Rel (ask p) (ask' p)) (on : Bool) (facts : Value)
    (code : List Char) :
    R.Rel (askedSequence ask on facts code) (askedSequence ask' on facts code) := by
  unfold askedSequence
  split
  · exact Rel.pure _
  · split
    · refine Rel.bind (Rel.attempt (hask _)) fun reply => ?_
      split
      · exact Rel.pure _
      · exact Rel.pure _
    · exact Rel.pure _

theorem rel_sequenceOf (hask : ∀ p, R.Rel (ask p) (ask' p)) (style : EntryStyle)
    (language : Language) (facts content : Value) :
    R.Rel (sequenceOf ask style language facts content)
      (sequenceOf ask' style language facts content) := by
  unfold sequenceOf
  cases content with
  | text s =>
    dsimp only
    split
    · exact Rel.pure _
    · split
      · exact Rel.pure _
      · split
        · exact rel_askedSequence hask _ _ _
        · exact Rel.pure _
  | _ => exact Rel.pure _

theorem rel_ofFile (hask : ∀ p, R.Rel (ask p) (ask' p))
    (hown : ∀ p, R.Rel (askOwn p) (askOwn' p)) (style : EntryStyle) (language : Language)
    (f : SourceFile) :
    R.Rel (FileEntry.ofFile ask askOwn style language f)
      (FileEntry.ofFile ask' askOwn' style language f) := by
  refine Rel.bind (Rel.attempt (rel_file hask language _ _ _ f)) fun result => ?_
  cases result with
  | ok d => exact Rel.bind (rel_sequenceOf hown style language _ _) fun sequence => Rel.pure _
  | error fault => exact Rel.pure _

/-! ### All files -/

variable {report : Report m} {report' : Report n}

theorem rel_entriesOf (hask : ∀ p, R.Rel (ask p) (ask' p))
    (hown : ∀ p, R.Rel (askOwn p) (askOwn' p))
    (hreport : ∀ done total name, R.Rel (report done total name) (report' done total name))
    (style : EntryStyle) (total : Nat) (language : Language) (done : Nat)
    (files : List SourceFile) :
    R.Rel (entriesOf ask askOwn report style total language done files)
      (entriesOf ask' askOwn' report' style total language done files) := by
  induction files generalizing done with
  | nil => exact Rel.pure _
  | cons f rest ih =>
    refine Rel.bind (hreport _ _ _) fun _ => ?_
    refine Rel.bind (rel_ofFile hask hown style language f) fun entry => ?_
    exact Rel.bind (ih _) fun entries => Rel.pure _

theorem rel_entriesByLanguage (hask : ∀ p, R.Rel (ask p) (ask' p))
    (hown : ∀ p, R.Rel (askOwn p) (askOwn' p))
    (hreport : ∀ done total name, R.Rel (report done total name) (report' done total name))
    (style : EntryStyle) (total done : Nat) (groups : List (Value × List SourceFile)) :
    R.Rel (entriesByLanguage ask askOwn report style total done groups)
      (entriesByLanguage ask' askOwn' report' style total done groups) := by
  induction groups generalizing done with
  | nil => exact Rel.pure _
  | cons group rest ih =>
    obtain ⟨language, files⟩ := group
    unfold entriesByLanguage
    split
    · exact ih done
    · split
      · exact Rel.bind (ih done) fun entries => Rel.pure _
      · refine Rel.bind (rel_entriesOf hask hown hreport style total _ done files) fun entries => ?_
        exact Rel.bind (ih _) fun others => Rel.pure _

theorem rel_readOf
    (hreport : ∀ done total name, R.Rel (report done total name) (report' done total name))
    (options : ReadOptions) (total : Nat) (language : Language) (done : Nat)
    (files : List SourceFile) :
    R.Rel (readOf report options total language done files)
      (readOf report' options total language done files) := by
  induction files generalizing done with
  | nil => exact Rel.pure _
  | cons f rest ih =>
    refine Rel.bind (hreport _ _ _) fun _ => ?_
    exact Rel.bind (ih _) fun read => Rel.pure _

theorem rel_readByLanguage
    (hreport : ∀ done total name, R.Rel (report done total name) (report' done total name))
    (options : ReadOptions) (total done : Nat) (groups : List (Value × List SourceFile)) :
    R.Rel (readByLanguage report options total done groups)
      (readByLanguage report' options total done groups) := by
  induction groups generalizing done with
  | nil => exact Rel.pure _
  | cons group rest ih =>
    obtain ⟨language, files⟩ := group
    unfold readByLanguage
    split
    · exact ih done
    · split
      · exact Rel.bind (ih done) fun others => Rel.pure _
      · refine Rel.bind (rel_readOf hreport options total _ done files) fun read => ?_
        exact Rel.bind (ih _) fun others => Rel.pure _

/-! ### The parts of a document structure -/

theorem rel_written (hask : ∀ p, R.Rel (ask p) (ask' p)) (p : Prompt) :
    R.Rel (Synthesis.written ask p) (Synthesis.written ask' p) := by
  refine Rel.bind (Rel.attempt (hask p)) fun reply => ?_
  cases reply with
  | ok v => exact Rel.pure _
  | error fault => exact Rel.pure _

theorem rel_contentOf (hask : ∀ p, R.Rel (ask p) (ask' p)) (codebase : String) (part : Value) :
    R.Rel (Synthesis.contentOf ask codebase part) (Synthesis.contentOf ask' codebase part) := by
  refine Rel.bind (Rel.lift _) fun prompt => ?_
  split
  · exact Rel.pure _
  · refine Rel.bind (Rel.lift _) fun title => ?_
    exact Rel.bind (Rel.lift _) fun instructions => rel_written hask _

theorem rel_ofInner (hask : ∀ p, R.Rel (ask p) (ask' p)) (codebase : String) (part : Value) :
    R.Rel (Synthesis.ofInner ask codebase part) (Synthesis.ofInner ask' codebase part) := by
  refine Rel.bind (Rel.lift _) fun id => ?_
  refine Rel.bind (Rel.lift _) fun title => ?_
  exact Rel.bind (rel_contentOf hask codebase part) fun content => Rel.pure _

theorem rel_ofPart (hask : ∀ p, R.Rel (ask p) (ask' p)) (codebase : String) (part : Value) :
    R.Rel (Synthesis.ofPart ask codebase part) (Synthesis.ofPart ask' codebase part) := by
  refine Rel.bind (Rel.lift _) fun id => ?_
  refine Rel.bind (Rel.lift _) fun title => ?_
  refine Rel.bind (Rel.lift _) fun description => ?_
  refine Rel.bind (rel_contentOf hask codebase part) fun content => ?_
  refine Rel.bind (Rel.lift _) fun parts => ?_
  exact Rel.bind (Rel.mapM (rel_ofInner hask codebase) parts) fun inner => Rel.pure _

theorem rel_ofParts (hask : ∀ p, R.Rel (ask p) (ask' p))
    (hreport : ∀ done total name, R.Rel (report done total name) (report' done total name))
    (codebase : String) (total done : Nat) (parts : List Value) :
    R.Rel (Synthesis.ofParts ask report codebase total done parts)
      (Synthesis.ofParts ask' report' codebase total done parts) := by
  induction parts generalizing done with
  | nil => exact Rel.pure _
  | cons part rest ih =>
    refine Rel.bind (rel_ofPart hask codebase part) fun finished => ?_
    refine Rel.bind (Rel.lift _) fun weight => ?_
    refine Rel.bind (Rel.lift _) fun title => ?_
    refine Rel.bind (hreport _ _ _) fun _ => ?_
    exact Rel.bind (ih _) fun others => Rel.pure _

theorem rel_ofStructure (hask : ∀ p, R.Rel (ask p) (ask' p))
    (hreport : ∀ done total name, R.Rel (report done total name) (report' done total name))
    (doc : Value) (files : List SourceFile) (catalog flows : Value) :
    R.Rel (Synthesis.ofStructure ask report doc files catalog flows)
      (Synthesis.ofStructure ask' report' doc files catalog flows) := by
  refine Rel.bind (Rel.lift _) fun text => ?_
  refine Rel.bind (Rel.lift _) fun parts => ?_
  refine Rel.bind (Rel.lift _) fun total => ?_
  refine Rel.bind (rel_ofParts hask hreport text total 0 parts) fun sections => ?_
  refine Rel.bind (Rel.lift _) fun name => ?_
  refine Rel.bind (Rel.lift _) fun title => ?_
  refine Rel.bind (Rel.lift _) fun _ => ?_
  refine Rel.bind (Rel.lift _) fun _ => ?_
  exact Rel.bind (Rel.lift _) fun _ => Rel.pure _

end Runs

/-! ### Whole documents -/

variable {m n : Type → Type} [Monad m] [Monad n]

/-- The same maker with other ways to put questions and to tell progress. -/
def Maker.inMonad (mk : Maker m) (ask askOwn : Ask n) (report : Report n) : Maker n where
  ask
  askOwn
  report
  style := mk.style
  provider := mk.provider
  modelName := mk.modelName
  date := mk.date
  fill := mk.fill
  template := mk.template

namespace Runs

variable {R : Runs m n} {ask askOwn : Ask n} {report : Report n} {mk : Maker m}

theorem rel_document (hask : ∀ p, R.Rel (mk.ask p) (ask p))
    (hown : ∀ p, R.Rel (mk.askOwn p) (askOwn p))
    (hreport : ∀ done total name, R.Rel (mk.report done total name) (report done total name))
    (extras : Extras) (graph : Option Dependency.Graph) (files : List SourceFile) :
    R.Rel (mk.document extras graph files)
      ((mk.inMonad ask askOwn report).document extras graph files) := by
  refine Rel.bind (Rel.lift _) fun groups => ?_
  refine Rel.bind (rel_entriesByLanguage hask hown hreport _ _ _ _) fun entries => ?_
  exact Rel.bind (Rel.lift _) fun names => Rel.pure _

theorem rel_documentBy (hask : ∀ p, R.Rel (mk.ask p) (ask p))
    (hreport : ∀ done total name, R.Rel (mk.report done total name) (report done total name))
    (doc : Value) (graph : Option Dependency.Graph) (files : List SourceFile) :
    R.Rel (mk.documentBy doc graph files)
      ((mk.inMonad ask askOwn report).documentBy doc graph files) := by
  refine Rel.bind (Rel.lift _) fun groups => ?_
  refine Rel.bind (rel_readByLanguage hreport _ _ _ _) fun read => ?_
  refine Rel.bind (Rel.lift _) fun integration => ?_
  refine Rel.bind (Rel.lift _) fun sequence => ?_
  refine Rel.bind (hreport _ _ _) fun _ => ?_
  refine Rel.bind (rel_ofStructure hask hreport _ _ _ _) fun parts => ?_
  refine Rel.bind (Rel.lift _) fun template => ?_
  dsimp only [Maker.inMonad]
  split
  · exact Rel.pure _
  · exact Rel.lift _

end Runs

end CodeScribe.Document
