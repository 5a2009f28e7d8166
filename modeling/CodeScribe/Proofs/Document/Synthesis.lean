import CodeScribe.Document.Synthesis
import CodeScribe.Proofs.Document.Passings
import CodeScribe.Proofs.Frame

/-!
# The parts of a document and the calls that write them

A document that is written along a structure is followed through a *transcript*: what the model
was asked and what progress was told.  The model is any sequence of outcomes, each a reply or a
fault, so that every call may fail.

* `Synthesis.ends_contentOf` — what one entry adds to the transcript;
* `Synthesis.synthesis_mirrors_outline` — a document has the entries of its structure, each with
  what came of its own call.
-/

namespace CodeScribe.Synthesis

open Document
open Integration (fieldAt fieldOr_of_isTable fieldOrNull_of_isTable)

variable {p e : Value} {ps : List Value}

/-! ### Outlines -/

/-- Whether an entry has instructions. -/
def prompted (e : Value) : Bool := (fieldAt e "prompt").isPresent

def partsOf (doc : Value) : List Value := ((doc.get? "sections").getD (.list [])).items

def innerOf (part : Value) : List Value := (fieldAt part "subsections").items

/-- The entries of some parts in the order of the document: each part, and then its own parts. -/
def entriesOf (parts : List Value) : List Value := parts.flatMap fun p => p :: innerOf p

/-- An entry: a table that has a title if it has instructions. -/
structure IsEntry (e : Value) : Prop where
  table : Broker.isTable e = true
  title : prompted e = true → (e.get? "title").isSome = true

/-- A part: an entry whose own parts, if it has some, are a list of entries. -/
structure IsPart (p : Value) : Prop extends IsEntry p where
  list : (fieldAt p "subsections").isPresent = true → ∃ es, fieldAt p "subsections" = .list es
  inner : ∀ e ∈ innerOf p, IsEntry e

/-- A document structure: a table whose parts, if it has some, are a list of parts. -/
structure IsOutline (doc : Value) : Prop where
  table : Broker.isTable doc = true
  list : ∀ v, doc.get? "sections" = some v → ∃ ps, v = .list ps
  parts : ∀ p ∈ partsOf doc, IsPart p

/-- The inner parts count as given if there are some. -/
theorem IsPart.subsections (hp : IsPart p) :
    (fieldAt p "subsections").isPresent = true ∧ fieldAt p "subsections" = .list (innerOf p) ∨
      (fieldAt p "subsections").isPresent = false ∧ innerOf p = [] := by
  rw [innerOf]
  cases hpresent : (fieldAt p "subsections").isPresent with
  | true =>
    obtain ⟨es, hes⟩ := hp.list hpresent
    exact .inl ⟨rfl, by rw [hes]; rfl⟩
  | false =>
    refine .inr ⟨rfl, ?_⟩
    cases hv : fieldAt p "subsections" with
    | list es =>
      rw [hv] at hpresent
      obtain rfl : es = [] := by simpa [Value.isPresent] using hpresent
      rfl
    | _ => rfl

theorem innerParts_eq (hp : IsPart p) : innerParts p = .ok (innerOf p) := by
  rw [innerParts, fieldOrNull_of_isTable hp.table, ok_bind]
  obtain ⟨hpresent, hlist⟩ | ⟨habsent, hnone⟩ := hp.subsections
  · rw [if_pos hpresent, hlist, innerOf, hlist]
    rfl
  · rw [if_neg (by simp [habsent]), hnone]
    rfl

theorem weight_eq (hp : IsPart p) : weight p = .ok (1 + (innerOf p).length) := by
  rw [weight, fieldOrNull_of_isTable hp.table, ok_bind]
  obtain ⟨hpresent, hlist⟩ | ⟨habsent, hnone⟩ := hp.subsections
  · rw [if_pos hpresent, hlist, innerOf, hlist]
    rfl
  · rw [if_neg (by simp [habsent]), hnone]
    rfl

theorem length_entriesOf_cons (p : Value) (ps : List Value) :
    (entriesOf (p :: ps)).length = 1 + (innerOf p).length + (entriesOf ps).length := by
  simp [entriesOf]
  omega

theorem count_eq (hps : ∀ p ∈ ps, IsPart p) : count ps = .ok (entriesOf ps).length := by
  have hweights : ps.mapM weight = .ok (ps.map fun p => 1 + (innerOf p).length) :=
    mapM_eq_ok fun p hp => weight_eq (hps p hp)
  have hsum : (entriesOf ps).length = (ps.map fun p => 1 + (innerOf p).length).sum := by
    simp [entriesOf, List.length_flatMap, Nat.add_comm]
  rw [count, hweights, ok_bind, hsum, List.sum_eq_foldl]
  rfl

/-! ### Transcripts -/

/-- What a model was asked and what progress was told. -/
structure Transcript where
  asked : List Prompt := []
  told : List Step := []

/-- A model whose replies are given one after another. -/
def scripted (outcomes : Nat → Outcome String) : Ask (StateM Transcript) := fun p => do
  let s ← get
  set { s with asked := s.asked ++ [p] }
  lift ((outcomes s.asked.length).map Value.text)

/-- Progress that is noted. -/
def noting : Report (StateM Transcript) := fun done total name =>
  modify fun s => { s with told := s.told ++ [⟨done, total, name⟩] }

/-- A run succeeds and leaves a transcript behind. -/
def Ends {α : Type} (x : ExceptT Fault (StateM Transcript) α) (s : Transcript) (a : α)
    (t : Transcript) : Prop := (ExceptT.run x).run s = (.ok a, t)

section Runs

variable {α β : Type} {s t u : Transcript} {a : α} {b : β}

theorem Ends.bind {x : ExceptT Fault (StateM Transcript) α}
    {f : α → ExceptT Fault (StateM Transcript) β} (h : Ends x s a t) (h' : Ends (f a) t b u) :
    Ends (x >>= f) s b u := (Frame.run_bind_of_ok h).trans h'

theorem ends_pure (a : α) (s : Transcript) : Ends (pure a) s a s := rfl

theorem ends_lift {x : Outcome α} (h : x = .ok a) (s : Transcript) : Ends (lift x) s a s := by
  rw [h]
  rfl

theorem ends_lift_bind {x : Outcome α} {f : α → ExceptT Fault (StateM Transcript) β}
    (h : x = .ok a) (h' : Ends (f a) s b t) : Ends (lift x >>= f) s b t := (ends_lift h s).bind h'

end Runs

/-! ### Contents -/

variable (outcomes : Nat → Outcome String) (text : String)

/-- What comes of a call: the reply, or a note on what went wrong. -/
def replyText : Outcome String → String
  | .ok reply => reply
  | .error fault => "*Error generating content: " ++ fault.message ++ "*"

/-- The content of an entry whose call, if there is one, is that of a number. -/
def contentAt (n : Nat) (e : Value) : Value :=
  if prompted e then .text (replyText (outcomes n)) else .text ""

/-- The contents of entries one after another, from a number of calls on. -/
def contents : Nat → List Value → List Value
  | _, [] => []
  | n, e :: es => contentAt outcomes n e :: contents (n + [e].countP prompted) es

def questionOf (e : Value) : Prompt :=
  question (fieldAt e "title") (fieldAt e "prompt") text

def questions (es : List Value) : List Prompt := (es.filter prompted).map (questionOf text)

/-- The transcript when entries have been written. -/
def Transcript.writing (s : Transcript) (es : List Value) : Transcript :=
  { s with asked := s.asked ++ questions text es }

variable {outcomes text}

theorem contents_append (n : Nat) (as bs : List Value) : contents outcomes n (as ++ bs) =
    contents outcomes n as ++ contents outcomes (n + as.countP prompted) bs := by
  induction as generalizing n with
  | nil => rfl
  | cons a as ih =>
    have hcount : ([a] ++ as).countP prompted = [a].countP prompted + as.countP prompted :=
      List.countP_append
    rw [List.singleton_append] at hcount
    rw [List.cons_append, contents, ih, contents, hcount, Nat.add_assoc]
    rfl

theorem Transcript.writing_append (s : Transcript) (as bs : List Value) :
    s.writing text (as ++ bs) = (s.writing text as).writing text bs := by
  simp [writing, questions]

theorem Transcript.length_asked_writing (s : Transcript) (es : List Value) :
    (s.writing text es).asked.length = s.asked.length + es.countP prompted := by
  simp [writing, questions, List.countP_eq_length_filter]

variable {s : Transcript}

/-- A call is noted, and how it ended is handed on. -/
theorem ends_written (p : Prompt) : Ends (written (scripted outcomes) p) s
    (.text (replyText (outcomes s.asked.length))) { s with asked := s.asked ++ [p] } := by
  have hasked : Ends (attempt (scripted outcomes p)) s
      ((outcomes s.asked.length).map Value.text) { s with asked := s.asked ++ [p] } := rfl
  refine hasked.bind ?_
  cases outcomes s.asked.length <;> exact ends_pure _ _

theorem require_of_isSome {v : Value} {key : String} (hv : Broker.isTable v = true)
    (h : (v.get? key).isSome = true) : v.require key = .ok (fieldAt v key) := by
  obtain ⟨w, hw⟩ := Option.isSome_iff_exists.mp h
  cases v with
  | map entries =>
    rw [fieldAt, hw]
    rw [Value.get?] at hw
    rw [Value.require, hw]
    rfl
  | _ => cases hv

theorem isSome_prompt (h : prompted e = true) : (e.get? "prompt").isSome = true := by
  rw [prompted, fieldAt] at h
  cases hp : e.get? "prompt" with
  | none => rw [hp] at h; cases h
  | some v => rfl

theorem ends_contentOf (he : IsEntry e) : Ends (contentOf (scripted outcomes) text e) s
    (contentAt outcomes s.asked.length e) (s.writing text [e]) := by
  refine ends_lift_bind (fieldOrNull_of_isTable he.table "prompt") ?_
  cases hprompted : prompted e with
  | false =>
    rw [if_pos (by rw [← prompted, hprompted]; rfl)]
    have hsame : s.writing text [e] = s := by simp [Transcript.writing, questions, hprompted]
    rw [hsame, contentAt, hprompted]
    exact ends_pure _ _
  | true =>
    rw [if_neg (by rw [← prompted, hprompted]; decide)]
    have hasked : s.writing text [e] = { s with asked := s.asked ++ [questionOf text e] } := by
      simp [Transcript.writing, questions, hprompted]
    rw [hasked, contentAt, hprompted]
    refine ends_lift_bind (require_of_isSome he.table (he.title hprompted)) ?_
    refine ends_lift_bind (require_of_isSome he.table (isSome_prompt hprompted)) ?_
    exact ends_written _

/-! ### Entries that are written -/

def contentIn (r : Value) : Value := fieldAt r "content"

/-- An entry and what was written for it have the same name. -/
structure SameName (e r : Value) : Prop where
  id : r.get? "id" = some ((e.get? "id").getD (.text ""))
  title : r.get? "title" = some ((e.get? "title").getD (.text ""))

theorem ends_ofInner (he : IsEntry e) : ∃ r,
    Ends (ofInner (scripted outcomes) text e) s r (s.writing text [e]) ∧ SameName e r ∧
      contentIn r = contentAt outcomes s.asked.length e := by
  refine ⟨_, ends_lift_bind (fieldOr_of_isTable he.table "id" _) <|
    ends_lift_bind (fieldOr_of_isTable he.table "title" _) <|
      (ends_contentOf he).bind (ends_pure _ _), ⟨rfl, rfl⟩, rfl⟩

theorem ends_inner {es : List Value} (hes : ∀ e ∈ es, IsEntry e) : ∃ rs,
    Ends (es.mapM (ofInner (scripted outcomes) text)) s rs (s.writing text es) ∧
      List.Forall₂ SameName es rs ∧ rs.map contentIn = contents outcomes s.asked.length es := by
  induction es generalizing s with
  | nil =>
    refine ⟨[], ?_, .nil, rfl⟩
    have hsame : s.writing text [] = s := by simp [Transcript.writing, questions]
    rw [hsame]
    exact ends_pure _ _
  | cons e es ih =>
    obtain ⟨he, hes⟩ := List.forall_mem_cons.mp hes
    obtain ⟨r, hr, hname, hcontent⟩ := ends_ofInner he (s := s)
    obtain ⟨rs, hrs, hnames, hcontents⟩ := ih hes (s := s.writing text [e])
    refine ⟨r :: rs, ?_, .cons hname hnames, ?_⟩
    · rw [List.mapM_cons, ← List.singleton_append (x := e), s.writing_append]
      exact hr.bind (hrs.bind (ends_pure _ _))
    · rw [List.map_cons, hcontent, hcontents, s.length_asked_writing]
      rfl

/-- A part and what was written for it have the same name, and so have their parts. -/
def SameNames (p r : Value) : Prop := SameName p r ∧ List.Forall₂ SameName (innerOf p) (innerOf r)

theorem ends_ofPart (hp : IsPart p) : ∃ r,
    Ends (ofPart (scripted outcomes) text p) s r (s.writing text (p :: innerOf p)) ∧
      SameNames p r ∧ (r :: innerOf r).map contentIn =
        contents outcomes s.asked.length (p :: innerOf p) := by
  obtain ⟨rs, hrs, hnames, hcontents⟩ := ends_inner hp.inner (s := s.writing text [p])
  rw [← List.singleton_append (x := p), s.writing_append]
  refine ⟨_, ends_lift_bind (fieldOr_of_isTable hp.table "id" _) <|
    ends_lift_bind (fieldOr_of_isTable hp.table "title" _) <|
      ends_lift_bind (fieldOr_of_isTable hp.table "description" _) <|
        (ends_contentOf hp.toIsEntry).bind <| ends_lift_bind (innerParts_eq hp) <|
          hrs.bind (ends_pure _ _), ⟨⟨rfl, rfl⟩, hnames⟩, ?_⟩
  rw [contents_append, List.map_cons]
  refine congrArg (contentAt outcomes s.asked.length p :: ·) ?_
  rw [s.length_asked_writing] at hcontents
  exact hcontents

/-! ### Progress -/

/-- The steps that are told for parts, from a number of entries on. -/
def steps (total : Nat) : Nat → List Value → List Step
  | _, [] => []
  | done, p :: ps =>
    let now := done + (1 + (innerOf p).length)
    ⟨now, some total, (p.get? "title").getD (.text "Unknown")⟩ :: steps total now ps

/-- The transcript when a part has been told of as well. -/
def Transcript.telling (s : Transcript) (new : List Step) : Transcript :=
  { s with told := s.told ++ new }

theorem length_steps (total done : Nat) (ps : List Value) :
    (steps total done ps).length = ps.length := by
  induction ps generalizing done with
  | nil => rfl
  | cons p ps ih => rw [steps, List.length_cons, ih, List.length_cons]

theorem total_of_mem_steps {total done : Nat} :
    ∀ step ∈ steps total done ps, done < step.done ∧ step.total = some total := by
  induction ps generalizing done with
  | nil => simp [steps]
  | cons p ps ih =>
    rw [steps, List.forall_mem_cons]
    refine ⟨⟨by simp only; omega, rfl⟩, fun step hstep => ?_⟩
    obtain ⟨hlt, htotal⟩ := ih step hstep
    exact ⟨by omega, htotal⟩

theorem pairwise_steps (total done : Nat) (ps : List Value) :
    (steps total done ps).Pairwise (·.done < ·.done) := by
  induction ps generalizing done with
  | nil => exact .nil
  | cons p ps ih => exact .cons (fun step hstep => (total_of_mem_steps step hstep).1) (ih _)

theorem getLast?_steps {total done : Nat} (h : ps ≠ []) :
    (steps total done ps).getLast?.map (·.done) = some (done + (entriesOf ps).length) := by
  induction ps generalizing done with
  | nil => contradiction
  | cons p ps ih =>
    rw [length_entriesOf_cons]
    cases ps with
    | nil => rfl
    | cons q qs =>
      rw [steps, steps, List.getLast?_cons_cons, ← steps, ih (by simp)]
      congr 1
      omega

variable (outcomes text) in
/-- Every part is written in turn, and told of when it is. -/
theorem ends_ofParts (hps : ∀ p ∈ ps, IsPart p) (total done : Nat) : ∃ rs,
    Ends (ofParts (scripted outcomes) noting text total done ps) s rs
        ((s.writing text (entriesOf ps)).telling (steps total done ps)) ∧
      List.Forall₂ SameNames ps rs ∧
      (entriesOf rs).map contentIn = contents outcomes s.asked.length (entriesOf ps) := by
  induction ps generalizing s done with
  | nil =>
    refine ⟨[], ?_, .nil, rfl⟩
    have hsame : (s.writing text (entriesOf [])).telling (steps total done []) = s := by
      simp [Transcript.writing, Transcript.telling, questions, steps, entriesOf]
    rw [hsame]
    exact ends_pure _ _
  | cons p ps ih =>
    obtain ⟨hp, hps⟩ := List.forall_mem_cons.mp hps
    let now := done + (1 + (innerOf p).length)
    let step : Step := ⟨now, some total, (p.get? "title").getD (.text "Unknown")⟩
    obtain ⟨r, hr, hname, hcontent⟩ := ends_ofPart hp (s := s)
    obtain ⟨rs, hrs, hnames, hcontents⟩ := ih hps now
      (s := (s.writing text (p :: innerOf p)).telling [step])
    have hentries (q : Value) (qs : List Value) :
        entriesOf (q :: qs) = (q :: innerOf q) ++ entriesOf qs := rfl
    refine ⟨r :: rs, ?_, .cons hname hnames, ?_⟩
    · have hlast : (s.writing text (entriesOf (p :: ps))).telling (steps total done (p :: ps)) =
          (((s.writing text (p :: innerOf p)).telling [step]).writing text
            (entriesOf ps)).telling (steps total now ps) := by
        rw [hentries, s.writing_append]
        simp [Transcript.writing, Transcript.telling, steps, now, step]
      rw [hlast]
      exact hr.bind <| ends_lift_bind (weight_eq hp) <|
        ends_lift_bind (fieldOr_of_isTable hp.table "title" _) <|
          (show Ends _ _ () _ from rfl).bind (hrs.bind (ends_pure _ _))
    · rw [hentries, hentries, contents_append, List.map_append, hcontent, hcontents]
      exact congrArg (_ ++ contents outcomes · _) (s.length_asked_writing _)

/-! ### The code base -/

structure HasTexts (f : SourceFile) : Prop where
  path : ∀ v, f.path = some v → ∃ t, v = .text t
  relativePath : ∀ v, f.relativePath = some v → ∃ t, v = .text t
  content : ∀ v, f.content = some v → ∃ t, v = .text t

theorem exists_text_getD {v : Option Value} {default : Value}
    (hv : ∀ w, v = some w → ∃ t, w = .text t) (hdefault : ∃ t, default = .text t) :
    ∃ t, v.getD default = .text t := by
  cases v with
  | none => exact hdefault
  | some w => exact hv w rfl

theorem exists_projectOf {f : SourceFile} (hf : HasTexts f) :
    ∃ project, projectOf f = .ok project := by
  obtain ⟨t, ht⟩ : ∃ t, relativePathOf f = .text t :=
    exists_text_getD hf.relativePath (exists_text_getD hf.path ⟨_, rfl⟩)
  rw [projectOf, ht]
  simp only [Value.textFor, ok_bind]
  split <;> exact ⟨_, rfl⟩

theorem exists_fileLines {f : SourceFile} (hf : HasTexts f) : ∃ lines, fileLines f = .ok lines := by
  obtain ⟨t, ht⟩ := exists_text_getD hf.content ⟨"", rfl⟩
  rw [fileLines, ht]
  simp only [Value.size, Value.textFor, ok_bind]
  split <;> exact ⟨_, rfl⟩

theorem exists_byProject {files : List SourceFile} (hfiles : ∀ f ∈ files, HasTexts f) :
    ∃ groups, byProject files = .ok groups := by
  obtain ⟨groups, hgroups, -⟩ : ∃ groups, byProject files = .ok groups ∧ True := by
    refine foldlM_along (fun _ _ => True) ?_ trivial
    intro _ f groups hf _
    obtain ⟨project, hproject⟩ := exists_projectOf (hfiles f hf)
    exact ⟨_, by rw [hproject, ok_bind]; rfl, trivial⟩
  exact ⟨groups, hgroups⟩

theorem exists_codebase {files : List SourceFile} {catalog flows : Value}
    (hfiles : ∀ f ∈ files, HasTexts f) (hcatalog : ∃ lines, catalogPart catalog = .ok lines)
    (hflows : ∃ lines, flowPart flows = .ok lines) :
    ∃ text, codebase files catalog flows = .ok text := by
  obtain ⟨groups, hgroups⟩ := exists_byProject hfiles
  choose! lines hlines using fun f (hf : f ∈ files) => exists_fileLines (hfiles f hf)
  obtain ⟨catalogText, hcatalogText⟩ := hcatalog
  obtain ⟨flowText, hflowText⟩ := hflows
  rw [codebase, hgroups, mapM_eq_ok hlines, hcatalogText, hflowText]
  exact ⟨_, rfl⟩

/-! ### The document -/

variable (outcomes) in
/-- The contents of entries are those of their own calls. -/
theorem getElem?_contents (n : Nat) (before after : List Value) (e : Value) :
    (contents outcomes n (before ++ e :: after))[before.length]? =
      some (contentAt outcomes (n + before.countP prompted) e) := by
  have hlength : (contents outcomes n before).length = before.length := by
    induction before generalizing n with
    | nil => rfl
    | cons b bs ih => rw [contents, List.length_cons, ih, List.length_cons]
  rw [contents_append, List.getElem?_append_right hlength.le, hlength, Nat.sub_self]
  rfl

theorem sections_eq {doc : Value} (hdoc : IsOutline doc) :
    (do (← doc.fieldOr "sections" (.list [])).each : Outcome (List Value)) = .ok (partsOf doc) := by
  rw [fieldOr_of_isTable hdoc.table, ok_bind, partsOf]
  cases hv : doc.get? "sections" with
  | none => rfl
  | some v =>
    obtain ⟨ps, rfl⟩ := hdoc.list v hv
    rfl

/-- Whatever comes of the calls, a document has the parts of its structure: each entry that has
instructions is asked for once, in the order of the document, and holds what came of its own call;
progress grows from part to part and ends at the number of entries. -/
theorem synthesis_mirrors_outline (outcomes : Nat → Outcome String) {doc : Value}
    {files : List SourceFile} {catalog flows : Value} (hdoc : IsOutline doc)
    (hfiles : ∀ f ∈ files, HasTexts f) (hcatalog : ∃ lines, catalogPart catalog = .ok lines)
    (hflows : ∃ lines, flowPart flows = .ok lines) :
    ∃ text result log, codebase files catalog flows = .ok text ∧
      Ends (ofStructure (scripted outcomes) noting doc files catalog flows) {} result log ∧
      List.Forall₂ SameNames (partsOf doc) (partsOf result) ∧
      log.asked = questions text (entriesOf (partsOf doc)) ∧
      (∀ before e after, entriesOf (partsOf doc) = before ++ e :: after →
        (entriesOf (partsOf result))[before.length]?.map contentIn =
          some (contentAt outcomes (before.countP prompted) e)) ∧
      log.told.length = (partsOf doc).length ∧
      log.told.Pairwise (·.done < ·.done) ∧
      (∀ step ∈ log.told, step.total = some (entriesOf (partsOf doc)).length) ∧
      (partsOf doc ≠ [] →
        log.told.getLast?.map (·.done) = some (entriesOf (partsOf doc)).length) := by
  obtain ⟨text, htext⟩ := exists_codebase hfiles hcatalog hflows
  obtain ⟨rs, hrs, hnames, hcontents⟩ := ends_ofParts outcomes text hdoc.parts
    (entriesOf (partsOf doc)).length 0 (s := {})
  have hfield (key : String) (default : Value) := fieldOr_of_isTable hdoc.table key default
  refine ⟨text, _, _, htext, ends_lift_bind htext <| ends_lift_bind (sections_eq hdoc) <|
    ends_lift_bind (count_eq hdoc.parts) <| hrs.bind <|
      ends_lift_bind (hfield "name" _) <| ends_lift_bind (hfield "title" _) <|
        ends_lift_bind (hfield "show_file_reference" _) <|
          ends_lift_bind (hfield "show_integration_graph" _) <|
            ends_lift_bind (hfield "show_sequence_diagram" _) (ends_pure _ _),
    hnames, rfl, ?_, ?_, ?_, ?_, ?_⟩
  · intro before e after hsplit
    have hcontent := getElem?_contents outcomes 0 before after e
    rw [← hsplit, Nat.zero_add] at hcontent
    rw [← hcontent, ← List.getElem?_map]
    exact congrArg (·[before.length]?) hcontents
  · exact length_steps _ _ _
  · exact pairwise_steps _ _ _
  · exact fun step hstep => (total_of_mem_steps step hstep).2
  · intro hparts
    exact (getLast?_steps hparts).trans (by rw [Nat.zero_add])

/-- A part with an inner part that has no instructions and one that has no id. -/
def overview : Value := .record [("id", .text "a"), ("title", .text "Overview"),
  ("prompt", .text "Describe it."), ("subsections", .list [.record [("id", .text "b")],
    .record [("title", .text "Flow"), ("prompt", .text "Follow it.")]])]

/-- A part without instructions and without parts. -/
def remark : Value := .record [("id", .text "c"), ("subsections", .null)]

theorem isPart_overview : IsPart overview where
  table := rfl
  title := fun _ => rfl
  list := fun _ => ⟨_, rfl⟩
  inner := List.forall_mem_cons.mpr ⟨⟨rfl, fun h => by cases h⟩,
    List.forall_mem_cons.mpr ⟨⟨rfl, fun _ => rfl⟩, List.forall_mem_nil _⟩⟩

theorem isPart_remark : IsPart remark where
  table := rfl
  title := fun h => by cases h
  list := fun h => by cases h
  inner := List.forall_mem_nil _

theorem isOutline_record (parts : List Value) (hparts : ∀ p ∈ parts, IsPart p) :
    IsOutline (.record [("sections", .list parts)]) where
  table := rfl
  list := fun _ hv => ⟨parts, (Option.some.inj hv).symm⟩
  parts := hparts

/-- The first call fails and the second does not. -/
def firstFails (n : Nat) : Outcome String :=
  if n = 0 then .error (.failed "overloaded") else .ok "It flows."

/-- The entry whose call failed says so, and the one behind it is written. -/
theorem overview_written_after_fault : ∃ result log,
    Ends (ofStructure (scripted firstFails) noting
      (.record [("sections", .list [overview, remark])])
      [{ path := some (.text "web/a.py"), content := some (.text "a = 1") }] .null .null)
      {} result log ∧
      (entriesOf (partsOf result))[0]?.map contentIn =
        some (.text "*Error generating content: overloaded*") ∧
      (entriesOf (partsOf result))[2]?.map contentIn = some (.text "It flows.") ∧
      log.asked.length = 2 ∧ log.told.getLast?.map (·.done) = some 4 := by
  have hparts : ∀ p ∈ [overview, remark], IsPart p := List.forall_mem_cons.mpr
    ⟨isPart_overview, List.forall_mem_cons.mpr ⟨isPart_remark, List.forall_mem_nil _⟩⟩
  have hfile : HasTexts { path := some (.text "web/a.py"), content := some (.text "a = 1") } :=
    ⟨fun _ h => ⟨_, (Option.some.inj h).symm⟩, nofun,
      fun _ h => ⟨_, (Option.some.inj h).symm⟩⟩
  have hcatalog : catalogPart .null = .ok [] := rfl
  have hflows : flowPart .null = .ok [] := rfl
  obtain ⟨text, result, log, -, hends, -, hasked, hcontent, -, -, -, hlast⟩ :=
    synthesis_mirrors_outline firstFails (isOutline_record _ hparts)
      (List.forall_mem_singleton.mpr hfile) ⟨_, hcatalog⟩ ⟨_, hflows⟩
  refine ⟨result, log, hends, hcontent [] overview _ rfl, hcontent [overview, _] _ _ rfl, ?_,
    hlast (List.cons_ne_nil _ _)⟩
  rw [hasked]
  rfl

end CodeScribe.Synthesis
