import CodeScribe.Page.GenerateTab
import CodeScribe.Proofs.Document.Counting
import CodeScribe.Proofs.Scribe.Environment

/-!
# Progress on the page

The page shows progress as a part of all there is to do, so there must be something to do.  That is
so for every way to make a document, with one exception: a document after a structure that is made
of no files begins with the step that nothing of nothing is done.

* `Decimal.quotient_atMost`, `Page.percent_bounds` — the bar stands between twenty and ninety,
  rounding included, if not more is done than there is to do;
* `Page.progress_fails_iff_nothing_counted` — progress never fails but in the exception;
* `Page.no_files_divided_by_zero` — the exception.
-/

namespace CodeScribe

open Document CodeScribe.Frame

/-! ### Parts of a hundred -/

namespace Decimal

variable {num den n : Nat}

/-- A number is not above a whole one, and is not spaced more widely than the whole ones are. -/
structure Parts.AtMost (p : Parts) (n : Nat) : Prop where
  q : p.q ≤ 0
  m : p.m ≤ n * pow2 (-p.q)

theorem pow2_of_nonpos {k : Int} (h : k ≤ 0) : pow2 k = 1 := by
  rw [pow2, Int.toNat_of_nonpos h]

theorem pow2_pos (k : Int) : 0 < pow2 k := Nat.pow_pos (by decide)

theorem roundHalfEven_le (hden : 0 < den) (h : num ≤ n * den) : roundHalfEven num den ≤ n := by
  have hlow : num / den ≤ n := Nat.div_le_of_le_mul (by rwa [Nat.mul_comm])
  have hround : num / den < n ∨ num % den = 0 := by
    rcases Nat.lt_or_eq_of_le hlow with hlt | heq
    · exact .inl hlt
    · refine .inr ?_
      have hsplit := Nat.div_add_mod num den
      rw [heq, Nat.mul_comm] at hsplit
      omega
  simp only [roundHalfEven]
  split
  · exact hlow
  · split
    · omega
    · split <;> omega

theorem log2_le_add {k : Nat} (h : num ≤ 2 ^ k * den) : num.log2 ≤ k + den.log2 := by
  rcases Nat.eq_zero_or_pos num with rfl | hnum
  · simp
  · have hlt : num < 2 ^ (k + den.log2 + 1) := by
      calc num ≤ 2 ^ k * den := h
        _ < 2 ^ k * 2 ^ (den.log2 + 1) := Nat.mul_lt_mul_of_pos_left Nat.lt_log2_self 
            (Nat.two_pow_pos k)
        _ = 2 ^ (k + den.log2 + 1) := by rw [← Nat.pow_add, Nat.add_assoc]
    exact Nat.le_of_lt_succ ((Nat.log2_lt hnum.ne').mpr hlt)

theorem quotient_atMost (hden : 0 < den) (h : num ≤ n * den) (hn : n ≤ 2 ^ 52) :
    (quotient num den).AtMost n := by
  have hlog : num.log2 ≤ 52 + den.log2 :=
    log2_le_add (h.trans (Nat.mul_le_mul_right den hn))
  have hq : (quotient num den).q ≤ 0 := by
    simp only [quotient]
    split <;> omega
  refine ⟨hq, ?_⟩
  have hm : (quotient num den).m = roundHalfEven (num * pow2 (-(quotient num den).q))
      (den * pow2 (quotient num den).q) := rfl
  rw [hm, pow2_of_nonpos hq, Nat.mul_one]
  refine roundHalfEven_le hden ?_
  calc num * pow2 (-(quotient num den).q)
      ≤ n * den * pow2 (-(quotient num den).q) := Nat.mul_le_mul_right _ h
    _ = n * pow2 (-(quotient num den).q) * den := Nat.mul_right_comm ..

theorem Parts.AtMost.times {p : Parts} (h : p.AtMost 1) (hn : n ≤ 2 ^ 52) :
    (p.times n).AtMost n := by
  refine quotient_atMost (pow2_pos _) ?_ hn
  rw [pow2_of_nonpos h.q, Nat.mul_one, Nat.mul_comm]
  exact Nat.mul_le_mul_left n (by simpa using h.m)

theorem Parts.AtMost.whole_le {p : Parts} (h : p.AtMost n) : p.whole ≤ n := by
  rw [whole, pow2_of_nonpos h.q, Nat.mul_one]
  exact Nat.div_le_of_le_mul (by rw [Nat.mul_comm]; exact h.m)

end Decimal

namespace Page

theorem percent_bounds {done total : Nat} (htotal : 1 ≤ total) (hdone : done ≤ total) :
    20 ≤ percent done total ∧ percent done total ≤ 90 := by
  have hpart : (Decimal.quotient done total).AtMost 1 :=
    Decimal.quotient_atMost htotal (by rwa [Nat.one_mul]) (by decide)
  have hwhole : ((Decimal.quotient done total).times 70).whole ≤ 70 :=
    (hpart.times (by decide)).whole_le
  rw [percent]
  omega

end Page

/-! ### Steps that are told -/

/-- A step: some of what there is to do is done, and there is something to do. -/
def Step.IsCounted (s : Step) : Prop := ∃ total, s.total = some total ∧ 1 ≤ total ∧ s.done ≤ total

/-- Only steps that are counted have been told since. -/
def World.countedFrame : Frame World where
  rel w v := ∃ new, v.told = w.told ++ new ∧ ∀ s ∈ new, s.IsCounted
  refl w := ⟨[], by simp, by simp⟩
  trans := by
    rintro u v w ⟨new, hnew, hcounted⟩ ⟨more, hmore, hcounted'⟩
    refine ⟨new ++ more, by rw [hmore, hnew, List.append_assoc], fun s hs => ?_⟩
    exact (List.mem_append.mp hs).elim (hcounted s) (hcounted' s)

namespace World.countedFrame

theorem rel_of_told {w v : World} (h : v.told = w.told) : countedFrame.rel w v :=
  ⟨[], by rw [h, List.append_nil], by simp⟩

theorem overlooks : Overlooks countedFrame :=
  ⟨fun _ _ => rel_of_told rfl, fun _ _ => rel_of_told rfl, fun _ _ => rel_of_told rfl⟩

theorem keeps_ask (m : Model) (p : Prompt) : countedFrame.Keeps (m.ask p) := by
  unfold Model.ask
  split
  · exact Keeps.bind (fun _ => rel_of_told rfl) fun _ => keeps_pure _
  · exact Keeps.bind (fun _ => rel_of_told rfl) fun _ => Work.keeps_ofOutcome _

variable {s : Scribe} {c : Choices}

theorem keeps_makerIn (hc : ∀ done total name, countedFrame.Keeps (c.report done total name))
    (w : World) (style : EntryStyle) : (s.makerIn c w style).Keeps countedFrame :=
  ⟨keeps_ask _, keeps_ask _, hc⟩

theorem keeps_analyse (files : List SourceFile) : countedFrame.Keeps (s.analyse files) := by
  intro w
  rw [Scribe.analyse]
  cases Dependency.Graph.obstacle? files <;> exact rel_of_told rfl

end World.countedFrame

/-! ### Documents that are counted -/

namespace Work

theorem runIn_get_bind {α : Type} (f : World → Work α) (w : World) :
    (get >>= f).runIn w = (f w).runIn w := rfl

end Work

namespace Scribe

variable {s : Scribe} {report report' : Progress} {w : World}

theorem maker_bind_congr {α : Type} {f : Maker (StateM World) → Work α}
    (h : ∀ v style, s.styleFor {} = .ok style →
      f (s.makerIn { report } v style) = f (s.makerIn { report := report' } v style)) :
    s.maker { report } >>= f = s.maker { report := report' } >>= f := by
  rw [maker_bind, maker_bind]
  exact bind_congr fun v => lift_bind_congr fun style hstyle => h v style hstyle

theorem document_congr (h : Agree report report') (files : List SourceFile) :
    s.document { report } files = s.document { report := report' } files := by
  have hend (extras : Extras) (graph : Option Dependency.Graph) :
      (s.maker { report } >>= fun mk => mk.document extras graph files) =
        s.maker { report := report' } >>= fun mk => mk.document extras graph files :=
    maker_bind_congr fun v style _ =>
      (s.makerIn { report } v style).document_congr h extras graph files
  rw [document, document]
  simp only [hend]

def structuresIn (w : World) : StructureFolder :=
  match w.structureFolder with
  | some path => .folder path
  | none => .builtIn w.program

theorem runIn_structures_bind {α : Type} (f : StructureFolder → Work α) (w : World) :
    (structures >>= f).runIn w = (f (structuresIn w)).runIn w := by
  have hrun : structures.runIn w = (.ok (structuresIn w), w) := by
    rw [structures, Work.runIn_get_bind, structuresIn]
    cases w.structureFolder <;> rfl
  exact Work.runIn_bind_ok hrun

/-- A structure can be loaded and the settings are in order, but there is no file. -/
def CountsNothing (s : Scribe) (w : World) (name : String) (files : List SourceFile) : Prop :=
  files = [] ∧ (∃ d, (structuresIn w).load w.disk name = .ok d) ∧ ∃ style, s.styleFor {} = .ok style

theorem runIn_documentBy_congr (h : Agree report report') {name : String}
    {files : List SourceFile} (hfiles : ¬ s.CountsNothing w name files) :
    (s.documentBy { report } name files).runIn w =
      (s.documentBy { report := report' } name files).runIn w := by
  rw [documentBy, documentBy, runIn_structures_bind, runIn_structures_bind, Work.runIn_disk_bind,
    Work.runIn_disk_bind]
  cases hload : (structuresIn w).load w.disk name with
  | error fault => rfl
  | ok d =>
    refine congrArg (Work.runIn · w) ?_
    refine bind_congr fun documentation => bind_congr fun wanted => bind_congr fun known => ?_
    refine maker_bind_congr fun v style hstyle => ?_
    have hne : files ≠ [] := fun hnil => hfiles ⟨hnil, ⟨d, hload⟩, style, hstyle⟩
    exact (s.makerIn { report } v style).documentBy_congr h d _ hne

theorem exists_fieldOr {v x : Value} {key : String} {default : Value}
    (h : v.fieldOr key default = .ok x) (key' : String) (default' : Value) :
    ∃ y, v.fieldOr key' default' = .ok y := by
  cases v with
  | map entries => exact ⟨_, rfl⟩
  | _ => cases h

/-- If there is nothing to count, then the first thing to be told is that nothing of nothing is
done. -/
theorem runIn_documentBy_of_countsNothing {name : String} {files : List SourceFile} {fault : Fault}
    (hfiles : s.CountsNothing w name files)
    (hreport : ∀ name, Work.runIn (report 0 (some 0) name) w = (.error fault, w)) :
    (s.documentBy { report } name files).runIn w = (.error fault, w) := by
  obtain ⟨rfl, ⟨d, hload⟩, style, hstyle⟩ := hfiles
  obtain ⟨documentation, hdocumentation, hrest⟩ := exists_of_bind hstyle
  obtain ⟨diagrams, hdiagrams, -⟩ := exists_of_bind hrest
  obtain ⟨wanted, hwanted⟩ := exists_fieldOr hdiagrams "include_dependency_map" (.bool false)
  rw [documentBy, runIn_structures_bind, Work.runIn_disk_bind]
  simp only [hload]
  rw [hdocumentation, Work.ofOutcome_ok_bind, hwanted, Work.ofOutcome_ok_bind, Work.runIn_get_bind,
    maker_bind, Work.runIn_get_bind]
  have hstyle' : s.styleFor { report } = .ok style := hstyle
  rw [hstyle', Work.ofOutcome_ok_bind]
  obtain ⟨rest, hmade⟩ := (s.makerIn { report } w style).documentBy_nil d
    (if wanted.isPresent then some w.graph else none)
  rw [hmade]
  exact run_bind_of_error (hreport _)

end Scribe

/-! ### The page -/

namespace Page

variable (scribe : Scribe) (selection : Selection) (source : Source) (files : List SourceFile)
  (doc : Value)

/-- The document of the chosen source, with any way to tell progress. -/
def documentWith (report : Progress) : Work String :=
  if doc.isPresent then do
    scribe.documentBy { report } (← Work.ofOutcome (doc.textFor "endswith")) files
  else do scribe.document { report } (← source.read selection)

/-- All progress is told, whatever it is. -/
def plainProgress : Progress := fun done total name => Work.tell ⟨done, total, name⟩

/-- Only progress that is counted is told. -/
def guardedProgress : Progress := fun done total name =>
  match total with
  | some t => if 1 ≤ t ∧ done ≤ t then Work.tell ⟨done, some t, name⟩ else pure ()
  | none => pure ()

theorem documentOf_eq : documentOf scribe selection source files doc =
    documentWith scribe selection source files doc countedProgress := by
  rw [documentOf, documentWith]

theorem agree_countedProgress : Agree countedProgress plainProgress := by
  intro done total name htotal _
  obtain ⟨t, rfl⟩ : ∃ t, total = t + 1 := ⟨total - 1, by omega⟩
  rfl

theorem agree_guardedProgress : Agree plainProgress guardedProgress := by
  intro done total name htotal hdone
  rw [guardedProgress]
  exact (if_pos ⟨htotal, hdone⟩).symm

theorem keeps_guardedProgress (done : Nat) (total : Option Nat) (name : Value) :
    World.countedFrame.Keeps (guardedProgress done total name) := by
  unfold guardedProgress
  cases total with
  | none => exact keeps_pure _
  | some t =>
    dsimp only
    split
    · rename_i h
      refine keeps_modify fun w => ⟨_, rfl, fun s hs => ?_⟩
      obtain rfl := List.mem_singleton.mp hs
      exact ⟨t, rfl, h⟩
    · exact keeps_pure _

/-- The chosen structure can be loaded and the settings are in order, but there is no file. -/
def CountsNothing (w : World) : Prop :=
  doc.isPresent = true ∧ ∃ name, doc = .text name ∧ scribe.CountsNothing w name files

variable {scribe selection source files doc} {w : World}

theorem eq_text_of_textFor {v : Value} {operation text : String}
    (h : v.textFor operation = .ok text) : v = .text text := by
  cases v with
  | text s =>
    cases h
    rfl
  | _ => cases h

theorem runIn_documentWith_congr {report report' : Progress} (h : Agree report report')
    (hcounts : ¬ CountsNothing scribe files doc w) :
    (documentWith scribe selection source files doc report).runIn w =
      (documentWith scribe selection source files doc report').runIn w := by
  rw [documentWith, documentWith]
  by_cases hpresent : doc.isPresent = true
  · rw [if_pos hpresent, if_pos hpresent]
    cases hname : doc.textFor "endswith" with
    | error fault => exact (run_bind_of_error rfl).trans (run_bind_of_error rfl).symm
    | ok name =>
      rw [Work.ofOutcome_ok_bind, Work.ofOutcome_ok_bind]
      refine Scribe.runIn_documentBy_congr h fun hnone => hcounts ⟨hpresent, name, ?_, hnone⟩
      exact eq_text_of_textFor hname
  · rw [if_neg hpresent, if_neg hpresent]
    exact congrArg (Work.runIn · w) (bind_congr fun read => Scribe.document_congr h read)

theorem keeps_documentWith {report : Progress}
    (hreport : ∀ done total name, World.countedFrame.Keeps (report done total name)) :
    World.countedFrame.Keeps (documentWith scribe selection source files doc report) := by
  have hmaker (w : World) (style : EntryStyle) :
      (scribe.makerIn { report } w style).Keeps World.countedFrame :=
    World.countedFrame.keeps_makerIn hreport w style
  unfold documentWith
  split
  · exact (Work.keeps_ofOutcome _).bind fun name =>
      Scribe.keeps_documentBy_of_maker hmaker files name
  · exact (World.countedFrame.overlooks.keeps_readSource selection source).bind fun read =>
      Scribe.keeps_document_of_maker hmaker read (World.countedFrame.keeps_analyse read)

theorem runIn_documentOf_of_countsNothing (hcounts : CountsNothing scribe files doc w) :
    (documentOf scribe selection source files doc).runIn w = (.error .divisionByZero, w) := by
  obtain ⟨hpresent, name, rfl, hname⟩ := hcounts
  have htext : (Value.text name).textFor "endswith" = .ok name := rfl
  rw [documentOf_eq, documentWith, if_pos hpresent, htext, Work.ofOutcome_ok_bind]
  exact Scribe.runIn_documentBy_of_countsNothing hname fun _ => rfl

/-- **Progress on the page.**  The document of the chosen source fails in its progress if a
structure was chosen and there is no file.  Otherwise telling progress does not fail: it is only
ever told that some of what there is to do is done, and the bar stands between twenty and ninety. -/
theorem progress_fails_iff_nothing_counted (scribe : Scribe) (selection : Selection)
    (source : Source) (files : List SourceFile) (doc : Value) (w : World) :
    (CountsNothing scribe files doc w →
      (documentOf scribe selection source files doc).runIn w = (.error .divisionByZero, w)) ∧
    (¬ CountsNothing scribe files doc w →
      (documentOf scribe selection source files doc).runIn w =
        (documentWith scribe selection source files doc plainProgress).runIn w ∧
      ∃ new, ((documentWith scribe selection source files doc plainProgress).runIn w).2.told =
          w.told ++ new ∧
        ∀ step ∈ new, ∃ total, step.total = some total ∧ 1 ≤ total ∧ step.done ≤ total ∧
          20 ≤ percent step.done total ∧ percent step.done total ≤ 90) := by
  refine ⟨runIn_documentOf_of_countsNothing, fun hcounts => ⟨?_, ?_⟩⟩
  · rw [documentOf_eq]
    exact runIn_documentWith_congr agree_countedProgress hcounts
  · rw [runIn_documentWith_congr agree_guardedProgress hcounts]
    obtain ⟨new, hnew, hcounted⟩ := keeps_documentWith keeps_guardedProgress w
    refine ⟨new, hnew, fun step hstep => ?_⟩
    obtain ⟨total, htotal, hpos, hdone⟩ := hcounted step hstep
    exact ⟨total, htotal, hpos, hdone, percent_bounds hpos hdone⟩

def bareWorld : World where
  disk := ⟨"/w", [(["s", "a.yaml"], .file (.text "sections: []"))]⟩
  structureFolder := some "s"
  standsInForAll := true
  standIn _ _ := .ok "T"

/-- A scribe that was created in this world cannot make the document of no files. -/
theorem no_files_divided_by_zero : ∃ scribe v,
    (Scribe.create none .null).runIn bareWorld = (.ok scribe, v) ∧
    ∀ selection source, (documentOf scribe selection source [] (.text "a")).runIn v =
      (.error .divisionByZero, v) := by
  have hstyle : (((Scribe.create none .null).runIn bareWorld).1.toOption.any
      fun s => (s.styleFor {}).isOk) = true := by decide +kernel
  have hload : ((Scribe.structuresIn ((Scribe.create none .null).runIn bareWorld).2).load
      ((Scribe.create none .null).runIn bareWorld).2.disk "a").isOk = true := by decide +kernel
  have hok {α : Type} {x : Outcome α} (h : x.isOk = true) : ∃ a, x = .ok a := by
    cases x with
    | ok a => exact ⟨a, rfl⟩
    | error fault => cases h
  cases hcreate : (Scribe.create none .null).runIn bareWorld with
  | mk r v =>
    rw [hcreate] at hstyle hload
    cases r with
    | error fault => cases hstyle
    | ok scribe =>
      refine ⟨scribe, v, rfl, fun selection source => runIn_documentOf_of_countsNothing ?_⟩
      exact ⟨rfl, "a", rfl, rfl, hok hload, hok hstyle⟩

end Page

end CodeScribe
