import CodeScribe.Document.ByStructure
import CodeScribe.Proofs.Frame
import CodeScribe.Proofs.Text.Basic

/-!
# Progress that is counted

Whoever makes a document tells how much of it is done, out of how much there is to do.  Nothing
else is ever told than that a part of something is done: two ways to tell progress that agree
there make the same document.

* `Document.entriesByLanguage_congr`, `Document.readByLanguage_congr` — files are counted up to the
  number of all files;
* `Synthesis.ofStructure_congr` — parts are counted up to the number of all parts.
-/

namespace CodeScribe

namespace Document

variable {m : Type → Type} [Monad m]
variable {files : List SourceFile} {groups : List (Value × List SourceFile)}

/-- Two ways to tell progress agree wherever there is something to do and not more than that is
done. -/
def Agree (report report' : Report m) : Prop := ∀ done total name, 1 ≤ total → done ≤ total →
  report done (some total) name = report' done (some total) name

variable {report report' : Report m} {total done : Nat}

/-! ### Files -/

def filesIn (groups : List (Value × List SourceFile)) : Nat := (groups.flatMap (·.2)).length

theorem filesIn_cons (language : Value) (files : List SourceFile)
    (groups : List (Value × List SourceFile)) :
    filesIn ((language, files) :: groups) = files.length + filesIn groups := by
  rw [filesIn, List.flatMap_cons, List.length_append, filesIn]

theorem filesIn_addToGroup (language : Value) (f : SourceFile)
    (groups : List (Value × List SourceFile)) :
    filesIn (addToGroup language f groups) = filesIn groups + 1 := by
  induction groups with
  | nil => rfl
  | cons group rest ih =>
    obtain ⟨l, fs⟩ := group
    rw [addToGroup]
    split
    · rw [filesIn_cons, filesIn_cons, List.length_append, List.length_singleton]
      omega
    · rw [filesIn_cons, ih, filesIn_cons]
      omega

theorem filesIn_byLanguage (h : byLanguage files = .ok groups) : filesIn groups = files.length := by
  rw [byLanguage] at h
  suffices hall : ∀ start, files.foldlM (fun groups f => do
      return addToGroup (← languageOf f) f groups) start = .ok groups →
      filesIn groups = filesIn start + files.length by
    exact (hall [] h).trans (Nat.zero_add _)
  clear h
  induction files with
  | nil =>
    rintro start h
    cases h
    rfl
  | cons f rest ih =>
    intro start h
    rw [List.foldlM_cons] at h
    obtain ⟨next, hnext, hrest⟩ := exists_of_bind h
    obtain ⟨language, -, hadd⟩ := exists_of_bind hnext
    cases hadd
    rw [ih _ hrest, filesIn_addToGroup, List.length_cons]
    omega

theorem entriesOf_congr (h : Agree report report') (ask askOwn : Ask m) (style : EntryStyle)
    (language : Language) (hle : done + files.length ≤ total) :
    entriesOf ask askOwn report style total language done files =
      entriesOf ask askOwn report' style total language done files := by
  induction files generalizing done with
  | nil => rfl
  | cons f rest ih =>
    rw [List.length_cons] at hle
    rw [entriesOf, entriesOf, h _ _ _ (by omega) (by omega), ih (by omega)]

theorem entriesByLanguage_congr (h : Agree report report') (ask askOwn : Ask m) (style : EntryStyle)
    (hle : done + filesIn groups ≤ total) :
    entriesByLanguage ask askOwn report style total done groups =
      entriesByLanguage ask askOwn report' style total done groups := by
  induction groups generalizing done with
  | nil => rfl
  | cons group rest ih =>
    obtain ⟨language, files⟩ := group
    rw [filesIn_cons] at hle
    rw [entriesByLanguage, entriesByLanguage, ih (by omega), ih (by omega)]
    split
    · rfl
    · split
      · rfl
      · rw [entriesOf_congr h ask askOwn style _ (by omega)]

theorem readOf_congr (h : Agree report report') (options : ReadOptions) (language : Language)
    (hle : done + files.length ≤ total) :
    readOf report options total language done files =
      readOf report' options total language done files := by
  induction files generalizing done with
  | nil => rfl
  | cons f rest ih =>
    rw [List.length_cons] at hle
    rw [readOf, readOf, h _ _ _ (by omega) (by omega), ih (by omega)]

theorem readByLanguage_congr (h : Agree report report') (options : ReadOptions)
    (hle : done + filesIn groups ≤ total) :
    readByLanguage report options total done groups =
      readByLanguage report' options total done groups := by
  induction groups generalizing done with
  | nil => rfl
  | cons group rest ih =>
    obtain ⟨language, files⟩ := group
    rw [filesIn_cons] at hle
    rw [readByLanguage, readByLanguage, ih (by omega), ih (by omega)]
    split
    · rfl
    · split
      · rfl
      · rw [readOf_congr h options _ (by omega)]

variable [LawfulMonad m]

/-- The number of files that were read does not depend on how reading goes. -/
theorem exists_read (report : Report m) (options : ReadOptions) (total done : Nat)
    (groups : List (Value × List SourceFile)) : ∃ read, read ≤ filesIn groups ∧
      readByLanguage report options total done groups =
        (fun x => (x.1, done + read)) <$> readByLanguage report options total done groups := by
  induction groups generalizing done with
  | nil => exact ⟨0, Nat.le_refl 0, by rw [readByLanguage, map_pure]; rfl⟩
  | cons group rest ih =>
    obtain ⟨language, files⟩ := group
    rw [filesIn_cons, readByLanguage]
    split
    · obtain ⟨read, hle, heq⟩ := ih done
      exact ⟨read, by omega, heq⟩
    · split
      · obtain ⟨read, hle, heq⟩ := ih done
        refine ⟨read, by omega, ?_⟩
        rw [heq]
        simp
      · obtain ⟨read, hle, heq⟩ := ih (done + files.length)
        refine ⟨files.length + read, by omega, ?_⟩
        rw [heq]
        simp [Nat.add_assoc]

theorem lift_ok_bind {α β : Type} (a : α) (f : α → ExceptT Fault m β) :
    lift (.ok a) >>= f = f a := pure_bind a f

/-- What is lifted goes on only with its result. -/
theorem lift_bind_congr {α β : Type} {x : Outcome α} {f g : α → ExceptT Fault m β}
    (h : ∀ a, x = .ok a → f a = g a) : lift x >>= f = lift x >>= g := by
  cases x with
  | ok a => rw [lift_ok_bind, lift_ok_bind, h a rfl]
  | error fault =>
    have herror (k : α → ExceptT Fault m β) :
        lift (.error fault) >>= k = ExceptT.mk (pure (.error fault)) :=
      pure_bind (Except.error fault : Outcome α) (ExceptT.bindCont k)
    rw [herror, herror]

end Document

/-! ### Parts -/

namespace Synthesis

open Document

variable {m : Type → Type} [Monad m] {report report' : Report m} {total done : Nat}
variable {n : Nat}

theorem weight_pos {p : Value} (h : weight p = .ok n) : 1 ≤ n := by
  obtain ⟨inner, -, h⟩ := exists_of_bind h
  split at h
  · obtain ⟨size, -, h⟩ := exists_of_bind h
    cases h
    exact Nat.le_add_right 1 size
  · cases h
    exact Nat.le_refl 1

theorem count_cons {p : Value} {ps : List Value} (h : count (p :: ps) = .ok n) :
    ∃ first rest, weight p = .ok first ∧ count ps = .ok rest ∧ n = first + rest := by
  obtain ⟨weights, hweights, h⟩ := exists_of_bind h
  rw [List.mapM_cons] at hweights
  obtain ⟨first, hfirst, hweights⟩ := exists_of_bind hweights
  obtain ⟨others, hothers, hweights⟩ := exists_of_bind hweights
  cases hweights
  cases h
  refine ⟨first, others.sum, hfirst, ?_, ?_⟩
  · rw [count, hothers, List.sum_eq_foldl]
    rfl
  · rw [List.foldl_cons, Nat.add_comm 0 first, List.foldl_assoc, List.sum_eq_foldl]

variable [LawfulMonad m]

theorem ofParts_congr (h : Agree report report') (ask : Ask m) (codebase : String) {ps : List Value}
    (hcount : count ps = .ok n) (hle : done + n ≤ total) :
    ofParts ask report codebase total done ps = ofParts ask report' codebase total done ps := by
  induction ps generalizing done n with
  | nil => rfl
  | cons p ps ih =>
    obtain ⟨first, rest, hfirst, hrest, rfl⟩ := count_cons hcount
    have hpos := weight_pos hfirst
    rw [ofParts, ofParts]
    refine bind_congr fun finished => lift_bind_congr fun now hnow => ?_
    obtain rfl : first = now := Except.ok.inj (hfirst.symm.trans hnow)
    refine bind_congr fun title => ?_
    rw [h _ _ _ (by omega) (by omega), ih hrest (by omega)]

theorem ofStructure_congr (h : Agree report report') (ask : Ask m) (doc : Value)
    (files : List SourceFile) (catalog flows : Value) :
    ofStructure ask report doc files catalog flows =
      ofStructure ask report' doc files catalog flows := by
  rw [ofStructure, ofStructure]
  refine bind_congr fun text => bind_congr fun parts => lift_bind_congr fun total htotal => ?_
  rw [ofParts_congr h ask text htotal (Nat.zero_add total).le]

end Synthesis

/-! ### Whole documents -/

namespace Document.Maker

open Synthesis

variable {m : Type → Type} [Monad m] [LawfulMonad m] {mk : Maker m} {report : Report m}

theorem document_congr (h : Agree mk.report report) (extras : Extras)
    (graph : Option Dependency.Graph) (files : List SourceFile) :
    mk.document extras graph files = { mk with report }.document extras graph files := by
  rw [document, document]
  refine lift_bind_congr fun groups hgroups => ?_
  rw [entriesByLanguage_congr h]
  · rfl
  · rw [filesIn_byLanguage hgroups, Nat.zero_add]

theorem documentBy_congr (h : Agree mk.report report) (doc : Value)
    (graph : Option Dependency.Graph) {files : List SourceFile} (hfiles : files ≠ []) :
    mk.documentBy doc graph files = { mk with report }.documentBy doc graph files := by
  have hlength : 1 ≤ files.length := List.length_pos_iff.mpr hfiles
  rw [documentBy, documentBy]
  refine lift_bind_congr fun groups hgroups => ?_
  dsimp only
  have hfilesIn := filesIn_byLanguage hgroups
  rw [readByLanguage_congr h mk.style.options (by rw [hfilesIn, Nat.zero_add])]
  obtain ⟨read, hle, heq⟩ := exists_read report mk.style.options files.length 0 groups
  rw [heq, bind_map_left, bind_map_left]
  refine bind_congr fun _ => bind_congr fun _ => bind_congr fun _ => ?_
  rw [h _ _ _ hlength (by omega)]
  refine bind_congr fun _ => ?_
  rw [ofStructure_congr h]

/-- Without files, nothing is told before it is told that the parts are written. -/
theorem documentBy_nil (doc : Value) (graph : Option Dependency.Graph) : ∃ rest,
    mk.documentBy doc graph [] =
      mk.report 0 (some 0) (.text "Synthesizing architecture documentation...") >>= rest := by
  have hdraw : AppSequence.draw (Catalog.ServiceCatalog.ofFiles graph []).toValue (.list [])
      (.list []) = .ok none := by
    delta AppSequence.draw Catalog.ServiceCatalog.ofFiles Text.sortDistinct
    rewrite [Text.sort_eq_insertionSort]
    rfl
  have hgroups : byLanguage [] = .ok [] := rfl
  have hread (total : Nat) : readByLanguage mk.report mk.style.options total 0 [] = pure ([], 0) :=
    rfl
  have hgraph : Passing.integrationGraph [] = .ok none := rfl
  rw [documentBy, hgroups, lift_ok_bind]
  dsimp only
  rw [hread, pure_bind]
  simp only [List.flatMap_nil, hgraph, hdraw, lift_ok_bind]
  exact ⟨_, rfl⟩

end Document.Maker

end CodeScribe
