import CodeScribe.Proofs.Dependency.Drawings
import CodeScribe.Proofs.Dependency.Imports

/-!
# Files that cannot be read

An analysis goes over the files twice.  The first pass leaves out the files that it cannot read;
the second one comes to them again, under conditions of its own.  This file shows that nothing of
them is left anywhere, as long as no other file has the same path.

* `Graph.addFile_of_passesOver` — and the second pass enters nothing for them;
* `Graph.unread_files_leave_no_trace` — so an analysis of all files is one of the others.
-/

namespace CodeScribe.Dependency

/-- The first pass leaves out a file without stopping: its language is unknown or has no reader,
it has no content, or its content cannot be read. -/
structure Readers.PassesOver (r : Readers) (f : SourceFile) : Prop where
  canLookUp : Graph.canLookUp f = true
  cause : f.language.getD (.text "unknown") = .text "unknown" ∨ r.languageOf? f = none ∨
    f.content = none ∨ ∃ language fault, r.languageOf? f = some language ∧
      Facts.readContent language r.options f.content = .error fault

theorem Readers.languageOf?_unknown {r : Readers} {f : SourceFile}
    (h : f.language.getD (.text "unknown") = .text "unknown") : r.languageOf? f = none := by
  rw [languageOf?]
  cases hlanguage : f.language with
  | none => rfl
  | some v =>
    rw [hlanguage, Option.getD_some] at h
    rw [h]
    have hunknown : Language.ofId? "unknown" = none := by decide
    show (Language.ofId? "unknown").filter r.languages.contains = none
    rw [hunknown, Option.filter_none]

/-- A file is left out exactly if it has no indexed form. -/
theorem Readers.passesOver_iff {r : Readers} {f : SourceFile} :
    r.PassesOver f ↔ Graph.canLookUp f = true ∧ r.index? f = none := by
  constructor
  · rintro ⟨hkey, hcause⟩
    refine ⟨hkey, ?_⟩
    have hnone : r.languageOf? f = none → r.index? f = none := by
      intro hlanguage
      rw [index?, hlanguage]
      rfl
    rcases hcause with hunknown | hlanguage | hcontent | ⟨language, fault, hlanguage, hread⟩
    · exact hnone (languageOf?_unknown hunknown)
    · exact hnone hlanguage
    · cases hlanguage : r.languageOf? f with
      | none => exact hnone hlanguage
      | some language =>
        rw [index?, hlanguage, hcontent]
        rfl
    · rw [index?, hlanguage, Option.bind_eq_bind, Option.bind_some, hread]
      rfl
  · rintro ⟨hkey, hindex⟩
    refine ⟨hkey, ?_⟩
    cases hlanguage : r.languageOf? f with
    | none => exact .inr (.inl rfl)
    | some language =>
      cases hread : Facts.readContent language r.options f.content with
      | error fault => exact .inr (.inr (.inr ⟨language, fault, rfl, hread⟩))
      | ok facts =>
        rw [index?, hlanguage, Option.bind_eq_bind, Option.bind_some, hread] at hindex
        cases hindex

instance (r : Readers) : DecidablePred r.PassesOver := fun f =>
  have : Decidable (r.index? f = none) := decidable_of_iff _ Option.isNone_iff_eq_none
  decidable_of_iff _ Readers.passesOver_iff.symm

/-- The files that the first pass does not leave out. -/
def Readers.kept (r : Readers) (files : List SourceFile) : List SourceFile :=
  files.filter fun f => ¬ r.PassesOver f

/-! ### The first pass -/

theorem Readers.entries_kept (r : Readers) (files : List SourceFile) :
    r.entries (r.kept files) = r.entries files := by
  rw [entries, kept, List.filterMap_filter, entries]
  apply List.filterMap_congr
  intro f _
  by_cases hf : r.PassesOver f
  · simp [hf, (passesOver_iff.mp hf).2]
  · simp [hf]

theorem Index.ofFiles_kept (r : Readers) (files : List SourceFile) :
    ofFiles r (r.kept files) = ofFiles r files := by
  rw [ofFiles_eq, ofFiles_eq, r.entries_kept]

namespace Graph

variable {r : Readers} {files : List SourceFile}

/-! ### The second pass -/

theorem get?_of_passesOver (hnd : (files.map pathOf).Nodup) {f : SourceFile} (hf : f ∈ files)
    (hover : r.PassesOver f) : (Index.ofFiles r files).files.get? (pathOf f) = none := by
  rw [← ofFiles_index, Option.eq_none_iff_forall_ne_some]
  intro u hu
  obtain ⟨f', hf', hindex, hpath⟩ := Readers.mem_entries.mp ((mem_entries_iff hnd).mpr hu)
  obtain rfl : f' = f := List.inj_on_of_nodup_map hnd hf' hf hpath
  rw [(Readers.passesOver_iff.mp hover).2] at hindex
  cases hindex

theorem addFile_of_passesOver (hnd : (files.map pathOf).Nodup) {f : SourceFile} (hf : f ∈ files)
    (hover : r.PassesOver f) {g : Graph} (hg : g.index = Index.ofFiles r files) :
    addFile r g f = g := by
  have hentry : g.index.files.get? (pathOf f) = none := by
    rw [hg]
    exact get?_of_passesOver hnd hf hover
  rw [addFile]
  split
  · rename_i hsome
    rw [hentry] at hsome
    cases hsome
  · rfl

/-- The second pass over some of the files, with the files that were left out or without them. -/
theorem foldl_addFile_kept (hnd : (files.map pathOf).Nodup) {part : List SourceFile}
    (hpart : part ⊆ files) {g : Graph} (hg : g.index = Index.ofFiles r files) :
    (r.kept part).foldl (addFile r) g = part.foldl (addFile r) g := by
  induction part generalizing g with
  | nil => rfl
  | cons f part ih =>
    obtain ⟨hf, hpart⟩ := List.cons_subset.mp hpart
    by_cases hover : r.PassesOver f
    · rw [Readers.kept, List.filter_cons_of_neg (by simpa using hover), List.foldl_cons,
        addFile_of_passesOver hnd hf hover hg]
      exact ih hpart hg
    · rw [Readers.kept, List.filter_cons_of_pos (by simpa using hover), List.foldl_cons,
        List.foldl_cons]
      exact ih hpart (by rw [addFile_index, hg])

theorem ofFiles_kept (hnd : (files.map pathOf).Nodup) :
    ofFiles r (r.kept files) = ofFiles r files := by
  rw [ofFiles, ofFiles, Index.ofFiles_kept]
  exact foldl_addFile_kept hnd (List.Subset.refl files) rfl

/-! ### Analyses that are stopped -/

/-- What stops an analysis is not left out. -/
theorem not_passesOver_of_canLookUp {f : SourceFile} (h : canLookUp f = false) :
    ¬ r.PassesOver f := by
  rintro ⟨hkey, -⟩
  rw [h] at hkey
  cases hkey

theorem obstacle?_kept (r : Readers) (files : List SourceFile) :
    obstacle? (r.kept files) = obstacle? files := by
  have hstops (f : SourceFile) :
      (!decide (r.PassesOver f) && !canLookUp f) = !canLookUp f := by
    cases hkey : canLookUp f with
    | true => simp
    | false => simp [not_passesOver_of_canLookUp hkey]
  rw [obstacle?, obstacle?, Readers.kept, List.find?_filter]
  simp only [decide_not, Bool.decide_and, Bool.decide_eq_true, hstops]

theorem takeWhile_kept (r : Readers) (files : List SourceFile) :
    (r.kept files).takeWhile canLookUp = r.kept (files.takeWhile canLookUp) := by
  induction files with
  | nil => rfl
  | cons f files ih =>
    cases hkey : canLookUp f with
    | false =>
      have hover : ¬ r.PassesOver f := not_passesOver_of_canLookUp hkey
      simp [Readers.kept, hover, hkey]
    | true =>
      by_cases hover : r.PassesOver f
      · simpa [Readers.kept, hover, hkey] using ih
      · simpa [Readers.kept, hover, hkey] using ih

theorem leftBy_kept (hnd : (files.map pathOf).Nodup) :
    leftBy r (r.kept files) = leftBy r files := by
  rw [leftBy, leftBy, obstacle?_kept]
  cases obstacle? files with
  | none => exact ofFiles_kept hnd
  | some fault =>
    show stopped r (r.kept files) = stopped r files
    rw [stopped, stopped, takeWhile_kept, Index.ofFiles_kept]

/-- **Files that cannot be read are invisible.**  An analysis of files with different paths is
stopped by the same language, leaves the same graph behind and reports the same with the files
that its first pass leaves out and without them. -/
theorem unread_files_leave_no_trace (r : Readers) (files : List SourceFile)
    (hnd : (files.map pathOf).Nodup) :
    obstacle? (r.kept files) = obstacle? files ∧ leftBy r (r.kept files) = leftBy r files ∧
      (ofFiles r (r.kept files)).toValue = (ofFiles r files).toValue :=
  ⟨obstacle?_kept r files, leftBy_kept hnd, congrArg toValue (ofFiles_kept hnd)⟩

/-- Two sources that can be read, and between them one in an unknown language, one without content
and one whose content is no text. -/
def partlyUnread : List SourceFile :=
  [.ofTexts "p/A.java" "p/A.java" "A.java" "java" "package p; import p.B; class A \x7b\x7d",
    .ofTexts "p/A.xyz" "p/A.xyz" "A.xyz" "unknown" "class B \x7b\x7d",
    { path := some (.text "p/C.java"), language := some (.text "java") },
    { path := some (.text "p/D.cs"), language := some (.text "csharp"), content := some .null },
    .ofTexts "p/B.java" "p/B.java" "B.java" "java" "package p; class B \x7b\x7d"]

theorem partlyUnread_invisible :
    (partlyUnread.map pathOf).Nodup ∧
      (Readers.kept {} partlyUnread).map pathOf = ["p/A.java", "p/B.java"] ∧
      (leftBy {} (Readers.kept {} partlyUnread)).edges = [("p/A.java", "p/B.java")] := by
  have hnd : (partlyUnread.map pathOf).Nodup := by decide
  have hedges : (leftBy {} partlyUnread).edges = [("p/A.java", "p/B.java")] := by decide
  refine ⟨hnd, by decide, ?_⟩
  rw [(unread_files_leave_no_trace {} partlyUnread hnd).2.1]
  exact hedges

end Graph

end CodeScribe.Dependency
