import CodeScribe.Document.FileByFile
import CodeScribe.Proofs.Workspace.Frames
import CodeScribe.Scribe.Basic

/-!
# What reading a source gives

The files of a source are read one after another.  Each has a language of the configuration, and
nothing but files, lines printed and repositories is different afterwards.

* `Source.yields_each` — every file that is read then has such a language;
* `Source.keeps_each` — frames that reading keeps to.
-/

namespace CodeScribe

open CodeScribe.Frame Document

/-! ### What work gives -/

namespace Work

variable {α β : Type} {P : β → Prop} {Q : α → Prop}

/-- Something holds of whatever some work gives, unless it fails. -/
def Yields (Q : α → Prop) (x : Work α) : Prop := ∀ w a, (x.runIn w).1 = .ok a → Q a

theorem yields_pure {a : α} (ha : Q a) : Yields Q (pure a) := by
  intro w b hb
  cases hb
  exact ha

theorem yields_throw (fault : Fault) : Yields Q (throw fault) := by
  intro w a ha
  cases ha

theorem Yields.bind {x : Work α} {f : α → Work β} (hx : Yields Q x)
    (hf : ∀ a, Q a → Yields P (f a)) : Yields P (x >>= f) := by
  intro w b hb
  cases hrun : x.runIn w with
  | mk r w' =>
    cases r with
    | ok a =>
      have hfirst : Q a := hx w a (congrArg Prod.fst hrun)
      rw [runIn_bind_ok hrun] at hb
      exact hf a hfirst w' b hb
    | error fault =>
      rw [runIn, run_bind_of_error hrun] at hb
      cases hb

/-- What is done first makes no difference. -/
theorem Yields.after {x : Work α} {f : α → Work β} (hf : ∀ a, Yields P (f a)) :
    Yields P (x >>= f) := by
  have hx : Yields (fun _ => True) x := fun _ _ _ => trivial
  exact hx.bind fun a _ => hf a

theorem yields_mapM {f : α → Work β} (hf : ∀ a, Yields P (f a)) (l : List α) :
    Yields (fun bs => ∀ b ∈ bs, P b) (l.mapM f) := by
  induction l with
  | nil => exact yields_pure (by simp)
  | cons a l ih =>
    rw [List.mapM_cons]
    refine (hf a).bind fun b hb => ih.bind fun bs hbs => yields_pure ?_
    exact List.forall_mem_cons.mpr ⟨hb, hbs⟩

end Work

open Work

/-! ### Languages of files -/

namespace Selection

variable {s : Selection}

/-- The languages of a configuration may be keys. -/
def HasKeys (s : Selection) : Prop :=
  ∀ entries, s.endings "items" = .ok entries → ∀ e ∈ entries, e.1.isKey = true

theorem isKey_first {entries : List (Value × Value)} (h : ∀ e ∈ entries, e.1.isKey = true)
    {ending : String} {language : Value}
    (hlanguage : languageOf.first ending entries = .ok language) : language.isKey = true := by
  induction entries with
  | nil =>
    cases hlanguage
    rfl
  | cons e rest ih =>
    obtain ⟨he, hrest⟩ := List.forall_mem_cons.mp h
    rw [languageOf.first] at hlanguage
    obtain ⟨found, -, hlanguage⟩ := exists_of_bind hlanguage
    cases found with
    | true =>
      cases hlanguage
      exact he
    | false => exact ih hrest hlanguage

theorem HasKeys.languageOf (hs : s.HasKeys) {path : String} {language : Value}
    (h : s.languageOf path = .ok language) : language.isKey = true := by
  rw [Selection.languageOf] at h
  obtain ⟨entries, hentries, h⟩ := exists_of_bind h
  exact isKey_first (hs entries hentries) h

end Selection

def HaveLanguages (files : List SourceFile) : Prop := ∀ f ∈ files, ∃ key, languageOf f = .ok key

namespace Reader

variable {s : Selection} (hs : s.HasKeys)

include hs

theorem exists_languageOf {path : String} {relative : Option String} {c : Content} {f : SourceFile}
    (h : sourceFile s path relative c = .ok f) : ∃ key, languageOf f = .ok key := by
  rw [sourceFile] at h
  obtain ⟨language, hlanguage, h⟩ := exists_of_bind h
  cases h
  exact ⟨language, if_pos (hs.languageOf hlanguage)⟩

theorem yields_takeIn (path : String) (relative : Option String) (c : Content) :
    Yields HaveLanguages (takeIn s path relative c) := by
  have hnone : Yields HaveLanguages (pure []) := yields_pure (by simp [HaveLanguages])
  unfold takeIn
  split
  · exact Yields.after fun _ => hnone
  · cases hfile : sourceFile s path relative c with
    | ok f =>
      refine yields_pure ?_
      simpa [HaveLanguages] using exists_languageOf hs hfile
    | error fault => exact Yields.after fun _ => hnone

theorem yields_file (path : String) : Yields HaveLanguages (file s path) := by
  have hnone : Yields HaveLanguages (pure []) := yields_pure (by simp [HaveLanguages])
  unfold file
  refine Yields.after fun d => ?_
  split
  · exact yields_throw _
  · refine Yields.after fun excluded => ?_
    split
    · exact hnone
    · refine Yields.after fun included => ?_
      split
      · exact hnone
      · exact yields_takeIn hs _ _ _

theorem yields_below (folder : String) : Yields HaveLanguages (below s folder) := by
  have hnone : Yields HaveLanguages (pure []) := yields_pure (by simp [HaveLanguages])
  unfold below
  refine Yields.after fun endings => Yields.after fun d => ?_
  refine (yields_mapM (P := HaveLanguages) (fun e => ?_) _).bind fun found hfound => ?_
  · dsimp only
    split
    · exact hnone
    · refine Yields.after fun included => ?_
      split
      · exact hnone
      · refine Yields.after fun excluded => ?_
        split
        · exact hnone
        · exact yields_takeIn hs _ _ _
  · refine yields_pure fun f hf => ?_
    obtain ⟨files, hfiles, hf⟩ := List.mem_flatten.mp hf
    exact hfound files hfiles f hf

end Reader

/-! ### Whole sources -/

namespace Source

theorem yields_each {s : Selection} (hs : s.HasKeys) (source : Source) :
    Yields HaveLanguages (source.each s) := by
  cases source with
  | file path => exact Reader.yields_file hs path
  | folder path => exact Reader.yields_below hs path
  | repository address branch =>
    exact Yields.after fun path => Yields.after fun _ => Yields.after fun _ =>
      Reader.yields_below hs path

theorem keeps_each {F : Frame World} (hF : World.Overlooks F) (s : Selection) (source : Source) :
    F.Keeps (source.each s) := by
  have hreading := hF.allowsReading
  cases source with
  | file path => exact Reader.keeps_file hreading.toAllowsNotes s path
  | folder path => exact Reader.keeps_below hreading.toAllowsNotes s path
  | repository address branch =>
    refine (Repository.keeps_access hreading address branch fun url =>
      Repository.keeps_fetch hF url _).bind fun path => ?_
    refine (keeps_ofOutcome _).bind fun _ => (hreading.print _).bind fun _ => ?_
    exact Reader.keeps_below hreading.toAllowsNotes s path

/-- Reading a file or a folder leaves the disk as it is. -/
theorem disk_of_each (s : Selection) {source : Source}
    (hsource : ∀ address branch, source ≠ .repository address branch) (w : World) :
    ((source.each s).runIn w).2.disk = w.disk := by
  have hnotes : World.AllowsNotes (Frame.view World.disk) := ⟨fun _ _ => rfl, fun _ _ _ => rfl⟩
  cases source with
  | file path => exact Reader.keeps_file hnotes s path w
  | folder path => exact Reader.keeps_below hnotes s path w
  | repository address branch => exact absurd rfl (hsource address branch)

end Source

end CodeScribe
