import CodeScribe.Proofs.Frame
import CodeScribe.Proofs.Workspace.Growth
import CodeScribe.Workspace.Repository

/-!
# Frames of reading

Reading source files prints lines, notes what was done with repositories, makes and clears folders
and fetches.  A frame that these steps keep to is kept by reading as a whole.

* `Reader.keeps_below`, `Reader.keeps_file`, `Reader.keeps_folder` — reading files;
* `Repository.keeps_locate` — where a repository is located, only a fetch into its own folder can
  leave a frame.
-/

namespace CodeScribe

open CodeScribe.Frame

variable {α β : Type} {F : Frame World}

/-! ### Single steps -/

namespace Work

theorem runIn_bind_ok {x : Work α} {f : α → Work β} {u u' : World} {a : α}
    (h : x.runIn u = (.ok a, u')) : (x >>= f).runIn u = (f a).runIn u' := run_bind_of_ok h

theorem runIn_changeDisk (change : Disk → Outcome Disk) (w : World) :
    (changeDisk change).runIn w =
      match change w.disk with
      | .ok d => (.ok (), { w with disk := d })
      | .error fault => (.error fault, w) := by
  show (ofOutcome (change w.disk) >>= fun d => modify fun w => { w with disk := d }).runIn w = _
  cases change w.disk <;> rfl

theorem runIn_attempt_bind (x : Work α) (f : Outcome α → Work β) (w : World) :
    (attempt x >>= f).runIn w = (f (x.runIn w).1).runIn (x.runIn w).2 := rfl

theorem rel_of_runIn {x : Work α} (hx : F.Keeps x) {o : Outcome α} {w w' : World}
    (h : x.runIn w = (o, w')) : F.rel w w' := by
  have hend : F.rel w (x.runIn w).2 := hx w
  rwa [h] at hend

/-- What follows some work keeps to a frame from the end of that work on. -/
theorem rel_bind_of_keeps {f : α → Work β} (hf : ∀ a, F.Keeps (f a)) (x : Work α) (w : World) :
    F.rel (x.runIn w).2 ((x >>= f).runIn w).2 := by
  cases hrun : x.runIn w with
  | mk o v =>
    cases o with
    | ok a =>
      rw [runIn_bind_ok hrun]
      exact hf a v
    | error fault =>
      rw [show (x >>= f).runIn w = (.error fault, v) from run_bind_of_error hrun]
      exact F.refl v

@[grind ←] theorem keeps_ofOutcome (o : Outcome α) : F.Keeps (ofOutcome o) := F.refl

@[grind ←] theorem keeps_attempt {x : Work α} (hx : F.Keeps x) : F.Keeps (attempt x) := hx

/-- Work that goes on after a fault keeps to a frame if it does in both cases. -/
theorem keeps_attempt_bind {x : Work α} {f : Outcome α → Work β} (hx : F.Keeps x)
    (hok : ∀ a, F.Keeps (f (.ok a))) (herror : ∀ fault, F.Keeps (f (.error fault))) :
    F.Keeps (attempt x >>= f) :=
  (keeps_attempt hx).bind fun
    | .ok a => hok a
    | .error fault => herror fault

@[grind ←] theorem keeps_disk : F.Keeps disk := F.refl

@[grind ←] theorem keeps_env? (name : String) : F.Keeps (env? name) := F.refl

section From

variable {w : World} {Q : α → World → Prop}

theorem keepsFrom_attempt {x : Work α} (hx : F.KeepsFrom w x Q) :
    F.KeepsFrom w (attempt x) fun _ _ => True := ⟨hx.1, fun _ _ _ => trivial⟩

theorem keepsFrom_disk_bind {f : Disk → Work α} (h : F.KeepsFrom w (f w.disk) Q) :
    F.KeepsFrom w (disk >>= f) Q := h

theorem keepsFrom_get_bind {f : World → Work α} (h : F.KeepsFrom w (f w) Q) :
    F.KeepsFrom w (get >>= f) Q := h

end From

end Work

/-- Whether a deed leaves files and folders to the repository that is open. -/
def Deed.isInner : Deed → Bool
  | opening _ | update | switch _ => true
  | fetch _ _ | removal _ => false

/-- A frame that is kept when lines are printed and when it is noted what is done with the
repository that is open. -/
structure World.AllowsNotes (F : Frame World) : Prop where
  print : ∀ line, F.Keeps (Work.print line)
  note : ∀ deed : Deed, deed.isInner = true → F.Keeps (Repository.note deed)

/-- A frame that is also kept when files and folders change. -/
structure World.AllowsReading (F : Frame World) : Prop extends World.AllowsNotes F where
  noteRemoval : ∀ path, F.Keeps (Repository.note (.removal path))
  changeDisk : ∀ change : Disk → Outcome Disk,
    (∀ d e, change d = .ok e → e.home = d.home) → F.Keeps (Work.changeDisk change)

/-- A frame that looks neither at files and folders nor at lines printed nor at repositories. -/
structure World.Overlooks (F : Frame World) : Prop where
  disk : ∀ w d, F.rel w { w with disk := d }
  printed : ∀ w lines, F.rel w { w with printed := lines }
  repositories : ∀ w r, F.rel w { w with repositories := r }

theorem World.Overlooks.keeps_changeDisk (hF : World.Overlooks F) (change : Disk → Outcome Disk) :
    F.Keeps (Work.changeDisk change) :=
  Work.keeps_disk.bind fun _ => (Work.keeps_ofOutcome _).bind fun _ =>
    keeps_modify fun w => hF.disk w _

theorem World.Overlooks.allowsReading (hF : World.Overlooks F) : World.AllowsReading F where
  print _ := keeps_modify fun w => hF.printed w _
  note _ _ := keeps_modify fun w => hF.repositories w _
  noteRemoval _ := keeps_modify fun w => hF.repositories w _
  changeDisk change _ := hF.keeps_changeDisk change

namespace Disk

theorem home_makeFolders {d e : Disk} {path : String} (h : d.makeFolders path = .ok e) :
    e.home = d.home := (grows_makeFolders h).home

theorem home_removeTree (d : Disk) (path : String) : (d.removeTree path).home = d.home := by
  rw [removeTree]
  split
  · simp only [removeAt]
    split <;> rfl
  · rfl

end Disk

/-! ### Reading files -/

namespace Reader

variable (hF : World.AllowsNotes F) (s : Selection)

include hF

@[grind ←] theorem keeps_takeIn (path : String) (relative : Option String) (c : Content) :
    F.Keeps (takeIn s path relative c) := by
  have hprint := hF.print
  unfold takeIn
  grind

@[grind ←] theorem keeps_file (path : String) : F.Keeps (file s path) := by
  unfold file
  grind

@[grind ←] theorem keeps_below (folder : String) : F.Keeps (below s folder) := by
  unfold below
  refine (Work.keeps_ofOutcome _).bind fun endings => Work.keeps_disk.bind fun d => ?_
  refine (keeps_mapM (fun e => ?_) _).bind fun found => keeps_pure _
  grind

@[grind ←] theorem keeps_folder (path : String) : F.Keeps (folder s path) := by
  unfold folder
  grind

end Reader

/-! ### Repositories -/

namespace Repository

/-- The folder that a repository is fetched into. -/
def checkoutOf (source : String) : String := folderFor (fullAddress (Path.normal source))

section Notes

variable (hF : World.AllowsNotes F)

include hF

@[grind ←] theorem keeps_openAt (path : String) : F.Keeps (openAt path) := by
  have hnote := hF.note (.opening path) rfl
  unfold openAt
  grind

@[grind ←] theorem keeps_update : F.Keeps update := by
  have hnote := hF.note .update rfl
  unfold update
  grind

@[grind ←] theorem keeps_switchTo (branch : String) : F.Keeps (switchTo branch) := by
  have hnote := hF.note (.switch branch) rfl
  unfold switchTo
  grind

@[grind ←] theorem keeps_tryBranch (branch : Option String) : F.Keeps (tryBranch branch) := by
  have hprint := hF.print
  unfold tryBranch
  grind

end Notes

variable (hF : World.AllowsReading F)

include hF

@[grind ←] theorem keeps_clear (path : String) : F.Keeps (clear path) := by
  have hremove : F.Keeps (Work.changeDisk fun d => .ok (d.removeTree path)) :=
    hF.changeDisk _ fun d e h => by
      cases h
      exact d.home_removeTree path
  have hopen := keeps_openAt hF.toAllowsNotes path
  have hnote := hF.noteRemoval path
  unfold clear
  grind

@[grind ←] theorem keeps_reuse (path : String) : F.Keeps (reuse path) := by
  have hprint := hF.print
  unfold reuse
  refine Work.keeps_disk.bind fun d => ?_
  split
  · exact keeps_pure _
  · refine Work.keeps_attempt_bind (keeps_openAt hF.toAllowsNotes path) (fun _ => ?_) fun _ => ?_
    · refine (hprint _).bind fun _ => ?_
      exact Work.keeps_attempt_bind (keeps_update hF.toAllowsNotes) (by grind) (by grind)
    · grind

@[grind ←] theorem keeps_fetchAnyway (url path : String)
    (hfetch : ∀ url, F.Keeps (fetch url path)) : F.Keeps (fetchAnyway url path) := by
  have hprint := hF.print
  unfold fetchAnyway
  refine (hprint _).bind fun _ => ?_
  split
  · exact hfetch url
  · refine Work.keeps_attempt_bind (hfetch url) (fun _ => keeps_pure _) fun _ => ?_
    dsimp only
    split
    · refine (hprint _).bind fun _ => ?_
      have hagain : F.Keeps (do clear path; fetch (webAddress url) path) :=
        (keeps_clear hF path).bind fun _ => hfetch _
      exact Work.keeps_attempt_bind hagain (fun _ => keeps_pure _) fun _ => keeps_throw _
    · exact keeps_throw _

theorem keeps_locate (source : String) (branch : Option String)
    (hfetch : ∀ url, F.Keeps (fetch url (checkoutOf source))) : F.Keeps (locate source branch) := by
  have hmake (path : String) : F.Keeps (Work.changeDisk (·.makeFolders path)) :=
    hF.changeDisk _ fun d e h => Disk.home_makeFolders h
  have hopen := keeps_openAt hF.toAllowsNotes
  have hbranch := keeps_tryBranch hF.toAllowsNotes branch
  unfold locate
  unfold checkoutOf at hfetch
  refine keeps_get.bind fun w => ?_
  split
  · grind
  · refine Work.keeps_disk.bind fun d => ?_
    split
    · grind
    · refine (hmake _).bind fun _ => ?_
      grind

theorem keeps_access (source : String) (branch : Option String)
    (hfetch : ∀ url, F.Keeps (fetch url (checkoutOf source))) : F.Keeps (access source branch) := by
  have hlocate := keeps_locate hF source branch hfetch
  unfold access
  grind

omit hF

theorem keeps_fetch (hF : World.Overlooks F) (url path : String) : F.Keeps (fetch url path) := by
  unfold fetch
  refine (keeps_modify fun w => hF.repositories w _).bind fun _ => ?_
  refine keeps_get_set (fun w => F.trans (hF.disk w _) (hF.repositories _ _)) fun w => ?_
  split
  · exact (keeps_modify fun w => hF.repositories w _).bind fun _ => keeps_throw _
  · refine (hF.keeps_changeDisk _).bind fun _ => ?_
    exact (keeps_modify fun w => hF.repositories w _).bind fun _ =>
      keeps_openAt hF.allowsReading.toAllowsNotes path

end Repository

end CodeScribe
