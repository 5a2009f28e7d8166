import CodeScribe.Proofs.Workspace.Frames
import CodeScribe.Proofs.Workspace.Places

/-!
# How a repository is fetched and read

Which files a repository gives is decided by the disk, by the folders on it that are repositories
and by the fetches to come.  Everything else that is done on the way (notes, printed lines, pulling,
switching to a branch) has no part in it.
-/

namespace CodeScribe

open CodeScribe.Frame

/-! ### The ground that repositories stand on -/

/-- What decides which files a repository gives: the disk, the folders on it that are repositories,
and the fetches to come. -/
structure Ground where
  disk : Disk
  supported : Bool
  valid : List String
  fetches : List Fetch

namespace World

def ground (w : World) : Ground :=
  ⟨w.disk, w.repositories.supported, w.repositories.valid, w.repositories.fetches⟩

def groundFrame : Frame World := .view ground

theorem groundFrame_allowsNotes : AllowsNotes groundFrame where
  print _ := keeps_modify fun _ => rfl
  note _ _ := keeps_modify fun _ => rfl

end World

open World

namespace Work

variable {α β : Type} {w : World} {a : α} {b : β} {g k : Ground}

/-- Work that ends well, with a result and on some ground. -/
def Leads (x : Work α) (w : World) (a : α) (g : Ground) : Prop :=
  ∃ v, x.runIn w = (.ok a, v) ∧ v.ground = g

theorem leads_pure (a : α) (w : World) : Leads (pure a) w a w.ground := ⟨w, rfl, rfl⟩

theorem Leads.bind {x : Work α} {f : α → Work β} (hx : Leads x w a g)
    (hf : ∀ v, v.ground = g → Leads (f a) v b k) : Leads (x >>= f) w b k := by
  obtain ⟨v, hrun, hv⟩ := hx
  obtain ⟨u, hrun', hu⟩ := hf v hv
  exact ⟨u, (runIn_bind_ok hrun).trans hrun', hu⟩

theorem leads_set (v w : World) : Leads (set v) w () v.ground := ⟨v, rfl, rfl⟩

theorem leads_modify (f : World → World) (w : World) : Leads (modify f) w () (f w).ground :=
  ⟨f w, rfl, rfl⟩

theorem leads_get_bind {f : World → Work β} (h : Leads (f w) w b k) : Leads (get >>= f) w b k := h

theorem leads_disk_bind {f : Disk → Work β} (h : Leads (f w.disk) w b k) :
    Leads (disk >>= f) w b k := h

theorem leads_of_keeps {x : Work α} (hx : groundFrame.Keeps x) (h : (x.runIn w).1 = .ok a) :
    Leads x w a w.ground := ⟨(x.runIn w).2, Prod.ext h rfl, hx w⟩

theorem leads_print (line : String) (w : World) : Leads (print line) w () w.ground := ⟨_, rfl, rfl⟩

theorem Leads.attempt {x : Work α} (hx : Leads x w a g) : Leads (attempt x) w (.ok a) g := by
  obtain ⟨v, hrun, hv⟩ := hx
  refine ⟨v, ?_, hv⟩
  show (Except.ok (x.runIn w).1, (x.runIn w).2) = _
  rw [hrun]

/-- Work that goes on after a fault leads somewhere if it does in both cases. -/
theorem leads_attempt_bind {x : Work α} {f : Outcome α → Work β} (hx : groundFrame.Keeps x)
    (hf : ∀ v, v.ground = w.ground → Leads (f (x.runIn w).1) v b k) :
    Leads (attempt x >>= f) w b k := by
  have hattempt : Leads (attempt x) w (x.runIn w).1 w.ground := leads_of_keeps hx rfl
  exact hattempt.bind hf

theorem leads_changeDisk (change : Disk → Outcome Disk) {d : Disk} (h : change w.disk = .ok d) :
    Leads (changeDisk change) w () { w.ground with disk := d } := by
  refine ⟨{ w with disk := d }, ?_, rfl⟩
  have hrun : (changeDisk change).runIn w =
      (ofOutcome (change w.disk) >>= fun d => modify fun w => { w with disk := d }).runIn w := rfl
  rw [hrun, h]
  rfl

end Work

open Work

/-! ### Opening and using again -/

namespace Repository

variable {w : World} {path : String}

theorem fst_runIn_openAt (path : String) (w : World) : ((openAt path).runIn w).1 =
    if path ∈ w.repositories.valid then .ok () else .error (.notARepository path) := by
  obtain ⟨v, hrun⟩ : ∃ v, (openAt path).runIn w =
      (if !w.repositories.valid.contains path then throw (.notARepository path)
        else pure () : Work Unit).runIn v := ⟨_, rfl⟩
  rw [hrun]
  by_cases h : path ∈ w.repositories.valid
  · rw [if_pos h, List.contains_iff_mem.mpr h]
    rfl
  · have hnot : w.repositories.valid.contains path = false := by simpa using h
    rw [if_neg h, hnot]
    rfl

theorem leads_openAt (h : path ∈ w.repositories.valid) : Leads (openAt path) w () w.ground :=
  leads_of_keeps (keeps_openAt groundFrame_allowsNotes path)
    ((fst_runIn_openAt path w).trans (if_pos h))

theorem leads_tryBranch (branch : Option String) (w : World) :
    Leads (tryBranch branch) w () w.ground := by
  cases branch with
  | none => exact leads_pure () w
  | some b =>
    unfold tryBranch
    dsimp only
    split
    · exact leads_pure () w
    · refine leads_attempt_bind (keeps_switchTo groundFrame_allowsNotes b) fun v hv => ?_
      rw [← hv]
      cases ((switchTo b).runIn w).1 with
      | ok _ => exact leads_pure () v
      | error _ => exact leads_print _ v

/-- A repository that stands in its folder is used again. -/
theorem leads_reuse_of_valid (hthere : w.disk.isThere path = true)
    (hvalid : path ∈ w.repositories.valid) : Leads (reuse path) w true w.ground := by
  unfold reuse
  refine leads_disk_bind ?_
  rw [hthere]
  refine leads_attempt_bind (keeps_openAt groundFrame_allowsNotes path) fun v hv => ?_
  rw [fst_runIn_openAt, if_pos hvalid, ← hv]
  refine (leads_print _ v).bind fun u hu => ?_
  refine leads_attempt_bind (keeps_update groundFrame_allowsNotes) fun t ht => ?_
  rw [← hu, ← ht]
  cases (update.runIn u).1 with
  | ok _ => exact (leads_print _ t).bind fun r hr => hr ▸ leads_pure true r
  | error _ => exact (leads_print _ t).bind fun r hr => hr ▸ leads_pure true r

end Repository

/-- A disk on which a folder is empty, if it is there at all. -/
def Disk.cleared (d : Disk) (path : String) : Disk :=
  if d.isThere path then d.removeTree path else d

namespace Repository

variable {w : World} {path : String}

theorem leads_clear (hthere : w.disk.isThere path = true) (hvalid : path ∉ w.repositories.valid) :
    Leads (clear path) w () { w.ground with disk := w.disk.removeTree path } := by
  unfold clear
  refine leads_disk_bind ?_
  rw [if_pos hthere]
  refine leads_attempt_bind (keeps_openAt groundFrame_allowsNotes path) fun v hv => ?_
  rw [fst_runIn_openAt, if_neg hvalid, ← hv]
  have hdisk : v.disk = w.disk := congrArg Ground.disk hv
  rw [← hdisk]
  have hnote : Leads (note (.removal path)) v () v.ground := leads_modify _ v
  refine hnote.bind fun u hu => ?_
  have hdisk' : u.disk = v.disk := congrArg Ground.disk hu
  rw [← hu, ← hdisk']
  exact leads_changeDisk (fun d => .ok (d.removeTree path)) rfl

/-- A folder that is no repository is cleared. -/
theorem leads_reuse_of_not_valid (hvalid : path ∉ w.repositories.valid) :
    Leads (reuse path) w false { w.ground with disk := w.disk.cleared path } := by
  unfold reuse Disk.cleared
  refine leads_disk_bind ?_
  cases hthere : w.disk.isThere path with
  | false => exact leads_pure false w
  | true =>
    refine leads_attempt_bind (keeps_openAt groundFrame_allowsNotes path) fun v hv => ?_
    rw [fst_runIn_openAt, if_neg hvalid]
    refine (leads_print _ v).bind fun u hu => ?_
    have huw : u.ground = w.ground := hu.trans hv
    have hdisk : u.disk = w.disk := congrArg Ground.disk huw
    have hnot : path ∉ u.repositories.valid := by
      rw [show u.repositories.valid = w.repositories.valid from congrArg Ground.valid huw]
      exact hvalid
    rw [← huw, ← hdisk]
    refine (leads_clear (hdisk ▸ hthere) hnot).bind fun t ht => ?_
    rw [if_pos rfl, ← ht]
    exact leads_pure false t

end Repository

/-! ### Fetching -/

def Fetch.filesIn (F : Fetch) (path : String) : List (String × Content) :=
  Disk.under path F.files

namespace Repository

variable {w : World} {path : String} {F : Fetch} {rest : List Fetch} {d : Disk}

def openFetched (path : String) : Work Unit := do
  Work.changeDisk (·.makeFolders path)
  modify fun w => { w with repositories :=
    { w.repositories with valid := w.repositories.valid ++ [path] } }
  openAt path

theorem leads_openFetched (hmake : w.disk.makeFolders path = .ok d) :
    Leads (openFetched path) w ()
      { w.ground with disk := d, valid := w.repositories.valid ++ [path] } := by
  refine (leads_changeDisk (·.makeFolders path) hmake).bind fun v hv => ?_
  refine (leads_modify _ v).bind fun u hu => ?_
  have hground : u.ground = { w.ground with disk := d, valid := w.repositories.valid ++ [path] } :=
    calc u.ground = { v.ground with valid := v.ground.valid ++ [path] } := hu
      _ = _ := by rw [hv]; rfl
  have hmem : path ∈ u.repositories.valid := by
    rw [show u.repositories.valid = _ from congrArg Ground.valid hground]
    simp
  rw [← hground]
  exact leads_openAt hmem

theorem leads_fetch (hfetches : w.repositories.fetches = F :: rest) (hok : F.failure = none)
    (hmake : (w.disk.withFiles (F.filesIn path)).makeFolders path = .ok d) (url : String) :
    Leads (fetch url path) w ()
      ⟨d, w.repositories.supported, w.repositories.valid ++ [path], rest⟩ := by
  have hnote : Leads (note (.fetch url path)) w () w.ground :=
    leads_modify _ w
  refine hnote.bind fun v hv => leads_get_bind ?_
  have hnext : v.repositories.fetches.head?.getD { failure := some "no clone scripted" } = F := by
    rw [show v.repositories.fetches = F :: rest from (congrArg Ground.fetches hv).trans hfetches]
    rfl
  simp only [hnext, hok]
  refine (leads_set _ v).bind fun u hu => ?_
  have hground : u.ground = { w.ground with
      disk := w.disk.withFiles (F.filesIn path), fetches := rest } :=
    calc u.ground = { v.ground with
          disk := v.ground.disk.withFiles (F.filesIn path)
          fetches := v.ground.fetches.drop 1 } := hu
      _ = _ := by rw [hv, show w.ground.fetches = F :: rest from hfetches]; rfl
  obtain ⟨hdisk, hsupported, hvalid, hrest⟩ := Ground.mk.inj hground
  have hopen := leads_openFetched (hdisk ▸ hmake)
  rwa [hground, hvalid] at hopen

theorem leads_fetchAnyway (hfetches : w.repositories.fetches = F :: rest)
    (hok : F.failure = none)
    (hmake : (w.disk.withFiles (F.filesIn path)).makeFolders path = .ok d) (url : String) :
    Leads (fetchAnyway url path) w ()
      ⟨d, w.repositories.supported, w.repositories.valid ++ [path], rest⟩ := by
  refine (leads_print _ w).bind fun v hv => ?_
  obtain ⟨hdisk, hsupported, hvalid, hfetches'⟩ := Ground.mk.inj hv
  have hfetch : Leads (fetch url path) v () _ :=
    leads_fetch (hfetches'.trans hfetches) hok (hdisk ▸ hmake) url
  rw [hsupported, hvalid] at hfetch
  split
  · exact hfetch
  · exact hfetch.attempt.bind fun t ht => ht ▸ leads_pure () t

/-! ### Locating -/

/-- A local folder that is a repository is located where it is. -/
theorem leads_locate_of_isThere (hsupported : w.repositories.supported = true)
    (hthere : w.disk.isThere path = true) (hvalid : path ∈ w.repositories.valid)
    (hpath : Path.normal path = path) (branch : Option String) :
    Leads (locate path branch) w path w.ground := by
  unfold locate
  refine leads_get_bind ?_
  rw [hsupported]
  refine leads_disk_bind ?_
  simp only [hpath, hthere]
  refine (leads_openAt hvalid).bind fun v hv => ?_
  refine (leads_tryBranch branch v).bind fun u hu => ?_
  rw [← hv, ← hu]
  exact leads_pure path u

variable {source : String} {e : Disk}

theorem leads_makeFolders (hmake : w.disk.makeFolders path = .ok e) :
    Leads (Work.changeDisk (·.makeFolders path)) w () { w.ground with disk := e } :=
  leads_changeDisk (·.makeFolders path) hmake

def checkOut (source : String) (branch : Option String) : Work String := do
  Work.changeDisk (·.makeFolders (Path.ofString (checkoutOf source)).parent.text)
  if !(← reuse (checkoutOf source)) then
    fetchAnyway (fullAddress (Path.normal source)) (checkoutOf source)
  tryBranch branch
  return checkoutOf source

theorem leads_locate (hsupported : w.repositories.supported = true)
    (habsent : w.disk.isThere (Path.normal source) = false) {branch : Option String} {g : Ground}
    (h : Leads (checkOut source branch) w path g) : Leads (locate source branch) w path g := by
  unfold locate
  refine leads_get_bind ?_
  rw [hsupported]
  refine leads_disk_bind ?_
  simp only [habsent]
  exact h

/-- A repository that stands in its folder is located there. -/
theorem leads_checkOut_of_valid
    (hparent : w.disk.makeFolders (Path.ofString (checkoutOf source)).parent.text = .ok w.disk)
    (hthere : w.disk.isThere (checkoutOf source) = true)
    (hvalid : checkoutOf source ∈ w.repositories.valid) (branch : Option String) :
    Leads (checkOut source branch) w (checkoutOf source) w.ground := by
  refine (leads_makeFolders hparent).bind fun v hv => ?_
  obtain ⟨hdisk, -, hvalid', -⟩ := Ground.mk.inj hv
  have hreuse := leads_reuse_of_valid (hdisk ▸ hthere) (hvalid' ▸ hvalid)
  refine hreuse.bind fun u hu => (leads_tryBranch branch u).bind fun t ht => ?_
  rw [show w.ground = t.ground from (ht.trans (hu.trans hv)).symm]
  exact leads_pure _ t

theorem leads_checkOut_of_not_valid
    (hparent : w.disk.makeFolders (Path.ofString (checkoutOf source)).parent.text = .ok e)
    (hvalid : checkoutOf source ∉ w.repositories.valid)
    (hfetches : w.repositories.fetches = F :: rest) (hok : F.failure = none)
    (hmake : ((e.cleared (checkoutOf source)).withFiles (F.filesIn (checkoutOf source))).makeFolders
      (checkoutOf source) = .ok d) (branch : Option String) :
    Leads (checkOut source branch) w (checkoutOf source)
      ⟨d, w.repositories.supported, w.repositories.valid ++ [checkoutOf source], rest⟩ := by
  refine (leads_makeFolders hparent).bind fun v hv => ?_
  obtain ⟨hdisk, hsupported, hvalid', hfetches'⟩ := Ground.mk.inj hv
  refine (leads_reuse_of_not_valid (hvalid' ▸ hvalid)).bind fun u hu => ?_
  have hu' : u.ground = { w.ground with disk := e.cleared (checkoutOf source) } := by
    rw [hu, hv, hdisk]
  obtain ⟨hdisk', hsupported', hvalid'', hfetches''⟩ := Ground.mk.inj hu'
  have hfetch := leads_fetchAnyway (hfetches''.trans hfetches) hok (hdisk' ▸ hmake)
    (fullAddress (Path.normal source))
  refine hfetch.bind fun t ht => (leads_tryBranch branch t).bind fun r hr => ?_
  rw [hsupported', hvalid''] at ht
  have hground : r.ground = ⟨d, w.repositories.supported,
      w.repositories.valid ++ [checkoutOf source], rest⟩ := hr.trans ht
  rw [← hground]
  exact leads_pure _ r

theorem leads_access {branch : Option String} {g : Ground}
    (h : Leads (locate source branch) w path g) : Leads (access source branch) w path g :=
  h.attempt.bind fun v hv => hv ▸ leads_pure path v

end Repository

/-! ### Going through the files of a folder -/

namespace Work

variable {α β : Type}

/-- Work with an outcome that does not depend on the world. -/
def Gives (x : Work α) (o : Outcome α) : Prop := ∀ w, (x.runIn w).1 = o

theorem gives_ofOutcome (o : Outcome α) : Gives (ofOutcome o) o := fun _ => rfl

theorem gives_pure (a : α) : Gives (pure a : Work α) (.ok a) := fun _ => rfl

theorem gives_print (line : String) : Gives (print line) (.ok ()) := fun _ => rfl

theorem Gives.bind {x : Work α} {o : Outcome α} {f : α → Work β} {k : α → Outcome β}
    (hx : Gives x o) (hf : ∀ a, Gives (f a) (k a)) : Gives (x >>= f) (o >>= k) := by
  intro w
  have hfirst := hx w
  rw [runIn] at hfirst ⊢
  rw [run_bind, hfirst]
  cases o with
  | ok a => exact hf a _
  | error fault => rfl

theorem gives_mapM {f : α → Work β} {k : α → Outcome β} (hf : ∀ a, Gives (f a) (k a))
    (l : List α) : Gives (l.mapM f) (l.mapM k) := by
  induction l with
  | nil => exact gives_pure []
  | cons a l ih =>
    rw [List.mapM_cons, List.mapM_cons]
    exact (hf a).bind fun b => ih.bind fun bs => gives_pure _

end Work

namespace Reader

variable (s : Selection)

def taken (endings : List Value) (folder : String) (f : String × Content) :
    Outcome (List SourceFile) := do
  let path := Path.below folder f.1
  if !(endings.any (Value.same (.text (Selection.endingOf path)))) then return []
  if !(← s.includes path) then return []
  if ← s.excludes path then return []
  if !s.limit.allows f.2.size then return []
  return (sourceFile s path (some f.1) f.2).toOption.toList

def chosen (folder : String) (files : List (String × Content)) : Outcome (List SourceFile) := do
  let endings ← s.allEndings
  return (← files.mapM (taken s endings folder)).flatten

theorem gives_takeIn (path : String) (relative : Option String) (c : Content) :
    Gives (takeIn s path relative c) (if !s.limit.allows c.size then .ok []
      else .ok (sourceFile s path relative c).toOption.toList) := by
  unfold takeIn
  split
  · exact (gives_print _).bind fun _ => gives_pure []
  · cases sourceFile s path relative c with
    | ok f => exact gives_pure [f]
    | error fault => exact (gives_print _).bind fun _ => gives_pure []

theorem gives_taken (endings : List Value) (folder : String) (f : String × Content) :
    Gives (do
      let path := Path.below folder f.1
      if !(endings.any (Value.same (.text (Selection.endingOf path)))) then return []
      if !(← Work.ofOutcome (s.includes path)) then return []
      if ← Work.ofOutcome (s.excludes path) then return []
      takeIn s path (some f.1) f.2) (taken s endings folder f) := by
  unfold taken
  dsimp only
  split
  · exact gives_pure []
  · refine (gives_ofOutcome _).bind fun included => ?_
    split
    · exact gives_pure []
    · refine (gives_ofOutcome _).bind fun excluded => ?_
      split
      · exact gives_pure []
      · exact gives_takeIn s _ _ _

theorem runIn_ofOutcome_disk {α β : Type} (o : Outcome α) (f : α → Disk → Work β) (w : World) :
    (do let a ← Work.ofOutcome o; let d ← Work.disk; f a d : Work β).runIn w =
      (do let a ← Work.ofOutcome o; f a w.disk : Work β).runIn w := by
  cases o <;> rfl

theorem runIn_print_bind {α β : Type} (a : α) (line : String) (x : Work β) (w : World) :
    (do let _ ← Work.ofOutcome (.ok a); Work.print line; x : Work β).runIn w =
      x.runIn { w with printed := w.printed ++ [line] } := rfl

theorem fst_runIn_below (folder : String) (w : World) : ((below s folder).runIn w).1 =
    chosen s (Path.normal folder) (w.disk.filesBelow (Path.normal folder)) := by
  unfold below
  rw [runIn_ofOutcome_disk]
  refine Gives.bind (gives_ofOutcome _) (fun endings => ?_) w
  exact (gives_mapM (gives_taken s endings _) _).bind fun found => gives_pure _

end Reader

namespace Repository

variable {w : World} {path source : String} {branch : Option String} {g : Ground} (s : Selection)

/-- Go through the files of a repository that was located. -/
def scan (path : String) : Work (List SourceFile) := do
  let _ ← Work.ofOutcome s.allEndings
  Work.print "Scanning repository for source files..."
  Reader.below s path

theorem fst_runIn_scan (path : String) (w : World) : ((scan s path).runIn w).1 =
    Reader.chosen s (Path.normal path) (w.disk.filesBelow (Path.normal path)) := by
  cases hendings : s.allEndings with
  | error fault =>
    rw [scan, Reader.chosen, hendings]
    rfl
  | ok endings =>
    rw [scan, hendings, Reader.runIn_print_bind, Reader.fst_runIn_below]

theorem keeps_scan (path : String) : groundFrame.Keeps (scan s path) :=
  (keeps_ofOutcome _).bind fun _ => (groundFrame_allowsNotes.print _).bind fun _ =>
    Reader.keeps_below groundFrame_allowsNotes s path

/-- Reading gives the source files below the folder that a repository is located in, if it is
located there once more. -/
theorem read_of_leads (hpath : Path.normal path = path) (h : Leads (access source branch) w path g)
    (hagain : ∀ v, v.ground = g → Leads (access path branch) v path g) :
    ((read s source branch).runIn w).1 = Reader.chosen s path (g.disk.filesBelow path) ∧
      ((read s source branch).runIn w).2.ground = g := by
  obtain ⟨u, hrun, hu⟩ := h
  obtain ⟨t, hrun', ht⟩ := hagain u hu
  have hread : (read s source branch).runIn w = (scan s path).runIn t := by
    rw [read, runIn_bind_ok hrun, each, runIn_bind_ok hrun', scan]
  have hdisk : t.disk = g.disk := congrArg Ground.disk ht
  rw [hread]
  refine ⟨?_, (keeps_scan s path t).trans ht⟩
  rw [fst_runIn_scan, hpath, hdisk]

end Repository

end CodeScribe
