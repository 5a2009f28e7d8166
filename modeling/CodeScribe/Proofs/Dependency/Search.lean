import CodeScribe.Proofs.Dependency.WellFormed
import Mathlib.Data.List.Chain
import Mathlib.Data.List.Perm.Subperm

/-!
# The search for cycles

The search keeps three things at once: the visited files, the files whose visit still runs, and
the path that led to the current file.  This file shows how they hang together at every look at a
target, for every well formed graph and every order of files and targets.
-/

namespace CodeScribe.Dependency.Graph

variable {walks : List (List String)} {before done : List String} {node next : String} {s : Search}

/-! ### Walks -/

def Depends (g : Graph) (u v : String) : Prop := v ∈ g.targets u

/-- A walk along dependencies that meets indexed files only, and none of them twice. -/
structure IsTrail (g : Graph) (path : List String) : Prop where
  nodup : path.Nodup
  indexed : ∀ v ∈ path, v ∈ g.paths
  chain : path.IsChain g.Depends

/-- A walk along dependencies that ends where it starts, over at least two indexed files none of
which it meets twice on its way. -/
structure IsCycle (g : Graph) (walk : List String) : Prop where
  three_le : 3 ≤ walk.length
  closed : walk.head? = walk.getLast?
  nodup : walk.dropLast.Nodup
  indexed : ∀ v ∈ walk, v ∈ g.paths
  chain : walk.IsChain g.Depends

/-- The last step of a walk: from the last file but one to the last. -/
def closingEdge (walk : List String) : Option (String × String) := do
  return (← walk.dropLast.getLast?, ← walk.getLast?)

def Closes (walks : List (List String)) (u v : String) : Prop :=
  some (u, v) ∈ walks.map closingEdge

theorem closingEdge_append (walk : List String) (u v : String) :
    closingEdge (walk ++ [u] ++ [v]) = some (u, v) := by
  simp [closingEdge]

theorem closes_append {walk : List String} {u v a b : String} :
    Closes (walks ++ [walk ++ [u] ++ [v]]) a b ↔ Closes walks a b ∨ a = u ∧ b = v := by
  simp only [Closes, List.map_append, List.map_cons, List.map_nil, closingEdge_append,
    List.mem_append, List.mem_singleton, Option.some.injEq, Prod.mk.injEq]

theorem Closes.mono {walks' : List (List String)} {u v : String} (h : Closes walks u v)
    (hsub : walks ⊆ walks') : Closes walks' u v :=
  List.map_subset closingEdge hsub h

variable {g : Graph}

theorem isChain_snoc (h : (before ++ [node]).IsChain g.Depends) (hnext : g.Depends node next) :
    (before ++ [node] ++ [next]).IsChain g.Depends := by
  rw [List.append_assoc]
  exact List.isChain_append_cons_cons.mpr ⟨h, hnext, List.isChain_singleton _⟩

/-- A trail goes on to a new target of its last file. -/
theorem IsTrail.snoc (h : g.IsTrail (before ++ [node])) (hnext : g.Depends node next)
    (hmem : next ∈ g.paths) (hnew : next ∉ before ++ [node]) :
    g.IsTrail (before ++ [node] ++ [next]) where
  nodup := by
    rw [(List.perm_append_singleton next _).nodup_iff, List.nodup_cons]
    exact ⟨hnew, h.nodup⟩
  indexed := by
    intro v hv
    rcases List.mem_append.mp hv with hv | hv
    · exact h.indexed v hv
    · exact List.mem_singleton.mp hv ▸ hmem
  chain := isChain_snoc h.chain hnext

/-- A trail is no longer than the list of indexed files. -/
theorem IsTrail.length_le {path : List String} (h : g.IsTrail path) :
    path.length ≤ g.paths.length :=
  (h.nodup.subperm h.indexed).length_le

/-- A step from the end of a trail back to another file on it makes a cycle. -/
theorem IsTrail.isCycle {a b : List String} (h : g.IsTrail (a ++ next :: b ++ [node]))
    (hnext : g.Depends node next) : g.IsCycle (next :: b ++ [node] ++ [next]) := by
  have hcut : (next :: b ++ [node]) <:+ a ++ next :: b ++ [node] :=
    ⟨a, by simp⟩
  exact
    { three_le := by simp
      closed := by
        rw [List.getLast?_concat]
        rfl
      nodup := by
        rw [List.dropLast_concat]
        exact h.nodup.sublist hcut.sublist
      indexed := by
        intro v hv
        apply h.indexed v
        rcases List.mem_append.mp hv with hv | hv
        · exact hcut.subset hv
        · rw [List.mem_singleton.mp hv]
          simp
      chain := isChain_snoc (h.chain.suffix hcut) hnext }

/-! ### Finished files -/

/-- Finished files, the latest first: each target of one was finished before it, or the step to
that target closes a walk. -/
def Settled (g : Graph) (walks : List (List String)) : List String → Prop
  | [] => True
  | u :: rest => (∀ v, g.Depends u v → v ∈ rest ∨ Closes walks u v) ∧ Settled g walks rest

theorem Settled.mono {walks' : List (List String)} (hsub : walks ⊆ walks')
    (h : g.Settled walks done) : g.Settled walks' done := by
  induction done with
  | nil => trivial
  | cons u rest ih =>
    obtain ⟨hu, hrest⟩ := h
    refine ⟨?_, ih hrest⟩
    intro v hv
    exact (hu v hv).imp_right fun hc => hc.mono hsub

/-! ### The invariant -/

namespace Search

variable {s : Search} {done : List String}

/-- What holds of a search on a path, with the finished files `done`. -/
structure Inv (g : Graph) (path done : List String) (s : Search) : Prop where
  running_eq : s.running = path.reverse
  visited_iff : ∀ v, v ∈ s.visited ↔ v ∈ path ∨ v ∈ done
  isCycle : ∀ walk ∈ s.cycles, g.IsCycle walk
  source_visited : ∀ u v, Closes s.cycles u v → u ∈ s.visited
  closing_nodup : (s.cycles.map closingEdge).Nodup
  settled : g.Settled s.cycles done

/-- What a stretch of the search may add: visited files, and walks that end with a step from a
file that was new. -/
structure Grows (s t : Search) : Prop where
  visited : s.visited ⊆ t.visited
  cycles : s.cycles ⊆ t.cycles
  closes : ∀ u v, Closes t.cycles u v → Closes s.cycles u v ∨ u ∉ s.visited

theorem Grows.refl (s : Search) : s.Grows s :=
  ⟨List.Subset.refl _, List.Subset.refl _, fun _ _ h => Or.inl h⟩

theorem Grows.trans {t u : Search} (hst : s.Grows t) (htu : t.Grows u) : s.Grows u where
  visited := fun _ hv => htu.visited (hst.visited hv)
  cycles := fun _ hw => htu.cycles (hst.cycles hw)
  closes := by
    intro a b hab
    rcases htu.closes a b hab with h | h
    · exact hst.closes a b h
    · exact Or.inr fun ha => h (hst.visited ha)

/-! ### Single operations -/

/-- A file on the path is found there, and closes the walk from its first place on. -/
theorem close_append (s : Search) {a b : List String} {next : String} (hfirst : next ∉ a) :
    s.close (a ++ next :: b) next
      = .ok { s with cycles := s.cycles ++ [next :: b ++ [next]] } := by
  have hidx : (a ++ next :: b).idxOf? next = some a.length := by
    rw [List.idxOf?_eq_some_iff]
    refine ⟨by simp, by simp, ?_⟩
    intro j hj heq
    rw [List.getElem_append_left hj] at heq
    exact hfirst (heq ▸ List.getElem_mem hj)
  rw [close, hidx]
  simp

theorem Inv.enter {path : List String} (h : s.Inv g path done) (node : String) :
    (s.enter node).Inv g (path ++ [node]) done where
  running_eq := by
    rw [Search.enter, h.running_eq]
    simp
  visited_iff := by
    intro v
    rw [Search.enter, List.mem_cons, h.visited_iff, List.mem_append, List.mem_singleton]
    tauto
  isCycle := h.isCycle
  source_visited := fun u v huv => List.mem_cons_of_mem _ (h.source_visited u v huv)
  closing_nodup := h.closing_nodup
  settled := h.settled

/-- A visit that has looked at all targets can be ended; its file is finished last. -/
theorem Inv.leave {path : List String} {node : String} (h : s.Inv g (path ++ [node]) done)
    (hall : ∀ v, g.Depends node v → v ∈ done ∨ Closes s.cycles node v) :
    ∃ t, s.leave node = .ok t ∧ t.Inv g path (node :: done) ∧ t.visited = s.visited ∧
      t.cycles = s.cycles := by
  have hrun : s.running = node :: path.reverse := by
    rw [h.running_eq]
    simp
  refine ⟨{ s with running := path.reverse }, ?_, ?_, rfl, rfl⟩
  · rw [Search.leave, hrun]
    simp
  · exact
      { running_eq := rfl
        visited_iff := by
          intro v
          rw [h.visited_iff, List.mem_append, List.mem_singleton, List.mem_cons]
          tauto
        isCycle := h.isCycle
        source_visited := h.source_visited
        closing_nodup := h.closing_nodup
        settled := ⟨hall, h.settled⟩ }

/-- A new walk from the end of the path back to a file on it, if none ends with that step yet. -/
theorem Inv.record {a b : List String} {node next : String}
    (h : s.Inv g (a ++ next :: b ++ [node]) done) (htrail : g.IsTrail (a ++ next :: b ++ [node]))
    (hnext : g.Depends node next) (hfresh : ¬ Closes s.cycles node next) :
    Inv g (a ++ next :: b ++ [node]) done
      { s with cycles := s.cycles ++ [next :: b ++ [node] ++ [next]] } where
  running_eq := h.running_eq
  visited_iff := h.visited_iff
  isCycle := by
    intro walk hwalk
    rcases List.mem_append.mp hwalk with hwalk | hwalk
    · exact h.isCycle walk hwalk
    · rw [List.mem_singleton.mp hwalk]
      exact htrail.isCycle hnext
  source_visited := by
    intro u v huv
    rcases closes_append.mp huv with huv | ⟨rfl, -⟩
    · exact h.source_visited u v huv
    · rw [h.visited_iff]
      simp
  closing_nodup := by
    rw [List.map_append, List.map_singleton, closingEdge_append,
      (List.perm_append_singleton _ _).nodup_iff, List.nodup_cons]
    exact ⟨hfresh, h.closing_nodup⟩
  settled := h.settled.mono (List.subset_append_left _ _)

end Search

/-! ### Looking at the targets of a file -/

/-- What holds while the targets of the last file `node` of the path are looked at: `seen` are the
targets behind, and `base` is the search before the visit of `node` began. -/
structure Looked (g : Graph) (base : Search) (before : List String) (node : String)
    (seen done : List String) (s : Search) : Prop where
  inv : s.Inv g (before ++ [node]) done
  grows : base.Grows s
  settled : ∀ v ∈ seen, v ∈ done ∨ Closes s.cycles node v
  closes_seen : ∀ v, Closes s.cycles node v → v ∈ seen

/-- The visit of a new file behind a path ends well: the file is among the finished ones, and the
search stands where it stood, with more behind it. -/
def EndsWell (g : Graph) (path : List String) (node : String) (done : List String) (s : Search)
    (result : Outcome Search) : Prop :=
  ∃ t done', result = .ok t ∧ t.Inv g path done' ∧ s.Grows t ∧ done ⊆ done' ∧ node ∈ done'

/-- A way of visiting that ends well for every new file that continues the path as a trail. -/
def VisitsWell (g : Graph) (path : List String) (visit : String → Search → Outcome Search) : Prop :=
  ∀ (node : String) (s : Search) (done : List String), s.Inv g path done → node ∉ s.visited →
    g.IsTrail (path ++ [node]) → EndsWell g path node done s (visit node s)

section Look

variable {base s : Search} {before seen done : List String} {node next : String}

theorem Looked.node_visited (h : Looked g base before node seen done s) : node ∈ s.visited := by
  rw [h.inv.visited_iff]
  simp

/-- A new target is visited, and finished afterwards. -/
theorem Looked.descend {t : Search} {done' : List String}
    (h : Looked g base before node seen done s) (hinv : t.Inv g (before ++ [node]) done')
    (hgrows : s.Grows t) (hsub : done ⊆ done') (hnext : next ∈ done') :
    Looked g base before node (seen ++ [next]) done' t where
  inv := hinv
  grows := h.grows.trans hgrows
  settled := by
    intro v hv
    rcases List.mem_append.mp hv with hv | hv
    · rcases h.settled v hv with hd | hc
      · exact Or.inl (hsub hd)
      · exact Or.inr (hc.mono hgrows.cycles)
    · exact Or.inl (List.mem_singleton.mp hv ▸ hnext)
  closes_seen := by
    intro v hv
    -- the visit below began when `node` was visited already, so it closes no walk from `node`
    rcases hgrows.closes node v hv with hold | hnew
    · exact List.mem_append_left _ (h.closes_seen v hold)
    · exact absurd h.node_visited hnew

/-- A running target closes a walk; no walk ended with that step before. -/
theorem Looked.record {a b : List String}
    (h : Looked g base (a ++ next :: b) node seen done s) (hbase : node ∉ base.visited)
    (htrail : g.IsTrail (a ++ next :: b ++ [node])) (hnext : g.Depends node next)
    (hfresh : next ∉ seen) :
    Looked g base (a ++ next :: b) node (seen ++ [next]) done
      { s with cycles := s.cycles ++ [next :: b ++ [node] ++ [next]] } where
  inv := h.inv.record htrail hnext fun hc => hfresh (h.closes_seen next hc)
  grows :=
    { visited := h.grows.visited
      cycles := fun _ hw => List.mem_append_left _ (h.grows.cycles hw)
      closes := by
        intro u v huv
        rcases closes_append.mp huv with huv | ⟨rfl, -⟩
        · exact h.grows.closes u v huv
        · exact Or.inr hbase }
  settled := by
    intro v hv
    rcases List.mem_append.mp hv with hv | hv
    · exact (h.settled v hv).imp_right fun hc => hc.mono (List.subset_append_left _ _)
    · exact Or.inr (closes_append.mpr (Or.inr ⟨rfl, List.mem_singleton.mp hv⟩))
  closes_seen := by
    intro v hv
    rcases closes_append.mp hv with hv | ⟨-, rfl⟩
    · exact List.mem_append_left _ (h.closes_seen v hv)
    · exact List.mem_append_right _ (List.mem_singleton_self _)

/-- A target that is visited and not running is finished. -/
theorem Looked.skip (h : Looked g base before node seen done s) (hvisited : next ∈ s.visited)
    (hrunning : next ∉ s.running) : Looked g base before node (seen ++ [next]) done s := by
  have hdone : next ∈ done := by
    rcases (h.inv.visited_iff next).mp hvisited with hpath | hdone
    · rw [h.inv.running_eq, List.mem_reverse] at hrunning
      exact absurd hpath hrunning
    · exact hdone
  exact h.descend h.inv (Search.Grows.refl s) (List.Subset.refl _) hdone

/-- **One look at a target.**  It cannot fail, keeps the invariant and settles the target. -/
theorem look_spec (hg : g.WellFormed) {visit : String → Search → Outcome Search}
    (htrail : g.IsTrail (before ++ [node])) (hbase : node ∉ base.visited)
    (hvisit : VisitsWell g (before ++ [node]) visit)
    (h : Looked g base before node seen done s) (hnext : g.Depends node next)
    (hfresh : next ∉ seen) :
    ∃ t done', s.look visit (before ++ [node]) next = .ok t ∧
      Looked g base before node (seen ++ [next]) done' t ∧ done ⊆ done' := by
  obtain ⟨-, hmem, hne⟩ := hg.target hnext
  rw [Search.look]
  by_cases hvisited : next ∈ s.visited
  · rw [if_neg (by simpa using hvisited)]
    by_cases hrunning : next ∈ s.running
    · rw [if_pos (List.contains_iff_mem.mpr hrunning)]
      -- a running file lies on the path, and not at its end, for no file is its own target
      have hbefore : next ∈ before := by
        rw [h.inv.running_eq, List.mem_reverse, List.mem_append, List.mem_singleton] at hrunning
        exact hrunning.resolve_right hne
      obtain ⟨a, b, rfl, hfirst⟩ := List.eq_append_cons_of_mem hbefore
      refine ⟨_, done, ?_, h.record hbase htrail hnext hfresh, List.Subset.refl _⟩
      rw [List.append_assoc, List.cons_append, Search.close_append s hfirst]
    · rw [if_neg (by simpa using hrunning)]
      exact ⟨s, done, rfl, h.skip hvisited hrunning, List.Subset.refl _⟩
  · rw [if_pos (by simpa using hvisited)]
    have hoff : next ∉ before ++ [node] := by
      intro hpath
      exact hvisited ((h.inv.visited_iff next).mpr (Or.inl hpath))
    obtain ⟨t, done', ht, hinv, hgrows, hsub, hdone⟩ :=
      hvisit next s done h.inv hvisited (htrail.snoc hnext hmem hoff)
    exact ⟨t, done', ht, h.descend hinv hgrows hsub hdone, hsub⟩

/-- **All looks of a visit**, by induction on the targets ahead. -/
theorem lookAll_spec (hg : g.WellFormed) {visit : String → Search → Outcome Search}
    (htrail : g.IsTrail (before ++ [node])) (hbase : node ∉ base.visited)
    (hvisit : VisitsWell g (before ++ [node]) visit)
    {ahead : List String} (h : Looked g base before node seen done s)
    (htargets : g.targets node = seen ++ ahead) :
    ∃ t done', ahead.foldlM (Search.look visit (before ++ [node])) s = .ok t ∧
      Looked g base before node (g.targets node) done' t ∧ done ⊆ done' := by
  induction ahead generalizing s seen done with
  | nil =>
    rw [List.append_nil] at htargets
    exact ⟨s, done, rfl, htargets ▸ h, List.Subset.refl _⟩
  | cons next ahead ih =>
    have hnext : g.Depends node next := by
      rw [Depends, htargets]
      simp
    have hfresh : next ∉ seen := by
      have hnd := hg.targets_nodup node
      rw [htargets] at hnd
      intro hseen
      exact (List.nodup_append.mp hnd).2.2 next hseen next List.mem_cons_self rfl
    obtain ⟨t, done₁, ht, hl, hsub₁⟩ := look_spec hg htrail hbase hvisit h hnext hfresh
    obtain ⟨u, done₂, hu, hlast, hsub₂⟩ := ih hl (by rw [htargets]; simp)
    refine ⟨u, done₂, ?_, hlast, fun v hv => hsub₂ (hsub₁ hv)⟩
    rw [List.foldlM_cons, ht]
    exact hu

end Look

/-! ### Visits and the whole search -/

theorem looked_enter (hinv : s.Inv g before done) (hnew : node ∉ s.visited) :
    Looked g s before node [] done (s.enter node) where
  inv := hinv.enter node
  grows := ⟨List.subset_cons_self _ _, List.Subset.refl _, fun _ _ h => Or.inl h⟩
  settled := by
    intro v hv
    cases hv
  closes_seen := by
    intro v hv
    exact absurd (hinv.source_visited node v hv) hnew

/-- **The visit of a new file ends well** as long as the depth left, together with the path behind,
exceeds the number of indexed files.  The induction is on the depth: a path of indexed files
without repetition cannot grow past that number. -/
theorem visit_spec (hg : g.WellFormed) {depth : Nat}
    (hdepth : g.paths.length < depth + before.length) :
    VisitsWell g before (visit g depth before) := by
  induction depth generalizing before with
  | zero =>
    intro node s done _ _ htrail
    have hlen := htrail.length_le
    rw [List.length_append, List.length_singleton] at hlen
    omega
  | succ depth ih =>
    intro node s done hinv hnew htrail
    have hvisit : VisitsWell g (before ++ [node]) (visit g depth (before ++ [node])) := by
      apply ih
      rw [List.length_append, List.length_singleton]
      omega
    have htargets : g.targets node = [] ++ g.targets node := (List.nil_append _).symm
    obtain ⟨t, done₁, ht, hl, hsub⟩ :=
      lookAll_spec hg htrail hnew hvisit (looked_enter hinv hnew) htargets
    obtain ⟨u, hu, hleft, hvis, hcyc⟩ := hl.inv.leave hl.settled
    refine ⟨u, node :: done₁, ?_, hleft, ?_, ?_, List.mem_cons_self⟩
    · rw [visit, ht]
      exact hu
    · exact ⟨hvis ▸ hl.grows.visited, hcyc ▸ hl.grows.cycles, hcyc ▸ hl.grows.closes⟩
    · exact fun v hv => List.mem_cons_of_mem _ (hsub hv)

/-- The search from one indexed file finishes it, whether it is new or not. -/
theorem searchFrom_spec (hg : g.WellFormed) (hnode : node ∈ g.paths) (hinv : s.Inv g [] done) :
    ∃ t done',
      (if s.visited.contains node then .ok s else visit g (g.paths.length + 1) [] node s) = .ok t ∧
        t.Inv g [] done' ∧ done ⊆ done' ∧ node ∈ done' := by
  by_cases hvisited : node ∈ s.visited
  · rw [if_pos (List.contains_iff_mem.mpr hvisited)]
    have hdone : node ∈ done := by simpa using (hinv.visited_iff node).mp hvisited
    exact ⟨s, done, rfl, hinv, List.Subset.refl _, hdone⟩
  · rw [if_neg (by simpa using hvisited)]
    have hdepth : g.paths.length < g.paths.length + 1 + ([] : List String).length := by simp
    have htrail : g.IsTrail ([] ++ [node]) :=
      ⟨List.pairwise_singleton _ _, by simpa using hnode, List.isChain_singleton _⟩
    obtain ⟨t, done', ht, hinv', -, hsub, hdone⟩ :=
      visit_spec hg hdepth node s done hinv hvisited htrail
    exact ⟨t, done', ht, hinv', hsub, hdone⟩

/-- The search from some of the indexed files in turn finishes each of them. -/
theorem searchAll_spec (hg : g.WellFormed) {nodes : List String} (hnodes : ∀ p ∈ nodes, p ∈ g.paths)
    (hinv : s.Inv g [] done) :
    ∃ t done', nodes.foldlM (fun s node =>
        if s.visited.contains node then .ok s else visit g (g.paths.length + 1) [] node s) s
        = .ok t ∧
      t.Inv g [] done' ∧ ∀ p, p ∈ done ∨ p ∈ nodes → p ∈ done' := by
  induction nodes generalizing s done with
  | nil => exact ⟨s, done, rfl, hinv, by simp⟩
  | cons node nodes ih =>
    obtain ⟨t, done₁, ht, hinv₁, hsub, hdone⟩ :=
      searchFrom_spec hg (hnodes node List.mem_cons_self) hinv
    obtain ⟨u, done₂, hu, hinv₂, hall⟩ :=
      ih (fun p hp => hnodes p (List.mem_cons_of_mem _ hp)) hinv₁
    refine ⟨u, done₂, ?_, hinv₂, ?_⟩
    · rw [List.foldlM_cons, ht]
      exact hu
    · intro p hp
      rcases hp with hp | hp
      · exact hall p (Or.inl (hsub hp))
      · rcases List.mem_cons.mp hp with rfl | hp
        · exact hall p (Or.inl hdone)
        · exact hall p (Or.inr hp)

/-- **The whole search ends well**: no lookup in it fails, and every indexed file is finished. -/
theorem search_spec (hg : g.WellFormed) :
    ∃ s done, g.search = .ok s ∧ g.cycles = s.cycles ∧ s.Inv g [] done ∧
      ∀ p ∈ g.paths, p ∈ done := by
  have hstart : Search.Inv g [] [] {} :=
    { running_eq := rfl
      visited_iff := by simp
      isCycle := by simp
      source_visited := by simp [Closes]
      closing_nodup := List.Pairwise.nil
      settled := trivial }
  obtain ⟨s, done, hs, hinv, hall⟩ := searchAll_spec hg (fun p hp => hp) hstart
  refine ⟨s, done, hs, ?_, hinv, fun p hp => hall p (Or.inr hp)⟩
  rw [cycles, search, hs]

end CodeScribe.Dependency.Graph
