import Mathlib.Control.Lawful

/-!
# Frames of runs

A run that can fail leaves a state behind whether or not it does.  A frame says how that state is
related to the one before, in a way that goes through a whole run because it goes through each
step.

* `Frame.Keeps.bind`, `Frame.keeps_get_set`, `Frame.keeps_mapM`, `Frame.keeps_forM` — runs put
  together from others;
* `Frame.Keeps.mono` — a wider frame;
* `exists_of_bind` — what a result of two runs comes of.
-/

namespace CodeScribe

theorem exists_of_bind {ε α β : Type} {x : Except ε α} {f : α → Except ε β} {b : β}
    (h : x >>= f = .ok b) : ∃ a, x = .ok a ∧ f a = .ok b := by
  cases x with
  | error e => cases h
  | ok a => exact ⟨a, rfl, h⟩

/-- A relation between an earlier and a later state. -/
structure Frame (σ : Type) where
  rel : σ → σ → Prop
  refl : ∀ s, rel s s
  trans : ∀ {s t u}, rel s t → rel t u → rel s u

namespace Frame

variable {σ ε α β : Type} {x : ExceptT ε (StateM σ) α} {f : α → ExceptT ε (StateM σ) β}

/-- A part of the state stays the same. -/
def view (part : σ → β) : Frame σ where
  rel s t := part t = part s
  refl _ := rfl
  trans h h' := h'.trans h

/-- What held before holds after. -/
def invariant (I : σ → Prop) : Frame σ where
  rel s t := I s → I t
  refl _ := id
  trans h h' := h' ∘ h

def Keeps (F : Frame σ) (x : ExceptT ε (StateM σ) α) : Prop :=
  ∀ s, F.rel s ((ExceptT.run x).run s).2

variable {F G : Frame σ}

theorem Keeps.mono (hx : F.Keeps x) (h : ∀ s t, F.rel s t → G.rel s t) : G.Keeps x :=
  fun s => h _ _ (hx s)

/-- The end of a run that is put together from two. -/
theorem run_bind (x : ExceptT ε (StateM σ) α) (f : α → ExceptT ε (StateM σ) β) (s : σ) :
    (ExceptT.run (x >>= f)).run s =
      StateT.run (ExceptT.bindCont f ((ExceptT.run x).run s).1) ((ExceptT.run x).run s).2 := rfl

section Ends

variable {x : ExceptT ε (StateM σ) α} {f : α → ExceptT ε (StateM σ) β} {s t : σ}

theorem run_bind_of_ok {a : α} (h : (ExceptT.run x).run s = (.ok a, t)) :
    (ExceptT.run (x >>= f)).run s = (ExceptT.run (f a)).run t := by
  rw [run_bind, h]
  rfl

theorem run_bind_of_error {e : ε} (h : (ExceptT.run x).run s = (.error e, t)) :
    (ExceptT.run (x >>= f)).run s = (.error e, t) := by
  rw [run_bind, h]
  rfl

end Ends

@[grind ←] theorem Keeps.bind (hx : F.Keeps x) (hf : ∀ a, F.Keeps (f a)) : F.Keeps (x >>= f) := by
  intro s
  have hfirst := hx s
  cases hrun : (ExceptT.run x).run s with
  | mk r t =>
    rw [hrun] at hfirst
    cases r with
    | ok a =>
      rw [run_bind_of_ok hrun]
      exact F.trans hfirst (hf a t)
    | error e =>
      rw [run_bind_of_error hrun]
      exact hfirst

@[grind ←] theorem keeps_pure (a : α) : F.Keeps (pure a : ExceptT ε (StateM σ) α) := F.refl

@[grind ←] theorem keeps_throw (e : ε) : F.Keeps (throw e : ExceptT ε (StateM σ) α) := F.refl

@[grind ←] theorem keeps_get : F.Keeps (get : ExceptT ε (StateM σ) σ) := F.refl

theorem keeps_modify {f : σ → σ} (h : ∀ s, F.rel s (f s)) :
    F.Keeps (modify f : ExceptT ε (StateM σ) Unit) := h

/-- A state that is looked at and then replaced. -/
theorem keeps_get_set {f : σ → σ} {g : σ → ExceptT ε (StateM σ) β} (h : ∀ s, F.rel s (f s))
    (hg : ∀ s, F.Keeps (g s)) :
    F.Keeps (do
      let s ← get
      set (f s)
      g s) := fun s => F.trans (h s) (hg s (f s))

theorem Keeps.either {c : Prop} [Decidable c] {y : ExceptT ε (StateM σ) α} (hx : F.Keeps x)
    (hy : F.Keeps y) (hf : ∀ a, F.Keeps (f a)) : F.Keeps (if c then x >>= f else y >>= f) := by
  split
  · exact hx.bind hf
  · exact hy.bind hf

theorem keeps_mapM (hf : ∀ a, F.Keeps (f a)) (l : List α) : F.Keeps (l.mapM f) := by
  induction l with
  | nil => exact keeps_pure []
  | cons a l ih =>
    rw [List.mapM_cons]
    exact (hf a).bind fun b => ih.bind fun bs => keeps_pure _

theorem keeps_forM {f : α → ExceptT ε (StateM σ) PUnit} (hf : ∀ a, F.Keeps (f a)) (l : List α) :
    F.Keeps (l.forM f) := by
  induction l with
  | nil => exact keeps_pure _
  | cons a l ih => exact (hf a).bind fun _ => ih

/-! ### Runs from one state -/

section From

variable {s : σ} {x : ExceptT ε (StateM σ) α} {Q : α → σ → Prop}
  {f : α → ExceptT ε (StateM σ) β} {R : β → σ → Prop}

/-- From one state, a run keeps to a frame, and if it succeeds then something holds at its end. -/
def KeepsFrom (F : Frame σ) (s : σ) (x : ExceptT ε (StateM σ) α) (Q : α → σ → Prop) : Prop :=
  F.rel s ((ExceptT.run x).run s).2 ∧ ∀ a t, (ExceptT.run x).run s = (.ok a, t) → Q a t

theorem Keeps.from (hx : F.Keeps x) (s : σ) : F.KeepsFrom s x fun _ _ => True :=
  ⟨hx s, fun _ _ _ => trivial⟩

theorem keepsFrom_pure {a : α} (h : Q a s) : F.KeepsFrom s (pure a : ExceptT ε (StateM σ) α) Q :=
  ⟨F.refl s, fun _ _ hrun => by cases hrun; exact h⟩

theorem KeepsFrom.bind (hx : F.KeepsFrom s x Q)
    (hf : ∀ a t, F.rel s t → Q a t → F.KeepsFrom t (f a) R) : F.KeepsFrom s (x >>= f) R := by
  obtain ⟨hrel, hok⟩ := hx
  cases hrun : (ExceptT.run x).run s with
  | mk r t =>
    rw [hrun] at hrel
    cases r with
    | ok a =>
      obtain ⟨hrel', hok'⟩ := hf a t hrel (hok a t hrun)
      rw [KeepsFrom, run_bind_of_ok hrun]
      exact ⟨F.trans hrel hrel', hok'⟩
    | error e =>
      rw [KeepsFrom, run_bind_of_error hrun]
      exact ⟨hrel, nofun⟩

end From

end Frame

end CodeScribe
