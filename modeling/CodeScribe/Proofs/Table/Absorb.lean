import CodeScribe.Proofs.Table
import Mathlib.Data.List.Induction

/-!
# Tables that absorb entries

An entry is joined to the one of its name, or comes in last.  Where the rule that joins two entries
is associative, entries can be collected in a table of their own first.
-/

namespace CodeScribe.Table

variable {α : Type} {t : Table α} {name : String} {a : α}

/-! ### Changes at different names -/

theorem set_set_self (t : Table α) (name : String) (a b : α) :
    (t.set name a).set name b = t.set name b := by
  simp only [set]
  induction t with
  | nil => simp [alter]
  | cons e t ih =>
    obtain ⟨k, c⟩ := e
    by_cases hk : k = name
    · simp [alter, hk]
    · simp [alter, hk, ih]

/-- Changes at two names can be swapped if neither moves the other name: the first one is known. -/
theorem set_set_comm {other : String} (hne : other ≠ name) (hname : name ∈ t.names) (a b : α) :
    (t.set other b).set name a = (t.set name a).set other b := by
  simp only [set]
  induction t with
  | nil => simp at hname
  | cons e t ih =>
    obtain ⟨k, c⟩ := e
    rw [names_cons, List.mem_cons] at hname
    by_cases hk : k = name
    · subst hk
      simp [alter, hne.symm]
    · have hrest : name ∈ names t := hname.resolve_left fun h => hk h.symm
      by_cases ho : k = other
      · subst ho
        simp [alter, hne]
      · simp [alter, hk, ho, ih hrest]

theorem set_of_get? (h : t.get? name = some a) : t.set name a = t := by
  rw [set]
  induction t with
  | nil => simp [get?] at h
  | cons e t ih =>
    obtain ⟨k, c⟩ := e
    rw [get?_cons] at h
    by_cases hk : name = k
    · rw [if_pos hk, Option.some.injEq] at h
      simp [alter, hk, h]
    · rw [if_neg hk] at h
      simp [alter, Ne.symm hk, ih h]

theorem mem_names_set {key : String} :
    key ∈ (t.set name a).names ↔ key ∈ t.names ∨ key = name := mem_names_alter

theorem forall_set {P : String → α → Prop} (h : ∀ e ∈ t, P e.1 e.2) (ha : P name a) :
    ∀ e ∈ t.set name a, P e.1 e.2 :=
  forall_alter h ha fun _ _ => ha

/-! ### Entries joined to others -/

section Absorb

variable (step : α → Option α → α)
variable {t : Table α} {es : List (String × α)}

/-- Join an entry to the one of its name. -/
def absorb (t : Table α) (e : String × α) : Table α := t.set e.1 (step e.2 (t.get? e.1))

/-- A rule to join entries, which is associative where entries are good. -/
structure Joins (Good : String → α → Prop) : Prop where
  closed : ∀ {name a o}, Good name a → (∀ b ∈ o, Good name b) → Good name (step a o)
  unit : ∀ {name a o}, Good name a → (∀ b ∈ o, Good name b) →
    step (step a none) o = step a o
  assoc : ∀ {name a b o}, Good name a → Good name b → (∀ c ∈ o, Good name c) →
    step (step b (some a)) o = step b (some (step a o))

variable {step} {Good : String → α → Prop}

theorem get?_absorb (t : Table α) (e : String × α) (key : String) :
    (absorb step t e).get? key =
      if key = e.1 then some (step e.2 (t.get? e.1)) else t.get? key :=
  get?_set t e.1 _ key

theorem good_get? (ht : ∀ e ∈ t, Good e.1 e.2) (name : String) :
    ∀ b ∈ t.get? name, Good name b := fun b hb => ht (name, b) (mem_of_get? hb)

theorem Joins.absorb (hstep : Joins step Good) {e : String × α} (ht : ∀ d ∈ t, Good d.1 d.2)
    (he : Good e.1 e.2) : ∀ d ∈ Table.absorb step t e, Good d.1 d.2 :=
  forall_set ht (hstep.closed he (good_get? ht e.1))

theorem Joins.foldl_absorb (hstep : Joins step Good) (ht : ∀ d ∈ t, Good d.1 d.2)
    (hes : ∀ e ∈ es, Good e.1 e.2) : ∀ d ∈ es.foldl (Table.absorb step) t, Good d.1 d.2 := by
  induction es generalizing t with
  | nil => exact ht
  | cons e es ih =>
    have he : Good e.1 e.2 := hes e List.mem_cons_self
    exact ih (hstep.absorb ht he) fun d hd => hes d (List.mem_cons_of_mem e hd)

theorem nodup_names_foldl_absorb (ht : t.names.Nodup) (es : List (String × α)) :
    (es.foldl (absorb step) t).names.Nodup := by
  induction es generalizing t with
  | nil => exact ht
  | cons e es ih => exact ih (nodup_names_alter ht _ _)

theorem get?_foldl_absorb_of_ne {name : String} (hes : ∀ e ∈ es, e.1 ≠ name) (t : Table α) :
    (es.foldl (absorb step) t).get? name = t.get? name := by
  induction es generalizing t with
  | nil => rfl
  | cons e es ih =>
    have hne : name ≠ e.1 := (hes e List.mem_cons_self).symm
    rw [List.foldl_cons, ih fun d hd => hes d (List.mem_cons_of_mem e hd), get?_absorb,
      if_neg hne]

/-- A change at a known name can wait until entries of other names are absorbed. -/
theorem foldl_absorb_set {name : String} (hes : ∀ e ∈ es, e.1 ≠ name) (hname : name ∈ t.names)
    (a : α) : es.foldl (absorb step) (t.set name a) = (es.foldl (absorb step) t).set name a := by
  induction es generalizing t with
  | nil => rfl
  | cons e es ih =>
    have hne : e.1 ≠ name := hes e List.mem_cons_self
    have hswap : absorb step (t.set name a) e = (absorb step t e).set name a := by
      rw [absorb, get?_set, if_neg hne, absorb, set_set_comm hne hname]
    have hknown : name ∈ (absorb step t e).names := mem_names_set.mpr (Or.inl hname)
    rw [List.foldl_cons, hswap, ih (fun d hd => hes d (List.mem_cons_of_mem e hd)) hknown,
      List.foldl_cons]

theorem Joins.foldl_absorb_absorb (hstep : Joins step Good) {e : String × α} (he : Good e.1 e.2)
    (ht : ∀ d ∈ t, Good d.1 d.2) (hnd : t.names.Nodup) {s : Table α} (hs : ∀ d ∈ s, Good d.1 d.2) :
    (Table.absorb step t e).foldl (Table.absorb step) s =
      Table.absorb step (t.foldl (Table.absorb step) s) e := by
  obtain ⟨name, v⟩ := e
  induction t generalizing s with
  | nil =>
    have hunit := hstep.unit he (good_get? hs name)
    change s.set name (step (step v none) (s.get? name)) = s.set name (step v (s.get? name))
    rw [hunit]
  | cons d t ih =>
    obtain ⟨k, a⟩ := d
    have ha : Good k a := ht (k, a) List.mem_cons_self
    have hrest : ∀ d ∈ t, Good d.1 d.2 := fun d hd => ht d (List.mem_cons_of_mem _ hd)
    rw [names_cons, List.nodup_cons] at hnd
    by_cases hk : k = name
    · subst hk
      have hother : ∀ d ∈ t, d.1 ≠ k := by
        rintro ⟨k', b⟩ hd rfl
        exact hnd.1 (mem_names.mpr ⟨b, hd⟩)
      have hassoc := hstep.assoc ha he (good_get? hs k)
      have hhead : Table.absorb step ((k, a) :: t) (k, v) = (k, step v (some a)) :: t := by
        simp [Table.absorb, get?_cons, set, alter]
      have hknown : k ∈ (s.set k (step a (s.get? k))).names := mem_names_set.mpr (Or.inr rfl)
      rw [hhead, List.foldl_cons, List.foldl_cons, Table.absorb, Table.absorb, Table.absorb,
        get?_foldl_absorb_of_ne hother, get?_set, if_pos rfl]
      dsimp only
      rw [hassoc, ← foldl_absorb_set hother hknown, set_set_self]
    · have hhead : Table.absorb step ((k, a) :: t) (name, v) =
          (k, a) :: Table.absorb step t (name, v) := by
        simp [Table.absorb, get?_cons, Ne.symm hk, set, alter, hk]
      rw [hhead, List.foldl_cons, List.foldl_cons]
      exact ih hrest hnd.2 (hstep.absorb hs ha)

theorem Joins.foldl_absorb_foldl (hstep : Joins step Good) (hes : ∀ e ∈ es, Good e.1 e.2)
    {s : Table α} (hs : ∀ d ∈ s, Good d.1 d.2) :
    (es.foldl (Table.absorb step) []).foldl (Table.absorb step) s =
      es.foldl (Table.absorb step) s := by
  induction es using List.reverseRecOn with
  | nil => rfl
  | append_singleton es e ih =>
    have he : Good e.1 e.2 := hes e (by simp)
    have hrest : ∀ d ∈ es, Good d.1 d.2 := fun d hd => hes d (List.mem_append_left _ hd)
    have hgood := hstep.foldl_absorb (t := []) (by simp) hrest
    have hnd : (es.foldl (Table.absorb step) []).names.Nodup :=
      nodup_names_foldl_absorb (t := []) List.nodup_nil es
    rw [List.foldl_append, List.foldl_append, List.foldl_cons, List.foldl_nil, List.foldl_cons,
      List.foldl_nil, hstep.foldl_absorb_absorb he hgood hnd hs, ih hrest]

end Absorb

end CodeScribe.Table
