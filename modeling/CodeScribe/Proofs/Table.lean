import CodeScribe.Data.Table
import Mathlib.Data.String.Basic
import Mathlib.Algebra.BigOperators.Group.List.Basic
import Mathlib.Algebra.GroupWithZero.Nat
import Mathlib.Data.List.Sort

/-!
# Laws of tables

A table is read through its names and its entries.  This file says what a change does to both:

* `Table.get?_filter_ne` — removing a name touches no other entry either;
* `Table.nodup_names_alter` — no name comes in twice;
* `Table.mem_insertText`, `Table.sorted_insertText` — ascending lists stay ascending, and exactly
  one text comes in.
-/

namespace CodeScribe.Table

variable {α : Type} {t : Table α} {name key s : String}

/-! ### Names and entries -/

@[simp] theorem names_nil : names ([] : Table α) = [] := rfl

@[simp] theorem names_cons (k : String) (a : α) (t : Table α) :
    names ((k, a) :: t) = k :: names t := rfl

theorem mem_names : name ∈ t.names ↔ ∃ a, (name, a) ∈ t := by
  simp [names]

theorem get?_cons (k : String) (a : α) (t : Table α) (key : String) :
    get? ((k, a) :: t) key = if key = k then some a else get? t key := by
  by_cases h : key = k
  · subst h
    simp [get?]
  · have hk : (key == k) = false := by simpa using h
    simp [get?, List.lookup_cons, hk, h]

theorem get?_isSome : (t.get? name).isSome ↔ name ∈ t.names := by
  induction t with
  | nil => simp [get?]
  | cons e t ih =>
    obtain ⟨k, a⟩ := e
    rw [get?_cons]
    by_cases h : name = k
    · simp [h]
    · rw [if_neg h, ih]
      simp [h]

theorem has_iff : t.has name = true ↔ name ∈ t.names := by
  rw [has, get?_isSome]

theorem get?_eq_none : t.get? name = none ↔ name ∉ t.names := by
  rw [← get?_isSome, Option.not_isSome_iff_eq_none]

theorem mem_of_get? {a : α} (h : t.get? name = some a) : (name, a) ∈ t := by
  induction t with
  | nil => simp [get?] at h
  | cons e t ih =>
    obtain ⟨k, b⟩ := e
    rw [get?_cons] at h
    by_cases hk : name = k
    · rw [if_pos hk, Option.some.injEq] at h
      simp [hk, h]
    · rw [if_neg hk] at h
      exact List.mem_cons_of_mem _ (ih h)

/-- Without repeated names, every entry is the entry of its name. -/
theorem get?_of_mem (hnd : t.names.Nodup) {a : α} (h : (name, a) ∈ t) : t.get? name = some a := by
  induction t with
  | nil => simp at h
  | cons e t ih =>
    obtain ⟨k, b⟩ := e
    rw [names_cons, List.nodup_cons] at hnd
    rw [get?_cons]
    rcases List.mem_cons.mp h with h | h
    · cases h
      rw [if_pos rfl]
    · have hk : name ≠ k := by
        intro hk
        rw [← hk, mem_names] at hnd
        exact hnd.1 ⟨a, h⟩
      rw [if_neg hk]
      exact ih hnd.2 h

/-! ### Changes -/

/-- A known name keeps its place, a new one comes last. -/
theorem names_alter (t : Table α) (name : String) (change : Option α → α) :
    (t.alter name change).names = if name ∈ t.names then t.names else t.names ++ [name] := by
  induction t with
  | nil => rfl
  | cons e t ih =>
    obtain ⟨k, a⟩ := e
    by_cases h : k = name
    · subst h
      simp [alter]
    · have hk : (k == name) = false := by simpa using h
      have hn : ¬ name = k := fun hn => h hn.symm
      rw [alter, hk, if_neg Bool.false_ne_true]
      rw [names_cons, names_cons, ih]
      by_cases hm : name ∈ names t
      · rw [if_pos hm, if_pos (List.mem_cons_of_mem _ hm)]
      · rw [if_neg hm, if_neg (by simp [hn, hm]), List.cons_append]

theorem get?_alter (t : Table α) (name key : String) (change : Option α → α) :
    (t.alter name change).get? key
      = if key = name then some (change (t.get? name)) else t.get? key := by
  induction t with
  | nil => rw [alter, get?_cons]; rfl
  | cons e t ih =>
    obtain ⟨k, a⟩ := e
    by_cases h : k = name
    · subst h
      rw [alter, beq_self_eq_true, if_pos rfl, get?_cons, get?_cons, get?_cons, if_pos rfl]
      by_cases hk : key = k
      · simp [hk]
      · simp [hk]
    · have hk : (k == name) = false := by simpa using h
      have hn : ¬ name = k := fun hn => h hn.symm
      rw [alter, hk, if_neg Bool.false_ne_true, get?_cons, ih, get?_cons, get?_cons, if_neg hn]
      by_cases he : key = k
      · rw [if_pos he, if_pos he, if_neg (he ▸ h)]
      · rw [if_neg he, if_neg he]

theorem get?_set (t : Table α) (name : String) (a : α) (key : String) :
    (t.set name a).get? key = if key = name then some a else t.get? key :=
  get?_alter t name key fun _ => a

theorem get?_filter_ne (t : Table α) (name key : String) :
    get? (t.filter (·.1 != name)) key = if key = name then none else t.get? key := by
  induction t with
  | nil => simp [get?]
  | cons e t ih =>
    obtain ⟨k, a⟩ := e
    rw [List.filter_cons, get?_cons]
    by_cases hk : k = name
    · subst hk
      simp only [bne_self_eq_false, Bool.false_eq_true, if_false, ih]
      split <;> rfl
    · have hkeep : (k != name) = true := by simpa using hk
      rw [if_pos hkeep, get?_cons, ih]
      by_cases he : key = k
      · rw [if_pos he, if_pos he, if_neg (he ▸ hk)]
      · rw [if_neg he, if_neg he]

theorem nodup_names_alter (h : t.names.Nodup) (name : String) (change : Option α → α) :
    (t.alter name change).names.Nodup := by
  rw [names_alter]
  split
  · exact h
  · rename_i hn
    rw [(List.perm_append_singleton name _).nodup_iff, List.nodup_cons]
    exact ⟨hn, h⟩

theorem mem_names_alter {change : Option α → α} :
    key ∈ (t.alter name change).names ↔ key ∈ t.names ∨ key = name := by
  rw [names_alter]
  split
  · rename_i hn
    exact ⟨Or.inl, fun h => h.elim id fun h => h ▸ hn⟩
  · simp

/-- What holds of every entry, and of the entry of `name` after its change, holds of every entry
of the changed table. -/
theorem forall_alter {P : String → α → Prop} {change : Option α → α} (h : ∀ e ∈ t, P e.1 e.2)
    (hnew : P name (change none)) (hold : ∀ a, P name a → P name (change (some a))) :
    ∀ e ∈ t.alter name change, P e.1 e.2 := by
  induction t with
  | nil =>
    intro e he
    rw [alter, List.mem_singleton] at he
    exact he ▸ hnew
  | cons d t ih =>
    obtain ⟨k, a⟩ := d
    have hk : P k a := h (k, a) List.mem_cons_self
    have ht : ∀ e ∈ t, P e.1 e.2 := fun e he => h e (List.mem_cons_of_mem _ he)
    intro e he
    rw [alter] at he
    split at he
    · rename_i hkn
      have hkn : k = name := by simpa using hkn
      rcases List.mem_cons.mp he with he | he
      · subst hkn
        exact he ▸ hold a hk
      · exact ht e he
    · rcases List.mem_cons.mp he with he | he
      · exact he ▸ hk
      · exact ih ht e he

/-! ### Ascending lists -/

theorem mem_insertText {x : String} {l : List String} : x ∈ insertText s l ↔ x = s ∨ x ∈ l := by
  induction l with
  | nil => simp [insertText]
  | cons t l ih =>
    rw [insertText]
    split
    · simp
    · split
      · rename_i hst
        have hst : s = t := by simpa using hst
        simp [hst]
      · rw [List.mem_cons, ih, List.mem_cons]
        exact or_left_comm

theorem insertText_ne_nil (s : String) (l : List String) : insertText s l ≠ [] := by
  intro h
  have hs : s ∈ insertText s l := by
    rw [mem_insertText]
    exact Or.inl rfl
  rw [h] at hs
  cases hs

theorem sorted_insertText (s : String) {l : List String} (h : l.Pairwise (· < ·)) :
    (insertText s l).Pairwise (· < ·) := by
  induction l with
  | nil => simp [insertText]
  | cons t l ih =>
    obtain ⟨ht, hl⟩ := List.pairwise_cons.mp h
    rw [insertText]
    split
    · rename_i hst
      refine List.pairwise_cons.mpr ⟨?_, h⟩
      intro x hx
      rcases List.mem_cons.mp hx with hx | hx
      · exact hx ▸ hst
      · exact lt_trans hst (ht x hx)
    · split
      · exact h
      · rename_i hlt hne
        have hts : t < s := lt_of_le_of_ne (not_lt.mp hlt) fun hts => hne (by simp [hts])
        refine List.pairwise_cons.mpr ⟨?_, ih hl⟩
        intro x hx
        rw [mem_insertText] at hx
        rcases hx with hx | hx
        · exact hx ▸ hts
        · exact ht x hx

/-! ### Lists by name -/

theorem listOf_of_mem {t : Table (List String)} (hnd : t.names.Nodup) {ss : List String}
    (h : (name, ss) ∈ t) : t.listOf name = ss := by
  rw [listOf, get?_of_mem hnd h]
  rfl

theorem mem_listOf {t : Table (List String)} (h : s ∈ t.listOf name) :
    ∃ ss, (name, ss) ∈ t ∧ s ∈ ss ∧ t.listOf name = ss := by
  rw [listOf] at h ⊢
  cases hg : t.get? name with
  | none => simp [hg] at h
  | some ss => exact ⟨ss, mem_of_get? hg, by simpa [hg] using h, rfl⟩

theorem listOf_of_not_has {t : Table (List String)} (h : t.has name = false) :
    t.listOf name = [] := by
  rw [has, Option.isSome_eq_false_iff, Option.isNone_iff_eq_none] at h
  rw [listOf, h]
  rfl

theorem total_eq_sum (t : Table (List String)) : t.total = (t.map fun e => e.2.length).sum := by
  rw [total, ← List.foldl_map (f := fun e : String × List String => e.2.length) (g := (· + ·)),
    List.sum_eq_foldl]

theorem sum_length_of_name {t : Table (List String)} (hnd : t.names.Nodup) (name : String) :
    (t.map fun e => if e.1 = name then e.2.length else 0).sum = (t.listOf name).length := by
  induction t with
  | nil => rfl
  | cons e t ih =>
    obtain ⟨k, ss⟩ := e
    rw [names_cons, List.nodup_cons] at hnd
    rw [List.map_cons, List.sum_cons, ih hnd.2, listOf, listOf, get?_cons]
    by_cases h : k = name
    · -- a name that came first has no other entry
      have hnone : get? t name = none := by
        rw [get?_eq_none]
        exact h ▸ hnd.1
      rw [if_pos h, if_pos h.symm, hnone]
      rfl
    · rw [if_neg h, if_neg fun hn => h hn.symm, Nat.zero_add]

/-! ### One more text -/

theorem listOf_alter (t : Table (List String)) (name key : String)
    (change : Option (List String) → List String) :
    (t.alter name change).listOf key =
      if key = name then change (t.get? name) else t.listOf key := by
  rw [listOf, get?_alter]
  split <;> rfl

theorem mem_listOf_addText {t : Table (List String)} {x : String} :
    s ∈ (t.addText name x).listOf key ↔ s ∈ t.listOf key ∨ key = name ∧ s = x := by
  rw [addText, listOf_alter]
  by_cases h : key = name
  · rw [if_pos h, mem_insertText, h, or_comm, listOf]
    simp
  · simp [h]

theorem mem_listOf_foldl_addText {t : Table (List String)} {xs : List String} :
    s ∈ listOf (xs.foldl (fun t x => t.addText name x) t) key ↔
      s ∈ t.listOf key ∨ key = name ∧ s ∈ xs := by
  induction xs generalizing t with
  | nil => simp
  | cons x xs ih =>
    rw [List.foldl_cons, ih, mem_listOf_addText, List.mem_cons, or_assoc, ← and_or_left]

theorem listOf_push (t : Table (List String)) (name x key : String) :
    (t.push name x).listOf key = if key = name then t.listOf key ++ [x] else t.listOf key := by
  rw [push, listOf_alter]
  split
  · rename_i h
    rw [h]
    rfl
  · rfl

theorem set_of_not_mem (h : name ∉ t.names) (a : α) : t.set name a = t ++ [(name, a)] := by
  rw [set]
  induction t with
  | nil => rfl
  | cons e t ih =>
    obtain ⟨k, b⟩ := e
    rw [names_cons, List.mem_cons, not_or] at h
    have hk : (k == name) = false := beq_false_of_ne (Ne.symm h.1)
    rw [alter, hk, if_neg Bool.false_ne_true, ih h.2]
    rfl

/-! ### Tables of ascending lists -/

/-- Every name stands once, and its list is ascending and not empty. -/
structure Ascending (t : Table (List String)) : Prop where
  names_nodup : t.names.Nodup
  row : ∀ e ∈ t, e.2 ≠ [] ∧ e.2.Pairwise (· < ·)

theorem Ascending.nil : Ascending [] where
  names_nodup := List.Pairwise.nil
  row := by
    intro e he
    cases he

theorem Ascending.addText {t : Table (List String)} (h : t.Ascending) (name x : String) :
    (t.addText name x).Ascending where
  names_nodup := nodup_names_alter h.names_nodup name _
  row := by
    apply forall_alter (P := fun _ ss => ss ≠ [] ∧ ss.Pairwise (· < ·)) h.row
    · exact ⟨insertText_ne_nil x [], sorted_insertText x List.Pairwise.nil⟩
    · intro ss hss
      exact ⟨insertText_ne_nil x ss, sorted_insertText x hss.2⟩

theorem Ascending.sorted {t : Table (List String)} (h : t.Ascending) (name : String) :
    (t.listOf name).Pairwise (· < ·) := by
  rw [listOf]
  cases hg : t.get? name with
  | none => exact List.Pairwise.nil
  | some ss => exact (h.row _ (mem_of_get? hg)).2

theorem Ascending.listOf_eq {t t' : Table (List String)} (h : t.Ascending) (h' : t'.Ascending)
    (hmem : ∀ s, s ∈ t.listOf name ↔ s ∈ t'.listOf name) : t.listOf name = t'.listOf name :=
  (h.sorted name).eq_of_mem_iff (h'.sorted name) hmem

/-- The entry of a name is its list, unless that is empty. -/
theorem Ascending.get?_eq {t : Table (List String)} (h : t.Ascending) (name : String) :
    t.get? name = if t.listOf name = [] then none else some (t.listOf name) := by
  rw [listOf]
  cases hg : t.get? name with
  | none => rfl
  | some ss => rw [Option.getD_some, if_neg (h.row _ (mem_of_get? hg)).1]

/-- Tables whose lists hold the same texts have the same entries. -/
theorem Ascending.get?_congr {t t' : Table (List String)} (h : t.Ascending) (h' : t'.Ascending)
    (hmem : ∀ name s, s ∈ t.listOf name ↔ s ∈ t'.listOf name) (name : String) :
    t.get? name = t'.get? name := by
  rw [h.get?_eq, h'.get?_eq, h.listOf_eq h' (hmem name)]

/-- Tables with the same entries differ only in the order of their names. -/
theorem perm_of_get? {t' : Table α} (h : t.names.Nodup) (h' : t'.names.Nodup)
    (hget : ∀ name, t.get? name = t'.get? name) : t.Perm t' := by
  rw [List.perm_ext_iff_of_nodup h.of_map h'.of_map]
  rintro ⟨name, a⟩
  constructor
  · intro hmem
    exact mem_of_get? ((hget name).symm.trans (get?_of_mem h hmem))
  · intro hmem
    exact mem_of_get? ((hget name).trans (get?_of_mem h' hmem))

/-- Without repeated names, the order of the entries does not matter. -/
theorem get?_of_perm {t' : Table α} (hnd : t.names.Nodup) (h : t.Perm t') (name : String) :
    t.get? name = t'.get? name := by
  have hnames : t.names.Perm t'.names := h.map _
  cases hg : t.get? name with
  | none =>
    rw [get?_eq_none, hnames.mem_iff, ← get?_eq_none] at hg
    exact hg.symm
  | some a => exact (get?_of_mem (hnames.nodup hnd) (h.mem_iff.mp (mem_of_get? hg))).symm

end CodeScribe.Table
