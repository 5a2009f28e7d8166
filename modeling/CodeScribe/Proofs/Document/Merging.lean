import CodeScribe.Proofs.Document.MergeRules

/-!
# Merging in parts

Facts that are merged in two halves, and the halves then merged, are the facts merged at once, with
the keys and the items in the same order; and facts merged with themselves are what they were.

* `Merge.merged_in_parts` — merging halves, and merging facts with themselves.
-/

namespace CodeScribe.Merge

open Value

variable {es : List (String × Value)} {v : Value} {kind : String → Kind}
  {infos : List (Table Value)} {t : Table Value}

/-! ### One key, on tables -/

def fieldsOf (t : Table Value) : List (Value × Value) := t.map fun (k, v) => (text k, v)

theorem record_eq (t : Table Value) : record t = map (fieldsOf t) := rfl

theorem fieldsOf_cons (k : String) (v : Value) (t : Table Value) :
    fieldsOf ((k, v) :: t) = (text k, v) :: fieldsOf t := rfl

theorem same_text_text (k key : String) : same (text k) (text key) = decide (k = key) := by
  rw [same]
  exact beq_eq_decide k key

theorem lookup_fieldsOf (t : Table Value) (key : String) :
    lookup (text key) (fieldsOf t) = t.get? key := by
  induction t with
  | nil => rfl
  | cons e t ih =>
    obtain ⟨k, v⟩ := e
    rw [fieldsOf_cons, lookup, same_text_text, ih, Table.get?_cons]
    by_cases hk : k = key
    · simp [hk]
    · simp [hk, Ne.symm hk]

theorem insert_fieldsOf (t : Table Value) (key : String) (v : Value) :
    insert (text key) v (fieldsOf t) = fieldsOf (t.set key v) := by
  induction t with
  | nil => rfl
  | cons e t ih =>
    obtain ⟨k, a⟩ := e
    rw [fieldsOf_cons, Value.insert, same_text_text, Table.set, Table.alter]
    by_cases hk : k = key
    · simp [hk, fieldsOf]
    · simpa [hk, fieldsOf, Table.set] using ih

/-- Merge one key into a table. -/
def enter (t : Table Value) (e : String × Value) : Outcome (Table Value) :=
  if counts e.2 then (joinedTo (t.get? e.1) e.2).map (t.set e.1) else .ok t

theorem entry_fieldsOf (t : Table Value) (key : String) (v : Value) :
    entry (fieldsOf t) (text key) v = (enter t (key, v)).map fieldsOf := by
  have hother (w : Value) : (Except.ok (if (lookup (text key) (fieldsOf t)).isSome then fieldsOf t
      else insert (text key) w (fieldsOf t)) : Outcome _) =
        (Except.ok (fieldsOf (t.set key ((t.get? key).getD w))) : Outcome _) := by
    rw [lookup_fieldsOf, insert_fieldsOf]
    cases hget : t.get? key with
    | none => rfl
    | some a => rw [Option.getD_some, Table.set_of_get? hget]; rfl
  cases v with
  | null => rfl
  | text s =>
    by_cases hs : s = ""
    · subst hs
      rfl
    · have hcounts : counts (text s) = true := by simp [counts, hs]
      simp only [enter, hcounts, if_true, joinedTo, Except.map]
      simpa [entry, hs] using hother (text s)
  | list items =>
    have hcounts : counts (list items) = true := rfl
    rw [entry, lookup_fieldsOf, enter, if_pos hcounts, joinedTo]
    cases joined ((t.get? key).getD (list [])) items with
    | ok j => simp [bind, Except.bind, Except.map, pure, Except.pure, insert_fieldsOf]
    | error fault => rfl
  | _ => exact hother _

theorem one_record (t info : Table Value) :
    one (fieldsOf t) (record info) = (info.foldlM enter t).map fieldsOf := by
  have hfold (es : Table Value) (t : Table Value) :
      (fieldsOf es).foldlM (fun m e => entry m e.1 e.2) (fieldsOf t) =
        (es.foldlM enter t).map fieldsOf := by
    induction es generalizing t with
    | nil => rfl
    | cons e es ih =>
      obtain ⟨k, v⟩ := e
      rw [fieldsOf_cons, List.foldlM_cons, List.foldlM_cons]
      dsimp only
      rw [entry_fieldsOf]
      cases enter t (k, v) with
      | ok u => exact ih u
      | error fault => rfl
  rw [one, record_eq, entriesFor]
  exact hfold info t

/-- A merge of tables enters all their entries, one after another. -/
theorem all_records (infos : List (Table Value)) :
    all (infos.map record) = (infos.flatten.foldlM enter []).map record := by
  have hfold (t : Table Value) : (infos.map record).foldlM one (fieldsOf t) =
      (infos.flatten.foldlM enter t).map fieldsOf := by
    induction infos generalizing t with
    | nil => rfl
    | cons info infos ih =>
      rw [List.map_cons, List.foldlM_cons, one_record, List.flatten_cons, List.foldlM_append]
      cases info.foldlM enter t with
      | ok u => exact ih u
      | error fault => rfl
  have hempty : (infos.map record).foldlM one [] = (infos.flatten.foldlM enter []).map fieldsOf :=
    hfold []
  rw [all, hempty]
  cases infos.flatten.foldlM enter [] with
  | ok t => rfl
  | error fault => rfl

/-! ### Facts of one kind -/

def comparedUnder (key : String) (infos : List (Table Value)) : List Value :=
  (infos.flatten.filter (·.1 == key)).flatMap (compared ·.2)

/-- Facts whose keys always hold the same kind of value, with an equality that is an equivalence
between the names or items that are compared. -/
structure Uniform (kind : String → Kind) (infos : List (Table Value)) : Prop where
  holds : ∀ e ∈ infos.flatten, (kind e.1).Holds e.2
  comparable : ∀ key, Comparable (comparedUnder key infos)

def merged (t : Table Value) (es : List (String × Value)) : Table Value :=
  (es.filter (counts ·.2)).foldl (Table.absorb step) t

theorem merged_append (t : Table Value) (es fs : List (String × Value)) :
    merged t (es ++ fs) = merged (merged t es) fs := by
  rw [merged, List.filter_append, List.foldl_append, merged, merged]

theorem merged_cons (t : Table Value) (e : String × Value) (es : List (String × Value)) :
    merged t (e :: es) = if counts e.2 then merged (Table.absorb step t e) es else merged t es := by
  rw [merged, List.filter_cons]
  split <;> rfl

/-- Whether all names can be keys, and what is wrong with the first that cannot. -/
def checkedAll (es : List (String × Value)) : Outcome Unit := es.forM (checked ·.2)

theorem checkedAll_cons (e : String × Value) (es : List (String × Value)) :
    checkedAll (e :: es) = (checked e.2).bind fun _ => checkedAll es := rfl

theorem checkedAll_append (es more : List (String × Value)) :
    checkedAll (es ++ more) = (checkedAll es).bind fun _ => checkedAll more := by
  induction es with
  | nil => rfl
  | cons e es ih =>
    rw [List.cons_append, checkedAll_cons, checkedAll_cons, ih]
    cases checked e.2 <;> rfl

theorem checkedAll_eq_ok_iff : checkedAll es = .ok () ↔ ∀ e ∈ es, checked e.2 = .ok () := by
  induction es with
  | nil => simp [checkedAll, List.forM_eq_forM, pure, Except.pure]
  | cons e es ih =>
    rw [checkedAll_cons, List.forall_mem_cons, ← ih]
    cases checked e.2 with
    | ok u => simp [Except.bind]
    | error fault => simp [Except.bind]

theorem checked_of_not_counts (h : ¬ counts v = true) : checked v = .ok () := by
  cases v with
  | list items => exact absurd rfl h
  | _ => rfl

section Fold

variable {kind : String → Kind} {known : String → List Value} {es : List (String × Value)}

/-- An entry whose value is of the kind of its key, and of which only known values are compared. -/
def Fits (kind : String → Kind) (known : String → List Value) (e : String × Value) : Prop :=
  (kind e.1).Holds e.2 ∧ compared e.2 ⊆ known e.1

/-- Entering entries fails at the first name that cannot be a key, and absorbs them otherwise. -/
theorem foldlM_enter (hes : ∀ e ∈ es, Fits kind known e) {t : Table Value}
    (ht : ∀ d ∈ t, Sound (kind d.1) (known d.1) d.2) :
    es.foldlM enter t = (checkedAll es).map fun _ => merged t es := by
  induction es generalizing t with
  | nil => rfl
  | cons e es ih =>
    obtain ⟨hholds, hcompared⟩ := hes e List.mem_cons_self
    have hrest : ∀ d ∈ es, Fits kind known d := fun d hd => hes d (List.mem_cons_of_mem e hd)
    rw [List.foldlM_cons, checkedAll_cons, enter]
    by_cases hcounts : counts e.2 = true
    · have hold : ∀ w ∈ t.get? e.1, Sound (kind e.1) (known e.1) w := fun w hw =>
        ht (e.1, w) (Table.mem_of_get? hw)
      rw [if_pos hcounts, joinedTo_eq hholds hold]
      cases hchecked : checked e.2 with
      | error fault => rfl
      | ok u =>
        have hsound : Sound (kind e.1) (known e.1) e.2 := ⟨hcounts, hholds, hchecked, hcompared⟩
        rw [merged_cons, if_pos hcounts]
        have hmore : ∀ d ∈ Table.absorb step t e, Sound (kind d.1) (known d.1) d.2 :=
          Table.forall_set (P := fun key v => Sound (kind key) (known key) v) ht
            (sound_step hsound hold)
        exact ih hrest hmore
    · rw [if_neg hcounts, checked_of_not_counts hcounts]
      rw [merged_cons, if_neg hcounts]
      exact ih hrest ht

theorem sound_of_mem_filter (hes : ∀ e ∈ es, Fits kind known e)
    (hchecked : checkedAll es = .ok ()) :
    ∀ e ∈ es.filter (counts ·.2), Sound (kind e.1) (known e.1) e.2 := by
  intro e he
  obtain ⟨hmem, hcounts⟩ := List.mem_filter.mp he
  obtain ⟨hholds, hcompared⟩ := hes e hmem
  exact ⟨hcounts, hholds, checkedAll_eq_ok_iff.mp hchecked e hmem, hcompared⟩

theorem sound_merged (hknown : ∀ key, Comparable (known key)) (hes : ∀ e ∈ es, Fits kind known e)
    (hchecked : checkedAll es = .ok ()) : ∀ d ∈ merged [] es, Sound (kind d.1) (known d.1) d.2 :=
  (joins_step hknown).foldl_absorb (t := []) (by simp) (sound_of_mem_filter hes hchecked)

theorem merged_sound {t : Table Value} (hes : ∀ e ∈ es, Sound (kind e.1) (known e.1) e.2) :
    merged t es = es.foldl (Table.absorb step) t := by
  rw [merged, List.filter_eq_self.mpr fun e he => (hes e he).counts]

/-- Entries that were absorbed in two halves are absorbed from there as they are at once. -/
theorem merged_halves (hknown : ∀ key, Comparable (known key)) {fs : List (String × Value)}
    (hes : ∀ e ∈ es, Fits kind known e) (hfs : ∀ e ∈ fs, Fits kind known e)
    (hesChecked : checkedAll es = .ok ()) (hfsChecked : checkedAll fs = .ok ()) :
    merged [] (merged [] es ++ merged [] fs) = merged [] (es ++ fs) := by
  have hjoins : Table.Joins step fun key v => Sound (kind key) (known key) v :=
    joins_step hknown
  have hfirst := sound_merged hknown hes hesChecked
  have hsecond := sound_merged hknown hfs hfsChecked
  have hboth : ∀ e ∈ merged [] es ++ merged [] fs, Sound (kind e.1) (known e.1) e.2 :=
    fun e he => (List.mem_append.mp he).elim (hfirst e) (hsecond e)
  have hagain : (merged [] es).foldl (Table.absorb step) [] = merged [] es :=
    hjoins.foldl_absorb_foldl (sound_of_mem_filter hes hesChecked) (by simp)
  have hparts : (merged [] fs).foldl (Table.absorb step) (merged [] es) = merged (merged [] es) fs :=
    hjoins.foldl_absorb_foldl (sound_of_mem_filter hfs hfsChecked) hfirst
  calc merged [] (merged [] es ++ merged [] fs)
      = (merged [] fs).foldl (Table.absorb step)
          ((merged [] es).foldl (Table.absorb step) []) := by
        rw [merged_sound hboth, List.foldl_append]
    _ = merged (merged [] es) fs := by rw [hagain, hparts]
    _ = merged [] (es ++ fs) := (merged_append [] es fs).symm

end Fold

theorem fits_comparedUnder (h : ∀ e ∈ infos.flatten, (kind e.1).Holds e.2) :
    ∀ e ∈ infos.flatten, Fits kind (fun key => comparedUnder key infos) e := by
  intro e he
  refine ⟨h e he, ?_⟩
  intro v hv
  exact List.mem_flatMap.mpr ⟨e, List.mem_filter.mpr ⟨he, by simp⟩, hv⟩

/-- Merging two halves, and then what came of them, is merging all at once. -/
theorem all_append {xs ys : List (Table Value)} (h : Uniform kind (xs ++ ys)) :
    all ((xs ++ ys).map record) = (do
      let first ← all (xs.map record)
      let second ← all (ys.map record)
      all [first, second]) := by
  have hfits := fits_comparedUnder h.holds
  rw [List.flatten_append] at hfits
  have hxs := fun e he => hfits e (List.mem_append_left ys.flatten he)
  have hys := fun e he => hfits e (List.mem_append_right xs.flatten he)
  have hknown := h.comparable
  have hempty : ∀ d ∈ ([] : Table Value),
      Sound (kind d.1) (comparedUnder d.1 (xs ++ ys)) d.2 := by simp
  rw [all_records, all_records, all_records, List.flatten_append,
    foldlM_enter hfits hempty, foldlM_enter hxs hempty, foldlM_enter hys hempty,
    checkedAll_append]
  cases hfirst : checkedAll xs.flatten with
  | error fault => rfl
  | ok u =>
    cases hsecond : checkedAll ys.flatten with
    | error fault => rfl
    | ok u =>
      have hsound : ∀ e ∈ merged [] xs.flatten ++ merged [] ys.flatten,
          Sound (kind e.1) (comparedUnder e.1 (xs ++ ys)) e.2 := fun e he =>
        (List.mem_append.mp he).elim (sound_merged hknown hxs hfirst e)
          (sound_merged hknown hys hsecond e)
      have hparts : ∀ e ∈ merged [] xs.flatten ++ merged [] ys.flatten,
          Fits kind (fun key => comparedUnder key (xs ++ ys)) e := fun e he =>
        ⟨(hsound e he).holds, (hsound e he).compared⟩
      have hhalves := all_records [merged [] xs.flatten, merged [] ys.flatten]
      rw [List.flatten_cons, List.flatten_cons, List.flatten_nil, List.append_nil,
        foldlM_enter hparts hempty, checkedAll_eq_ok_iff.mpr fun e he => (hsound e he).checked,
        merged_halves hknown hxs hys hfirst hsecond] at hhalves
      exact hhalves.symm

/-- Where names can be keys, all entries are absorbed. -/
theorem all_eq_merged (h : ∀ e ∈ infos.flatten, (kind e.1).Holds e.2)
    (hkeys : ∀ e ∈ infos.flatten, kind e.1 = .named → ∀ v ∈ compared e.2, v.isKey = true) :
    all (infos.map record) = .ok (record (merged [] infos.flatten)) := by
  have hchecked : checkedAll infos.flatten = .ok () := by
    refine checkedAll_eq_ok_iff.mpr ?_
    intro e he
    have hholds := h e he
    cases hkind : kind e.1 with
    | named =>
      rw [hkind] at hholds
      obtain ⟨items, hitems, hnamed⟩ := hholds
      have hnames := hkeys e he hkind
      rw [hitems, compared_named hnamed] at hnames
      rw [hitems]
      refine checked_of_hasKey fun i hi => ⟨exists_of_isNamed (hnamed i hi), ?_⟩
      exact hnames _ (List.mem_map_of_mem hi)
    | plain =>
      rw [hkind] at hholds
      obtain ⟨items, hitems, hplain⟩ := hholds
      rw [hitems, checked, isNamed_plain hplain, if_neg Bool.false_ne_true]
    | single =>
      rw [hkind] at hholds
      cases hvalue : e.2 with
      | list items => exact absurd hvalue (hholds items)
      | _ => rfl
  rw [all_records, foldlM_enter (fits_comparedUnder h) (by simp), hchecked]
  rfl

theorem all_eq_ok (h : Uniform kind infos)
    (hkeys : ∀ e ∈ infos.flatten, kind e.1 = .named → ∀ v ∈ compared e.2, v.isKey = true) :
    ∃ v, all (infos.map record) = .ok v := ⟨_, all_eq_merged h.holds hkeys⟩

/-! ### Facts merged with themselves -/

theorem joined_again_named {items : List Value} (hnamed : isNamed items = true)
    (hself : ∀ i ∈ items, same (nameOf i) (nameOf i) = true) (h : joined (list []) items = .ok v) :
    joined v items = .ok v := by
  rw [joined, if_pos hnamed] at h
  cases hnew : unknownItems [] items with
  | error fault => simp [namesOf, bind, Except.bind, hnew] at h
  | ok news =>
    have hkeys := hasKey_of_unknownItems hnew
    have hv : v = list items := by
      simpa [namesOf, bind, Except.bind, unknownItems_nil_eq_ok hkeys, pure, Except.pure,
        eq_comm] using h
    have hnone : items.filter (isNewTo items) = [] := by
      rw [List.filter_eq_nil_iff]
      intro i hi
      simp only [isNewTo, Bool.not_eq_true', Bool.not_eq_false, List.any_map, List.any_eq_true]
      exact ⟨i, hi, hself i hi⟩
    subst hv
    rw [joined, if_pos hnamed, namesOf_eq hkeys]
    simp only [bind, Except.bind]
    rw [unknownItems_eq, unknownItems_nil_eq_ok hkeys]
    change Except.ok (list (items ++ items.filter (isNewTo items))) = _
    rw [hnone, List.append_nil]

theorem joined_again_plain {items : List Value} (hplain : ¬ isNamed items = true)
    (hself : ∀ i ∈ items, same i i = true) (h : joined (list []) items = .ok v) :
    joined v items = .ok v := by
  rw [joined, if_neg hplain] at h
  have hv : v = list (distinct [] items) := (Except.ok.inj h).symm
  have hkept : distinct (distinct [] items) items = distinct [] items := by
    apply distinct_eq_self
    intro i hi
    exact any_distinct [] (hself i hi) hi
  subst hv
  rw [joined, if_neg hplain, hkept]
  rfl

theorem joinedTo_again {w : Value} (hself : ∀ c ∈ compared v, same c c = true)
    (h : joinedTo none v = .ok w) : joinedTo (some w) v = .ok w := by
  cases v with
  | list items =>
    rw [compared] at hself
    by_cases hnamed : isNamed items = true
    · rw [if_pos hnamed] at hself
      exact joined_again_named hnamed (fun i hi => hself _ (List.mem_map_of_mem hi)) h
    · rw [if_neg hnamed] at hself
      exact joined_again_plain hnamed hself h
  | _ => rfl

theorem get?_foldlM_enter_of_ne {name : String} (hes : ∀ e ∈ es, e.1 ≠ name) {u : Table Value}
    (h : es.foldlM enter t = .ok u) : u.get? name = t.get? name := by
  induction es generalizing t with
  | nil => cases h; rfl
  | cons e es ih =>
    have hne : name ≠ e.1 := (hes e List.mem_cons_self).symm
    rw [List.foldlM_cons, enter] at h
    split at h
    · cases hjoined : joinedTo (t.get? e.1) e.2 with
      | error fault => rw [hjoined] at h; cases h
      | ok w =>
        rw [hjoined] at h
        rw [ih (fun d hd => hes d (List.mem_cons_of_mem e hd)) h, Table.get?_set, if_neg hne]
    · exact ih (fun d hd => hes d (List.mem_cons_of_mem e hd)) h

/-- Entries of different names that are new stand in the merge as they are joined to nothing. -/
theorem get?_foldlM_enter {es : Table Value} (hnd : es.names.Nodup) {u : Table Value}
    (hnew : ∀ e ∈ es, t.get? e.1 = none) (h : es.foldlM enter t = .ok u) :
    ∀ e ∈ es, counts e.2 = true → ∃ w, joinedTo none e.2 = .ok w ∧ u.get? e.1 = some w := by
  induction es generalizing t with
  | nil => simp
  | cons d es ih =>
    rw [Table.names_cons, List.nodup_cons] at hnd
    have hother : ∀ e ∈ es, e.1 ≠ d.1 := by
      intro e he heq
      exact hnd.1 (Table.mem_names.mpr ⟨e.2, heq ▸ he⟩)
    have hfirst : t.get? d.1 = none := hnew d List.mem_cons_self
    have hrest : ∀ e ∈ es, t.get? e.1 = none := fun e he => hnew e (List.mem_cons_of_mem d he)
    rw [List.foldlM_cons, enter, hfirst] at h
    intro e he hcounts
    split at h
    · cases hjoined : joinedTo none d.2 with
      | error fault => rw [hjoined] at h; cases h
      | ok w =>
        rw [hjoined] at h
        rcases List.mem_cons.mp he with rfl | he
        · refine ⟨w, hjoined, ?_⟩
          rw [get?_foldlM_enter_of_ne hother h, Table.get?_set, if_pos rfl]
        · refine ih hnd.2 ?_ h e he hcounts
          intro c hc
          rw [Table.get?_set, if_neg (hother c hc), hrest c hc]
    · rcases List.mem_cons.mp he with rfl | he
      · rename_i hnot
        exact absurd hcounts hnot
      · exact ih hnd.2 hrest h e he hcounts

theorem foldlM_enter_eq_self (h : ∀ e ∈ es, enter t e = .ok t) : es.foldlM enter t = .ok t := by
  induction es with
  | nil => rfl
  | cons e es ih =>
    rw [List.foldlM_cons, h e List.mem_cons_self]
    exact ih fun d hd => h d (List.mem_cons_of_mem e hd)

theorem all_repeated {info : Table Value} (hnd : info.names.Nodup)
    (hself : ∀ e ∈ info, ∀ v ∈ compared e.2, same v v = true) :
    all [record info, record info] = all [record info] := by
  have htwice := all_records [info, info]
  have honce := all_records [info]
  simp only [List.map_cons, List.map_nil, List.flatten_cons, List.flatten_nil, List.append_nil]
    at htwice honce
  rw [htwice, honce, List.foldlM_append]
  cases hfold : info.foldlM enter [] with
  | error fault => rfl
  | ok t =>
    have hfirst := get?_foldlM_enter hnd (t := []) (fun _ _ => rfl) hfold
    have hkept : info.foldlM enter t = .ok t := by
      apply foldlM_enter_eq_self
      intro e he
      rw [enter]
      by_cases hcounts : counts e.2 = true
      · obtain ⟨w, hjoined, hget⟩ := hfirst e he hcounts
        rw [if_pos hcounts, hget, joinedTo_again (hself e he) hjoined]
        change Except.ok (t.set e.1 w) = _
        rw [Table.set_of_get? hget]
      · rw [if_neg hcounts]
    change (info.foldlM enter t).map record = _
    rw [hkept]

/-! ### Both -/

theorem eq_text_of_text? {s : String} (h : v.text? = some s) : v = text s := by
  cases v with
  | text t => rw [Option.some.inj h]
  | _ => cases h

/-- Texts are compared by an equivalence. -/
theorem comparable_texts {vs : List Value} (h : ∀ v ∈ vs, v.text?.isSome = true) :
    Comparable vs := by
  have heq (a b : { v // v ∈ vs }) : same a.1 b.1 = true ↔ a = b := by
    obtain ⟨a, ha⟩ := a
    obtain ⟨b, hb⟩ := b
    obtain ⟨s, hs⟩ := Option.isSome_iff_exists.mp (h a ha)
    obtain ⟨t, ht⟩ := Option.isSome_iff_exists.mp (h b hb)
    obtain rfl := eq_text_of_text? hs
    obtain rfl := eq_text_of_text? ht
    simp [same_text_text]
  refine ⟨fun a => (heq a a).mpr rfl, ?_, ?_⟩
  · intro a b hab
    rw [(heq a b).mp hab]
    exact (heq b b).mpr rfl
  · intro a b c hab hbc
    rw [(heq a b).mp hab]
    exact hbc

/-- The facts of a chunk that cuts a class off, and of the next one. -/
def firstChunk : Table Value :=
  [("package", text "p"), ("imports", texts ["p.B"]), ("classes", list [record [("name", text "A")]])]

@[inherit_doc firstChunk]
def secondChunk : Table Value :=
  [("package", text ""), ("imports", texts ["p.C", "p.B"]),
    ("classes", list [record [("name", text "A"), ("methods", texts ["f"])],
      record [("name", text "B")]])]

/-- What the keys of these facts hold. -/
def chunkKind (key : String) : Kind :=
  if key = "classes" then .named else if key = "imports" then .plain else .single

theorem uniform_chunks : Uniform chunkKind ([firstChunk] ++ [secondChunk]) where
  holds := by
    intro e he
    simp only [firstChunk, secondChunk, List.cons_append, List.nil_append, List.flatten_cons,
      List.flatten_nil, List.mem_cons, List.not_mem_nil, or_false] at he
    rcases he with rfl | rfl | rfl | rfl | rfl | rfl
    · exact fun _ h => by cases h
    · exact ⟨_, rfl, by decide⟩
    · exact ⟨_, rfl, by decide⟩
    · exact fun _ h => by cases h
    · exact ⟨_, rfl, by decide⟩
    · exact ⟨_, rfl, by decide⟩
  comparable := by
    intro key
    apply comparable_texts
    intro v hv
    obtain ⟨e, he, hv⟩ := List.mem_flatMap.mp hv
    have hall : ∀ e ∈ ([firstChunk] ++ [secondChunk]).flatten, ∀ v ∈ compared e.2,
        v.text?.isSome = true := by decide
    exact hall e (List.mem_filter.mp he).1 v hv

end CodeScribe.Merge
