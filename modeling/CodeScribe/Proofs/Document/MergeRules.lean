import CodeScribe.Document.Merge
import CodeScribe.Proofs.Table.Absorb

/-!
# The rules of a merge

A merge joins lists of named items by their names, other lists by their items, and keeps the first
of other values.  On values of one kind each of these rules is associative, and joining fails only
where a name cannot be a key, whatever is there already.

* `Merge.any_distinct`, `Merge.distinct_append` — lists joined by their items.
-/

namespace CodeScribe.Merge

open Value

variable {items olds : List Value} {v : Value} {o : Option Value} {kind : Kind}

/-! ### One value -/

/-- Whether a value counts in a merge: nothing and the empty text do not. -/
def counts : Value → Bool
  | null => false
  | text "" => false
  | _ => true

/-- What a value becomes when it is joined to what is there already, if anything is. -/
def joinedTo (old : Option Value) : Value → Outcome Value
  | list items => joined (old.getD (list [])) items
  | other => .ok (old.getD other)

/-! ### Names -/

def nameOf (item : Value) : Value := (item.get? "name").getD null

def isNewTo (olds : List Value) (item : Value) : Bool :=
  !(olds.map nameOf).any (same (nameOf item))

/-- Whether the names of items can be keys does not depend on the names that are known. -/
theorem unknownItems_eq (known items : List Value) :
    unknownItems known items =
      (unknownItems [] items).map (List.filter fun i => !known.any (same (nameOf i))) := by
  induction items with
  | nil => rfl
  | cons item rest ih =>
    rw [unknownItems, unknownItems, ih]
    cases item with
    | map entries =>
      have hfield : (map entries).fieldOrNull "name" = .ok (nameOf (map entries)) := rfl
      rw [hfield]
      cases hkey : (nameOf (map entries)).asKey with
      | error fault => simp [bind, Except.bind, hkey, Except.map]
      | ok name =>
        have hname : name = nameOf (map entries) := by
          rw [asKey] at hkey
          split at hkey
          · cases hkey; rfl
          · cases hkey
        subst hname
        cases unknownItems [] rest with
        | error fault => simp [bind, Except.bind, hkey, Except.map]
        | ok more =>
          simp only [bind, Except.bind, hkey, Except.map, pure, Except.pure, List.any_nil]
          by_cases hany : known.any (same (nameOf (map entries))) = true
          · simp [hany]
          · simp [hany]
    | _ => rfl

def HasKey (item : Value) : Prop := (∃ entries, item = map entries) ∧ (nameOf item).isKey = true

theorem namesOf_eq (h : ∀ i ∈ items, HasKey i) : namesOf items = .ok (items.map nameOf) := by
  induction items with
  | nil => rfl
  | cons item rest ih =>
    obtain ⟨⟨entries, rfl⟩, hkey⟩ := h item List.mem_cons_self
    have hname : (lookup (text "name") entries).getD null = nameOf (map entries) := rfl
    rw [namesOf, hname, asKey, if_pos hkey, ih fun i hi => h i (List.mem_cons_of_mem _ hi)]
    rfl

theorem unknownItems_nil_eq_ok (h : ∀ i ∈ items, HasKey i) : unknownItems [] items = .ok items := by
  induction items with
  | nil => rfl
  | cons item rest ih =>
    obtain ⟨⟨entries, rfl⟩, hkey⟩ := h item List.mem_cons_self
    have hfield : (map entries).fieldOrNull "name" = .ok (nameOf (map entries)) := rfl
    rw [unknownItems, hfield, ih fun i hi => h i (List.mem_cons_of_mem _ hi)]
    simp [bind, Except.bind, asKey, hkey, pure, Except.pure]

theorem hasKey_of_unknownItems {news : List Value} (h : unknownItems [] items = .ok news) :
    ∀ i ∈ items, HasKey i := by
  induction items generalizing news with
  | nil => simp
  | cons item rest ih =>
    rw [unknownItems] at h
    cases item with
    | map entries =>
      have hfield : (map entries).fieldOrNull "name" = .ok (nameOf (map entries)) := rfl
      rw [hfield] at h
      by_cases hkey : (nameOf (map entries)).isKey = true
      · cases hrest : unknownItems [] rest with
        | error fault => simp [bind, Except.bind, asKey, hkey, hrest] at h
        | ok more =>
          intro i hi
          rcases List.mem_cons.mp hi with rfl | hi
          · exact ⟨⟨entries, rfl⟩, hkey⟩
          · exact ih hrest i hi
      · simp [bind, Except.bind, asKey, hkey] at h
    | _ => cases h

/-! ### Items without names -/

theorem distinct_cons (olds : List Value) (item : Value) (rest : List Value) :
    distinct olds (item :: rest) =
      distinct (if olds.any (same item) then olds else olds ++ [item]) rest := rfl

theorem distinct_append (olds items more : List Value) :
    distinct olds (items ++ more) = distinct (distinct olds items) more := by
  induction items generalizing olds with
  | nil => rfl
  | cons item items ih => rw [List.cons_append, distinct_cons, distinct_cons, ih]

theorem subset_distinct (olds items : List Value) : olds ⊆ distinct olds items := by
  induction items generalizing olds with
  | nil => exact List.Subset.refl _
  | cons item items ih =>
    rw [distinct_cons]
    split
    · exact ih olds
    · exact List.Subset.trans (List.subset_append_left _ _) (ih _)

theorem mem_of_mem_distinct (h : v ∈ distinct olds items) : v ∈ olds ∨ v ∈ items := by
  induction items generalizing olds with
  | nil => exact Or.inl h
  | cons item items ih =>
    rw [distinct_cons] at h
    rcases ih h with h | h
    · split at h
      · exact Or.inl h
      · rcases List.mem_append.mp h with h | h
        · exact Or.inl h
        · rw [List.mem_singleton.mp h]
          exact Or.inr List.mem_cons_self
    · exact Or.inr (List.mem_cons_of_mem _ h)

/-- Every item that is the same as itself is found among those that are kept. -/
theorem any_distinct (olds : List Value) (hself : same v v = true) (h : v ∈ items) :
    (distinct olds items).any (same v) = true := by
  obtain ⟨before, after, rfl⟩ := List.append_of_mem h
  rw [distinct_append, distinct_cons]
  refine List.any_eq_true.mpr ?_
  split
  · rename_i hany
    obtain ⟨w, hw, hsame⟩ := List.any_eq_true.mp hany
    exact ⟨w, subset_distinct _ _ hw, hsame⟩
  · exact ⟨v, subset_distinct _ _ (by simp), hself⟩

theorem distinct_eq_self (h : ∀ v ∈ items, olds.any (same v) = true) :
    distinct olds items = olds := by
  induction items with
  | nil => rfl
  | cons item items ih =>
    rw [distinct_cons, if_pos (h item List.mem_cons_self)]
    exact ih fun v hv => h v (List.mem_cons_of_mem _ hv)

/-! ### Kinds of values -/

/-- What a key holds: lists of tables with names, lists of other items, or no lists. -/
inductive Kind where
  | named
  | plain
  | single
deriving DecidableEq

def Kind.Holds : Kind → Value → Prop
  | named, v => ∃ items, v = list items ∧ ∀ i ∈ items, isNamed [i] = true
  | plain, v => ∃ items, v = list items ∧ ∀ i ∈ items, isNamed [i] = false
  | single, v => ∀ items, v ≠ list items

/-- What is compared when a value is merged: the names of named items, or the items themselves. -/
def compared : Value → List Value
  | list items => if isNamed items then items.map nameOf else items
  | _ => []

theorem isNamed_cons (item : Value) (rest : List Value) :
    isNamed (item :: rest) = isNamed [item] := by
  cases item <;> rfl

theorem compared_named (h : ∀ i ∈ items, isNamed [i] = true) :
    compared (list items) = items.map nameOf := by
  cases items with
  | nil => rfl
  | cons item rest => rw [compared, isNamed_cons, if_pos (h item List.mem_cons_self)]

theorem isNamed_plain (h : ∀ i ∈ items, isNamed [i] = false) : isNamed items = false := by
  cases items with
  | nil => rfl
  | cons item rest => rw [isNamed_cons, h item List.mem_cons_self]

theorem compared_plain (h : ∀ i ∈ items, isNamed [i] = false) : compared (list items) = items := by
  rw [compared, isNamed_plain h, if_neg Bool.false_ne_true]

theorem exists_of_isNamed {item : Value} (h : isNamed [item] = true) :
    ∃ entries, item = map entries := by
  cases item with
  | map entries => exact ⟨entries, rfl⟩
  | _ => cases h

/-! ### The rules of a merge -/

def joinedItems (olds items : List Value) : List Value :=
  if isNamed items then olds ++ items.filter (isNewTo olds) else distinct olds items

def oldItems (old : Option Value) : List Value := (old.getD (list [])).items

@[simp] theorem oldItems_none : oldItems none = [] := rfl

@[simp] theorem oldItems_list (items : List Value) : oldItems (some (list items)) = items := rfl

def step (v : Value) (old : Option Value) : Value :=
  match v with
  | list items => list (joinedItems (oldItems old) items)
  | other => old.getD other

/-- Whether the names of a value can be keys, and what is wrong if they cannot. -/
def checked : Value → Outcome Unit
  | list items => if isNamed items then (unknownItems [] items).map fun _ => () else .ok ()
  | _ => .ok ()

theorem joinedItems_named (h : ∀ i ∈ items, isNamed [i] = true) (olds : List Value) :
    joinedItems olds items = olds ++ items.filter (isNewTo olds) := by
  cases items with
  | nil => simp [joinedItems, isNamed, distinct]
  | cons item rest => rw [joinedItems, isNamed_cons, if_pos (h item List.mem_cons_self)]

theorem joinedItems_plain (h : ∀ i ∈ items, isNamed [i] = false) (olds : List Value) :
    joinedItems olds items = distinct olds items := by
  rw [joinedItems, isNamed_plain h, if_neg Bool.false_ne_true]

/-- A value that counts, of one kind, with names that can be keys, and of which only values of some
list are compared. -/
structure Sound (kind : Kind) (known : List Value) (v : Value) : Prop where
  counts : counts v = true
  holds : kind.Holds v
  checked : checked v = .ok ()
  compared : compared v ⊆ known

/-- Equality is an equivalence between some values. -/
def Comparable (vs : List Value) : Prop :=
  Equivalence fun a b : { v // v ∈ vs } => same a.1 b.1 = true

theorem Comparable.self {vs : List Value} (h : Comparable vs) {a : Value} (ha : a ∈ vs) :
    same a a = true := h.refl ⟨a, ha⟩

theorem Comparable.trans {vs : List Value} (h : Comparable vs) {a b c : Value} (ha : a ∈ vs)
    (hb : b ∈ vs) (hc : c ∈ vs) (hab : same a b = true) (hbc : same b c = true) :
    same a c = true :=
  Equivalence.trans (r := fun a b : { v // v ∈ vs } => same a.1 b.1 = true) h
    (x := ⟨a, ha⟩) (y := ⟨b, hb⟩) (z := ⟨c, hc⟩) hab hbc

variable {known : List Value}

theorem hasKey_of_checked (hnamed : ∀ i ∈ items, isNamed [i] = true)
    (h : checked (list items) = .ok ()) : ∀ i ∈ items, HasKey i := by
  cases items with
  | nil => simp
  | cons item rest =>
    rw [checked, isNamed_cons, if_pos (hnamed item List.mem_cons_self)] at h
    cases hnew : unknownItems [] (item :: rest) with
    | ok news => exact hasKey_of_unknownItems hnew
    | error fault => rw [hnew] at h; cases h

theorem checked_of_hasKey (h : ∀ i ∈ items, HasKey i) : checked (list items) = .ok () := by
  rw [checked, unknownItems_nil_eq_ok h]
  split <;> rfl

/-- The lists of a kind that are there already. -/
theorem Sound.list_of_named (h : Sound .named known v) :
    ∃ items, v = list items ∧ (∀ i ∈ items, isNamed [i] = true) ∧ (∀ i ∈ items, HasKey i) ∧
      ∀ i ∈ items, nameOf i ∈ known := by
  obtain ⟨items, rfl, hnamed⟩ := h.holds
  refine ⟨items, rfl, hnamed, hasKey_of_checked hnamed h.checked, ?_⟩
  intro i hi
  apply h.compared
  rw [compared_named hnamed]
  exact List.mem_map_of_mem hi

theorem Sound.list_of_plain (h : Sound .plain known v) :
    ∃ items, v = list items ∧ (∀ i ∈ items, isNamed [i] = false) ∧ items ⊆ known := by
  obtain ⟨items, rfl, hplain⟩ := h.holds
  have hcompared := h.compared
  rw [compared_plain hplain] at hcompared
  exact ⟨items, rfl, hplain, hcompared⟩

theorem sound_named (hnamed : ∀ i ∈ items, isNamed [i] = true) (hkey : ∀ i ∈ items, HasKey i)
    (hknown : ∀ i ∈ items, nameOf i ∈ known) : Sound .named known (list items) where
  counts := rfl
  holds := ⟨items, rfl, hnamed⟩
  checked := checked_of_hasKey hkey
  compared := by
    rw [compared_named hnamed]
    intro v hv
    obtain ⟨i, hi, rfl⟩ := List.mem_map.mp hv
    exact hknown i hi

theorem sound_plain (hplain : ∀ i ∈ items, isNamed [i] = false) (hknown : items ⊆ known) :
    Sound .plain known (list items) where
  counts := rfl
  holds := ⟨items, rfl, hplain⟩
  checked := by rw [Merge.checked, isNamed_plain hplain, if_neg Bool.false_ne_true]
  compared := by rwa [compared_plain hplain]

theorem olds_named (h : ∀ v ∈ o, Sound .named known v) :
    (∀ i ∈ oldItems o, isNamed [i] = true) ∧ (∀ i ∈ oldItems o, HasKey i) ∧
      ∀ i ∈ oldItems o, nameOf i ∈ known := by
  cases o with
  | none => simp
  | some v =>
    obtain ⟨olds, rfl, hall⟩ := (h v rfl).list_of_named
    exact hall

theorem olds_plain (h : ∀ v ∈ o, Sound .plain known v) :
    (∀ i ∈ oldItems o, isNamed [i] = false) ∧ oldItems o ⊆ known := by
  cases o with
  | none => simp
  | some v =>
    obtain ⟨olds, rfl, hall⟩ := (h v rfl).list_of_plain
    exact hall

theorem olds_eq (hkind : kind ≠ .single) (h : ∀ v ∈ o, Sound kind known v) :
    o.getD (list []) = list (oldItems o) := by
  cases o with
  | none => rfl
  | some v =>
    cases kind with
    | named => obtain ⟨olds, rfl, -⟩ := (h v rfl).list_of_named; rfl
    | plain => obtain ⟨olds, rfl, -⟩ := (h v rfl).list_of_plain; rfl
    | single => exact absurd rfl hkind

/-- Joining a value fails if its names cannot be keys, whatever is there already, and is otherwise
a rule of the merge. -/
theorem joinedTo_eq (hv : kind.Holds v) (ho : ∀ w ∈ o, Sound kind known w) :
    joinedTo o v = (checked v).map fun _ => step v o := by
  cases kind with
  | named =>
    obtain ⟨items, rfl, hnamed⟩ := hv
    obtain ⟨-, hkeys, -⟩ := olds_named ho
    rw [joinedTo, olds_eq (by decide) ho, joined, step]
    cases items with
    | nil => simp [isNamed, checked, joinedItems, Except.map, pure, Except.pure]
    | cons item rest =>
      have hhead : isNamed (item :: rest) = true := by
        rw [isNamed_cons, hnamed item List.mem_cons_self]
      rw [hhead, if_pos rfl, namesOf_eq hkeys, checked, hhead, if_pos rfl, joinedItems, hhead,
        if_pos rfl]
      simp only [bind, Except.bind]
      rw [unknownItems_eq]
      cases hnew : unknownItems [] (item :: rest) with
      | error fault => rfl
      | ok news =>
        have hnews : news = item :: rest := by
          rw [unknownItems_nil_eq_ok (hasKey_of_unknownItems hnew)] at hnew
          exact (Except.ok.inj hnew).symm
        subst hnews
        rfl
  | plain =>
    obtain ⟨items, rfl, hplain⟩ := hv
    rw [joinedTo, olds_eq (by decide) ho, joined, step, checked, isNamed_plain hplain,
      if_neg Bool.false_ne_true, if_neg Bool.false_ne_true, joinedItems_plain hplain]
    rfl
  | single =>
    cases v with
    | list items => exact absurd rfl (hv items)
    | _ => rfl

theorem sound_step (hv : Sound kind known v) (ho : ∀ w ∈ o, Sound kind known w) :
    Sound kind known (step v o) := by
  cases kind with
  | named =>
    obtain ⟨items, rfl, hnamed, hkeys, hnames⟩ := hv.list_of_named
    obtain ⟨onamed, okeys, onames⟩ := olds_named ho
    rw [step, joinedItems_named hnamed]
    have hsub : ∀ i ∈ oldItems o ++ items.filter (isNewTo (oldItems o)),
        i ∈ oldItems o ∨ i ∈ items := by
      intro i hi
      exact (List.mem_append.mp hi).imp_right fun hi => (List.mem_filter.mp hi).1
    apply sound_named
    · exact fun i hi => (hsub i hi).elim (onamed i) (hnamed i)
    · exact fun i hi => (hsub i hi).elim (okeys i) (hkeys i)
    · exact fun i hi => (hsub i hi).elim (onames i) (hnames i)
  | plain =>
    obtain ⟨items, rfl, hplain, hitems⟩ := hv.list_of_plain
    obtain ⟨oplain, oitems⟩ := olds_plain ho
    rw [step, joinedItems_plain hplain]
    apply sound_plain
    · exact fun i hi => (mem_of_mem_distinct hi).elim (oplain i) (hplain i)
    · exact fun i hi => (mem_of_mem_distinct hi).elim (oitems ·) (hitems ·)
  | single =>
    cases o with
    | none =>
      cases v with
      | list items => exact absurd rfl (hv.holds items)
      | _ => exact hv
    | some w =>
      cases v with
      | list items => exact absurd rfl (hv.holds items)
      | _ => exact ho w rfl

/-! ### Associativity -/

theorem isNewTo_append (hknown : Comparable known) {i : Value}
    (holds : ∀ o ∈ olds, nameOf o ∈ known) (hitems : ∀ a ∈ items, nameOf a ∈ known)
    (hi : nameOf i ∈ known) :
    isNewTo (olds ++ items.filter (isNewTo olds)) i = (isNewTo olds i && isNewTo items i) := by
  have hiff : (∃ x ∈ olds ++ items.filter (isNewTo olds), same (nameOf i) (nameOf x) = true) ↔
      (∃ o ∈ olds, same (nameOf i) (nameOf o) = true) ∨
        ∃ a ∈ items, same (nameOf i) (nameOf a) = true := by
    constructor
    · rintro ⟨x, hx, hsame⟩
      rcases List.mem_append.mp hx with hx | hx
      · exact Or.inl ⟨x, hx, hsame⟩
      · exact Or.inr ⟨x, (List.mem_filter.mp hx).1, hsame⟩
    · rintro (⟨o, ho, hsame⟩ | ⟨a, ha, hsame⟩)
      · exact ⟨o, List.mem_append_left _ ho, hsame⟩
      · by_cases hnew : isNewTo olds a = true
        · exact ⟨a, List.mem_append_right _ (List.mem_filter.mpr ⟨ha, hnew⟩), hsame⟩
        -- An item that was left out has the name of one that was there, which `i` then has too.
        · simp only [isNewTo, Bool.not_eq_true', Bool.not_eq_false, List.any_map,
            List.any_eq_true] at hnew
          obtain ⟨o, ho, hao⟩ := hnew
          exact ⟨o, List.mem_append_left _ ho,
            hknown.trans hi (hitems a ha) (holds o ho) hsame hao⟩
  have hbool (vs : List Value) : isNewTo vs i = true ↔
      ¬ ∃ x ∈ vs, same (nameOf i) (nameOf x) = true := by
    simp [isNewTo]
  rw [Bool.eq_iff_iff, Bool.and_eq_true, hbool, hbool, hbool, hiff, not_or]

theorem joinedItems_assoc_named (hknown : Comparable known) {as bs : List Value}
    (holds : ∀ o ∈ olds, nameOf o ∈ known) (has : ∀ a ∈ as, nameOf a ∈ known)
    (hbs : ∀ b ∈ bs, nameOf b ∈ known) (hasNamed : ∀ a ∈ as, isNamed [a] = true)
    (hbsNamed : ∀ b ∈ bs, isNamed [b] = true) :
    joinedItems olds (joinedItems as bs) = joinedItems (joinedItems olds as) bs := by
  have hall : ∀ x ∈ as ++ bs.filter (isNewTo as), isNamed [x] = true := by
    intro x hx
    rcases List.mem_append.mp hx with hx | hx
    · exact hasNamed x hx
    · exact hbsNamed x (List.mem_filter.mp hx).1
  rw [joinedItems_named hbsNamed as, joinedItems_named hall, joinedItems_named hasNamed,
    joinedItems_named hbsNamed, List.filter_append, List.filter_filter, List.append_assoc]
  congr 2
  apply List.filter_congr
  intro b hb
  rw [isNewTo_append hknown holds has (hbs b hb)]

theorem distinct_assoc (hknown : Comparable known) (olds : List Value) {as bs : List Value}
    (holds : olds ⊆ known) (has : as ⊆ known) (hbs : bs ⊆ known) :
    distinct olds (distinct as bs) = distinct (distinct olds as) bs := by
  induction bs generalizing as with
  | nil => rfl
  | cons b bs ih =>
    have hb : b ∈ known := hbs List.mem_cons_self
    have hrest : bs ⊆ known := fun v hv => hbs (List.mem_cons_of_mem _ hv)
    rw [distinct_cons, distinct_cons]
    by_cases hany : as.any (same b) = true
    -- What an earlier item stands for is found again among the kept ones.
    · have hfound : (distinct olds as).any (same b) = true := by
        obtain ⟨a, ha, hba⟩ := List.any_eq_true.mp hany
        obtain ⟨w, hw, haw⟩ := List.any_eq_true.mp (any_distinct olds (hknown.self (has ha)) ha)
        have hw' : w ∈ known := (mem_of_mem_distinct hw).elim (holds ·) (has ·)
        exact List.any_eq_true.mpr ⟨w, hw, hknown.trans hb (has ha) hw' hba haw⟩
      rw [if_pos hany, if_pos hfound, ih has hrest]
    · have hmore : as ++ [b] ⊆ known := by
        intro v hv
        rcases List.mem_append.mp hv with hv | hv
        · exact has hv
        · rwa [List.mem_singleton.mp hv]
      rw [if_neg hany, ih hmore hrest, distinct_append]
      rfl

/-- The rules of a merge are associative on the values of one kind. -/
theorem joins_step {kind : String → Kind} {known : String → List Value}
    (hknown : ∀ key, Comparable (known key)) :
    Table.Joins step fun key v => Sound (kind key) (known key) v where
  closed := sound_step
  unit := by
    intro key a o ha ho
    cases hkind : kind key with
    | named =>
      rw [hkind] at ha
      obtain ⟨as, rfl, hnamed, -⟩ := ha.list_of_named
      have hempty : step (list as) none = list as := by
        simp [step, joinedItems_named hnamed, isNewTo]
      rw [hempty]
    | plain =>
      rw [hkind] at ha ho
      obtain ⟨as, rfl, hplain, has⟩ := ha.list_of_plain
      obtain ⟨-, oitems⟩ := olds_plain ho
      have hdistinct : ∀ i ∈ distinct [] as, isNamed [i] = false := by
        intro i hi
        exact (mem_of_mem_distinct hi).elim (fun h => by simp at h) (hplain i)
      have hfirst : step (list as) none = list (distinct [] as) := by
        simp [step, joinedItems_plain hplain]
      rw [hfirst, step, step, joinedItems_plain hdistinct, joinedItems_plain hplain,
        distinct_assoc (hknown key) _ oitems (List.nil_subset _) has]
      rfl
    | single =>
      rw [hkind] at ha
      cases a with
      | list items => exact absurd rfl (ha.holds items)
      | _ => rfl
  assoc := by
    intro key a b o ha hb ho
    cases hkind : kind key with
    | named =>
      rw [hkind] at ha hb ho
      obtain ⟨as, rfl, asNamed, -, asNames⟩ := ha.list_of_named
      obtain ⟨bs, rfl, bsNamed, -, bsNames⟩ := hb.list_of_named
      obtain ⟨-, -, onames⟩ := olds_named ho
      simp only [step, oldItems_list]
      rw [joinedItems_assoc_named (hknown key) onames asNames bsNames asNamed bsNamed]
    | plain =>
      rw [hkind] at ha hb ho
      obtain ⟨as, rfl, asPlain, hasKnown⟩ := ha.list_of_plain
      obtain ⟨bs, rfl, bsPlain, hbsKnown⟩ := hb.list_of_plain
      obtain ⟨-, oitems⟩ := olds_plain ho
      have hjoined : ∀ i ∈ distinct as bs, isNamed [i] = false := fun i hi =>
        (mem_of_mem_distinct hi).elim (asPlain i) (bsPlain i)
      simp only [step, oldItems_list]
      rw [joinedItems_plain bsPlain, joinedItems_plain hjoined, joinedItems_plain asPlain,
        joinedItems_plain bsPlain, distinct_assoc (hknown key) _ oitems hasKnown hbsKnown]
    | single =>
      rw [hkind] at hb
      cases b with
      | list items => exact absurd rfl (hb.holds items)
      | _ =>
        rw [hkind] at ha
        cases a with
        | list items => exact absurd rfl (ha.holds items)
        | _ => rfl

end CodeScribe.Merge
