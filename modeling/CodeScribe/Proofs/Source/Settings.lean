import CodeScribe.Proofs.Frame
import CodeScribe.Source.Plain

/-!
# The keys of settings files

The outermost keys of a settings file are keys of a table, so no list and no table is among them,
whichever format the file has.
-/

namespace CodeScribe

open Value Settings

variable {entries : List (Value × Value)}

def HaveKeys (entries : List (Value × Value)) : Prop := ∀ e ∈ entries, e.1.isKey = true

/-- The keys of a table in which a key gets a value are the old ones and that key. -/
theorem forall_key_insert {P : Value → Prop} (h : ∀ e ∈ entries, P e.1) {key : Value} (hkey : P key)
    (value : Value) : ∀ e ∈ Value.insert key value entries, P e.1 := by
  induction entries with
  | nil => simpa [Value.insert] using hkey
  | cons e entries ih =>
    obtain ⟨hhead, htail⟩ := List.forall_mem_cons.mp h
    rw [Value.insert]
    split
    · exact List.forall_mem_cons.mpr ⟨hhead, htail⟩
    · exact List.forall_mem_cons.mpr ⟨hhead, ih htail⟩

theorem HaveKeys.insert (h : HaveKeys entries) {key : Value} (hkey : key.isKey = true)
    (value : Value) : HaveKeys (Value.insert key value entries) :=
  forall_key_insert (P := fun k => k.isKey = true) h hkey value

theorem haveKeys_append {as bs : List (Value × Value)} :
    HaveKeys (as ++ bs) ↔ HaveKeys as ∧ HaveKeys bs := List.forall_mem_append

theorem HaveKeys.foldl_insert {table : List (Value × Value)} (h : HaveKeys entries)
    (ht : HaveKeys table) :
    HaveKeys (entries.foldl (fun es e => Value.insert e.1 e.2 es) table) := by
  induction entries generalizing table with
  | nil => exact ht
  | cons e entries ih =>
    obtain ⟨hhead, htail⟩ := List.forall_mem_cons.mp h
    exact ih htail (ht.insert hhead e.2)

theorem HaveKeys.keysOf_map (h : HaveKeys entries) :
    ∀ k ∈ keysOf (map entries), k.isKey = true := by
  intro k hk
  obtain ⟨e, he, rfl⟩ := List.mem_map.mp hk
  exact h e he

namespace Json

variable {cs rest : List Char} {v : Value}

theorem haveKeys_readEntries (n : Nat) {entries out : List (Value × Value)}
    (h : readEntries n entries cs = .ok (out, rest)) (hentries : HaveKeys entries) :
    HaveKeys out := by
  induction n generalizing entries cs with
  | zero => cases h
  | succ n ih =>
    cases cs with
    | nil => cases h
    | cons c cs =>
      by_cases hc : c = '"'
      · subst hc
        rw [readEntries] at h
        obtain ⟨⟨key, after⟩, -, h⟩ := exists_of_bind h
        dsimp only at h
        split at h
        · obtain ⟨⟨value, after⟩, -, h⟩ := exists_of_bind h
          dsimp only at h
          have hmore : HaveKeys (Value.insert (text (String.ofList key)) value entries) :=
            hentries.insert rfl value
          split at h
          · cases h
            exact hmore
          · exact ih h hmore
          · cases h
        · cases h
      · simp [readEntries, hc] at h
        cases h

theorem keysOf_readNumber? (h : readNumber? cs = some (v, rest)) : keysOf v = [] := by
  unfold readNumber? at h
  split at h
  extract_lets at h
  split at h
  · cases h
  · split at h
    · rw [← (Prod.mk.inj (Option.some.inj h)).1]
      rfl
    · obtain ⟨x, -, hx⟩ := Option.map_eq_some_iff.mp h
      rw [← (Prod.mk.inj hx).1]
      rfl

theorem keysOf_readPlain (h : readPlain cs = .ok (v, rest)) : keysOf v = [] := by
  have hwords : ∀ e ∈ wordValues, keysOf e.2 = [] := by simp [wordValues, keysOf]
  rw [readPlain] at h
  split at h
  · rename_i hfind
    cases h
    exact hwords _ (List.mem_of_find?_eq_some hfind)
  · split at h
    · rename_i hnumber
      cases h
      exact keysOf_readNumber? hnumber
    · cases h

theorem isKey_readValue {n : Nat} (h : readValue n cs = .ok (v, rest)) :
    ∀ k ∈ keysOf v, k.isKey = true := by
  rw [readValue.eq_def] at h
  split at h
  · cases h
  · obtain ⟨⟨s, after⟩, -, h⟩ := exists_of_bind h
    cases h
    simp [keysOf]
  · split at h
    · cases h
      simp [keysOf]
    · obtain ⟨⟨entries, after⟩, hentries, h⟩ := exists_of_bind h
      cases h
      exact (haveKeys_readEntries _ hentries (by simp [HaveKeys])).keysOf_map
  · split at h
    · cases h
      simp [keysOf]
    · obtain ⟨⟨items, after⟩, -, h⟩ := exists_of_bind h
      cases h
      simp [keysOf]
  · simp [keysOf_readPlain h]

theorem isKey_read (h : read cs = .ok v) : ∀ k ∈ keysOf v, k.isKey = true := by
  rw [read] at h
  split at h
  · cases h
  · obtain ⟨⟨w, after⟩, hvalue, h⟩ := exists_of_bind h
    dsimp only at h
    split at h
    · cases h
      exact isKey_readValue hvalue
    · cases h

end Json

namespace Yaml

variable {s : String} {v : Value}

mutual

theorem haveKeys_entriesOf : (entries : List (Node × Node)) → {lent own : List (Value × Value)} →
    entriesOf entries = .ok (lent, own) → HaveKeys (lent ++ own)
  | [], lent, own, h => by
    cases h
    simp [HaveKeys]
  | (k, v) :: rest, lent, own, h => by
    rw [entriesOf] at h
    split at h
    · obtain ⟨borrowed, hborrowed, h⟩ := exists_of_bind h
      obtain ⟨⟨lent', own'⟩, hrest, h⟩ := exists_of_bind h
      cases h
      rw [List.append_assoc]
      exact haveKeys_append.mpr ⟨haveKeys_lentBy v hborrowed, haveKeys_entriesOf rest hrest⟩
    · extract_lets enter at h
      -- Wherever the key comes from, it is only entered if it can be one.
      have henter (key : Value) (h : enter key = .ok (lent, own)) : HaveKeys (lent ++ own) := by
        by_cases hkey : key.isKey = true
        · simp only [enter, hkey, Bool.not_true, Bool.false_eq_true, if_false] at h
          obtain ⟨value, -, h⟩ := exists_of_bind h
          obtain ⟨⟨lent', own'⟩, hrest, h⟩ := exists_of_bind h
          cases h
          obtain ⟨hlent, hown⟩ := haveKeys_append.mp (haveKeys_entriesOf rest hrest)
          exact haveKeys_append.mpr ⟨hlent, List.forall_mem_cons.mpr ⟨hkey, hown⟩⟩
        · simp only [enter, hkey, Bool.not_false, if_true] at h
          obtain ⟨_, hnone, _⟩ := exists_of_bind h
          cases hnone
      split at h
      · split at h
        · obtain ⟨key, -, h⟩ := exists_of_bind h
          exact henter key h
        · obtain ⟨key, -, h⟩ := exists_of_bind h
          exact henter key h
      · obtain ⟨key, -, h⟩ := exists_of_bind h
        exact henter key h

theorem haveKeys_lentBy : (n : Node) → {lent : List (Value × Value)} → lentBy n = .ok lent →
    HaveKeys lent
  | .scalar _ _, lent, h => by cases h
  | .mapping _ entries, lent, h => by
    rw [lentBy] at h
    obtain ⟨⟨lent', own'⟩, hentries, h⟩ := exists_of_bind h
    cases h
    exact haveKeys_entriesOf entries hentries
  | .sequence _ items, lent, h => by
    rw [lentBy] at h
    exact haveKeys_lentByAll items h

theorem haveKeys_lentByAll : (items : List Node) → {lent : List (Value × Value)} →
    lentByAll items = .ok lent → HaveKeys lent
  | [], lent, h => by
    cases h
    simp [HaveKeys]
  | .scalar _ _ :: rest, lent, h => by cases h
  | .sequence _ _ :: rest, lent, h => by cases h
  | .mapping _ entries :: rest, lent, h => by
    rw [lentByAll] at h
    obtain ⟨⟨lent', own'⟩, hentries, h⟩ := exists_of_bind h
    obtain ⟨more, hrest, h⟩ := exists_of_bind h
    cases h
    exact haveKeys_append.mpr
      ⟨haveKeys_lentByAll rest hrest, haveKeys_entriesOf entries hentries⟩

end

theorem keysOf_wholeOf (h : wholeOf s = .ok v) : keysOf v = [] := by
  rw [wholeOf] at h
  split at h
  extract_lets whole at h
  have hwhole (x : Outcome Nat) (h : x >>= whole = .ok v) : keysOf v = [] := by
    obtain ⟨n, -, h⟩ := exists_of_bind h
    cases h
    rfl
  split at h
  · exact hwhole _ h
  · exact hwhole _ h
  · exact hwhole _ h
  · exact hwhole _ h
  · exact hwhole _ h
  · split at h
    · exact hwhole _ h
    · exact hwhole _ h

theorem keysOf_floatOf (h : floatOf s = .ok v) : keysOf v = [] := by
  rw [floatOf] at h
  split at h
  extract_lets signed read at h
  split at h
  · cases h
    rfl
  · split at h
    · cases h
      rfl
    · split at h
      · obtain ⟨parts, -, h⟩ := exists_of_bind h
        cases h
        rfl
      · obtain ⟨x, -, h⟩ := exists_of_bind h
        cases h
        rfl

theorem keysOf_timestampOf (h : timestampOf s = .ok v) : keysOf v = [] := by
  rw [timestampOf] at h
  split at h
  · cases h
  · extract_lets part at h
    split at h
    · obtain ⟨d, -, h⟩ := exists_of_bind h
      cases h
      rfl
    · obtain ⟨d, -, h⟩ := exists_of_bind h
      dsimp only at h
      split at h
      · cases h
      · split at h
        · cases h
        · split at h
          · cases h
          · cases h
            rfl

theorem keysOf_scalarOf {tag : String} (h : scalarOf tag s = .ok v) : keysOf v = [] := by
  rw [scalarOf] at h
  split at h
  · cases h
    rfl
  split at h
  · cases h
    rfl
  split at h
  · split at h
    · cases h
      rfl
    · cases h
  split at h
  · exact keysOf_wholeOf h
  split at h
  · exact keysOf_floatOf h
  split at h
  · exact keysOf_timestampOf h
  split at h
  · rw [binaryOf] at h
    split at h
    · cases h
    · cases h
      rfl
  · cases h

/-- The keys of the table that a node stands for. -/
theorem isKey_value {node : Node} (h : node.value = .ok v) : ∀ k ∈ keysOf v, k.isKey = true := by
  cases node with
  | scalar tag s =>
    rw [Node.value] at h
    simp [keysOf_scalarOf h]
  | sequence tag items =>
    rw [Node.value] at h
    obtain ⟨vs, -, h⟩ := exists_of_bind h
    split at h
    · cases h
      simp [keysOf]
    split at h
    · obtain ⟨pairs, -, h⟩ := exists_of_bind h
      cases h
      simp [keysOf]
    · cases h
  | mapping tag entries =>
    rw [Node.value] at h
    obtain ⟨⟨lent, own⟩, hentries, h⟩ := exists_of_bind h
    dsimp only at h
    split at h
    · cases h
      exact ((haveKeys_entriesOf entries hentries).foldl_insert (by simp [HaveKeys])).keysOf_map
    split at h
    · cases h
      simp [keysOf]
    · cases h

theorem isKey_load {text : String} (h : load text = .ok v) : ∀ k ∈ keysOf v, k.isKey = true := by
  rw [load, loadFrom] at h
  split at h
  · cases h
  split at h
  · cases h
  · cases h
    simp [keysOf]
  · exact isKey_value h

end Yaml

/-- No outermost key of a settings file is a list or a table. -/
theorem Settings.isKey_formatOf (code : List Char) : ∀ k ∈ (formatOf code).2, k.isKey = true := by
  rw [formatOf]
  split
  · rename_i hread
    exact Json.isKey_read hread
  · split
    · rename_i hload
      exact Yaml.isKey_load hload
    · simp

end CodeScribe
