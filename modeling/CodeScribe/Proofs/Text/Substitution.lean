import CodeScribe.Proofs.Text.Stretches

/-!
# Putting one text for another

Replacing goes through a text once from left to right.  Where the old text begins nowhere in a part
of it, that part stays as it is.

* `Chars.replace_eq_self_iff` — a shorter text for a longer one changes a text exactly if the longer
  one stands in it.
-/

namespace CodeScribe

namespace Chars

/-! ### Replacing -/

variable {old new a cs b : List Char}

theorem replaceFrom_eq (old new : List Char) (skip : Nat) (cs : List Char) :
    replaceFrom old new skip cs = replace old new (cs.drop skip) := by
  induction cs generalizing skip with
  | nil => cases skip <;> rfl
  | cons c rest ih =>
    cases skip with
    | zero => rfl
    | succ skip => exact ih skip

theorem replace_cons {c : Char} {rest : List Char} (h : ¬ old <+: c :: rest) :
    replace old new (c :: rest) = c :: replace old new rest := by
  rw [replace, replaceFrom, if_neg fun hold => h (List.isPrefixOf_iff_prefix.mp hold)]
  rfl

/-- The old text is exchanged for the new one. -/
theorem replace_old_append (hne : old ≠ []) (cs : List Char) :
    replace old new (old ++ cs) = new ++ replace old new cs := by
  obtain ⟨c, old, rfl⟩ := List.exists_cons_of_ne_nil hne
  have hold : (c :: old).isPrefixOf (c :: (old ++ cs)) = true :=
    List.isPrefixOf_iff_prefix.mpr (List.prefix_append (c :: old) cs)
  rw [List.cons_append, replace, replaceFrom, if_pos hold, replaceFrom_eq, List.length_cons,
    Nat.add_sub_cancel, List.drop_left]

/-- What lacks the first character of the old text stays. -/
theorem replace_append {c : Char} (h : c ∉ a) (cs : List Char) :
    replace (c :: old) new (a ++ cs) = a ++ replace (c :: old) new cs := by
  induction a with
  | nil => rfl
  | cons d a ih =>
    obtain ⟨hd, ha⟩ := List.ne_and_not_mem_of_not_mem_cons h
    have hnot : ¬ c :: old <+: d :: (a ++ cs) := fun hold => hd (List.cons_prefix_cons.mp hold).1
    rw [List.cons_append, replace_cons hnot, ih ha, List.cons_append]

/-- A text that does not hold the old one is not changed. -/
theorem replace_eq_self (h : ¬ old <:+: cs) : replace old new cs = cs := by
  induction cs with
  | nil => rfl
  | cons c rest ih =>
    rw [List.infix_cons_iff, not_or] at h
    rw [replace_cons h.1, ih h.2]

/-- One character is replaced by another wherever it stands. -/
theorem replace_singleton (c d : Char) (cs : List Char) :
    replace [c] [d] cs = cs.map fun e => if e = c then d else e := by
  induction cs with
  | nil => rfl
  | cons e rest ih =>
    by_cases hec : e = c
    · subst hec
      have hold : replace [e] [d] (e :: rest) = [d] ++ replace [e] [d] rest :=
        replace_old_append (List.cons_ne_nil e []) rest
      rw [hold, ih, List.map_cons, if_pos rfl, List.singleton_append]
    · have hnot : ¬ [c] <+: e :: rest := fun hc => hec (List.cons_prefix_cons.mp hc).1.symm
      rw [replace_cons hnot, ih, List.map_cons, if_neg hec]

/-- What holds of the empty text, and of a text if it holds of what replacing has left to read of
it, holds of every text. -/
@[elab_as_elim] theorem replace_induction {P : List Char → Prop} (old : List Char) (hne : old ≠ [])
    (nil : P []) (found : ∀ {cs}, P cs → P (old ++ cs))
    (other : ∀ {c cs}, ¬ old <+: c :: cs → P cs → P (c :: cs)) (cs : List Char) : P cs := by
  induction hlength : cs.length using Nat.strong_induction_on generalizing cs with
  | _ length ih =>
    have hpos := List.length_pos_of_ne_nil hne
    by_cases hold : old <+: cs
    · obtain ⟨rest, rfl⟩ := hold
      rw [List.length_append] at hlength
      exact found (ih _ (by omega) rest rfl)
    · cases cs with
      | nil => exact nil
      | cons c rest =>
        rw [List.length_cons] at hlength
        exact other hold (ih _ (by omega) rest rfl)

theorem length_replace_le (hne : old ≠ []) (h : new.length ≤ old.length) (cs : List Char) :
    (replace old new cs).length ≤ cs.length := by
  induction cs using replace_induction old hne with
  | nil => exact Nat.le_refl 0
  | found ih =>
    rw [replace_old_append hne, List.length_append, List.length_append]
    omega
  | other hnot ih =>
    rw [replace_cons hnot, List.length_cons, List.length_cons]
    omega

/-- A shorter text for a longer one that is there makes a text shorter. -/
theorem length_replace_lt (h : new.length < old.length) (hold : old <:+: cs) :
    (replace old new cs).length < cs.length := by
  have hne : old ≠ [] := List.ne_nil_of_length_pos (Nat.zero_lt_of_lt h)
  induction cs using replace_induction old hne with
  | nil => exact absurd (List.infix_nil.mp hold) hne
  | @found cs ih =>
    have hrest := length_replace_le hne h.le cs
    rw [replace_old_append hne, List.length_append, List.length_append]
    omega
  | other hnot ih =>
    have hrest := ih ((List.infix_cons_iff.mp hold).resolve_left hnot)
    rw [replace_cons hnot, List.length_cons, List.length_cons]
    omega

theorem replace_eq_self_iff (h : new.length < old.length) :
    replace old new cs = cs ↔ ¬ old <:+: cs := by
  refine ⟨fun heq hold => ?_, replace_eq_self⟩
  have hlt := length_replace_lt h hold
  rw [heq] at hlt
  exact Nat.lt_irrefl _ hlt

/-! ### Pieces of texts -/

variable {d : List Char} {c : Char}

/-- A text with a separator behind it begins others with the separator between them exactly if it is
the first of them. -/
theorem prefix_piece_iff (hd : c ∉ d) (ha : c ∉ a) : d ++ [c] <+: a ++ c :: b ↔ d = a := by
  constructor
  · rintro ⟨r, hr⟩
    rw [List.append_assoc, List.singleton_append] at hr
    exact (cut_at hd ha hr).1
  · rintro rfl
    exact ⟨b, by simp⟩

theorem infix_end_append_iff (hd : c ∉ d) (ha : c ∉ a) :
    d ++ [c] <:+: a ++ c :: b ↔ d <:+ a ∨ d ++ [c] <:+: b := by
  induction a with
  | nil =>
    rw [List.nil_append, List.infix_cons_iff, List.suffix_nil]
    exact or_congr_left (prefix_piece_iff hd List.not_mem_nil)
  | cons e a ih =>
    have hstart := prefix_piece_iff (b := b) hd ha
    rw [List.cons_append] at hstart
    rw [List.cons_append, List.infix_cons_iff, hstart, ih (List.not_mem_of_not_mem_cons ha),
      List.suffix_cons_iff, or_assoc]

theorem infix_inner_append_iff (ha : c ∉ a) :
    c :: (d ++ [c]) <:+: a ++ c :: b ↔ d ++ [c] <+: b ∨ c :: (d ++ [c]) <:+: b := by
  induction a with
  | nil =>
    rw [List.nil_append, List.infix_cons_iff, List.cons_prefix_cons]
    simp
  | cons e a ih =>
    obtain ⟨he, ha⟩ := List.ne_and_not_mem_of_not_mem_cons ha
    have hnot : ¬ c :: (d ++ [c]) <+: e :: (a ++ c :: b) :=
      fun h => he (List.cons_prefix_cons.mp h).1
    rw [List.cons_append, List.infix_cons_iff, ih ha]
    simp [hnot]

variable {parts : List (List Char)}

theorem infix_end_intercalate (hd : c ∉ d) (hparts : ∀ part ∈ parts, c ∉ part) :
    d ++ [c] <:+: [c].intercalate parts ↔ ∃ part ∈ parts.dropLast, d <:+ part := by
  induction parts with
  | nil => simp
  | cons part parts ih =>
    obtain ⟨hpart, hrest⟩ := List.forall_mem_cons.mp hparts
    cases parts with
    | nil =>
      have hnot : ¬ d ++ [c] <:+: part := fun h => hpart (h.subset (by simp))
      simp [hnot]
    | cons next parts =>
      rw [List.intercalate_cons_cons, List.append_assoc, List.singleton_append,
        infix_end_append_iff hd hpart, ih hrest, List.dropLast_cons_cons, List.exists_mem_cons_iff]

theorem infix_inner_intercalate (hd : c ∉ d) (hparts : ∀ part ∈ parts, c ∉ part) :
    c :: (d ++ [c]) <:+: [c].intercalate parts ↔ d ∈ parts.tail.dropLast := by
  induction parts with
  | nil => simp
  | cons part parts ih =>
    obtain ⟨hpart, hrest⟩ := List.forall_mem_cons.mp hparts
    cases parts with
    | nil =>
      have hnot : ¬ c :: (d ++ [c]) <:+: part := fun h => hpart (h.subset (by simp))
      simp [hnot]
    | cons next parts =>
      obtain ⟨hnext, -⟩ := List.forall_mem_cons.mp hrest
      rw [List.intercalate_cons_cons, List.append_assoc, List.singleton_append,
        infix_inner_append_iff hpart, ih hrest, List.tail_cons, List.tail_cons]
      cases parts with
      | nil =>
        have hnot : ¬ d ++ [c] <+: next := fun h => hnext (h.subset (by simp))
        simp [hnot]
      | cons last parts =>
        rw [List.intercalate_cons_cons, List.append_assoc, List.singleton_append,
          prefix_piece_iff hd hnext, List.dropLast_cons_cons, List.mem_cons]

/-- A text with a separator behind it stands in another exactly if one of the pieces of that, not
the last, ends with it. -/
theorem infix_end_iff (hd : c ∉ d) (cs : List Char) :
    d ++ [c] <:+: cs ↔ ∃ part ∈ (cs.splitOn c).dropLast, d <:+ part := by
  have hparts : ∀ part ∈ cs.splitOn c, c ∉ part := fun _ => not_mem_of_mem_splitOn
  rw [← infix_end_intercalate hd hparts, List.intercalate_splitOn]

/-- A text between separators stands in another exactly if it is one of the pieces of that, neither
the first nor the last. -/
theorem infix_inner_iff (hd : c ∉ d) (cs : List Char) :
    c :: (d ++ [c]) <:+: cs ↔ d ∈ (cs.splitOn c).tail.dropLast := by
  have hparts : ∀ part ∈ cs.splitOn c, c ∉ part := fun _ => not_mem_of_mem_splitOn
  rw [← infix_inner_intercalate hd hparts, List.intercalate_splitOn]

end Chars

namespace Text

theorem toList_replace (s old new : String) :
    (replace s old new).toList = Chars.replace old.toList new.toList s.toList :=
  String.toList_ofList

theorem replace_eq_self {s old : String} (h : ¬ old.toList <:+: s.toList) (new : String) :
    replace s old new = s := by
  rw [replace, Chars.replace_eq_self h, String.ofList_toList]

end Text

end CodeScribe
