import CodeScribe.Proofs.Text.Case

/-!
# Stretches of texts that are put together

A stretch that lacks a character does not reach over it.  So it stands in a text that was put
together with such characters between the parts only if it stands in a part; and replacing parts of
a text by others that share no character with it does not bring it in.

* `Chars.infix_of_mem_splitOn`, `Chars.trimOf_isInfix`, `Chars.not_infix_take` — stretches of a
  text: its pieces, what trimming leaves, and what comes before the first place of a text.
-/

namespace CodeScribe

namespace Chars

variable {w cs a b : List Char} {d : Char}

/-! ### Places -/

/-- A text stands at a place of another. -/
def StandsAt (w cs : List Char) (i : Nat) : Prop := w <+: cs.drop i

instance (w cs : List Char) (i : Nat) : Decidable (StandsAt w cs i) :=
  inferInstanceAs (Decidable (w <+: cs.drop i))

theorem infix_iff_standsAt : w <:+: cs ↔ ∃ i, StandsAt w cs i := by
  rw [List.infix_iff_prefix_suffix]
  constructor
  · rintro ⟨t, hw, s, rfl⟩
    exact ⟨s.length, by rwa [StandsAt, List.drop_left]⟩
  · rintro ⟨i, hi⟩
    exact ⟨cs.drop i, hi, List.drop_suffix i cs⟩

theorem StandsAt.add_length_le {i : Nat} (h : StandsAt w cs i) (hw : w ≠ []) :
    i + w.length ≤ cs.length := by
  have hle := List.IsPrefix.length_le h
  have hpos := List.length_pos_of_ne_nil hw
  rw [List.length_drop] at hle
  omega

/-- A beginning without a character does not reach over that character. -/
theorem prefix_append_cons_iff (hd : d ∉ w) : w <+: a ++ d :: b ↔ w <+: a := by
  constructor
  · intro h
    rcases List.prefix_or_prefix_of_prefix h (List.prefix_append a (d :: b)) with hw | ⟨rest, rfl⟩
    · exact hw
    · rw [List.prefix_append_right_inj] at h
      cases rest with
      | nil => rw [List.append_nil]
      | cons c rest =>
        obtain ⟨rfl, -⟩ := List.cons_prefix_cons.mp h
        simp at hd
  · intro h
    exact h.trans (List.prefix_append _ _)

/-- The places of a text around a character that it lacks: in front of it and behind it. -/
theorem standsAt_append_cons (hne : w ≠ []) (hd : d ∉ w) (i : Nat) :
    StandsAt w (a ++ d :: b) i ↔
      StandsAt w a i ∨ ∃ j, StandsAt w b j ∧ i = a.length + 1 + j := by
  rcases Nat.lt_or_ge a.length i with hi | hi
  · obtain ⟨j, rfl⟩ := Nat.exists_eq_add_of_lt hi
    have hbehind : (a ++ d :: b).drop (a.length + j + 1) = b.drop j := by
      rw [Nat.add_assoc, List.drop_length_add_append, List.drop_succ_cons]
    have hfront : ¬ StandsAt w a (a.length + j + 1) := by
      intro h
      have hle := h.add_length_le hne
      omega
    rw [StandsAt, hbehind]
    constructor
    · intro h
      exact .inr ⟨j, h, by omega⟩
    · rintro (h | ⟨k, hk, hjk⟩)
      · exact absurd h hfront
      · obtain rfl : j = k := by omega
        exact hk
  · rw [StandsAt, List.drop_append_of_le_length hi, prefix_append_cons_iff hd]
    constructor
    · exact .inl
    · rintro (h | ⟨j, -, hj⟩)
      · exact h
      · omega

/-! ### Stretches -/

/-- Texts with a character between them hold a stretch without it exactly if one of them does. -/
theorem infix_intercalate_iff (hne : w ≠ []) (hd : d ∉ w) (parts : List (List Char)) :
    w <:+: [d].intercalate parts ↔ ∃ part ∈ parts, w <:+: part := by
  induction parts with
  | nil => simp [hne]
  | cons part parts ih =>
    cases parts with
    | nil => simp
    | cons next parts =>
      rw [List.intercalate_cons_cons, List.append_assoc, List.singleton_append,
        infix_append_cons_iff hd, ih]
      simp

theorem infix_intercalate_of_mem {sep part : List Char} {parts : List (List Char)}
    (h : part ∈ parts) : part <:+: sep.intercalate parts := by
  induction parts with
  | nil => cases h
  | cons first parts ih =>
    cases parts with
    | nil =>
      rw [List.mem_singleton.mp h, List.intercalate_singleton]
    | cons next parts =>
      rw [List.intercalate_cons_cons]
      rcases List.mem_cons.mp h with rfl | h
      · exact ((List.prefix_append _ _).trans (List.prefix_append _ _)).isInfix
      · exact (ih h).trans (List.suffix_append _ _).isInfix

theorem infix_of_mem_splitOn {piece : List Char} (h : piece ∈ cs.splitOn d) : piece <:+: cs := by
  have hpiece : piece <:+: [d].intercalate (cs.splitOn d) := infix_intercalate_of_mem h
  rwa [List.intercalate_splitOn] at hpiece

theorem trimOf_isInfix (p : Char → Bool) (cs : List Char) : trimOf p cs <:+: cs := by
  have hright : trimRightOf p (trimLeftOf p cs) <+: trimLeftOf p cs := by
    rw [trimRightOf, ← List.reverse_suffix, List.reverse_reverse]
    exact List.dropWhile_suffix p
  exact hright.isInfix.trans (List.dropWhile_suffix p).isInfix

/-- A text does not stand before the first place at which it is found. -/
theorem not_infix_take {i : Nat} (hne : w ≠ []) (h : find? w cs = some i) : ¬ w <:+: cs.take i := by
  induction cs generalizing i with
  | nil =>
    rw [List.take_nil, List.infix_nil]
    exact hne
  | cons c rest ih =>
    rw [find?] at h
    split at h
    · obtain rfl := Option.some.inj h
      rw [List.take_zero, List.infix_nil]
      exact hne
    · rename_i hhead
      obtain ⟨j, hj, rfl⟩ := Option.map_eq_some_iff.mp h
      rw [List.take_succ_cons, List.infix_cons_iff, not_or]
      refine ⟨?_, ih hj⟩
      intro hprefix
      have hwhole : w <+: c :: rest :=
        hprefix.trans (List.cons_prefix_cons.mpr ⟨rfl, List.take_prefix j rest⟩)
      exact hhead (List.isPrefixOf_iff_prefix.mpr hwhole)

/-- A stretch does not reach over a text with which it shares no character. -/
theorem infix_of_infix_append {c : List Char} (hne : w ≠ []) (hb : b ≠ []) (hshare : ∀ d ∈ b, d ∉ w)
    (h : w <:+: a ++ (b ++ c)) : w <:+: a ∨ w <:+: c := by
  induction b generalizing a with
  | nil => exact absurd rfl hb
  | cons d b ih =>
    obtain ⟨hd, hshare⟩ := List.forall_mem_cons.mp hshare
    rw [List.cons_append, infix_append_cons_iff hd] at h
    rcases h with h | h
    · exact .inl h
    · cases b with
      | nil => exact .inr h
      | cons e b =>
        rcases ih (a := []) (List.cons_ne_nil e b) hshare h with h | h
        · exact absurd (List.infix_nil.mp h) hne
        · exact .inr h

end Chars

namespace Pattern

/-! ### Replacing -/

/-- New texts without a character of a stretch do not bring it in: it stood between the matches. -/
theorem infix_of_replaceAll {w : List Char} {p : Pattern} {new : Match → List Char}
    {cs : List Char} (hne : w ≠ [])
    (hnew : ∀ m ∈ p.findAll cs, new m ≠ [] ∧ ∀ d ∈ new m, d ∉ w)
    (h : w <:+: p.replaceAll new cs) : w <:+: cs := by
  rw [replaceAll] at h
  generalize p.findAll cs = ms at h hnew
  generalize 0 = pos at h
  induction ms generalizing pos cs with
  | nil => simpa [pieces] using h
  | cons m ms ih =>
    obtain ⟨⟨hm, hshare⟩, hrest⟩ := List.forall_mem_cons.mp hnew
    rw [pieces, List.flatMap_cons, List.append_assoc] at h
    rcases Chars.infix_of_infix_append hne hm hshare h with h | h
    · exact h.trans (List.take_prefix _ _).isInfix
    · exact (ih hrest m.stop h).trans (List.drop_suffix _ _).isInfix

/-! ### What a group holds -/

/-- A pattern reads the characters between two places. -/
theorem Fits.reads {p : Pattern} {s t : Cursor} (h : p.Fits s t) :
    ∃ cs, s.rest = cs ++ t.rest ∧ t.pos = s.pos + cs.length := by
  induction p generalizing s t with
  | nothing => exact ⟨[], by rw [show t = s from h]; exact ⟨rfl, rfl⟩⟩
  | one accept =>
    obtain ⟨c, -, hreads, -⟩ := h
    exact ⟨[c], hreads.rest, hreads.pos⟩
  | span accept =>
    obtain ⟨cs, -, hreads, -⟩ := h
    exact ⟨cs, hreads.rest, hreads.pos⟩
  | spanLazy accept =>
    obtain ⟨cs, -, hreads, -⟩ := h
    exact ⟨cs, hreads.rest, hreads.pos⟩
  | seq a b iha ihb =>
    obtain ⟨m, hm, ht⟩ := h
    obtain ⟨cs, hcs, hpos⟩ := iha hm
    obtain ⟨ds, hds, hpos'⟩ := ihb ht
    refine ⟨cs ++ ds, ?_, ?_⟩
    · rw [hcs, hds, List.append_assoc]
    · rw [hpos', hpos, List.length_append, Nat.add_assoc]
  | alt a b iha ihb => exact h.elim iha ihb
  | star p ih =>
    have hturns : ∀ u, Relation.ReflTransGen (fun x y => p.Fits x y) s u →
        ∃ cs, s.rest = cs ++ u.rest ∧ u.pos = s.pos + cs.length := by
      intro u hu
      induction hu with
      | refl => exact ⟨[], rfl, rfl⟩
      | tail _ hlast ihturns =>
        obtain ⟨cs, hcs, hpos⟩ := ihturns
        obtain ⟨ds, hds, hpos'⟩ := ih hlast
        refine ⟨cs ++ ds, ?_, ?_⟩
        · rw [hcs, hds, List.append_assoc]
        · rw [hpos', hpos, List.length_append, Nat.add_assoc]
    exact hturns t h
  | group i p ih =>
    obtain ⟨m, hm, rfl⟩ := h
    obtain ⟨cs, hcs, hpos⟩ := ih hm
    exact ⟨cs, hcs, hpos⟩
  | test holds => exact ⟨[], by rw [h.2]; exact ⟨rfl, rfl⟩⟩
  | ahead p ih =>
    obtain ⟨m, -, rfl⟩ := h
    exact ⟨[], rfl, rfl⟩

theorem Fits.anyOf {ps : List Pattern} {s t : Cursor} (h : (anyOf ps).Fits s t) :
    ∃ p ∈ ps, p.Fits s t := by
  induction ps with
  | nil => cases h.1
  | cons p ps ih =>
    cases ps with
    | nil => exact ⟨p, List.mem_singleton_self p, h⟩
    | cons q ps =>
      rcases h with h | h
      · exact ⟨p, List.mem_cons_self, h⟩
      · obtain ⟨r, hr, hfits⟩ := ih h
        exact ⟨r, List.mem_cons_of_mem _ hr, hfits⟩

end Pattern

/-- A group that every way passes holds what its pattern has read somewhere. -/
theorem Match.FoundBy.body {m : Match} {p q : Pattern} (h : m.FoundBy p) {i : Nat}
    (hq : p.body? i = some q) :
    ∃ s t cs, q.Fits s t ∧ s.rest = cs ++ t.rest ∧ (m.get i).toList = cs := by
  obtain ⟨s, t, hfits, rfl⟩ := h
  obtain ⟨s', t', hbody, hgroup⟩ := hfits.groupAt_body hq
  obtain ⟨cs, hcs, hpos⟩ := hbody.reads
  have hchars : s'.rest.take (t'.pos - s'.pos) = cs := by
    rw [hcs, hpos, Nat.add_sub_cancel_left, List.take_left]
  have hget : Match.chars? ⟨⟨s.pos, t.pos, s.rest⟩, t.groups⟩ i = some cs := by
    rw [← hchars]
    exact hgroup
  refine ⟨s', t', cs, hbody, hcs, ?_⟩
  rw [Match.get, Match.get?, hget]
  exact String.toList_ofList

end CodeScribe
