import CodeScribe.Proofs.Text.Removal
import CodeScribe.Proofs.Text.Stretches

/-!
# Replacing the first match

The way that a pattern takes first may be neither the first of some choices nor the longest of a
repetition: it is the first that what follows does not refuse.  Where it is known at the start of a
text, what replacing does to the text is known up to the end of that match.
-/

namespace CodeScribe

open Text

namespace Pattern

variable {p q : Pattern} {s t : Cursor} {α : Type} {rest w : List Char} {accept : Char → Bool}

/-! ### Ways that are not the first to be tried -/

theorem run_orElse (p q : Pattern) (k : Cursor → Option α) (s : Cursor) :
    (p <|> q).run k s = (p.run k s).or (q.run k s) := by
  show run (alt p q) k s = _
  rw [run]
  cases p.run k s <;> rfl

theorem Takes.orElse (h : p.Takes s t) (q : Pattern) : (p <|> q).Takes s t := by
  intro α k a hk
  rw [run_orElse, h α k a hk, Option.some_or]

/-- Where a pattern does not fit, the next one is tried. -/
theorem Takes.orElse_of_none (hp : ∀ (α : Type) (k : Cursor → Option α), p.run k s = none)
    (h : q.Takes s t) : (p <|> q).Takes s t := by
  intro α k a hk
  rw [run_orElse, hp α k, Option.none_or]
  exact h α k a hk

/-- Of some given texts, the first that stands at a place is taken. -/
theorem takes_words {w : String} (hs : s.rest = w.toList ++ rest) (before after : List String)
    (hbefore : ∀ v ∈ before, ¬ v.toList <+: s.rest) :
    (words (before ++ w :: after)).Takes s (s.after w.toList rest) := by
  induction before with
  | nil =>
    cases after with
    | nil => exact takes_lit hs
    | cons v after => exact (takes_lit hs).orElse _
  | cons v before ih =>
    obtain ⟨hv, hbefore⟩ := List.forall_mem_cons.mp hbefore
    have hnone (α : Type) (k : Cursor → Option α) : (lit v).run k s = none := by
      rw [run_lit, if_neg fun h => hv (List.isPrefixOf_iff_prefix.mp h)]
    have hrest := Takes.orElse_of_none hnone (ih hbefore)
    cases before <;> exact hrest

theorem Consumes.orElse {held : List (Nat × List Char)} (h : p.Consumes w rest held) (q : Pattern) :
    (p <|> q).Consumes w rest held := by
  intro s hs
  obtain ⟨t, ht, hend⟩ := h s hs
  exact ⟨t, ht.orElse q, hend⟩

theorem run_span1_eq_none (hs : s.rest.head?.any accept = false) (k : Cursor → Option α) :
    (span1 accept).run k s = none := by
  show (one accept).run _ s = none
  rw [run]
  cases hrest : s.rest with
  | nil => rfl
  | cons c rest =>
    rw [hrest] at hs
    exact if_neg (by simpa using hs)

/-- Greedy reading gives one character back if it is refused at its end. -/
theorem runSpan_back {k : Cursor → Option α} {a : α} (groups : List (Nat × Span))
    {after : List Char} {c : Char} (before : Option Char) (pos : Nat)
    (hw : ∀ d ∈ w, accept d = true) (hc : accept c = true) (hafter : after.head?.any accept = false)
    (hend : k ⟨some c, pos + w.length + 1, after, groups⟩ = none)
    (hk : k ⟨w.getLast?.or before, pos + w.length, c :: after, groups⟩ = some a) :
    runSpan accept k groups before pos (w ++ c :: after) = some a := by
  induction w generalizing before pos with
  | nil =>
    have hrest : runSpan accept k groups (some c) (pos + 1) after = none := by
      cases after with
      | nil => exact hend
      | cons d after =>
        have hd : accept d = false := hafter
        rw [runSpan, hd, if_neg Bool.false_ne_true]
        exact hend
    rw [List.nil_append, runSpan, hc, if_pos rfl, hrest]
    exact hk
  | cons d w ih =>
    obtain ⟨hd, hw⟩ := List.forall_mem_cons.mp hw
    rw [Cursor.behind_cons] at hk
    have hrest : runSpan accept k groups (some d) (pos + 1) (w ++ c :: after) = some a := by
      refine ih _ _ hw ?_ hk
      rw [← hend, List.length_cons]
      congr 2
      omega
    rw [List.cons_append, runSpan, hd, if_pos rfl, hrest]

/-- Greedy reading in front of a pattern that does not fit at its end, but one character before. -/
theorem takes_span_back {c : Char} (hs : s.rest = w ++ c :: rest) (hw : ∀ d ∈ w, accept d = true)
    (hc : accept c = true) (hrest : rest.head?.any accept = false)
    (hend : ∀ (α : Type) (k : Cursor → Option α), q.run k (s.after (w ++ [c]) rest) = none)
    (h : q.Takes (s.after w (c :: rest)) t) : (span accept ++ q).Takes s t := by
  intro α k a hk
  show runSpan accept (fun s' => q.run k s') s.groups s.before s.pos s.rest = some a
  rw [hs]
  refine runSpan_back _ _ _ hw hc hrest ?_ (h α k a hk)
  have hnone := hend α k
  simpa [Cursor.after, Nat.add_assoc] using hnone

/-! ### Replacing from a place on -/

def replaceFrom (p : Pattern) (new : Match → List Char) (before : Option Char) (pos : Nat)
    (cs : List Char) : List Char :=
  (pieces pos (p.scan 0 before pos cs) cs).flatMap fun piece =>
    piece.1 ++ (piece.2.map new).getD []

theorem scan_skip (p : Pattern) (w rest : List Char) (before : Option Char) (pos : Nat) :
    p.scan w.length before pos (w ++ rest) =
      p.scan 0 (w.getLast?.or before) (pos + w.length) rest := by
  induction w generalizing before pos with
  | nil => rfl
  | cons c w ih =>
    rw [List.cons_append, List.length_cons, scan, ih, Nat.add_right_comm, Nat.add_assoc,
      Cursor.getLast?_cons_or]

/-- A match at the start of a text is found, and the rest is searched from its end on. -/
theorem findAll_of_takes {t : Cursor} (h : p.Takes (Cursor.start (w ++ rest)) t)
    (hpos : t.pos = w.length) (hne : w ≠ []) :
    p.findAll (w ++ rest) = ⟨⟨0, w.length, w ++ rest⟩, t.groups⟩ ::
      p.scan 0 w.getLast? w.length rest := by
  obtain ⟨c, w, rfl⟩ := List.exists_cons_of_ne_nil hne
  have hstart : p.matchAt? ⟨none, 0, c :: (w ++ rest), []⟩ =
      some ⟨⟨0, (c :: w).length, c :: w ++ rest⟩, t.groups⟩ := by
    rw [← hpos]
    exact h _ _ _ rfl
  have hscan := p.scan_skip w rest (some c) 1
  rw [findAll, List.cons_append, scan, hstart]
  dsimp only [Match.stop, Match.start]
  rw [Nat.sub_zero, List.length_cons, Nat.add_sub_cancel, hscan, Nat.add_comm 1]
  cases w <;> rfl

/-- A match at the start of a text is replaced, and the rest is searched from its end on. -/
theorem replaceAll_of_takes {t : Cursor} (new : Match → List Char)
    (h : p.Takes (Cursor.start (w ++ rest)) t) (hpos : t.pos = w.length) (hne : w ≠ []) :
    p.replaceAll new (w ++ rest) = new ⟨⟨0, w.length, w ++ rest⟩, t.groups⟩ ++
      p.replaceFrom new w.getLast? w.length rest := by
  rw [replaceAll, findAll_of_takes h hpos hne, pieces, List.flatMap_cons]
  dsimp only [Match.stop, Match.start]
  rw [Nat.sub_self, Nat.sub_zero, List.take_zero, List.nil_append, List.drop_left]
  rfl

/-- From a place on, either nothing is found and nothing is changed, or a match was replaced. -/
theorem replaceFrom_cases (p : Pattern) (new : Match → List Char) (before : Option Char)
    (pos : Nat) (cs : List Char) :
    p.replaceFrom new before pos cs = cs ∨
      ∃ m, m.FoundIn p cs ∧ new m <:+: p.replaceFrom new before pos cs := by
  rw [replaceFrom]
  cases hscan : p.scan 0 before pos cs with
  | nil => exact .inl (by simp [pieces])
  | cons m ms =>
    refine .inr ⟨m, foundIn_of_mem_scan 0 before pos cs (hscan ▸ List.mem_cons_self), ?_⟩
    rw [pieces, List.flatMap_cons]
    exact (List.suffix_append _ _).isInfix.trans (List.prefix_append _ _).isInfix

end Pattern

end CodeScribe
