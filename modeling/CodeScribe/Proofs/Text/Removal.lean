import CodeScribe.Proofs.Text.FirstWay

/-!
# Removing what a pattern finds

A search for all matches of a pattern remembers places and matches, and what is removed is put
together from the pieces between them.  If the pattern goes by the text ahead alone, none of that
is needed: the text is read once from left to right, and what begins at a place is left out.

* `Pattern.removeAll_eq_cutOut` — removing its matches is cutting them out.
-/

namespace CodeScribe

namespace Chars

/-- A kind of beginning of texts: how long the one at the start of a text is, if there is one. -/
structure Lexeme where
  length? : List Char → Option Nat
  pos : ∀ {cs n}, length? cs = some n → 0 < n
  le : ∀ {cs n}, length? cs = some n → n ≤ cs.length

namespace Lexeme

variable {c : Char} {rest : List Char}

/-- Scan a text, leaving out what begins at a place, and `skip` characters first. -/
def cutFrom (l : Lexeme) : Nat → List Char → List Char
  | _, [] => []
  | skip + 1, _ :: rest => l.cutFrom skip rest
  | 0, c :: rest =>
    match l.length? (c :: rest) with
    | some n => l.cutFrom (n - 1) rest
    | none => c :: l.cutFrom 0 rest

/-- A text without the lexemes of a kind, found in one scan from left to right. -/
def cutOut (l : Lexeme) (cs : List Char) : List Char := l.cutFrom 0 cs

/-- The rests of a text at which a scan stands, `skip` characters being skipped first. -/
def placesFrom (l : Lexeme) : Nat → List Char → List (List Char)
  | _, [] => []
  | skip + 1, _ :: rest => l.placesFrom skip rest
  | 0, c :: rest =>
    (c :: rest) :: match l.length? (c :: rest) with
      | some n => l.placesFrom (n - 1) rest
      | none => l.placesFrom 0 rest

/-- The rests of a text at which the scan stands, the end left aside. -/
def places (l : Lexeme) (cs : List Char) : List (List Char) := l.placesFrom 0 cs

/-- The lexemes of one kind, or else those of another. -/
def orElse (l m : Lexeme) : Lexeme where
  length? cs := (l.length? cs).or (m.length? cs)
  pos h := (Option.or_eq_some_iff.mp h).elim l.pos fun h => m.pos h.2
  le h := (Option.or_eq_some_iff.mp h).elim l.le fun h => m.le h.2

variable (l : Lexeme)

theorem length?_nil : l.length? [] = none := by
  cases h : l.length? [] with
  | none => rfl
  | some n => exact absurd (l.pos h) (Nat.not_lt.mpr (l.le h))

theorem cutFrom_eq (skip : Nat) (cs : List Char) : l.cutFrom skip cs = l.cutOut (cs.drop skip) := by
  induction cs generalizing skip with
  | nil => cases skip <;> rfl
  | cons c rest ih =>
    cases skip with
    | zero => rfl
    | succ skip => exact ih skip

theorem placesFrom_eq (skip : Nat) (cs : List Char) :
    l.placesFrom skip cs = l.places (cs.drop skip) := by
  induction cs generalizing skip with
  | nil => cases skip <;> rfl
  | cons c rest ih =>
    cases skip with
    | zero => rfl
    | succ skip => exact ih skip

variable {l}

/-- The scan goes on behind a lexeme. -/
theorem cutOut_of_some {cs : List Char} {n : Nat} (h : l.length? cs = some n) :
    l.cutOut cs = l.cutOut (cs.drop n) := by
  cases cs with
  | nil => rw [List.drop_nil]
  | cons c rest =>
    obtain ⟨k, rfl⟩ := Nat.exists_eq_add_one.mpr (l.pos h)
    rw [cutOut, cutFrom, h, List.drop_succ_cons]
    exact l.cutFrom_eq k rest

/-- Any other character is kept. -/
theorem cutOut_of_none (h : l.length? (c :: rest) = none) :
    l.cutOut (c :: rest) = c :: l.cutOut rest := by
  rw [cutOut, cutFrom, h]
  rfl

theorem mem_places_self : c :: rest ∈ l.places (c :: rest) :=
  List.mem_cons_self

theorem places_subset_of_some {cs : List Char} {n : Nat} (h : l.length? cs = some n) :
    l.places (cs.drop n) ⊆ l.places cs := by
  cases cs with
  | nil => rw [List.drop_nil]; exact List.Subset.refl _
  | cons c rest =>
    obtain ⟨k, rfl⟩ := Nat.exists_eq_add_one.mpr (l.pos h)
    have hplaces : l.places (c :: rest) = (c :: rest) :: l.placesFrom k rest := by
      rw [places, placesFrom, h]
      rfl
    rw [hplaces, placesFrom_eq, List.drop_succ_cons]
    exact List.subset_cons_self _ _

theorem places_subset_of_none (h : l.length? (c :: rest) = none) :
    l.places rest ⊆ l.places (c :: rest) := by
  have hplaces : l.places (c :: rest) = (c :: rest) :: l.places rest := by
    rw [places, placesFrom, h]
    rfl
  rw [hplaces]
  exact List.subset_cons_self _ _

/-- What holds of the empty text, and of a text if it holds of what a scan has left to read of it,
holds of every text. -/
@[elab_as_elim] theorem induction (l : Lexeme) {P : List Char → Prop} (nil : P [])
    (lexeme : ∀ {cs n}, l.length? cs = some n → P (cs.drop n) → P cs)
    (char : ∀ {c rest}, l.length? (c :: rest) = none → P rest → P (c :: rest)) (cs : List Char) :
    P cs := by
  induction hlength : cs.length using Nat.strong_induction_on generalizing cs with
  | _ length ih =>
    cases hfound : l.length? cs with
    | some n =>
      refine lexeme hfound (ih _ ?_ _ rfl)
      have hpos := l.pos hfound
      have hle := l.le hfound
      rw [List.length_drop]
      omega
    | none =>
      cases cs with
      | nil => exact nil
      | cons c rest =>
        refine char hfound (ih _ ?_ _ rfl)
        rw [← hlength, List.length_cons]
        exact Nat.lt_succ_self _

/-- Cutting out adds no characters. -/
theorem cutOut_subset (l : Lexeme) (cs : List Char) : l.cutOut cs ⊆ cs := by
  induction cs using l.induction with
  | nil => exact List.Subset.refl _
  | lexeme hlength ih =>
    rw [cutOut_of_some hlength]
    exact List.Subset.trans ih (List.drop_subset _ _)
  | char hlength ih =>
    rw [cutOut_of_none hlength]
    exact List.cons_subset_cons _ ih

end Lexeme

end Chars

namespace Pattern

open Chars (Lexeme)

/-! ### Matches as lexemes -/

/-- A pattern finds, wherever it is tried, exactly the lexemes of a kind. -/
def Finds (p : Pattern) (l : Lexeme) : Prop :=
  ∀ before pos cs, p.matchAt? ⟨before, pos, cs, []⟩
    = (l.length? cs).map fun n => ⟨⟨pos, pos + n, cs⟩, []⟩

def between (pieces : List (List Char × Option Match)) : List Char :=
  pieces.flatMap fun piece => piece.1

theorem removeAll_eq_between (p : Pattern) (cs : List Char) :
    p.removeAll cs = between (pieces 0 (p.findAll cs) cs) := by
  rw [removeAll, replaceAll, between]
  congr 1
  funext piece
  obtain ⟨text, m?⟩ := piece
  cases m? <;> simp

/-- What stands before a match is kept, and the match is left out. -/
theorem between_pieces_cons {m : Match} {start n : Nat} {waiting : List Char}
    (hstart : m.start = start + waiting.length) (hstop : m.stop = m.start + n) (ms : List Match)
    (cs : List Char) :
    between (pieces start (m :: ms) (waiting ++ cs))
      = waiting ++ between (pieces m.stop ms (cs.drop n)) := by
  have hfront : m.start - start = waiting.length := by omega
  have hback : m.stop - start = waiting.length + n := by omega
  rw [pieces, hfront, hback, List.take_left, List.drop_length_add_append, between,
    List.flatMap_cons, between]

/-- A search from some place on: what stands before it and was not matched is kept, and the rest is
scanned.  Either some characters are still to be skipped or some are waiting, never both. -/
theorem between_pieces_scan {p : Pattern} {l : Lexeme} (h : p.Finds l) (cs : List Char)
    {skip : Nat} {waiting : List Char} (hwaiting : skip = 0 ∨ waiting = [])
    (hskip : skip ≤ cs.length) (before : Option Char) {pos start : Nat}
    (hstart : start + waiting.length = pos + skip) :
    between (pieces start (p.scan skip before pos cs) (waiting ++ cs.drop skip))
      = waiting ++ l.cutFrom skip cs := by
  induction cs generalizing skip waiting before pos start with
  | nil =>
    obtain rfl : skip = 0 := Nat.le_zero.mp hskip
    rw [scan, h, l.length?_nil]
    simp [pieces, between, Lexeme.cutFrom]
  | cons c rest ih =>
    cases skip with
    | succ skip =>
      obtain rfl : waiting = [] := hwaiting.resolve_left (Nat.succ_ne_zero skip)
      rw [scan, List.drop_succ_cons, Lexeme.cutFrom]
      rw [List.length_nil] at hstart
      exact ih (.inr rfl) (Nat.le_of_succ_le_succ hskip) _ (by rw [List.length_nil]; omega)
    | zero =>
      rw [scan, h, Lexeme.cutFrom]
      cases hlength : l.length? (c :: rest) with
      | none =>
        have hnext := @ih 0 (waiting ++ [c]) (.inl rfl) (Nat.zero_le _) (some c) (pos + 1) start
          (by simp; omega)
        simpa using hnext
      | some n =>
        obtain ⟨k, rfl⟩ := Nat.exists_eq_add_one.mpr (l.pos hlength)
        have hk : k ≤ rest.length := Nat.le_of_succ_le_succ (l.le hlength)
        have hscan : pos + (k + 1) - pos - 1 = k := by omega
        have hmatch := between_pieces_cons (m := ⟨⟨pos, pos + (k + 1), c :: rest⟩, []⟩)
          hstart.symm rfl (p.scan k (some c) (pos + 1) rest) (c :: rest)
        have hnext := @ih k [] (.inr rfl) hk (some c) (pos + 1) (pos + (k + 1)) (by simp; omega)
        simp only [Option.map_some, Match.stop, Match.start, hscan, List.drop_zero] at hmatch ⊢
        rw [hmatch]
        exact congrArg (waiting ++ ·) hnext

theorem removeAll_eq_cutOut {p : Pattern} {l : Lexeme} (h : p.Finds l) (cs : List Char) :
    p.removeAll cs = l.cutOut cs := by
  rw [removeAll_eq_between]
  have hscan := @between_pieces_scan p l h cs 0 [] (.inl rfl) (Nat.zero_le _) none 0 0 rfl
  rwa [List.nil_append, List.nil_append, List.drop_zero] at hscan

/-! ### Given texts -/

theorem run_all_cons {α : Type} (p : Pattern) (ps : List Pattern) (k : Cursor → Option α)
    (s : Cursor) : (all (p :: ps)).run k s = p.run (fun s' => (all ps).run k s') s := by
  cases ps <;> rfl

/-- A given text fits where it stands, and only there. -/
theorem run_lit {α : Type} (w : String) (k : Cursor → Option α) (s : Cursor) :
    (lit w).run k s = if w.toList.isPrefixOf s.rest then
      k (s.after w.toList (s.rest.drop w.toList.length)) else none := by
  rw [lit]
  induction w.toList generalizing s with
  | nil =>
    have hself : s.after [] s.rest = s := by simp [Cursor.after]
    rw [List.isPrefixOf_nil_left, if_pos rfl, List.length_nil, List.drop_zero, hself]
    rfl
  | cons c w ih =>
    rw [List.map_cons, run_all_cons, char, run]
    cases hrest : s.rest with
    | nil => rfl
    | cons d rest =>
      dsimp only
      by_cases hdc : d = c
      · subst hdc
        have hstep : s.step d rest = s.after [d] rest := rfl
        rw [if_pos (beq_self_eq_true d), ih, hstep, Cursor.after_after, Cursor.after_rest,
          List.isPrefixOf_cons_cons, beq_self_eq_true, Bool.true_and, List.length_cons,
          List.drop_succ_cons]
        rfl
      · have hcd : (c == d) = false := beq_false_of_ne (Ne.symm hdc)
        rw [if_neg (by simpa using hdc), List.isPrefixOf_cons_cons, hcd, Bool.false_and,
          if_neg Bool.false_ne_true]

/-- A pattern that begins with a given text fits only where that stands. -/
theorem matchAt?_lit_append (w : String) (p : Pattern) (s : Cursor) :
    (lit w ++ p).matchAt? s = if w.toList.isPrefixOf s.rest then
      p.run (fun t => some ⟨⟨s.pos, t.pos, s.rest⟩, t.groups⟩)
        (s.after w.toList (s.rest.drop w.toList.length)) else none :=
  run_lit w _ s

end Pattern

end CodeScribe
