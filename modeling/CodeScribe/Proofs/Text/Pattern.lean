import CodeScribe.Proofs.Text.Basic
import CodeScribe.Text.Pattern
import Mathlib.Logic.Relation

/-!
# What a match of a pattern says

The matcher tries the ways in which a pattern fits in an order of preference and stops at the
first that its caller accepts.  What it says about a text does not depend on that order: this file
describes the ways by themselves and reads off what the groups of a match hold.

* `Pattern.foundIn_of_mem_findAll`, `Pattern.foundIn_of_find?` — every match of a search tells of
  a way at a place of the text;
* `Pattern.findAll_sound`, `Pattern.find?_sound` — the same without the place.
-/

namespace CodeScribe

variable {m : Match} {p : Pattern}

namespace Cursor

/-- The text between two places. -/
structure Reads (s : Cursor) (cs : List Char) (t : Cursor) : Prop where
  rest : s.rest = cs ++ t.rest
  pos : t.pos = s.pos + cs.length
  before : t.before = cs.getLast?.or s.before

/-- The character in front of a place, when one more was read at the start. -/
theorem getLast?_cons_or (c : Char) (cs : List Char) (before : Option Char) :
    (c :: cs).getLast?.or before = cs.getLast?.or (some c) := by cases cs <;> rfl

theorem Reads.refl (s : Cursor) : s.Reads [] s := ⟨rfl, rfl, rfl⟩

theorem Reads.step (s : Cursor) {c : Char} {rest : List Char} (h : s.rest = c :: rest) :
    s.Reads [c] (s.step c rest) := ⟨h, rfl, rfl⟩

theorem Reads.trans {s t u : Cursor} {cs ds : List Char} (h : s.Reads cs t) (h' : t.Reads ds u) :
    s.Reads (cs ++ ds) u where
  rest := by rw [h.rest, h'.rest, List.append_assoc]
  pos := by rw [h'.pos, h.pos, List.length_append, Nat.add_assoc]
  before := by rw [h'.before, h.before, List.getLast?_append, Option.or_assoc]

/-- The text of a group that was read up to here. -/
def groupAt (s : Cursor) (i : Nat) : Option (List Char) :=
  (s.groups.find? (·.1 == i)).map (·.2.chars)

theorem groupAt_close_self (s opened : Cursor) (i : Nat) :
    (s.close i opened).groupAt i = some (opened.rest.take (s.pos - opened.pos)) := by
  simp [groupAt, close, Span.chars]

theorem groupAt_close_of_ne (s opened : Cursor) {i j : Nat} (h : j ≠ i) :
    (s.close j opened).groupAt i = s.groupAt i := by
  simp [groupAt, close, h]

end Cursor

namespace Pattern

variable {p : Pattern} {s : Cursor}

/-! ### The ways in which a pattern fits -/

/-- A pattern leads from one place to another. -/
def Fits : Pattern → Cursor → Cursor → Prop
  | nothing, s, t => t = s
  | one accept, s, t => ∃ c, accept c = true ∧ s.Reads [c] t ∧ t.groups = s.groups
  | span accept, s, t => ∃ cs, (∀ c ∈ cs, accept c = true) ∧ s.Reads cs t ∧ t.groups = s.groups
  | spanLazy accept, s, t =>
    ∃ cs, (∀ c ∈ cs, accept c = true) ∧ s.Reads cs t ∧ t.groups = s.groups
  | seq a b, s, t => ∃ m, a.Fits s m ∧ b.Fits m t
  | alt a b, s, t => a.Fits s t ∨ b.Fits s t
  | star p, s, t => Relation.ReflTransGen (fun x y => p.Fits x y) s t
  | group i p, s, t => ∃ m, p.Fits s m ∧ t = m.close i s
  | test holds, s, t => holds s = true ∧ t = s
  | ahead p, s, t => ∃ m, p.Fits s m ∧ t = { s with groups := m.groups }

variable {α : Type}

/-- Reading characters of a class can stop at once. -/
theorem fits_span_stop (accept : Char → Bool) (s : Cursor) : (span accept).Fits s s :=
  ⟨[], by simp, .refl s, rfl⟩

/-- It can also go on with a character of the class. -/
theorem fits_span_step {accept : Char → Bool} {c : Char} (hc : accept c = true)
    {before : Option Char} {pos : Nat} {rest : List Char} {groups : List (Nat × Span)} {t : Cursor}
    (h : (span accept).Fits ⟨some c, pos + 1, rest, groups⟩ t) :
    (span accept).Fits ⟨before, pos, c :: rest, groups⟩ t := by
  obtain ⟨cs, hcs, hreads, hgroups⟩ := h
  have hstep : Cursor.Reads ⟨before, pos, c :: rest, groups⟩ [c]
    ⟨some c, pos + 1, rest, groups⟩ := .step _ rfl
  exact ⟨c :: cs, List.forall_mem_cons.mpr ⟨hc, hcs⟩, hstep.trans hreads, hgroups⟩

theorem runSpan_sound {accept : Char → Bool} {k : Cursor → Option α}
    {groups : List (Nat × Span)} {a : α} (before : Option Char) (pos : Nat) (rest : List Char)
    (h : runSpan accept k groups before pos rest = some a) :
    ∃ t, (span accept).Fits ⟨before, pos, rest, groups⟩ t ∧ k t = some a := by
  induction rest generalizing before pos with
  | nil => exact ⟨_, fits_span_stop accept _, h⟩
  | cons c rest ih =>
    rw [runSpan] at h
    split at h
    · rename_i hc
      split at h
      · rename_i b hb
        cases h
        obtain ⟨t, ht, hk⟩ := ih _ _ hb
        exact ⟨t, fits_span_step hc ht, hk⟩
      · exact ⟨_, fits_span_stop accept _, h⟩
    · exact ⟨_, fits_span_stop accept _, h⟩

/-- The ways of lazy reading are those of greedy reading. -/
theorem runLazy_sound {accept : Char → Bool} {k : Cursor → Option α}
    {groups : List (Nat × Span)} {a : α} (before : Option Char) (pos : Nat) (rest : List Char)
    (h : runLazy accept k groups before pos rest = some a) :
    ∃ t, (span accept).Fits ⟨before, pos, rest, groups⟩ t ∧ k t = some a := by
  induction rest generalizing before pos with
  | nil => exact ⟨_, fits_span_stop accept _, h⟩
  | cons c rest ih =>
    rw [runLazy] at h
    split at h
    · rename_i b hb
      cases h
      exact ⟨_, fits_span_stop accept _, hb⟩
    · split at h
      · rename_i hc
        obtain ⟨t, ht, hk⟩ := ih _ _ h
        exact ⟨t, fits_span_step hc ht, hk⟩
      · cases h

theorem runStar_sound {turn : (Cursor → Option α) → Cursor → Option α}
    {R : Cursor → Cursor → Prop} {a : α}
    (hturn : ∀ k s, turn k s = some a → ∃ t, R s t ∧ k t = some a) (k : Cursor → Option α)
    (turns : Nat) (s : Cursor) (h : runStar turn k turns s = some a) :
    ∃ t, Relation.ReflTransGen R s t ∧ k t = some a := by
  induction turns generalizing s with
  | zero => exact ⟨s, .refl, h⟩
  | succ turns ih =>
    rw [runStar] at h
    split at h
    · rename_i b hb
      cases h
      obtain ⟨m, hm, hrest⟩ := hturn _ _ hb
      split at hrest
      · obtain ⟨t, ht, hk⟩ := ih m hrest
        exact ⟨t, ht.head hm, hk⟩
      · cases hrest
    · exact ⟨s, .refl, h⟩

/-- What the matcher answers, it answers for a place to which the pattern leads. -/
theorem run_sound (p : Pattern) (k : Cursor → Option α) (s : Cursor) {a : α}
    (h : p.run k s = some a) : ∃ t, p.Fits s t ∧ k t = some a := by
  induction p generalizing α k s with
  | nothing => exact ⟨s, rfl, h⟩
  | one accept =>
    rw [run] at h
    split at h
    · cases h
    · rename_i c rest hrest
      split at h
      · rename_i hc
        exact ⟨_, ⟨c, hc, .step s hrest, rfl⟩, h⟩
      · cases h
  | span accept => exact runSpan_sound _ _ _ h
  | spanLazy accept => exact runLazy_sound _ _ _ h
  | seq p q ihp ihq =>
    obtain ⟨m, hm, hrest⟩ := ihp _ _ h
    obtain ⟨t, ht, hk⟩ := ihq _ _ hrest
    exact ⟨t, ⟨m, hm, ht⟩, hk⟩
  | alt p q ihp ihq =>
    rw [run] at h
    split at h
    · rename_i b hb
      cases h
      obtain ⟨t, ht, hk⟩ := ihp _ _ hb
      exact ⟨t, .inl ht, hk⟩
    · obtain ⟨t, ht, hk⟩ := ihq _ _ h
      exact ⟨t, .inr ht, hk⟩
  | star p ih => exact runStar_sound (fun k s => ih k s) k _ s h
  | group i p ih =>
    obtain ⟨m, hm, hk⟩ := ih _ _ h
    exact ⟨_, ⟨m, hm, rfl⟩, hk⟩
  | test holds =>
    rw [run] at h
    split at h
    · rename_i hs
      exact ⟨s, ⟨hs, rfl⟩, h⟩
    · cases h
  | ahead p ih =>
    rw [run] at h
    split at h
    · rename_i groups hgroups
      obtain ⟨m, hm, hm'⟩ := ih _ _ hgroups
      cases hm'
      exact ⟨_, ⟨m, hm, rfl⟩, h⟩
    · cases h

/-! ### Groups -/

def numbers : Pattern → List Nat
  | seq a b | alt a b => a.numbers ++ b.numbers
  | star p | ahead p => p.numbers
  | group i p => i :: p.numbers
  | nothing | one _ | span _ | spanLazy _ | test _ => []

theorem Fits.groupAt_eq {t : Cursor} (h : p.Fits s t) {i : Nat} (hi : i ∉ p.numbers) :
    t.groupAt i = s.groupAt i := by
  induction p generalizing s t with
  | nothing => rw [show t = s from h]
  | one accept =>
    obtain ⟨_, -, -, hgroups⟩ := h
    rw [Cursor.groupAt, hgroups, Cursor.groupAt]
  | span accept =>
    obtain ⟨_, -, -, hgroups⟩ := h
    rw [Cursor.groupAt, hgroups, Cursor.groupAt]
  | spanLazy accept =>
    obtain ⟨_, -, -, hgroups⟩ := h
    rw [Cursor.groupAt, hgroups, Cursor.groupAt]
  | seq a b iha ihb =>
    obtain ⟨ha, hb⟩ := not_or.mp fun hor => hi (List.mem_append.mpr hor)
    obtain ⟨m, hm, ht⟩ := h
    rw [ihb ht hb, iha hm ha]
  | alt a b iha ihb =>
    obtain ⟨ha, hb⟩ := not_or.mp fun hor => hi (List.mem_append.mpr hor)
    rcases h with h | h
    · exact iha h ha
    · exact ihb h hb
  | star p ih =>
    have hturns : ∀ u, Relation.ReflTransGen (fun x y => p.Fits x y) s u →
        u.groupAt i = s.groupAt i := by
      intro u hu
      induction hu with
      | refl => rfl
      | tail _ hlast ihturns => rw [ih hlast hi, ihturns]
    exact hturns t h
  | group j p ih =>
    obtain ⟨hj, hp⟩ := not_or.mp fun hor => hi (List.mem_cons.mpr hor)
    obtain ⟨m, hm, rfl⟩ := h
    rw [Cursor.groupAt_close_of_ne _ _ (Ne.symm hj), ih hm hp]
  | test holds => rw [h.2]
  | ahead p ih =>
    obtain ⟨m, hm, rfl⟩ := h
    rw [← ih hm hi]
    rfl

/-- The pattern in the last group of a number, if every way passes that group. -/
def body? (i : Nat) : Pattern → Option Pattern
  | seq a b => if i ∈ b.numbers then b.body? i else a.body? i
  | group j p => if j = i then some p else p.body? i
  | _ => none

/-- A group that every way passes holds the text that its last body has read. -/
theorem Fits.groupAt_body {q : Pattern} {t : Cursor} (h : p.Fits s t) {i : Nat}
    (hq : p.body? i = some q) :
    ∃ s' t', q.Fits s' t' ∧ t.groupAt i = some (s'.rest.take (t'.pos - s'.pos)) := by
  induction p generalizing s t with
  | seq a b iha ihb =>
    obtain ⟨m, hm, ht⟩ := h
    rw [body?] at hq
    split at hq
    · exact ihb ht hq
    · rename_i hb
      rw [ht.groupAt_eq hb]
      exact iha hm hq
  | group j p ih =>
    obtain ⟨m, hm, rfl⟩ := h
    rw [body?] at hq
    split at hq
    · rename_i hj
      cases hq
      subst hj
      exact ⟨s, m, hm, Cursor.groupAt_close_self m s j⟩
    · rename_i hj
      rw [Cursor.groupAt_close_of_ne _ _ hj]
      exact ih hm hq
  | nothing => cases hq
  | one _ => cases hq
  | span _ => cases hq
  | spanLazy _ => cases hq
  | alt _ _ _ _ => cases hq
  | star _ _ => cases hq
  | test _ => cases hq
  | ahead _ _ => cases hq

/-! ### Built patterns -/

@[simp] theorem numbers_append (a b : Pattern) : (a ++ b).numbers = a.numbers ++ b.numbers := rfl

@[simp] theorem numbers_orElse (a b : Pattern) : (a <|> b).numbers = a.numbers ++ b.numbers := rfl

@[simp] theorem numbers_opt (p : Pattern) : (opt p).numbers = p.numbers :=
  List.append_nil p.numbers

@[simp] theorem numbers_char (c : Char) : (char c).numbers = [] := rfl

@[simp] theorem numbers_span1 (accept : Char → Bool) : (span1 accept).numbers = [] := rfl

@[simp] theorem numbers_blanks : blanks.numbers = [] := rfl

@[simp] theorem numbers_blanks1 : blanks1.numbers = [] := rfl

@[simp] theorem numbers_name : name.numbers = [] := rfl

theorem numbers_all {ps : List Pattern} (h : ∀ p ∈ ps, p.numbers = []) :
    (all ps).numbers = [] := by
  induction ps with
  | nil => rfl
  | cons p ps ih =>
    obtain ⟨hp, hps⟩ := List.forall_mem_cons.mp h
    cases ps with
    | nil => exact hp
    | cons q qs =>
      show (p ++ all (q :: qs)).numbers = []
      rw [numbers_append, hp, ih hps, List.append_nil]

@[simp] theorem numbers_lit (s : String) : (lit s).numbers = [] :=
  numbers_all (by simp)

@[simp] theorem numbers_litAnyCase (s : String) : (litAnyCase s).numbers = [] :=
  numbers_all (by simp [numbers])

/-! ### Matches -/

theorem matchAt?_sound {m : Match} (h : p.matchAt? s = some m) :
    ∃ t, p.Fits s t ∧ m = ⟨⟨s.pos, t.pos, s.rest⟩, t.groups⟩ := by
  obtain ⟨t, ht, hm⟩ := run_sound p _ s h
  exact ⟨t, ht, (Option.some.inj hm).symm⟩

end Pattern

/-- A match tells of a way in which a pattern fits somewhere. -/
def Match.FoundBy (m : Match) (p : Pattern) : Prop :=
  ∃ s t, p.Fits s t ∧ m = ⟨⟨s.pos, t.pos, s.rest⟩, t.groups⟩

/-- A match tells of a way in which a pattern fits at a place of a text, with no group read yet. -/
def Match.FoundIn (m : Match) (p : Pattern) (cs : List Char) : Prop :=
  ∃ s t, p.Fits s t ∧ s.groups = [] ∧ s.rest <:+ cs ∧ m = ⟨⟨s.pos, t.pos, s.rest⟩, t.groups⟩

theorem Match.FoundIn.foundBy {cs : List Char} (h : m.FoundIn p cs) : m.FoundBy p := by
  obtain ⟨s, t, hfits, -, -, hm⟩ := h
  exact ⟨s, t, hfits, hm⟩

theorem Match.FoundIn.mono {cs ds : List Char} (h : m.FoundIn p cs) (hcs : cs <:+ ds) :
    m.FoundIn p ds := by
  obtain ⟨s, t, hfits, hgroups, hrest, hm⟩ := h
  exact ⟨s, t, hfits, hgroups, hrest.trans hcs, hm⟩

namespace Pattern

variable {p : Pattern} {m : Match} {cs : List Char}

theorem foundIn_of_matchAt? {before : Option Char} {pos : Nat}
    (h : p.matchAt? ⟨before, pos, cs, []⟩ = some m) : m.FoundIn p cs := by
  obtain ⟨t, hfits, hm⟩ := matchAt?_sound h
  exact ⟨_, t, hfits, rfl, List.suffix_rfl, hm⟩

theorem foundIn_of_findFrom? (before : Option Char) (pos : Nat) (cs : List Char)
    (h : p.findFrom? before pos cs = some m) : m.FoundIn p cs := by
  induction cs generalizing before pos with
  | nil => exact foundIn_of_matchAt? h
  | cons c rest ih =>
    rw [findFrom?] at h
    split at h
    · rename_i m' hm'
      cases h
      exact foundIn_of_matchAt? hm'
    · exact (ih _ _ h).mono (List.suffix_cons c rest)

theorem foundIn_of_find? (h : p.find? cs = some m) : m.FoundIn p cs :=
  foundIn_of_findFrom? _ _ _ h

theorem foundIn_of_mem_scan (skip : Nat) (before : Option Char) (pos : Nat) (cs : List Char)
    (h : m ∈ p.scan skip before pos cs) : m.FoundIn p cs := by
  induction cs generalizing skip before pos with
  | nil =>
    have hm : p.matchAt? ⟨before, pos, [], []⟩ = some m := by
      cases skip <;> simpa [scan] using h
    exact foundIn_of_matchAt? hm
  | cons c rest ih =>
    have hrest : rest <:+ c :: rest := List.suffix_cons c rest
    cases skip with
    | succ skip => exact (ih _ _ _ h).mono hrest
    | zero =>
      rw [scan] at h
      split at h
      · rename_i m' hm'
        rcases List.mem_cons.mp h with rfl | h
        · exact foundIn_of_matchAt? hm'
        · exact (ih _ _ _ h).mono hrest
      · exact (ih _ _ _ h).mono hrest

theorem foundIn_of_mem_findAll (h : m ∈ p.findAll cs) : m.FoundIn p cs :=
  foundIn_of_mem_scan _ _ _ _ h

theorem find?_sound (h : p.find? cs = some m) : m.FoundBy p :=
  (foundIn_of_find? h).foundBy

theorem findAll_sound (h : m ∈ p.findAll cs) : m.FoundBy p :=
  (foundIn_of_mem_findAll h).foundBy

theorem Fits.span1 {accept : Char → Bool} {s t : Cursor} (h : (span1 accept).Fits s t) :
    ∃ cs, cs ≠ [] ∧ (∀ c ∈ cs, accept c = true) ∧ s.Reads cs t := by
  obtain ⟨m, ⟨c, hc, hm, -⟩, cs, hcs, ht, -⟩ := h
  refine ⟨c :: cs, List.cons_ne_nil c cs, ?_, hm.trans ht⟩
  simpa [hc] using hcs

end Pattern

/-- A group around one character class holds at least one character, and only such characters. -/
theorem Match.FoundBy.get_span1 (h : m.FoundBy p) {i : Nat} {accept : Char → Bool}
    (hp : p.body? i = some (Pattern.span1 accept)) : Text.MadeOf accept (m.get i) := by
  obtain ⟨s, t, hst, rfl⟩ := h
  obtain ⟨s', t', hbody, hgroup⟩ := hst.groupAt_body hp
  obtain ⟨cs, hne, hcs, hreads⟩ := hbody.span1
  have hchars : s'.rest.take (t'.pos - s'.pos) = cs := by
    rw [hreads.rest, hreads.pos, Nat.add_sub_cancel_left, List.take_left]
  have hget : Match.chars? ⟨⟨s.pos, t.pos, s.rest⟩, t.groups⟩ i = some cs := by
    rw [← hchars]
    exact hgroup
  rw [Text.MadeOf, Match.get, Match.get?, hget]
  simpa using ⟨hne, hcs⟩

end CodeScribe
