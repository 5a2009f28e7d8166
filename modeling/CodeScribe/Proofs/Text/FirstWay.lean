import Mathlib.Data.List.Forall2
import CodeScribe.Proofs.Text.Pattern

/-!
# The way that a pattern takes first

Of all the ways in which a pattern fits, the matcher answers for the first that its caller accepts.
This file follows that first way through a text that is known piece by piece.

* `Pattern.takes_span`, `Pattern.takes_lit`, `Pattern.takes_litAnyCase` — greedy reading takes all
  it can, and a given text takes itself;
* `Pattern.Consumes` — what a pattern takes of a text, and what its groups hold then.
-/

namespace CodeScribe

open Text

namespace Cursor

/-- The place behind some characters. -/
def after (s : Cursor) (cs rest : List Char) : Cursor :=
  ⟨cs.getLast?.or s.before, s.pos + cs.length, rest, s.groups⟩

@[simp] theorem after_rest (s : Cursor) (cs rest : List Char) : (s.after cs rest).rest = rest := rfl

theorem after_after (s : Cursor) (as bs rest rest' : List Char) :
    (s.after as rest).after bs rest' = s.after (as ++ bs) rest' := by
  simp only [after, List.getLast?_append, Option.or_assoc, List.length_append, Nat.add_assoc]

/-- The place behind a character and those that follow it. -/
theorem behind_cons (c : Char) (w rest : List Char) (before : Option Char) (pos : Nat)
    (groups : List (Nat × Span)) :
    (⟨(c :: w).getLast?.or before, pos + (c :: w).length, rest, groups⟩ : Cursor) =
      ⟨w.getLast?.or (some c), pos + 1 + w.length, rest, groups⟩ := by
  rw [getLast?_cons_or, List.length_cons, Nat.add_right_comm, Nat.add_assoc]

end Cursor

namespace Pattern

variable {accept : Char → Bool} {rest w : List Char}

/-- The matcher tries this way first: if its end is accepted, that is the answer. -/
def Takes (p : Pattern) (s t : Cursor) : Prop :=
  ∀ (α : Type) (k : Cursor → Option α) (a : α), k t = some a → p.run k s = some a

variable {p q : Pattern} {s t u : Cursor}

theorem Takes.seq (h : p.Takes s t) (h' : q.Takes t u) : (p ++ q).Takes s u := by
  intro α k a hk
  exact h _ _ _ (h' _ _ _ hk)

theorem Takes.group (h : p.Takes s t) (i : Nat) : (group i p).Takes s (t.close i s) := by
  intro α k a hk
  exact h _ (fun m => k (m.close i s)) _ hk

theorem takes_nothing (s : Cursor) : nothing.Takes s s := by
  intro α k a hk
  exact hk

theorem takes_one {c : Char} (hs : s.rest = c :: rest) (hc : accept c = true) :
    (one accept).Takes s (s.after [c] rest) := by
  intro α k a hk
  rw [run, hs]
  show (if accept c then k (s.step c rest) else none) = some a
  rw [hc, if_pos rfl]
  exact hk

/-! ### Character classes -/

/-- Greedy reading takes all it can if it is accepted there. -/
theorem runSpan_append {α : Type} {k : Cursor → Option α} {a : α} (groups : List (Nat × Span))
    {after : List Char} (before : Option Char) (pos : Nat) (hw : ∀ c ∈ w, accept c = true)
    (hafter : after.head?.any accept = false)
    (hk : k ⟨w.getLast?.or before, pos + w.length, after, groups⟩ = some a) :
    runSpan accept k groups before pos (w ++ after) = some a := by
  induction w generalizing before pos with
  | nil =>
    cases after with
    | nil => exact hk
    | cons c rest =>
      have hc : accept c = false := hafter
      rw [List.nil_append, runSpan, hc, if_neg Bool.false_ne_true]
      exact hk
  | cons c w ih =>
    obtain ⟨hc, hw⟩ := List.forall_mem_cons.mp hw
    rw [Cursor.behind_cons] at hk
    have hrest : runSpan accept k groups (some c) (pos + 1) (w ++ after) = some a := ih _ _ hw hk
    rw [List.cons_append, runSpan, hc, if_pos rfl, hrest]

theorem takes_span (hs : s.rest = w ++ rest) (hw : ∀ c ∈ w, accept c = true)
    (hrest : rest.head?.any accept = false) : (span accept).Takes s (s.after w rest) := by
  intro α k a hk
  rw [run, hs]
  exact runSpan_append _ _ _ hw hrest hk

theorem takes_span1 (hs : s.rest = w ++ rest) (hne : w ≠ []) (hw : ∀ c ∈ w, accept c = true)
    (hrest : rest.head?.any accept = false) : (span1 accept).Takes s (s.after w rest) := by
  obtain ⟨c, w, rfl⟩ := List.exists_cons_of_ne_nil hne
  obtain ⟨hc, hw⟩ := List.forall_mem_cons.mp hw
  have hone : (one accept).Takes s (s.after [c] (w ++ rest)) := takes_one hs hc
  have hspan : (span accept).Takes (s.after [c] (w ++ rest)) (s.after (c :: w) rest) := by
    have h := takes_span (s := s.after [c] (w ++ rest)) rfl hw hrest
    rwa [Cursor.after_after] at h
  exact hone.seq hspan

/-! ### Given texts -/

/-- Characters one by one, each accepted by the test at its position. -/
theorem takes_all {test : Char → Char → Bool} {cs : List Char} (hs : s.rest = cs ++ rest)
    (h : List.Forall₂ (fun c d => test c d = true) w cs) :
    (all (w.map fun c => one (test c))).Takes s (s.after cs rest) := by
  induction h generalizing s with
  | nil =>
    have hself : s.after [] rest = s := by
      rw [List.nil_append] at hs
      simp [Cursor.after, ← hs]
    rw [hself]
    exact takes_nothing s
  | @cons c d w cs hcd hrest ih =>
    have hone : (one (test c)).Takes s (s.after [d] (cs ++ rest)) := takes_one hs hcd
    have hmore := ih (s := s.after [d] (cs ++ rest)) rfl
    rw [Cursor.after_after] at hmore
    cases w with
    | nil =>
      cases hrest
      exact hone
    | cons c' w => exact hone.seq hmore

theorem takes_lit {w : String} (hs : s.rest = w.toList ++ rest) :
    (lit w).Takes s (s.after w.toList rest) :=
  takes_all hs (List.forall₂_same.mpr fun _ _ => beq_self_eq_true _)

theorem sameLetter_self (c : Char) : sameLetter c c = true := by simp [sameLetter]

theorem takes_litAnyCase {w : String} (hs : s.rest = w.toList ++ rest) :
    (litAnyCase w).Takes s (s.after w.toList rest) :=
  takes_all hs (List.forall₂_same.mpr fun c _ => sameLetter_self c)

/-! ### Texts that a pattern takes -/

/-- Wherever a text stands in front of some rest, a pattern takes just that text first.  Some groups
hold the given texts then, the others what they held before. -/
def Consumes (p : Pattern) (w rest : List Char) (held : List (Nat × List Char)) : Prop :=
  ∀ s : Cursor, s.rest = w ++ rest → ∃ t, p.Takes s t ∧ t.rest = rest ∧
    t.pos = s.pos + w.length ∧ ∀ i, t.groupAt i = (held.lookup i).or (s.groupAt i)

variable {v : List Char} {held held' : List (Nat × List Char)}

theorem consumes_of_takes (h : ∀ s : Cursor, s.rest = w ++ rest → p.Takes s (s.after w rest)) :
    p.Consumes w rest [] :=
  fun s hs => ⟨_, h s hs, rfl, rfl, fun _ => rfl⟩

theorem consumes_nil_of_takes (h : ∀ s : Cursor, s.rest = rest → p.Takes s s) :
    p.Consumes [] rest [] :=
  fun s hs => ⟨s, h s hs, hs, rfl, fun _ => rfl⟩

theorem Consumes.seq (h : p.Consumes v (w ++ rest) held) (h' : q.Consumes w rest held') :
    (p ++ q).Consumes (v ++ w) rest (held' ++ held) := by
  intro s hs
  obtain ⟨t, ht, hrest, hpos, hheld⟩ := h s (hs.trans (List.append_assoc _ _ _))
  obtain ⟨u, hu, hrest', hpos', hheld'⟩ := h' t hrest
  refine ⟨u, ht.seq hu, hrest', ?_, fun i => ?_⟩
  · rw [hpos', hpos, List.length_append, Nat.add_assoc]
  · rw [hheld', hheld, List.lookup_append, Option.or_assoc]

theorem Consumes.assoc {r : Pattern} (h : (p ++ (q ++ r)).Consumes w rest held) :
    (p ++ q ++ r).Consumes w rest held := h

theorem Consumes.of_eq (h : p.Consumes v rest held) (hw : w = v) : p.Consumes w rest held := hw ▸ h

/-- A pattern that takes nothing behind another one. -/
theorem Consumes.pass (h : p.Consumes w rest held) (h' : q.Consumes [] rest held') :
    (p ++ q).Consumes w rest (held' ++ held) :=
  (Consumes.seq (w := []) h h').of_eq (List.append_nil w).symm

theorem Consumes.group (h : p.Consumes w rest held) (i : Nat) :
    (group i p).Consumes w rest ((i, w) :: held) := by
  intro s hs
  obtain ⟨t, ht, hrest, hpos, hheld⟩ := h s hs
  refine ⟨t.close i s, ht.group i, hrest, hpos, fun j => ?_⟩
  by_cases hj : i = j
  · rw [← hj, Cursor.groupAt_close_self, hpos, hs]
    simp
  · rw [Cursor.groupAt_close_of_ne _ _ hj, hheld, List.lookup_cons, beq_false_of_ne (Ne.symm hj)]

theorem consumes_one {c : Char} (hc : accept c = true) (rest : List Char) :
    (one accept).Consumes [c] rest [] :=
  consumes_of_takes fun _ hs => takes_one hs hc

theorem consumes_span (hw : ∀ c ∈ w, accept c = true) (hrest : rest.head?.any accept = false) :
    (span accept).Consumes w rest [] :=
  consumes_of_takes fun _ hs => takes_span hs hw hrest

theorem consumes_span1 (hne : w ≠ []) (hw : ∀ c ∈ w, accept c = true)
    (hrest : rest.head?.any accept = false) : (span1 accept).Consumes w rest [] :=
  consumes_of_takes fun _ hs => takes_span1 hs hne hw hrest

theorem consumes_lit (w : String) (rest : List Char) : (lit w).Consumes w.toList rest [] :=
  consumes_of_takes fun _ hs => takes_lit hs

theorem consumes_litAnyCase (w : String) (rest : List Char) :
    (litAnyCase w).Consumes w.toList rest [] :=
  consumes_of_takes fun _ hs => takes_litAnyCase hs

/-! ### Searching -/

/-- A way that is taken at the start of a text is the one that a search finds. -/
theorem find?_of_takes {cs : List Char} (h : p.Takes (Cursor.start cs) t) :
    p.find? cs = some ⟨⟨0, t.pos, cs⟩, t.groups⟩ := by
  have hstart : p.matchAt? ⟨none, 0, cs, []⟩ = some ⟨⟨0, t.pos, cs⟩, t.groups⟩ := h _ _ _ rfl
  cases cs with
  | nil => exact hstart
  | cons c rest => rw [find?, findFrom?, hstart]

end Pattern

end CodeScribe
