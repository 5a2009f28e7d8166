import CodeScribe.Analysis.Dependency.Resolve
import CodeScribe.Proofs.Text.FirstWay

/-!
# The identifiers of a source text

Identifiers are searched by a pattern, from left to right and each behind the one before.  This file
says which texts are found: those that stand in the source as whole words.

* `Index.matchAt?_sound`, `Index.matchAt?_complete` — the pattern fits exactly at the start of such
  an identifier, and then reads all of it.
-/

namespace CodeScribe.Dependency.Index

open Pattern Text

variable {c : Char} {w after : List Char} {before : Option Char}

/-! ### Whole words -/

/-- An identifier: letters, digits and underscores of ASCII, and no digit in front. -/
def IsIdent (w : List Char) : Prop :=
  ∃ c cs, w = c :: cs ∧ isIdentStart c = true ∧ ∀ d ∈ cs, isIdentChar d = true

/-- An identifier between two places of a text that belong to no word. -/
structure IdentAt (before : Option Char) (w after : List Char) : Prop where
  ident : IsIdent w
  before : before.any isWord = false
  after : after.head?.any isWord = false

/-- A text mentions an identifier: it stands there as a whole word. -/
def Mentions (content w : List Char) : Prop :=
  ∃ a b, content = a ++ w ++ b ∧ IdentAt a.getLast? w b

theorem isIdentChar_of_isIdentStart (h : isIdentStart c = true) : isIdentChar c = true := by
  simp only [isIdentStart, isIdentChar, Char.isAlphanum, Bool.or_eq_true] at h ⊢
  tauto

theorem isWord_of_isIdentChar (h : isIdentChar c = true) : isWord c = true := by
  simp only [isIdentChar, isWord, Bool.or_eq_true] at h ⊢
  rcases h with h | h
  · left
    have hascii : c.toNat < 0x80 := by
      delta Char.isAlphanum Char.isAlpha Char.isUpper Char.isLower Char.isDigit at h
      simp only [Bool.or_eq_true, Bool.and_eq_true, decide_eq_true_eq, ge_iff_le,
        UInt32.le_iff_toNat_le] at h
      have : c.toNat = c.val.toNat := rfl
      rcases h with (⟨-, h⟩ | ⟨-, h⟩) | ⟨-, h⟩ <;> simp at h <;> omega
    rw [isAlnum, if_pos hascii]
    exact h
  · exact .inr h

theorem IsIdent.isWord (h : IsIdent w) : ∀ c ∈ w, isWord c = true := by
  obtain ⟨c, cs, rfl, hc, hcs⟩ := h
  rw [List.forall_mem_cons]
  exact ⟨isWord_of_isIdentChar (isIdentChar_of_isIdentStart hc),
    fun d hd => isWord_of_isIdentChar (hcs d hd)⟩

theorem IsIdent.ne_nil (h : IsIdent w) : w ≠ [] := by
  obtain ⟨c, cs, rfl, -⟩ := h
  exact List.cons_ne_nil c cs

theorem getLast?_any_isWord (hne : w ≠ []) (hw : ∀ c ∈ w, isWord c = true) (before : Option Char) :
    (w.getLast?.or before).any isWord = true := by
  rw [List.getLast?_eq_some_getLast hne]
  exact hw _ (List.getLast_mem hne)

/-! ### The pattern at one place -/

theorem matchAt?_sound {pos : Nat} {cs : List Char} {m : Match}
    (h : identPattern.matchAt? ⟨before, pos, cs, []⟩ = some m) :
    ∃ after, cs = m.chars ++ after ∧ IdentAt before m.chars after ∧
      m.stop - m.start = m.chars.length := by
  obtain ⟨t, ht, rfl⟩ := Pattern.matchAt?_sound h
  obtain ⟨s, ⟨u, ⟨v, ⟨hedge, rfl⟩, c, hc, hone, -⟩, ds, hds, hspan, -⟩, hedge', rfl⟩ := ht
  have hreads := hone.trans hspan
  have hident : IsIdent ([c] ++ ds) := ⟨c, ds, rfl, hc, hds⟩
  have hword := hident.isWord
  have hchars : Match.chars ⟨⟨pos, t.pos, cs⟩, t.groups⟩ = [c] ++ ds := by
    show cs.take (t.pos - pos) = [c] ++ ds
    have hrest : cs = ([c] ++ ds) ++ t.rest := hreads.rest
    rw [hreads.pos, Nat.add_sub_cancel_left, hrest, List.take_left]
  rw [hchars]
  refine ⟨t.rest, hreads.rest, ⟨hident, ?_, ?_⟩, ?_⟩
  · have hhead : cs.head?.any isWord = true := by
      rw [show cs = ([c] ++ ds) ++ t.rest from hreads.rest]
      exact hword c (by simp)
    simpa [Cursor.atWordEdge, hhead] using hedge
  · have hlast := getLast?_any_isWord hident.ne_nil hword before
    have hbefore : t.before.any isWord = true := by rw [hreads.before]; exact hlast
    simpa [Cursor.atWordEdge, hbefore] using hedge'
  · show t.pos - pos = _
    rw [hreads.pos, Nat.add_sub_cancel_left]

theorem matchAt?_complete (h : IdentAt before w after) (pos : Nat) :
    identPattern.matchAt? ⟨before, pos, w ++ after, []⟩
      = some ⟨⟨pos, pos + w.length, w ++ after⟩, []⟩ := by
  obtain ⟨⟨c, cs, rfl, hc, hcs⟩, hbefore, hafter⟩ := h
  have hword : ∀ d ∈ c :: cs, isWord d = true := IsIdent.isWord ⟨c, cs, rfl, hc, hcs⟩
  have hedge : Cursor.atWordEdge ⟨before, pos, c :: cs ++ after, []⟩ = true := by
    simp [Cursor.atWordEdge, hbefore, hword c]
  have hstop : after.head?.any isIdentChar = false := by
    cases after with
    | nil => rfl
    | cons d rest =>
      have hd : isWord d = false := hafter
      cases hi : isIdentChar d with
      | false => exact hi
      | true => rw [isWord_of_isIdentChar hi] at hd; cases hd
  have hend : Cursor.atWordEdge
      ⟨cs.getLast?.or (some c), pos + 1 + cs.length, after, []⟩ = true := by
    have hlast := getLast?_any_isWord (List.cons_ne_nil c cs) hword before
    rw [Cursor.getLast?_cons_or] at hlast
    rw [Cursor.atWordEdge, hlast, hafter]
    rfl
  show (if Cursor.atWordEdge ⟨before, pos, c :: cs ++ after, []⟩ then
    (if isIdentStart c then
      runSpan isIdentChar (fun s => if Cursor.atWordEdge s then
        some (⟨⟨pos, s.pos, c :: cs ++ after⟩, s.groups⟩ : Match) else none) [] (some c) (pos + 1)
        (cs ++ after) else none) else none) = _
  rw [hedge, if_pos rfl, hc, if_pos rfl]
  apply runSpan_append _ _ _ hcs hstop
  rw [hend, if_pos rfl, List.length_cons, Nat.add_right_comm, Nat.add_assoc]

/-! ### The whole text -/

/-- Behind an identifier, the next one starts after its end. -/
theorem IdentAt.length_le {a w' b : List Char} (h : IdentAt before w after)
    (heq : w ++ after = a ++ w' ++ b) (hne : a ≠ []) (h' : IdentAt (a.getLast?.or before) w' b) :
    w.length ≤ a.length := by
  by_contra hlt
  have ha : a <+: w ++ after := ⟨w' ++ b, by rw [heq, List.append_assoc]⟩
  obtain ⟨rest, hrest⟩ : a <+: w :=
    List.prefix_of_prefix_length_le ha (List.prefix_append w after) (by omega)
  have hword : ∀ c ∈ a, isWord c = true := by
    intro c hc
    exact h.ident.isWord c (hrest ▸ List.mem_append_left rest hc)
  have hlast := getLast?_any_isWord hne hword before
  rw [h'.before] at hlast
  cases hlast

/-- Two identifiers that start at the same place are the same. -/
theorem IdentAt.eq {w' after' : List Char} (h : IdentAt before w after)
    (h' : IdentAt before w' after') (heq : w ++ after = w' ++ after') : w = w' := by
  have hm := matchAt?_complete h 0
  rw [heq, matchAt?_complete h' 0] at hm
  simp only [Option.some.injEq, Match.mk.injEq, Span.mk.injEq, true_and, and_true, Nat.zero_add]
    at hm
  exact (List.append_inj heq hm.symm).1

/-- An identifier stands in a text as a whole word, `skip` characters from its start or later. -/
def StandsFrom (skip : Nat) (before : Option Char) (cs w : List Char) : Prop :=
  ∃ a b, cs = a ++ w ++ b ∧ skip ≤ a.length ∧ IdentAt (a.getLast?.or before) w b

theorem standsFrom_cons {skip : Nat} {rest : List Char} :
    StandsFrom (skip + 1) before (c :: rest) w ↔ StandsFrom skip (some c) rest w := by
  constructor
  · rintro ⟨a, b, heq, hskip, hident⟩
    match a, hskip with
    | d :: a, hskip =>
      cases heq
      exact ⟨a, b, rfl, Nat.le_of_succ_le_succ hskip,
        Cursor.getLast?_cons_or c a before ▸ hident⟩
  · rintro ⟨a, b, rfl, hskip, hident⟩
    exact ⟨c :: a, b, rfl, Nat.succ_le_succ hskip,
      (Cursor.getLast?_cons_or c a before).symm ▸ hident⟩

theorem standsFrom_zero {cs : List Char} :
    StandsFrom 0 before cs w ↔
      (∃ b, cs = w ++ b ∧ IdentAt before w b) ∨ StandsFrom 1 before cs w := by
  constructor
  · rintro ⟨a, b, heq, -, hident⟩
    cases a with
    | nil => exact .inl ⟨b, heq, hident⟩
    | cons c a => exact .inr ⟨c :: a, b, heq, by simp, hident⟩
  · rintro (⟨b, heq, hident⟩ | ⟨a, b, heq, -, hident⟩)
    · exact ⟨[], b, heq, Nat.zero_le _, hident⟩
    · exact ⟨a, b, heq, Nat.zero_le _, hident⟩

/-- A search finds the identifiers that start where it may still look. -/
theorem mem_scan (w : List Char) (skip : Nat) (before : Option Char) (pos : Nat) (cs : List Char) :
    (∃ m ∈ identPattern.scan skip before pos cs, m.chars = w) ↔ StandsFrom skip before cs w := by
  induction cs generalizing skip before pos with
  | nil =>
    -- the pattern needs a character, and so does an identifier
    have hnone : identPattern.scan skip before pos [] = [] := by
      rw [scan]
      cases hm : identPattern.matchAt? ⟨before, pos, [], []⟩ with
      | none => rfl
      | some m =>
        obtain ⟨after, heq, hident, -⟩ := matchAt?_sound hm
        exact absurd (List.append_eq_nil_iff.mp heq.symm).1 hident.ident.ne_nil
    rw [hnone]
    constructor
    · rintro ⟨m, hm, -⟩
      cases hm
    · rintro ⟨a, b, heq, -, hident⟩
      rw [eq_comm, List.append_eq_nil_iff, List.append_eq_nil_iff] at heq
      exact absurd heq.1.2 hident.ident.ne_nil
  | cons c rest ih =>
    cases skip with
    | succ skip => rw [standsFrom_cons, scan, ih]
    | zero =>
      rw [scan]
      cases hm : identPattern.matchAt? ⟨before, pos, c :: rest, []⟩ with
      | none =>
        rw [ih, ← standsFrom_cons, standsFrom_zero]
        constructor
        · exact Or.inr
        · rintro (⟨b, heq, hident⟩ | h)
          · rw [heq, matchAt?_complete hident] at hm
            cases hm
          · exact h
      | some m =>
        obtain ⟨after, heq, hident, hlen⟩ := matchAt?_sound hm
        have hpos : 0 < m.chars.length := List.length_pos_of_ne_nil hident.ident.ne_nil
        simp only [List.exists_mem_cons_iff]
        rw [ih, ← standsFrom_cons, hlen, Nat.sub_add_cancel hpos]
        constructor
        · rintro (rfl | ⟨a, b, habs, -, h⟩)
          · exact standsFrom_zero.mpr (.inl ⟨after, heq, hident⟩)
          · exact ⟨a, b, habs, Nat.zero_le _, h⟩
        · rintro ⟨a, b, habs, -, h⟩
          cases a with
          | nil => exact .inl (hident.eq h (heq.symm.trans habs))
          | cons d a =>
            exact .inr ⟨d :: a, b, habs,
              hident.length_le (heq.symm.trans habs) (List.cons_ne_nil d a) h, h⟩

theorem mem_identifiers {content : List Char} {w : String} :
    w ∈ identifiers content ↔ Mentions content w.toList := by
  have hmem : w ∈ identifiers content ↔
      ∃ m ∈ identPattern.scan 0 none 0 content, m.chars = w.toList := by
    rw [identifiers, List.mem_map]
    refine exists_congr fun m => and_congr_right fun _ => ?_
    rw [Match.text, ← String.toList_inj, String.toList_ofList]
  rw [hmem, mem_scan, StandsFrom, Mentions]
  simp only [Nat.zero_le, true_and, Option.or_none]

end CodeScribe.Dependency.Index
