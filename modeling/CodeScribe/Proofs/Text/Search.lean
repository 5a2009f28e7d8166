import CodeScribe.Proofs.Text.Replacing

/-!
# Searching a text part by part

A search goes through a text once.  Where a pattern fits at no place of a part, that part is passed
over, and where it fits, the search goes on behind what it has read.  So what a search finds can be
told part by part, without the places.

* `Pattern.Fits.eq_after` — a pattern without groups leads to the place behind what it has read.
-/

namespace CodeScribe

open Text

/-! ### Words and white space -/

namespace Text

variable {cs : List Char}

theorem blank_empty : ∀ c ∈ "".toList, isBlank c = true := by simp

theorem blank_space : ∀ c ∈ " ".toList, isBlank c = true := List.all_eq_true.mp rfl

theorem unbroken_of_isWord (h : ∀ c ∈ cs, isWord c = true) : Unbroken cs :=
  fun c hc => isBlank_of_isWord (h c hc)

/-- White space that is read goes no further than the next word. -/
theorem eq_nil_of_blanks {b r rest : List Char} (hb : ∀ y ∈ b, isBlank y = true)
    (hrest : rest.head?.any isBlank = false) (h : rest = b ++ r) : b = [] := by
  cases b with
  | nil => rfl
  | cons y b =>
    rw [h] at hrest
    have hy : isBlank y = false := hrest
    rw [hb y List.mem_cons_self] at hy
    cases hy

/-- If neither some characters nor the first one behind them belong to a class, a text does not
begin with one of the class. -/
theorem head?_append_any {q : Char → Bool} {rest : List Char} (hcs : ∀ c ∈ cs, q c = false)
    (hrest : rest.head?.any q = false) : (cs ++ rest).head?.any q = false := by
  cases cs with
  | nil => exact hrest
  | cons c cs => exact hcs c List.mem_cons_self

theorem Unbroken.head?_append (h : Unbroken cs) (hne : cs ≠ []) (rest : List Char) :
    (cs ++ rest).head?.any isBlank = false := by
  obtain ⟨c, cs, rfl⟩ := List.exists_cons_of_ne_nil hne
  exact h c List.mem_cons_self

end Text

namespace Cursor

theorem Reads.eq_after {s t : Cursor} {cs : List Char} (h : s.Reads cs t)
    (hgroups : t.groups = s.groups) : t = s.after cs t.rest := by
  obtain ⟨before, pos, rest, groups⟩ := t
  obtain ⟨-, hpos, hbefore⟩ := h
  simp only at hpos hbefore hgroups
  rw [after, hpos, hbefore, hgroups]

theorem reads_after {s : Cursor} {cs rest : List Char} (h : s.rest = cs ++ rest) :
    s.Reads cs (s.after cs rest) := ⟨h, rfl, rfl⟩

end Cursor

namespace Pattern

variable {α : Type} {p q : Pattern} {s t : Cursor}
variable {ps : List Pattern} {accept : Char → Bool} {k : Cursor → Option α} {rest w x : List Char}
  {c : Char}

/-! ### When the matcher answers -/

/-- A pattern without lookahead and without repeated turns. -/
def Plain : Pattern → Prop
  | seq a b | alt a b => a.Plain ∧ b.Plain
  | group _ p => p.Plain
  | star _ | ahead _ => False
  | nothing | one _ | span _ | spanLazy _ | test _ => True

@[simp] theorem plain_append (a b : Pattern) : (a ++ b).Plain ↔ a.Plain ∧ b.Plain := Iff.rfl

@[simp] theorem plain_opt (p : Pattern) : (opt p).Plain ↔ p.Plain := and_iff_left trivial

@[simp] theorem plain_blanks : blanks.Plain := trivial

@[simp] theorem plain_blanks1 : blanks1.Plain := ⟨trivial, trivial⟩

theorem plain_all (h : ∀ p ∈ ps, p.Plain) : (all ps).Plain := by
  induction ps with
  | nil => trivial
  | cons p ps ih =>
    obtain ⟨hp, hps⟩ := List.forall_mem_cons.mp h
    cases ps with
    | nil => exact hp
    | cons q ps => exact ⟨hp, ih hps⟩

@[simp] theorem plain_litAnyCase (w : String) : (litAnyCase w).Plain :=
  plain_all fun p hp => by
    obtain ⟨c, -, rfl⟩ := List.mem_map.mp hp
    trivial

/-- What holds of nothing and passes to alternatives holds of any of some patterns. -/
theorem anyOf_induction {P : Pattern → Prop} (hnone : P (anyOf []))
    (halt : ∀ p q, P p → P q → P (alt p q)) (h : ∀ p ∈ ps, P p) : P (anyOf ps) := by
  induction ps with
  | nil => exact hnone
  | cons p ps ih =>
    obtain ⟨hp, hps⟩ := List.forall_mem_cons.mp h
    cases ps with
    | nil => exact hp
    | cons q ps => exact halt _ _ hp (ih hps)

theorem plain_anyOf (h : ∀ p ∈ ps, p.Plain) : (anyOf ps).Plain :=
  anyOf_induction trivial (fun _ _ hp hq => ⟨hp, hq⟩) h

theorem numbers_anyOf (h : ∀ p ∈ ps, p.numbers = []) : (anyOf ps).numbers = [] :=
  anyOf_induction (P := fun p => p.numbers = []) rfl
    (fun _ _ hp hq => List.append_eq_nil_iff.mpr ⟨hp, hq⟩) h

theorem runSpan_isSome (groups : List (Nat × Span)) {cs : List Char} (before : Option Char)
    (pos : Nat) (hcs : ∀ c ∈ cs, accept c = true)
    (hk : (k ⟨cs.getLast?.or before, pos + cs.length, rest, groups⟩).isSome) :
    (runSpan accept k groups before pos (cs ++ rest)).isSome := by
  induction cs generalizing before pos with
  | nil =>
    cases rest with
    | nil => exact hk
    | cons c rest =>
      have hhere : (k ⟨before, pos, c :: rest, groups⟩).isSome := hk
      rw [List.nil_append, runSpan]
      split
      · split
        · rfl
        · exact hhere
      · exact hhere
  | cons c cs ih =>
    obtain ⟨hc, hcs⟩ := List.forall_mem_cons.mp hcs
    rw [Cursor.behind_cons] at hk
    obtain ⟨a, ha⟩ := Option.isSome_iff_exists.mp (ih _ _ hcs hk)
    rw [List.cons_append, runSpan, hc, if_pos rfl, ha]
    rfl

theorem runLazy_isSome (groups : List (Nat × Span)) {cs : List Char} (before : Option Char)
    (pos : Nat) (hcs : ∀ c ∈ cs, accept c = true)
    (hk : (k ⟨cs.getLast?.or before, pos + cs.length, rest, groups⟩).isSome) :
    (runLazy accept k groups before pos (cs ++ rest)).isSome := by
  induction cs generalizing before pos with
  | nil =>
    cases rest with
    | nil => exact hk
    | cons c rest =>
      obtain ⟨a, ha⟩ := Option.isSome_iff_exists.mp hk
      have hhere : k ⟨before, pos, c :: rest, groups⟩ = some a := ha
      rw [List.nil_append, runLazy, hhere]
      rfl
  | cons c cs ih =>
    obtain ⟨hc, hcs⟩ := List.forall_mem_cons.mp hcs
    rw [Cursor.behind_cons] at hk
    rw [List.cons_append, runLazy]
    split
    · rfl
    · rw [hc, if_pos rfl]
      exact ih _ _ hcs hk

/-- If some way leads to a place that is accepted, the matcher has an answer. -/
theorem run_isSome (hp : p.Plain) (h : p.Fits s t) (hk : (k t).isSome) : (p.run k s).isSome := by
  induction p generalizing s t α k with
  | nothing =>
    rw [show t = s from h] at hk
    exact hk
  | one accept =>
    obtain ⟨c, hc, hreads, hgroups⟩ := h
    have ht := hreads.eq_after hgroups
    obtain ⟨a, ha⟩ := Option.isSome_iff_exists.mp hk
    rw [ht] at ha
    rw [takes_one hreads.rest hc α k a ha]
    rfl
  | span accept =>
    obtain ⟨cs, hcs, hreads, hgroups⟩ := h
    rw [hreads.eq_after hgroups] at hk
    rw [run, hreads.rest]
    exact runSpan_isSome _ _ _ hcs hk
  | spanLazy accept =>
    obtain ⟨cs, hcs, hreads, hgroups⟩ := h
    rw [hreads.eq_after hgroups] at hk
    rw [run, hreads.rest]
    exact runLazy_isSome _ _ _ hcs hk
  | seq a b iha ihb =>
    obtain ⟨m, hm, ht⟩ := h
    exact iha hp.1 hm (ihb hp.2 ht hk)
  | alt a b iha ihb =>
    have hrun : (alt a b).run k s = (a.run k s).or (b.run k s) := run_orElse a b k s
    rw [hrun, Option.isSome_or, Bool.or_eq_true]
    exact h.imp (fun h => iha hp.1 h hk) fun h => ihb hp.2 h hk
  | star p _ => exact hp.elim
  | group i p ih =>
    obtain ⟨m, hm, rfl⟩ := h
    exact ih hp hm hk
  | test holds =>
    obtain ⟨hs, rfl⟩ := h
    rw [run, if_pos hs]
    exact hk
  | ahead p _ => exact hp.elim

/-- Where a pattern fits in no way, the matcher has no answer. -/
theorem run_eq_none (h : ∀ t, ¬ p.Fits s t) (k : Cursor → Option α) : p.run k s = none := by
  cases hrun : p.run k s with
  | none => rfl
  | some a =>
    obtain ⟨t, ht, -⟩ := run_sound p k s hrun
    exact absurd ht (h t)

/-- If all ways lead to one place, the matcher goes on from there. -/
theorem run_eq_of_unique (hp : p.Plain) (h : p.Fits s t) (hunique : ∀ u, p.Fits s u → u = t)
    (k : Cursor → Option α) : p.run k s = k t := by
  cases hk : k t with
  | none =>
    cases hrun : p.run k s with
    | none => rfl
    | some a =>
      obtain ⟨u, hu, ha⟩ := run_sound p k s hrun
      rw [hunique u hu, hk] at ha
      cases ha
  | some a =>
    obtain ⟨b, hrun⟩ := Option.isSome_iff_exists.mp (run_isSome hp h (Option.isSome_of_eq_some hk))
    obtain ⟨u, hu, hb⟩ := run_sound p k s hrun
    rw [hunique u hu, hk] at hb
    rw [hrun, hb]

/-- The way that is taken first is a way. -/
theorem Takes.fits (h : p.Takes s t) : p.Fits s t := by
  classical
  have hrun := h Unit (fun u => if u = t then some () else none) () (if_pos rfl)
  obtain ⟨u, hu, hend⟩ := run_sound p _ s hrun
  by_cases hut : u = t
  · exact hut ▸ hu
  · rw [if_neg hut] at hend
    cases hend

/-- What is looked at ahead is not read. -/
theorem takes_ahead (h : p.Takes s t) (hgroups : t.groups = s.groups) : (ahead p).Takes s s := by
  intro α k a hk
  have hrun := h _ (fun u => some u.groups) _ rfl
  rw [run, hrun, hgroups]
  exact hk

/-- A pattern that fits nowhere in front of a text is left out there. -/
theorem consumes_opt_nil (h : ∀ s t, s.rest = rest → ¬ p.Fits s t) : (opt p).Consumes [] rest [] :=
  consumes_nil_of_takes fun s hs => (takes_nothing s).orElse_of_none fun _ =>
    run_eq_none fun t => h s t hs

theorem fits_span {cs : List Char} (hs : s.rest = cs ++ rest) (hcs : ∀ c ∈ cs, accept c = true) :
    (span accept).Fits s (s.after cs rest) :=
  ⟨cs, hcs, Cursor.reads_after hs, rfl⟩

theorem fits_span1 {cs : List Char} (hs : s.rest = cs ++ rest) (hne : cs ≠ [])
    (hcs : ∀ c ∈ cs, accept c = true) : (span1 accept).Fits s (s.after cs rest) := by
  obtain ⟨c, cs, rfl⟩ := List.exists_cons_of_ne_nil hne
  obtain ⟨hc, hcs⟩ := List.forall_mem_cons.mp hcs
  have hspan : (span accept).Fits (s.after [c] (cs ++ rest)) _ := fits_span rfl hcs
  rw [Cursor.after_after] at hspan
  exact ⟨_, ⟨c, hc, Cursor.reads_after hs, rfl⟩, hspan⟩

theorem fits_anyOf (hp : p ∈ ps) (h : p.Fits s t) : (anyOf ps).Fits s t := by
  induction ps with
  | nil => cases hp
  | cons q ps ih =>
    cases ps with
    | nil => exact List.mem_singleton.mp hp ▸ h
    | cons r ps =>
      obtain rfl | hp := List.mem_cons.mp hp
      · exact .inl h
      · exact .inr (ih hp)

/-! ### Patterns without groups -/

theorem Fits.eq_after (h : p.Fits s t) (hp : p.numbers = []) :
    ∃ cs, s.rest = cs ++ t.rest ∧ t = s.after cs t.rest := by
  induction p generalizing s t with
  | nothing =>
    obtain rfl : t = s := h
    exact ⟨[], rfl, rfl⟩
  | one accept =>
    obtain ⟨c, -, hreads, hgroups⟩ := h
    exact ⟨[c], hreads.rest, hreads.eq_after hgroups⟩
  | span accept =>
    obtain ⟨cs, -, hreads, hgroups⟩ := h
    exact ⟨cs, hreads.rest, hreads.eq_after hgroups⟩
  | spanLazy accept =>
    obtain ⟨cs, -, hreads, hgroups⟩ := h
    exact ⟨cs, hreads.rest, hreads.eq_after hgroups⟩
  | seq a b iha ihb =>
    obtain ⟨ha, hb⟩ := List.append_eq_nil_iff.mp hp
    obtain ⟨m, hm, ht⟩ := h
    obtain ⟨as, hrest, hafter⟩ := iha hm ha
    obtain ⟨bs, hrest', hafter'⟩ := ihb ht hb
    refine ⟨as ++ bs, by rw [hrest, hrest', List.append_assoc], ?_⟩
    rw [hafter, Cursor.after_after] at hafter'
    exact hafter'
  | alt a b iha ihb =>
    obtain ⟨ha, hb⟩ := List.append_eq_nil_iff.mp hp
    exact h.elim (fun h => iha h ha) fun h => ihb h hb
  | star p ih =>
    have hturns : ∀ u, Relation.ReflTransGen (fun x y => p.Fits x y) s u →
        ∃ cs, s.rest = cs ++ u.rest ∧ u = s.after cs u.rest := by
      intro u hu
      induction hu with
      | refl => exact ⟨[], rfl, rfl⟩
      | tail _ hlast ihturns =>
        obtain ⟨as, hrest, hafter⟩ := ihturns
        obtain ⟨bs, hrest', hafter'⟩ := ih hlast hp
        refine ⟨as ++ bs, by rw [hrest, hrest', List.append_assoc], ?_⟩
        rw [hafter, Cursor.after_after] at hafter'
        exact hafter'
    exact hturns t h
  | group i p _ => exact absurd hp (List.cons_ne_nil _ _)
  | test holds =>
    obtain ⟨-, rfl⟩ := h
    exact ⟨[], rfl, rfl⟩
  | ahead p ih =>
    obtain ⟨m, hm, rfl⟩ := h
    obtain ⟨cs, -, hafter⟩ := ih hm hp
    refine ⟨[], rfl, ?_⟩
    rw [hafter]
    rfl

/-- What a pattern without groups has read is told by what is left. -/
theorem Fits.eq_of_rest (h : p.Fits s t) (hp : p.numbers = []) (hs : s.rest = w ++ rest)
    (ht : t.rest = rest) : t = s.after w rest := by
  obtain ⟨cs, hrest, hafter⟩ := h.eq_after hp
  rw [ht] at hrest hafter
  rw [hrest] at hs
  rw [hafter, List.append_cancel_right hs]

/-! ### What a search lists -/

/-- Wherever a text stands, a group holds these texts in the matches of the text. -/
def Lists (p : Pattern) (i : Nat) (cs : List Char) (names : List String) : Prop :=
  ∀ before pos, (p.scan 0 before pos cs).map (·.get i) = names

/-- A pattern fits nowhere at the start of a text, whatever stands before it. -/
def MissesAt (p : Pattern) (cs : List Char) : Prop :=
  ∀ before pos, p.matchAt? ⟨before, pos, cs, []⟩ = none

theorem missesAt_of_not_fits {cs : List Char} (h : ∀ s t, s.rest = cs → ¬ p.Fits s t) :
    p.MissesAt cs := fun _ _ => run_eq_none (fun t => h _ t rfl) _

theorem MissesAt.assoc {r : Pattern} {cs : List Char} (h : (p ++ (q ++ r)).MissesAt cs) :
    (p ++ q ++ r).MissesAt cs := h

/-- A pattern that begins with characters of a class fits only where one stands. -/
theorem missesAt_group_span1 (hc : accept c = false) (rest : List Char) (i : Nat) (q : Pattern) :
    (group i (span1 accept) ++ q).MissesAt (c :: rest) :=
  fun before pos => run_span1_eq_none (s := ⟨before, pos, c :: rest, []⟩) hc _

variable {i : Nat} {cs : List Char} {names : List String}

theorem Lists.findGroup_eq (h : p.Lists i cs names) : p.findGroup i cs = names := h none 0

theorem lists_nil (h : p.MissesAt []) : p.Lists i [] [] := by
  intro before pos
  rw [scan, h]
  rfl

/-- A text in which a pattern is found nowhere. -/
theorem lists_of_not_foundIn (h : ∀ m, ¬ Match.FoundIn m p cs) : p.Lists i cs [] := by
  intro before pos
  rw [List.eq_nil_iff_forall_not_mem.mpr fun m hm => h m (foundIn_of_mem_scan 0 before pos cs hm)]
  rfl

theorem Lists.skip (hmiss : p.MissesAt (c :: cs)) (h : p.Lists i cs names) :
    p.Lists i (c :: cs) names := by
  intro before pos
  rw [scan, hmiss]
  exact h _ _

/-- A part of a text at none of whose places a pattern fits is passed over. -/
theorem Lists.skips (hmiss : ∀ v, v ≠ [] → v <:+ w → p.MissesAt (v ++ cs))
    (h : p.Lists i cs names) : p.Lists i (w ++ cs) names := by
  induction w with
  | nil => exact h
  | cons c w ih =>
    refine Lists.skip (hmiss (c :: w) (List.cons_ne_nil c w) List.suffix_rfl) (ih ?_)
    exact fun v hv hsuffix => hmiss v hv (hsuffix.trans (List.suffix_cons c w))

/-- Wherever a text stands, a pattern reads a part of it and a group holds some text then. -/
def Reads (p : Pattern) (i : Nat) (w cs x : List Char) : Prop :=
  ∀ s : Cursor, s.rest = w ++ cs → s.groups = [] → ∃ groups,
    p.matchAt? s = some ⟨⟨s.pos, s.pos + w.length, s.rest⟩, groups⟩ ∧
      Match.chars? ⟨⟨s.pos, s.pos + w.length, s.rest⟩, groups⟩ i = some x

theorem Consumes.reads {cs : List Char} {held : List (Nat × List Char)} (h : p.Consumes w cs held)
    (hi : held.lookup i = some x) : p.Reads i w cs x := by
  intro s hs _
  obtain ⟨t, htakes, -, hpos, hheld⟩ := h s hs
  refine ⟨t.groups, ?_, (hheld i).trans (by rw [hi, Option.some_or])⟩
  rw [← hpos]
  exact htakes _ _ _ rfl

/-- The search goes on behind what was read. -/
theorem Reads.scan_eq (hreads : p.Reads i w cs x) (hne : w ≠ []) (before : Option Char)
    (pos : Nat) : ∃ groups,
    p.scan 0 before pos (w ++ cs) = ⟨⟨pos, pos + w.length, w ++ cs⟩, groups⟩ ::
      p.scan 0 (w.getLast?.or before) (pos + w.length) cs ∧
    Match.get ⟨⟨pos, pos + w.length, w ++ cs⟩, groups⟩ i = String.ofList x := by
  obtain ⟨c, w, rfl⟩ := List.exists_cons_of_ne_nil hne
  obtain ⟨groups, hmatch, hgroup⟩ := hreads ⟨before, pos, c :: w ++ cs, []⟩ rfl rfl
  have hskip : pos + (c :: w).length - pos - 1 = w.length := by
    rw [List.length_cons]
    omega
  have hbehind : pos + 1 + w.length = pos + (c :: w).length := by
    rw [List.length_cons]
    omega
  refine ⟨groups, ?_, ?_⟩
  · rw [List.cons_append] at hmatch ⊢
    rw [scan, hmatch]
    dsimp only [Match.stop, Match.start]
    rw [hskip, scan_skip, hbehind]
    cases w <;> rfl
  · rw [Match.get, Match.get?, hgroup]
    rfl

theorem Lists.found (hreads : p.Reads i w cs x) (hne : w ≠ []) (h : p.Lists i cs names) :
    p.Lists i (w ++ cs) (String.ofList x :: names) := by
  intro before pos
  obtain ⟨groups, hscan, hget⟩ := hreads.scan_eq hne before pos
  rw [hscan, List.map_cons, hget, h]

/-- If a pattern is found at the start of a text and nowhere behind that, there is one match. -/
theorem findAll_eq_singleton (h : p.Takes (Cursor.start (w ++ cs)) t) (hpos : t.pos = w.length)
    (hne : w ≠ []) (hrest : ∀ m, ¬ Match.FoundIn m p cs) :
    p.findAll (w ++ cs) = [⟨⟨0, w.length, w ++ cs⟩, t.groups⟩] := by
  rw [findAll_of_takes h hpos hne,
    List.eq_nil_iff_forall_not_mem.mpr fun m hm => hrest m (foundIn_of_mem_scan 0 _ _ cs hm)]

/-! ### Where a search finds what it lists -/

/-- A match with the text in front of it: what was read, and what a group holds. -/
structure Finding where
  before : List Char
  chars : List Char
  value : String

def Finding.ofMatch (i : Nat) (cs : List Char) (m : Match) : Finding :=
  ⟨cs.take m.start, m.chars, m.get i⟩

/-- These are the findings in a text that stands behind another. -/
def Locates (p : Pattern) (i : Nat) (front cs : List Char) (findings : List Finding) : Prop :=
  ∀ before, (p.scan 0 before front.length cs).map (Finding.ofMatch i (front ++ cs)) = findings

variable {front : List Char} {findings : List Finding}

theorem Locates.findAll_eq (h : p.Locates i [] cs findings) :
    (p.findAll cs).map (Finding.ofMatch i cs) = findings := h none

theorem locates_nil (h : p.MissesAt []) : p.Locates i front [] [] := by
  intro before
  rw [scan, h]
  rfl

theorem Locates.skip (hmiss : p.MissesAt (c :: cs)) (h : p.Locates i (front ++ [c]) cs findings) :
    p.Locates i front (c :: cs) findings := by
  intro before
  have hrest := h (some c)
  rw [List.length_append, List.append_assoc] at hrest
  rw [scan, hmiss]
  exact hrest

theorem Locates.skips (hmiss : ∀ v, v ≠ [] → v <:+ w → p.MissesAt (v ++ cs))
    (h : p.Locates i (front ++ w) cs findings) : p.Locates i front (w ++ cs) findings := by
  induction w generalizing front with
  | nil => rwa [List.append_nil] at h
  | cons c w ih =>
    refine Locates.skip (hmiss (c :: w) (List.cons_ne_nil c w) List.suffix_rfl) (ih ?_ ?_)
    · exact fun v hv hsuffix => hmiss v hv (hsuffix.trans (List.suffix_cons c w))
    · rwa [List.append_assoc]

theorem Locates.found (hreads : p.Reads i w cs x) (hne : w ≠ [])
    (h : p.Locates i (front ++ w) cs findings) :
    p.Locates i front (w ++ cs) (⟨front, w, String.ofList x⟩ :: findings) := by
  intro before
  obtain ⟨groups, hscan, hget⟩ := hreads.scan_eq hne before front.length
  have hhere : Finding.ofMatch i (front ++ (w ++ cs))
      ⟨⟨front.length, front.length + w.length, w ++ cs⟩, groups⟩ =
        ⟨front, w, String.ofList x⟩ := by
    rw [Finding.ofMatch, hget]
    simp [Match.start, Match.chars, Span.chars]
  have hrest := h (w.getLast?.or before)
  rw [List.length_append, List.append_assoc] at hrest
  rw [hscan, List.map_cons, hhere, hrest]

/-! ### Patterns that fit at the start only -/

/-- A pattern that fits nowhere but at the start of a text. -/
def Anchored (p : Pattern) : Prop :=
  ∀ (α : Type) (k : Cursor → Option α) (s : Cursor), s.before ≠ none → p.run k s = none

theorem anchored_textStart : textStart.Anchored := by
  intro α k s hs
  rw [textStart, run, if_neg (by simpa using hs)]

theorem Anchored.append (h : p.Anchored) (q : Pattern) : (p ++ q).Anchored :=
  fun α _ s hs => h α _ s hs

/-- Behind the start of a text, nothing is found. -/
theorem Anchored.scan_eq_nil (h : p.Anchored) (skip pos : Nat) (c : Char) (cs : List Char) :
    p.scan skip (some c) pos cs = [] := by
  have hnone (pos : Nat) (c : Char) (cs : List Char) :
      p.matchAt? ⟨some c, pos, cs, []⟩ = none := h _ _ _ (Option.some_ne_none c)
  induction cs generalizing skip pos c with
  | nil => cases skip <;> rw [scan, hnone] <;> rfl
  | cons d rest ih =>
    cases skip with
    | zero =>
      rw [scan, hnone]
      exact ih 0 _ d
    | succ skip => exact ih skip _ d

theorem Anchored.replaceAll_eq_self (h : p.Anchored) (new : Match → List Char)
    (hstart : p.matchStart? cs = none) : p.replaceAll new cs = cs := by
  have hfind : p.findAll cs = [] := by
    cases cs with
    | nil =>
      rw [findAll, scan]
      exact congrArg _ hstart
    | cons c rest =>
      have hhead : p.matchAt? ⟨none, 0, c :: rest, []⟩ = none := hstart
      rw [findAll, scan, hhead]
      exact h.scan_eq_nil 0 1 c rest
  rw [replaceAll, hfind]
  simp [pieces]

end Pattern

end CodeScribe
