import Mathlib.Data.List.Infix
import CodeScribe.Source.Declaration

/-!
# Blocks in braces

The body of a declaration is found by a scan that counts the open braces and stops at the first
brace that closes them all.  This file says what the scan comes to without counting along: the
shortest beginning of the text with as many closing as opening braces, or nothing if there is none.

* `Block.ends_of_closed`, `Block.staysOpen_of_closed` — what the scan finds, and what it means that
  it finds nothing, for any number of open braces;
* `Block.exists_leading`, `Block.of_leading_ne_nil` — when there is a block at the start of a text;
* `Block.bracesAfter_eq` — the first block behind a position.
-/

namespace CodeScribe.Block

variable {c : Char} {block cs p : List Char} {depth : Int}

/-! ### Levels -/

/-- How many more braces a text opens than it closes. -/
def level (cs : List Char) : Int := cs.count '{' - cs.count '}'

/-- What one character adds to the level. -/
def mark (c : Char) : Int := if c = '{' then 1 else if c = '}' then -1 else 0

@[simp] theorem level_nil : level [] = 0 := rfl

@[simp] theorem level_append (cs ds : List Char) : level (cs ++ ds) = level cs + level ds := by
  rw [level, level, level, List.count_append, List.count_append]
  omega

@[simp] theorem level_singleton (c : Char) : level [c] = mark c := by
  by_cases hopen : c = '{'
  · subst hopen; rfl
  · by_cases hclose : c = '}'
    · subst hclose; rfl
    · simp [level, mark, hopen, hclose]

@[simp] theorem level_cons (c : Char) (cs : List Char) : level (c :: cs) = mark c + level cs := by
  rw [← List.singleton_append, level_append, level_singleton]

/-- A text with as many closing as opening braces. -/
def Balanced (cs : List Char) : Prop := cs.count '}' = cs.count '{'

instance (cs : List Char) : Decidable (Balanced cs) := inferInstanceAs (Decidable (_ = _))

theorem balanced_iff : Balanced cs ↔ level cs = 0 := by
  rw [Balanced, level]
  omega

/-! ### The scan -/

/-- A block closes, with its end and not before, the last of some open braces. -/
structure Ends (depth : Int) (block cs : List Char) : Prop where
  begins : block <+: cs
  closes : depth + level block = 0
  open_before : ∀ p, p <+: block → p ≠ block → 0 < depth + level p

/-- No beginning of a text closes the last of some open braces. -/
def StaysOpen (depth : Int) (cs : List Char) : Prop := ∀ p, p <+: cs → 0 < depth + level p

theorem Ends.cons (hdepth : 0 < depth) (h : Ends (depth + mark c) block cs) :
    Ends depth (c :: block) (c :: cs) where
  begins := List.cons_prefix_cons.mpr ⟨rfl, h.begins⟩
  closes := by
    have hcloses := h.closes
    rw [level_cons]
    omega
  open_before := by
    intro p hp hne
    rcases List.prefix_cons_iff.mp hp with rfl | ⟨q, rfl, hq⟩
    · simpa using hdepth
    · have hopen := h.open_before q hq (fun heq => hne (by rw [heq]))
      rw [level_cons]
      omega

theorem ends_singleton (hdepth : 0 < depth) (hmark : depth + mark c = 0) (cs : List Char) :
    Ends depth [c] (c :: cs) := by
  refine Ends.cons hdepth ⟨List.nil_prefix, by simpa using hmark, ?_⟩
  intro p hp hne
  exact absurd (List.prefix_nil.mp hp) hne

theorem StaysOpen.cons (hdepth : 0 < depth) (h : StaysOpen (depth + mark c) cs) :
    StaysOpen depth (c :: cs) := by
  intro p hp
  rcases List.prefix_cons_iff.mp hp with rfl | ⟨q, rfl, hq⟩
  · simpa using hdepth
  · have hopen := h q hq
    rw [level_cons]
    omega

/-- One step of the scan, with the number of braces that are open behind it. -/
theorem exists_closed_cons {n : Nat} (hn : 0 < n) (c : Char) (cs : List Char) :
    ∃ m : Nat, (m : Int) = n + mark c ∧
      closed n (c :: cs) = if m = 0 then some [c] else (closed m cs).map (c :: ·) := by
  by_cases hopen : c = '{'
  · exact ⟨n + 1, by simp [mark, hopen], by simp [closed, hopen]⟩
  · by_cases hclose : c = '}'
    · have hmark : mark c = -1 := by simp [mark, hclose]
      have hlast : n ≤ 1 ↔ n - 1 = 0 := by omega
      exact ⟨n - 1, by omega, by simp [closed, hclose, hlast]⟩
    · have hne : n ≠ 0 := by omega
      exact ⟨n, by simp [mark, hopen, hclose], by simp [closed, hopen, hclose, hne]⟩

/-- What the scan finds closes the last open brace. -/
theorem ends_of_closed {n : Nat} (hn : 0 < n) (h : closed n cs = some block) :
    Ends n block cs := by
  induction cs generalizing n block with
  | nil => cases h
  | cons c cs ih =>
    obtain ⟨m, hm, hstep⟩ := exists_closed_cons hn c cs
    rw [hstep] at h
    -- behind the character, the scan goes on as one that was started there with `m` braces open
    split at h
    · obtain rfl := Option.some.inj h
      exact ends_singleton (by omega) (by omega) cs
    · obtain ⟨rest, hrest, rfl⟩ := Option.map_eq_some_iff.mp h
      have hends : Ends m rest cs := ih (by omega) hrest
      rw [hm] at hends
      exact hends.cons (by omega)

/-- Where the scan finds nothing, some brace stays open. -/
theorem staysOpen_of_closed {n : Nat} (hn : 0 < n) (h : closed n cs = none) :
    StaysOpen n cs := by
  induction cs generalizing n with
  | nil =>
    intro p hp
    rw [List.prefix_nil.mp hp, level_nil]
    omega
  | cons c cs ih =>
    obtain ⟨m, hm, hstep⟩ := exists_closed_cons hn c cs
    rw [hstep] at h
    split at h
    · cases h
    · have hopen : StaysOpen m cs := ih (by omega) (Option.map_eq_none_iff.mp h)
      rw [hm] at hopen
      exact hopen.cons (by omega)

/-- A block that closes open braces has a closing brace at its end: before it, one was open. -/
theorem Ends.getLast? (hdepth : 0 < depth) (h : Ends depth block cs) :
    block.getLast? = some '}' := by
  rcases List.eq_nil_or_concat' block with rfl | ⟨p, c, rfl⟩
  · have hcloses := h.closes
    rw [level_nil] at hcloses
    omega
  · have hcloses := h.closes
    have hopen := h.open_before p (List.prefix_append p [c]) (by simp)
    -- only a closing brace can take the level from above zero to zero
    rw [level_append, level_singleton, mark] at hcloses
    split at hcloses
    · omega
    · split at hcloses
      · rename_i hc
        simp [hc]
      · omega

/-! ### The block at the start of a text -/

/-- The shortest non-empty beginning of a text with as many closing as opening braces. -/
structure IsShortestBalanced (block cs : List Char) : Prop where
  begins : block <+: cs
  ne_nil : block ≠ []
  balanced : Balanced block
  shortest : ∀ p, p <+: cs → p ≠ [] → Balanced p → block.length ≤ p.length

section Leading

variable {r : List Char}

/-- Before its end, a block has more opening than closing braces. -/
theorem Ends.level_pos (h : Ends 1 r cs) (hp : p <+: '{' :: cs) (hne : p ≠ [])
    (hshort : p.length < ('{' :: r).length) : 0 < level p := by
  obtain ⟨q, rfl, hq⟩ := (List.prefix_cons_iff.mp hp).resolve_left hne
  have hlength : q.length < r.length := by simpa using hshort
  have hbegins : q <+: r := List.prefix_of_prefix_length_le hq h.begins hlength.le
  rw [level_cons]
  exact h.open_before q hbegins (fun heq => by simp [heq] at hlength)

theorem Ends.isShortestBalanced (h : Ends 1 r cs) : IsShortestBalanced ('{' :: r) ('{' :: cs) where
  begins := List.cons_prefix_cons.mpr ⟨rfl, h.begins⟩
  ne_nil := List.cons_ne_nil _ _
  balanced := balanced_iff.mpr ((level_cons '{' r).trans h.closes)
  shortest := by
    intro p hp hne hbalanced
    by_contra hlonger
    have hopen := h.level_pos hp hne (Nat.lt_of_not_le hlonger)
    have hlevel := balanced_iff.mp hbalanced
    omega

theorem leading_eq (cs : List Char) :
    leading ('{' :: cs) = ((closed 1 cs).map ('{' :: ·)).getD [] := by
  simp [leading, closed]

theorem leading_of_head? (h : cs.head? ≠ some '{') : leading cs = [] := by
  rw [leading.eq_def]
  split
  · simp at h
  · rfl

/-- If some beginning of a text is balanced, the scan from its opening brace comes to an end. -/
theorem exists_leading (hp : p <+: '{' :: cs) (hne : p ≠ []) (hbalanced : Balanced p) :
    ∃ r, leading ('{' :: cs) = '{' :: r ∧ Ends 1 r cs := by
  rw [leading_eq]
  cases hscan : closed 1 cs with
  | some r => exact ⟨r, rfl, ends_of_closed Nat.one_pos hscan⟩
  | none =>
    obtain ⟨q, rfl, hq⟩ := (List.prefix_cons_iff.mp hp).resolve_left hne
    have hopen := staysOpen_of_closed Nat.one_pos hscan q hq
    have hlevel : 1 + level q = 0 := (level_cons '{' q).symm.trans (balanced_iff.mp hbalanced)
    omega

/-- What is not empty at the start of a text is a balanced beginning behind an opening brace. -/
theorem of_leading_ne_nil (h : leading cs ≠ []) :
    cs.head? = some '{' ∧ ∃ p, p <+: cs ∧ p ≠ [] ∧ Balanced p := by
  cases cs with
  | nil => exact absurd rfl h
  | cons c cs =>
    have hc : c = '{' := by
      by_contra hc
      exact h (leading_of_head? (by simpa using hc))
    subst hc
    rw [leading_eq] at h
    cases hscan : closed 1 cs with
    | none => simp [hscan] at h
    | some r =>
      have hblock := (ends_of_closed Nat.one_pos hscan).isShortestBalanced
      exact ⟨rfl, _, hblock.begins, hblock.ne_nil, hblock.balanced⟩

theorem IsShortestBalanced.unique {other : List Char} (h : IsShortestBalanced block cs)
    (hother : IsShortestBalanced other cs) : block = other := by
  have hle := h.shortest other hother.begins hother.ne_nil hother.balanced
  have hge := hother.shortest block h.begins h.ne_nil h.balanced
  exact (List.prefix_of_prefix_length_le h.begins hother.begins hle).eq_of_length
    (Nat.le_antisymm hle hge)

theorem leading_of_ends (h : Ends 1 r cs) : leading ('{' :: cs) = '{' :: r := by
  have hblock := h.isShortestBalanced
  obtain ⟨q, hq, hends⟩ := exists_leading hblock.begins hblock.ne_nil hblock.balanced
  rw [hq, hends.isShortestBalanced.unique hblock]

/-- The block at the start of a text reaches to the first closing brace, if no brace is opened
before. -/
theorem leading_enclosed {cs : List Char} (rest : List Char)
    (hcs : ∀ c ∈ cs, c ≠ '{' ∧ c ≠ '}') :
    leading ('{' :: (cs ++ '}' :: rest)) = '{' :: (cs ++ ['}']) := by
  have hlevel : ∀ p, p <+: cs → level p = 0 := by
    intro p hp
    rw [level, List.count_eq_zero_of_not_mem fun h => (hcs _ (hp.subset h)).1 rfl,
      List.count_eq_zero_of_not_mem fun h => (hcs _ (hp.subset h)).2 rfl]
    rfl
  refine leading_of_ends ⟨⟨rest, by simp⟩, ?_, fun p hp hne => ?_⟩
  · rw [level_append, hlevel cs List.prefix_rfl]
    rfl
  · rw [hlevel p ((List.prefix_concat_iff.mp hp).resolve_left hne)]
    decide

end Leading

/-! ### Blocks at positions -/

/-- A place with an opening brace, from which some beginning of the text is balanced. -/
def HasBlock (code : List Char) (pos : Nat) : Prop :=
  code[pos]? = some '{' ∧ ∃ p, p <+: code.drop pos ∧ p ≠ [] ∧ Balanced p

instance (code : List Char) (pos : Nat) : Decidable (HasBlock code pos) :=
  have : Decidable (∃ p, p ∈ (code.drop pos).inits ∧ p ≠ [] ∧ Balanced p) := List.decidableBEx _ _
  decidable_of_iff (code[pos]? = some '{' ∧ ∃ p, p ∈ (code.drop pos).inits ∧ p ≠ [] ∧ Balanced p)
    (by simp only [HasBlock, List.mem_inits])

theorem HasBlock.exists_braces {code : List Char} {pos : Nat} (h : HasBlock code pos) :
    ∃ r cs, code.drop pos = '{' :: cs ∧ braces code pos = '{' :: r ∧ Ends 1 r cs := by
  obtain ⟨hopen, p, hp, hne, hbalanced⟩ := h
  obtain ⟨cs, hcs⟩ : ∃ cs, code.drop pos = '{' :: cs :=
    List.head?_eq_some_iff.mp (List.head?_drop.trans hopen)
  rw [hcs] at hp
  obtain ⟨r, hr, hends⟩ := exists_leading hp hne hbalanced
  exact ⟨r, cs, hcs, by rw [braces, hcs, hr], hends⟩

theorem braces_eq_nil {code : List Char} {pos : Nat} (h : ¬ HasBlock code pos) :
    braces code pos = [] := by
  by_contra hne
  obtain ⟨hhead, hbalanced⟩ := of_leading_ne_nil hne
  exact h ⟨List.head?_drop.symm.trans hhead, hbalanced⟩

theorem bracesAfter_eq (code : List Char) (pos : Nat) :
    bracesAfter code pos =
      ((code.drop pos).idxOf? '{').elim [] fun k => braces code (pos + k) := by
  have hdrop : (code.drop pos).dropWhile (· != '{') =
      (code.drop pos).drop ((code.drop pos).findIdx (· == '{')) := by
    simp [List.dropWhile_eq_drop_findIdx_not, bne]
  rw [bracesAfter, hdrop]
  cases hfirst : (code.drop pos).idxOf? '{' with
  | none =>
    rw [List.findIdx?_eq_none_iff_findIdx_eq.mp hfirst, List.drop_length]
    rfl
  | some k =>
    rw [(List.findIdx?_eq_some_iff_findIdx_eq.mp hfirst).2, List.drop_drop]
    rfl

/-- **A block is the shortest balanced beginning of the text from its opening brace on**, and empty
if there is none.  It is the body that all readers of languages with braces, the call graphs and the
catalog take for a head that ends in that brace; the bus configuration takes the block at the next
opening brace. -/
theorem blocks_shortest_balanced (code : List Char) (pos : Nat) :
    (HasBlock code pos →
      IsShortestBalanced (braces code pos) (code.drop pos) ∧
      (braces code pos).getLast? = some '}' ∧
      ∀ p, p <+: code.drop pos → p ≠ [] → p.length < (braces code pos).length →
        p.count '}' < p.count '{') ∧
    (¬ HasBlock code pos → braces code pos = []) ∧
    (∀ m : Match, m.stop = pos + 1 → Declaration.bodyOf code m = braces code pos) ∧
    bracesAfter code pos =
      ((code.drop pos).idxOf? '{').elim [] fun k => braces code (pos + k) := by
  refine ⟨fun hblock => ?_, braces_eq_nil, fun m hm => ?_, bracesAfter_eq code pos⟩
  · obtain ⟨r, cs, hcs, hr, hends⟩ := hblock.exists_braces
    rw [hcs, hr]
    refine ⟨hends.isShortestBalanced, ?_, fun p hp hne hshort => ?_⟩
    · rw [List.getLast?_cons, hends.getLast? Int.one_pos, Option.getD_some]
    · have hopen := hends.level_pos hp hne hshort
      rw [level] at hopen
      omega
  · rw [Declaration.bodyOf, hm, Nat.add_sub_cancel]

/-- A block with another one in it, and a closing brace too many. -/
def nested : List Char := ['f', '{', 'a', '{', 'b', '}', 'c', '}', '}']

/-- The outer block is lost together with its last brace, and the inner one is found on its own. -/
theorem nested_blocks_found : HasBlock nested 1 ∧
    IsShortestBalanced ['{', 'a', '{', 'b', '}', 'c', '}'] (nested.drop 1) ∧
    ¬ HasBlock (nested.take 7) 1 ∧ braces (nested.take 7) 1 = [] ∧
    bracesAfter nested 2 = ['{', 'b', '}'] ∧ bracesAfter nested 4 = [] := by
  have hblock : HasBlock nested 1 := by decide
  have hlost : ¬ HasBlock (nested.take 7) 1 := by decide
  have hbraces : braces nested 1 = ['{', 'a', '{', 'b', '}', 'c', '}'] := by decide
  refine ⟨hblock, ?_, hlost, (blocks_shortest_balanced (nested.take 7) 1).2.1 hlost,
    (blocks_shortest_balanced nested 2).2.2.2.trans (by decide),
    (blocks_shortest_balanced nested 4).2.2.2.trans (by decide)⟩
  rw [← hbraces]
  exact ((blocks_shortest_balanced nested 1).1 hblock).1

end CodeScribe.Block
