import CodeScribe.Catalog.Steps
import CodeScribe.Proofs.Source.Names
import CodeScribe.Proofs.Table

/-!
# Names of messages and consumers

The names in a catalog come out of the groups of patterns, some of them through the types of
variables.  This file says of which characters they are made.
-/

namespace CodeScribe

open Pattern Text
open Declaration (isDottedChar)

/-! ### Groups of alternatives -/

theorem Match.getD_get? {m : Match} {i : Nat} (h : m.get i ≠ "") (d : String) :
    (m.get? i).getD d = m.get i := by
  rw [get] at h ⊢
  cases hg : m.get? i with
  | none => rw [hg] at h; exact absurd rfl h
  | some x => rfl

/-- Of two alternatives with a group each, the one that was taken gives the text. -/
theorem Match.FoundIn.getD_span1 {m : Match} {a b : Pattern} {cs : List Char}
    {accept : Char → Bool} (h : m.FoundIn (a <|> b) cs) (ha : a.body? 1 = some (span1 accept))
    (hb : b.body? 2 = some (span1 accept)) (hn : 1 ∉ b.numbers) :
    MadeOf accept ((m.get? 1).getD (m.get 2)) := by
  obtain ⟨s, t, hfits, hgroups, -, hm⟩ := h
  rcases hfits with hfits | hfits
  · have hfirst : MadeOf accept (m.get 1) := FoundBy.get_span1 ⟨s, t, hfits, hm⟩ ha
    rwa [getD_get? hfirst.ne_empty]
  · have hsecond : MadeOf accept (m.get 2) := FoundBy.get_span1 ⟨s, t, hfits, hm⟩ hb
    have hnone : m.chars? 1 = none := by
      rw [hm]
      show t.groupAt 1 = none
      rw [hfits.groupAt_eq hn, Cursor.groupAt, hgroups]
      rfl
    rw [get?, hnone]
    exact hsecond

namespace Catalog

variable {x : String}

/-! ### Short names -/

theorem isBlank_of_isDottedChar {c : Char} (h : isDottedChar c = true) : isBlank c = false := by
  rcases Bool.or_eq_true _ _ ▸ h with h | h
  · exact isBlank_of_isWord h
  · rw [beq_iff_eq.mp h]
    decide

theorem isDottedChar_of_isWord {c : Char} (h : isWord c = true) : isDottedChar c = true := by
  simp [isDottedChar, h]

theorem removeAll_eq_self {p : Pattern} {cs : List Char} (h : p.findAll cs = []) :
    p.removeAll cs = cs := by
  rw [removeAll, replaceAll, h]
  simp [pieces]

/-- Without an angle bracket there are no type arguments. -/
theorem findAll_typeArguments {cs : List Char} (h : '<' ∉ cs) :
    (char '<' ++ span1 (· != '>') ++ char '>').findAll cs = [] := by
  rw [List.eq_nil_iff_forall_not_mem]
  intro m hm
  obtain ⟨s, t, ⟨m₂, ⟨m₁, ⟨c, hc, hreads, -⟩, -⟩, -⟩, -, hsuffix, -⟩ := foundIn_of_mem_findAll hm
  refine h (hsuffix.subset ?_)
  rw [hreads.rest, beq_iff_eq.mp hc]
  exact List.mem_cons_self

/-- The short name of a name with points is its last piece. -/
theorem shortType_eq_lastPiece (h : ∀ c ∈ x.toList, isDottedChar c = true) :
    shortType x = lastPiece x "." := by
  have hblank : ∀ c ∈ x.toList, isBlank c = false := fun c hc => isBlank_of_isDottedChar (h c hc)
  have hangle : '<' ∉ x.toList := by
    intro hc
    have hdotted := h '<' hc
    revert hdotted
    decide
  rw [shortType, Chars.trim, Chars.trimOf_eq_self hblank,
    removeAll_eq_self (findAll_typeArguments hangle), String.ofList_toList]

/-- A short name is a word, or empty. -/
theorem isWord_of_mem_shortType (h : ∀ c ∈ x.toList, isDottedChar c = true) :
    ∀ c ∈ (shortType x).toList, isWord c = true := by
  intro c hc
  rw [shortType_eq_lastPiece h] at hc
  obtain ⟨hmem, hne⟩ := mem_lastPiece hc
  simpa [isDottedChar, hne] using h c hmem

theorem shortType_eq_self (h : ∀ c ∈ x.toList, isWord c = true) : shortType x = x := by
  have hpoint : '.' ∉ x.toList := by
    intro hc
    have hword := h '.' hc
    revert hword
    decide
  rw [shortType_eq_lastPiece fun c hc => isDottedChar_of_isWord (h c hc),
    lastPiece_of_not_mem hpoint]

/-! ### Messages of a body -/

theorem dotted_eq (i : Nat) : dotted i = group i (span1 isDottedChar) := rfl

theorem dottedName_eq (i : Nat) : Bus.dottedName i = group i (span1 isDottedChar) := rfl

theorem typedMessages_madeOf (verb : String) (body : List Char) :
    ∀ x ∈ typedMessages verb body, MadeOf isDottedChar x := by
  intro x hx
  obtain ⟨m, hm, rfl⟩ := List.mem_map.mp hx
  exact (foundIn_of_mem_findAll hm).getD_span1
    (by simp [Bus.typeArgument, dottedName_eq])
    (by simp [dottedName_eq]) (by simp [dottedName_eq, wordEdge, numbers])

theorem forall_foldl_set {P : String → Prop} {pairs : List (String × String)} {t : Table String}
    (ht : ∀ e ∈ t, P e.2) (hpairs : ∀ e ∈ pairs, P e.2) :
    ∀ e ∈ pairs.foldl (fun t (name, type) => t.set name type) t, P e.2 := by
  induction pairs generalizing t with
  | nil => exact ht
  | cons e pairs ih =>
    obtain ⟨he, hpairs⟩ := List.forall_mem_cons.mp hpairs
    exact ih (Table.forall_alter (P := fun _ type => P type) ht he fun _ _ => he) hpairs

/-- The type of a variable is a name with points, passed through the given function. -/
theorem variableTypes_spec (simplify : String → String) (body : List Char) :
    ∀ e ∈ variableTypes simplify body, ∃ x, MadeOf isDottedChar x ∧ e.2 = simplify x := by
  refine forall_foldl_set (P := fun type => ∃ x, MadeOf isDottedChar x ∧ type = simplify x)
    (by simp) ?_
  intro e he
  rcases List.mem_append.mp he with he | he
  · obtain ⟨m, hm, rfl⟩ := List.mem_map.mp he
    exact ⟨m.get 2, (findAll_sound hm).get_span1
      (by simp [untypedPattern, construction, dotted_eq]), rfl⟩
  · obtain ⟨m, hm, rfl⟩ := List.mem_map.mp he
    dsimp only
    split
    · exact ⟨m.get 3, (findAll_sound hm).get_span1
        (by simp [typedPattern, construction, dotted_eq]), rfl⟩
    · exact ⟨m.get 1, (findAll_sound hm).get_span1
        (by simp [typedPattern, construction, dotted_eq]), rfl⟩

theorem addPassed_madeOf {types : Table String} {messages : List String}
    (htypes : ∀ e ∈ types, MadeOf isDottedChar e.2) (h : ∀ x ∈ messages, MadeOf isDottedChar x)
    (m : Match) : ∀ x ∈ addPassed types messages m, MadeOf isDottedChar x := by
  rw [addPassed]
  split
  · rename_i message hmessage
    split
    · exact h
    · intro x hx
      rcases List.mem_append.mp hx with hx | hx
      · exact h x hx
      · rw [List.mem_singleton.mp hx]
        exact htypes _ (Table.mem_of_get? hmessage)
  · exact h

theorem foldl_addPassed_madeOf {types : Table String} {messages : List String}
    (htypes : ∀ e ∈ types, MadeOf isDottedChar e.2) (h : ∀ x ∈ messages, MadeOf isDottedChar x)
    (ms : List Match) : ∀ x ∈ ms.foldl (addPassed types) messages, MadeOf isDottedChar x := by
  induction ms generalizing messages with
  | nil => exact h
  | cons m ms ih => exact ih (addPassed_madeOf htypes h m)

/-- Messages that a body passes on are words with points. -/
theorem mem_messagesOf {body : List Char} (hx : x ∈ messagesOf body) : MadeOf isDottedChar x := by
  have htypes : ∀ e ∈ variableTypes id body, MadeOf isDottedChar e.2 := by
    intro e he
    obtain ⟨y, hy, heq⟩ := variableTypes_spec id body e he
    exact heq ▸ hy
  refine foldl_addPassed_madeOf htypes ?_ _ x hx
  intro y hy
  rcases List.mem_append.mp hy with hy | hy
  · exact typedMessages_madeOf "Publish" body y hy
  · exact typedMessages_madeOf "Send" body y hy

/-! ### Consumers -/

structure Consumer.WellNamed (c : Consumer) : Prop where
  name : MadeOf isWord c.name
  publishes : ∀ x ∈ c.publishes, MadeOf isWord x

theorem mem_distinct {names : List String} : x ∈ distinct names ↔ x ∈ names ∧ x ≠ "" := by
  simp [distinct, List.mem_eraseDups]

theorem madeOf_of_ne_empty {accept : Char → Bool} (h : ∀ c ∈ x.toList, accept c = true)
    (hne : x ≠ "") : MadeOf accept x :=
  ⟨fun hnil => hne (String.toList_eq_nil_iff.mp hnil), h⟩

theorem mem_publishedIn {code : List Char} (hx : x ∈ publishedIn code) : MadeOf isWord x := by
  obtain ⟨hx, hne⟩ := mem_distinct.mp hx
  refine madeOf_of_ne_empty ?_ hne
  rcases List.mem_append.mp hx with hx | hx
  · obtain ⟨m, hm, rfl⟩ := List.mem_map.mp hx
    have hdotted : MadeOf isDottedChar ((m.get? 1).getD (m.get 2)) :=
      (foundIn_of_mem_findAll hm).getD_span1 (by simp [dotted_eq]) (by simp [dotted_eq])
        (by simp [dotted_eq, wordEdge, numbers])
    exact isWord_of_mem_shortType hdotted.2
  · obtain ⟨v, hv, rfl⟩ := List.mem_map.mp hx
    -- the type of the variable is a short name already
    apply isWord_of_mem_shortType
    cases hg : (variableTypes shortType (stripComments code)).get? v with
    | none => simp
    | some type =>
      obtain ⟨y, hy, heq⟩ := variableTypes_spec _ _ _ (Table.mem_of_get? hg)
      intro c hc
      exact isDottedChar_of_isWord (isWord_of_mem_shortType hy.2 c (heq ▸ hc))

theorem consumersIn_wellNamed (content : String) :
    ∀ e ∈ consumersIn content, e.2.WellNamed := by
  intro e he
  obtain ⟨m, hm, rfl⟩ := List.mem_map.mp he
  have hname : MadeOf isWord (m.get 1) := (findAll_sound hm).get_span1
    (by simp [Bus.consumerClassPattern, Bus.typeArgument, dottedName_eq, numbers]; rfl)
  refine ⟨hname, fun x hx => ?_⟩
  dsimp only at hx
  exact mem_publishedIn hx

theorem foldl_consumers_wellNamed {pairs : List (String × Consumer)} {t : Table (List Consumer)}
    (hpairs : ∀ e ∈ pairs, e.2.WellNamed) (ht : ∀ e ∈ t, ∀ c ∈ e.2, Consumer.WellNamed c) :
    ∀ e ∈ pairs.foldl (fun t (message, c) => t.alter message fun cs => cs.getD [] ++ [c]) t,
      ∀ c ∈ e.2, Consumer.WellNamed c := by
  induction pairs generalizing t with
  | nil => exact ht
  | cons e pairs ih =>
    obtain ⟨he, hpairs⟩ := List.forall_mem_cons.mp hpairs
    refine ih hpairs (Table.forall_alter (P := fun _ cs => ∀ c ∈ cs, Consumer.WellNamed c) ht ?_ ?_)
    · simpa using he
    · intro cs hcs c hc
      rcases List.mem_append.mp hc with hc | hc
      · exact hcs c hc
      · rw [List.mem_singleton.mp hc]
        exact he

theorem wellNamed_of_mem_consumers {contents : List String} {message : String} {c : Consumer}
    (hc : c ∈ ((consumersByMessage contents).get? message).getD []) : c.WellNamed := by
  have hpairs : ∀ e ∈ contents.flatMap consumersIn, e.2.WellNamed := by
    intro e he
    obtain ⟨content, -, he⟩ := List.mem_flatMap.mp he
    exact consumersIn_wellNamed content e he
  cases hg : (consumersByMessage contents).get? message with
  | none => rw [hg] at hc; cases hc
  | some cs =>
    rw [hg] at hc
    exact foldl_consumers_wellNamed hpairs (by simp) _ (Table.mem_of_get? hg) c hc

end Catalog

end CodeScribe
