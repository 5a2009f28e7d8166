import CodeScribe.Diagram.AppSequence
import CodeScribe.Proofs.Catalog.Names
import CodeScribe.Proofs.Text.Words

/-!
# Sentences about messages and consumers

A step is a short sentence, and five patterns read the names back that went into one.  This file
names the kinds of sentences and says which pattern reads which kind.
-/

namespace CodeScribe.Catalog

open Pattern Text
open Declaration (isDottedChar)

variable {accept : Char → Bool} {x k v : String} {s t : Cursor} {rest : List Char} {p : Pattern}

/-- The kinds of sentences. -/
inductive Sentence where
  | newId
  | change
  | endpoint
  | message (type : String)
  | reads (consumer : String)
  | readsDatabase (consumer : String)
  | publishes (consumer type : String)

namespace Sentence

def text : Sentence → String
  | newId => "Generate OrderId"
  | change => databaseStep
  | endpoint => "Send to queue endpoint"
  | message type => messageStep type
  | reads consumer => "Consumer " ++ consumer ++ " reads queue"
  | readsDatabase consumer => "Consumer " ++ consumer ++ " reads DB"
  | publishes consumer type => "Consumer " ++ consumer ++ " publishes " ++ type

def message? : Sentence → Option String
  | message type => some type
  | _ => none

def consumer? : Sentence → Option String
  | reads consumer => some consumer
  | _ => none

def publish? : Sentence → Option (String × String)
  | publishes consumer type => some (consumer, type)
  | _ => none

end Sentence

theorem isDottedChar_space : isDottedChar ' ' = false := by decide

theorem unbroken_of_madeOf (h : MadeOf accept x)
    (haccept : ∀ c, accept c = true → isBlank c = false) : Unbroken x.toList :=
  fun c hc => haccept c (h.2 c hc)

theorem madeOf_isDottedChar (h : MadeOf isWord x) : MadeOf isDottedChar x :=
  ⟨h.1, fun c hc => isDottedChar_of_isWord (h.2 c hc)⟩

/-! ### Reading a name -/

theorem head?_any_append {w : List Char} (hne : w ≠ []) (hw : ∀ c ∈ w, accept c = false)
    (rest : List Char) : (w ++ rest).head?.any accept = false := by
  obtain ⟨c, w, rfl⟩ := List.exists_cons_of_ne_nil hne
  exact hw c List.mem_cons_self

theorem consumes_blank (hrest : rest.head?.any isBlank = false) : blanks1.Consumes [' '] rest [] :=
  consumes_span1 (List.cons_ne_nil _ _) (by simp [isBlank]) hrest

theorem consumes_name {k x : List Char} (hp : ∀ cs, p.Consumes k cs []) (i : Nat) (hne : x ≠ [])
    (hx : ∀ c ∈ x, accept c = true) (hblank : Unbroken x) (hrest : rest.head?.any accept = false) :
    (p ++ blanks1 ++ group i (span1 accept)).Consumes (k ++ [' '] ++ x) rest [(i, x)] :=
  ((hp _).seq (consumes_blank (head?_any_append hne hblank rest))).seq
    ((consumes_span1 hne hx hrest).group i)

/-- A search that takes a text at the start finds the texts of its groups. -/
theorem map_find?_of_consumes {α : Type} {f : Match → α} {a : α} {w cs : List Char}
    {held : List (Nat × List Char)} (h : p.Consumes w rest held) (hcs : cs = w ++ rest)
    (hf : ∀ m, (∀ i x, held.lookup i = some (String.toList x) → m.get i = x) → f m = a) :
    (p.find? cs).map f = some a := by
  obtain ⟨t, htakes, -, -, hheld⟩ := h (Cursor.start cs) hcs
  rw [find?_of_takes htakes, Option.map_some]
  refine congrArg some (hf _ fun i x hx => ?_)
  have hchars : Match.chars? ⟨⟨0, t.pos, cs⟩, t.groups⟩ i = some x.toList :=
    (hheld i).trans (by rw [hx, Option.some_or])
  rw [Match.get, Match.get?, hchars]
  exact String.ofList_toList

/-- A name between two given texts. -/
theorem find?_name {q : Pattern} (hp : ∀ cs, p.Consumes k.toList cs [])
    (hq : ∀ cs, q.Consumes v.toList cs []) (hx : MadeOf accept x)
    (haccept : ∀ c, accept c = true → isBlank c = false)
    (hspace : accept ' ' = false) (hv : v.toList.head?.any isBlank = false) :
    ((p ++ blanks1 ++ group 1 (span1 accept) ++ blanks1 ++ q).find?
      (k.toList ++ ' ' :: (x.toList ++ ' ' :: v.toList))).map (·.get 1) = some x := by
  have hname := consumes_name hp 1 hx.1 hx.2 (unbroken_of_madeOf hx haccept)
    (show ([' '] ++ (v.toList ++ [])).head?.any accept = false from hspace)
  have hgap := consumes_blank (show (v.toList ++ []).head?.any isBlank = false by simpa using hv)
  exact map_find?_of_consumes ((hname.seq hgap).seq (hq [])) (by simp) fun m hget => hget 1 x rfl

theorem find?_lastName (hp : ∀ cs, p.Consumes k.toList cs []) (hx : MadeOf accept x)
    (haccept : ∀ c, accept c = true → isBlank c = false) (hrest : rest.head?.any accept = false) :
    ((p ++ blanks1 ++ group 1 (span1 accept)).find?
      (k.toList ++ ' ' :: (x.toList ++ rest))).map (·.get 1) = some x := by
  have hname := consumes_name hp 1 hx.1 hx.2 (unbroken_of_madeOf hx haccept) hrest
  exact map_find?_of_consumes hname (by simp) fun m hget => hget 1 x rfl

/-- Two names with points, each behind a word. -/
theorem find?_names {c : String} (hc : MadeOf isDottedChar c) (hx : MadeOf isDottedChar x)
    (hv : v.toList ≠ []) (hblank : Unbroken v.toList) :
    ((keyword k ++ dotted 1 ++ blanks1 ++ keyword v ++ dotted 2).find?
      (k.toList ++ ' ' :: (c.toList ++ ' ' :: (v.toList ++ ' ' :: x.toList)))).map
      (fun m => (m.get 1, m.get 2)) = some (c, x) := by
  have hfirst (cs : List Char) := consumes_name (consumes_litAnyCase k) 1 hc.1 hc.2
    (unbroken_of_madeOf hc fun _ => isBlank_of_isDottedChar)
    (show ([' '] ++ cs).head?.any isDottedChar = false from isDottedChar_space)
  have hsecond := consumes_name (consumes_litAnyCase v) 2 hx.1 hx.2
    (unbroken_of_madeOf hx fun _ => isBlank_of_isDottedChar)
    (show ([] : List Char).head?.any isDottedChar = false from rfl)
  have hgap : blanks1.Consumes [' '] (v.toList ++ [' '] ++ x.toList ++ []) [] := by
    refine consumes_blank ?_
    simpa using head?_any_append hv hblank (' ' :: x.toList)
  refine map_find?_of_consumes (((hfirst _).seq hgap).seq hsecond).assoc (by simp) ?_
  intro m hget
  rw [hget 1 c rfl, hget 2 x rfl]

/-! ### The words that the patterns read -/

theorem Fits.keyword {w : String} (h : (keyword w).Fits s t) (hw : NeverBlank w.toList) :
    ∃ cs bs, Unbroken cs ∧ cs.length = w.length ∧ Gap bs ∧ s.rest = cs ++ (bs ++ t.rest) := by
  obtain ⟨m, hword, hgap⟩ := h
  obtain ⟨cs, hcs, hlength, hs⟩ := hword.litAnyCase_word hw
  obtain ⟨bs, hbs, hm⟩ := hgap.blanks1
  exact ⟨cs, bs, hcs, hlength, hbs, by rw [hs, hm]⟩

theorem Fits.dotted {i : Nat} (h : (dotted i).Fits s t) :
    ∃ cs, cs ≠ [] ∧ Unbroken cs ∧ s.rest = cs ++ t.rest := by
  obtain ⟨cs, hne, hcs, hs⟩ := h.group_span1
  exact ⟨cs, hne, fun c hc => isBlank_of_isDottedChar (hcs c hc), hs⟩

/-- A name between a word and two given words. -/
theorem readsWords_named {a b : List Char} (hk : NeverBlank k.toList)
    (hv : v.toList = a ++ ' ' :: b) (ha : NeverBlank a) :
    (keyword k ++ dotted 1 ++ blanks1 ++ litAnyCase v).ReadsWords a.length b.length := by
  rintro s t ⟨m₃, ⟨m₂, ⟨m₁, hkey, hname⟩, hgap⟩, hlast⟩
  obtain ⟨p₁, b₁, hp₁, -, hb₁, h₁⟩ := Fits.keyword hkey hk
  obtain ⟨p₂, -, hp₂, h₂⟩ := Fits.dotted hname
  obtain ⟨b₂, hb₂, h₃⟩ := hgap.blanks1
  obtain ⟨p₃, p₄, hp₃, hlength, hlength', h₄⟩ := hlast.litAnyCase_words hv ha
  refine ⟨p₁, b₁, p₂, b₂, p₃, [' '], p₄, ?_, hp₁, hp₂, hp₃, hb₁, hb₂, ?_, hlength, hlength'.ge⟩
  · rw [h₁, h₂, h₃, h₄]
  · exact ⟨List.cons_ne_nil _ _, by simp [isBlank]⟩

theorem neverBlank_words : ∀ w ∈ ["Publish/Send", "Consumer", "to", "reads", "publishes"],
    NeverBlank w.toList := by
  decide

theorem readsWords_messageStep : messageStepPattern.ReadsWords 2 5 :=
  readsWords_named (a := "to".toList) (b := "queue".toList) (neverBlank_words _ (by simp))
    (by decide) (neverBlank_words _ (by simp))

theorem readsWords_consumerStep : consumerStepPattern.ReadsWords 5 5 :=
  readsWords_named (a := "reads".toList) (b := "queue".toList) (neverBlank_words _ (by simp))
    (by decide) (neverBlank_words _ (by simp))

theorem readsWords_publishStep : publishStepPattern.ReadsWords 9 1 := by
  rintro s t ⟨m₄, ⟨m₃, ⟨m₂, ⟨m₁, hkey, hname⟩, hgap⟩, hkey'⟩, hname'⟩
  obtain ⟨p₁, b₁, hp₁, -, hb₁, h₁⟩ := Fits.keyword hkey (neverBlank_words _ (by simp))
  obtain ⟨p₂, -, hp₂, h₂⟩ := Fits.dotted hname
  obtain ⟨b₂, hb₂, h₃⟩ := hgap.blanks1
  obtain ⟨p₃, b₃, hp₃, hlength, hb₃, h₄⟩ := Fits.keyword hkey' (neverBlank_words _ (by simp))
  obtain ⟨p₄, hne, -, h₅⟩ := Fits.dotted hname'
  refine ⟨p₁, b₁, p₂, b₂, p₃, b₃, p₄, ?_, hp₁, hp₂, hp₃, hb₁, hb₂, hb₃, hlength, ?_⟩
  · rw [h₁, h₂, h₃, h₄, h₅]
  · exact List.length_pos_iff.mpr hne

theorem readsWords_drawnConsumer : AppSequence.consumerPattern.ReadsWords 5 5 := by
  rintro s t ⟨m₄, ⟨m₃, ⟨m₂, ⟨m₁, hkey, hgap⟩, hname⟩, hgap'⟩, hlast⟩
  obtain ⟨b₁, hb₁, h₁⟩ := hgap.blanks1
  obtain ⟨p₂, -, hp₂, h₂⟩ := hname.group_span1
  obtain ⟨b₂, hb₂, h₃⟩ := hgap'.blanks1
  refine ⟨"Consumer".toList, b₁, p₂, b₂, "reads".toList, [' '], "queue".toList, ?_, by decide,
    fun c hc => by simpa using hp₂ c hc, by decide, hb₁, hb₂, ?_, rfl, le_rfl⟩
  · rw [hkey.lit, h₁, h₂, h₃, hlast.lit]
    rfl
  · exact ⟨List.cons_ne_nil _ _, by simp [isBlank]⟩

/-- A message in a drawing stands behind a word with a slash. -/
theorem find?_drawnMessage_eq_none {cs : List Char} (h : '/' ∉ cs) :
    AppSequence.messagePattern.find? cs = none := by
  cases hfind : AppSequence.messagePattern.find? cs with
  | none => rfl
  | some m =>
    obtain ⟨s, t, ⟨m₂, ⟨m₁, hkey, -⟩, -⟩, -, hsuffix, -⟩ := foundIn_of_find? hfind
    refine absurd (hsuffix.subset ?_) h
    rw [hkey.lit]
    simp

/-! ### Kinds of sentences -/

namespace Sentence

/-- The four words of a sentence that names something. -/
def words : Sentence → Option (String × String × String × String)
  | message x => some ("Publish/Send", x, "to", "queue")
  | reads c => some ("Consumer", c, "reads", "queue")
  | readsDatabase c => some ("Consumer", c, "reads", "DB")
  | publishes c x => some ("Consumer", c, "publishes", x)
  | newId | change | endpoint => none

/-- Names of messages hold word characters and points, other names word characters alone. -/
def WellNamed : Sentence → Prop
  | message x => MadeOf isDottedChar x
  | reads c | readsDatabase c => MadeOf isWord c
  | publishes c x => MadeOf isWord c ∧ MadeOf isWord x
  | newId | change | endpoint => True

variable {s : Sentence} {w₁ w₂ w₃ w₄ : String}

theorem toList_text (h : s.words = some (w₁, w₂, w₃, w₄)) : s.text.toList =
    w₁.toList ++ ' ' :: (w₂.toList ++ ' ' :: (w₃.toList ++ ' ' :: w₄.toList)) := by
  cases s <;> cases h <;> simp [text, messageStep]

theorem toList_text_reads (c : String) : (reads c).text.toList =
    "Consumer".toList ++ ' ' :: (c.toList ++ ' ' :: "reads queue".toList) := by
  have hend : "reads".toList ++ ' ' :: "queue".toList = "reads queue".toList := by decide
  rw [toList_text rfl, hend]

theorem WellNamed.unbroken (hs : s.WellNamed) (h : s.words = some (w₁, w₂, w₃, w₄)) :
    Unbroken w₁.toList ∧ Unbroken w₂.toList ∧ Unbroken w₃.toList ∧ Unbroken w₄.toList := by
  cases s with
  | message x =>
    cases h
    exact ⟨by decide, unbroken_of_madeOf hs fun _ => isBlank_of_isDottedChar, by decide, by decide⟩
  | reads c =>
    cases h
    exact ⟨by decide, unbroken_of_madeOf hs fun _ => isBlank_of_isWord, by decide, by decide⟩
  | readsDatabase c =>
    cases h
    exact ⟨by decide, unbroken_of_madeOf hs fun _ => isBlank_of_isWord, by decide, by decide⟩
  | publishes c x =>
    cases h
    exact ⟨by decide, unbroken_of_madeOf hs.1 fun _ => isBlank_of_isWord, by decide,
      unbroken_of_madeOf hs.2 fun _ => isBlank_of_isWord⟩
  | newId => cases h
  | change => cases h
  | endpoint => cases h

/-- A pattern of four words does not occur in a sentence with other last words. -/
theorem WellNamed.find?_eq_none (hs : s.WellNamed) {p : Pattern} {third fourth : Nat}
    (hp : p.ReadsWords third fourth) (h : s.words = some (w₁, w₂, w₃, w₄))
    (hne : w₃.length ≠ third ∨ w₄.length < fourth) : p.find? s.text.toList = none := by
  obtain ⟨h₁, h₂, h₃, h₄⟩ := hs.unbroken h
  rw [toList_text h]
  exact hp.find?_eq_none h₁ h₂ h₃ h₄ hne

/-- A sentence that names nothing is read by no pattern. -/
theorem find?_fixed : ∀ p ∈ [messageStepPattern, consumerStepPattern, publishStepPattern,
    AppSequence.messagePattern, AppSequence.consumerPattern], ∀ s ∈ [newId, change, endpoint],
    p.find? s.text.toList = none := by
  decide

/-- The pattern for messages reads the message of a sentence about one. -/
theorem message?_text (hs : s.WellNamed) :
    (messageStepPattern.find? s.text.toList).map (·.get 1) = s.message? := by
  cases s with
  | newId | change | endpoint => rw [find?_fixed _ (by simp) _ (by simp)]; rfl
  | message x =>
    have hend : "to".toList ++ ' ' :: "queue".toList = "to queue".toList := by decide
    rw [toList_text rfl, hend]
    exact find?_name (consumes_litAnyCase _) (consumes_litAnyCase _) hs
      (fun _ => isBlank_of_isDottedChar) isDottedChar_space (by decide)
  | reads c => rw [hs.find?_eq_none readsWords_messageStep rfl (.inl (by decide))]; rfl
  | readsDatabase c => rw [hs.find?_eq_none readsWords_messageStep rfl (.inl (by decide))]; rfl
  | publishes c x => rw [hs.find?_eq_none readsWords_messageStep rfl (.inl (by decide))]; rfl

/-- The pattern for consumers reads the consumer of a sentence about its queue. -/
theorem consumer?_text (hs : s.WellNamed) :
    (consumerStepPattern.find? s.text.toList).map (·.get 1) = s.consumer? := by
  cases s with
  | newId | change | endpoint => rw [find?_fixed _ (by simp) _ (by simp)]; rfl
  | message x => rw [hs.find?_eq_none readsWords_consumerStep rfl (.inl (by decide))]; rfl
  | reads c =>
    rw [toList_text_reads]
    exact find?_name (consumes_litAnyCase _) (consumes_litAnyCase _)
      (madeOf_isDottedChar hs) (fun _ => isBlank_of_isDottedChar) isDottedChar_space (by decide)
  | readsDatabase c => rw [hs.find?_eq_none readsWords_consumerStep rfl (.inr (by decide))]; rfl
  | publishes c x => rw [hs.find?_eq_none readsWords_consumerStep rfl (.inl (by decide))]; rfl

/-- The pattern for published messages reads both names of a sentence about one. -/
theorem publish?_text (hs : s.WellNamed) :
    (publishStepPattern.find? s.text.toList).map (fun m => (m.get 1, m.get 2)) = s.publish? := by
  cases s with
  | newId | change | endpoint => rw [find?_fixed _ (by simp) _ (by simp)]; rfl
  | message x => rw [hs.find?_eq_none readsWords_publishStep rfl (.inl (by decide))]; rfl
  | reads c => rw [hs.find?_eq_none readsWords_publishStep rfl (.inl (by decide))]; rfl
  | readsDatabase c => rw [hs.find?_eq_none readsWords_publishStep rfl (.inl (by decide))]; rfl
  | publishes c x =>
    rw [toList_text rfl]
    exact find?_names (madeOf_isDottedChar hs.1) (madeOf_isDottedChar hs.2) (by decide) (by decide)

/-! ### In a drawing -/

theorem isBlank_of_not {c : Char} (h : (!isBlank c) = true) : isBlank c = false := by
  simpa using h

theorem madeOf_not_isBlank {accept : Char → Bool} {x : String} (h : MadeOf accept x)
    (haccept : ∀ c, accept c = true → isBlank c = false) : MadeOf (fun c => !isBlank c) x :=
  ⟨h.1, fun c hc => by simpa using haccept c (h.2 c hc)⟩

theorem slash_not_mem_text (h : s.words = some ("Consumer", w₂, w₃, w₄))
    (hw₃ : '/' ∉ w₃.toList) (hw₄ : '/' ∉ w₄.toList) (hw₂ : MadeOf isWord w₂) :
    '/' ∉ s.text.toList := by
  have hname : '/' ∉ w₂.toList := hw₂.not_mem (by decide)
  rw [toList_text h]
  simp [hname, hw₃, hw₄]

/-- The pattern of a drawing for messages reads the message of a sentence about one. -/
theorem drawnMessage?_text (hs : s.WellNamed) :
    (AppSequence.messagePattern.find? s.text.toList).map (·.get 1) = s.message? := by
  cases s with
  | newId | change | endpoint => rw [find?_fixed _ (by simp) _ (by simp)]; rfl
  | message x =>
    rw [toList_text rfl]
    exact find?_lastName (consumes_lit _)
      (madeOf_not_isBlank hs fun _ => isBlank_of_isDottedChar) (fun _ => isBlank_of_not) (by decide)
  | reads c =>
    rw [find?_drawnMessage_eq_none (slash_not_mem_text rfl (by decide) (by decide) hs)]; rfl
  | readsDatabase c =>
    rw [find?_drawnMessage_eq_none (slash_not_mem_text rfl (by decide) (by decide) hs)]; rfl
  | publishes c x =>
    have hx : '/' ∉ x.toList := hs.2.not_mem (by decide)
    rw [find?_drawnMessage_eq_none (slash_not_mem_text rfl (by decide) hx hs.1)]; rfl

/-- The pattern of a drawing for consumers reads the consumer of a sentence about its queue. -/
theorem drawnConsumer?_text (hs : s.WellNamed) :
    (AppSequence.consumerPattern.find? s.text.toList).map (·.get 1) = s.consumer? := by
  cases s with
  | newId | change | endpoint => rw [find?_fixed _ (by simp) _ (by simp)]; rfl
  | message x => rw [hs.find?_eq_none readsWords_drawnConsumer rfl (.inl (by decide))]; rfl
  | reads c =>
    rw [toList_text_reads]
    exact find?_name (consumes_lit _) (consumes_lit _)
      (madeOf_not_isBlank hs fun _ => isBlank_of_isWord) (fun _ => isBlank_of_not) (by decide)
      (by decide)
  | readsDatabase c => rw [hs.find?_eq_none readsWords_drawnConsumer rfl (.inr (by decide))]; rfl
  | publishes c x => rw [hs.find?_eq_none readsWords_drawnConsumer rfl (.inl (by decide))]; rfl

end Sentence

end CodeScribe.Catalog
