import CodeScribe.Proofs.Document.Isolation
import CodeScribe.Proofs.Source.Names
import CodeScribe.Proofs.Text.Stretches

/-!
# Drawings in the replies of a model

A reply of a language model is put between fences, after its names were cleaned line by line.  A
fence inside would end the drawing too early.  A reply that opens a drawing itself is cut at the
next fence, so nothing can go wrong with it; any other reply is taken as a whole, with the fences
that are left in it.

* `ClassSequence.asked_drawing_fences` — when a drawing that a model was asked for has no other
  fences;
* `ClassSequence.other_fence_kept` — it may have.
-/

namespace CodeScribe.ClassSequence

open Pattern Chars
open Text (isWord)

variable {c z : Char} {line : List Char} {m : Match} {code text : String}

/-! ### Backticks -/

/-- Three backticks. -/
def fence : List Char := "```".toList

theorem fence_ne_nil : fence ≠ [] := by decide

theorem newline_notMem_fence : '\n' ∉ fence := by decide

theorem eq_of_mem_fence (h : c ∈ fence) : c = Char.ofNat 96 := by
  simpa [fence] using h

/-- A text without backticks. -/
def Bare (cs : List Char) : Prop := ∀ c ∈ cs, c ∉ fence

instance (cs : List Char) : Decidable (Bare cs) := List.decidableBAll (· ∉ fence) cs

theorem Bare.append {as bs : List Char} (ha : Bare as) (hb : Bare bs) : Bare (as ++ bs) := by
  intro c hc
  rcases List.mem_append.mp hc with hc | hc
  · exact ha c hc
  · exact hb c hc

theorem Bare.not_fenced {cs : List Char} (h : Bare cs) : ¬ fence <:+: cs := by
  intro hfenced
  have htick : Char.ofNat 96 ∈ fence := by decide
  exact h _ (hfenced.subset htick) htick

theorem bare_of_isWord {cs : List Char} (h : ∀ c ∈ cs, isWord c = true) : Bare cs := by
  intro c hc hmem
  have hword := h c hc
  rw [eq_of_mem_fence hmem] at hword
  exact absurd hword (by decide)

theorem isWord_of_mem_cleanName {name : String} (hc : c ∈ (cleanName name).toList) :
    isWord c = true := by
  rw [cleanName] at hc
  split at hc
  · have hunknown : ∀ d ∈ "Unknown".toList, isWord d = true := by simp; decide
    exact hunknown c hc
  · rw [String.toList_ofList] at hc
    obtain ⟨d, -, rfl⟩ := List.mem_map.mp ((trimOf_isInfix _ _).subset hc)
    split
    · assumption
    · decide

theorem bare_cleanName (name : String) : Bare (cleanName name).toList :=
  bare_of_isWord fun _ => isWord_of_mem_cleanName

/-! ### Cleaning a line -/

theorem infix_of_cleanParticipant (h : fence <:+: cleanParticipant line) : fence <:+: line := by
  rw [cleanParticipant] at h
  split at h
  · refine infix_of_replaceAll fence_ne_nil ?_ h
    intro m _
    rw [String.toList_append]
    have hword : Bare "participant ".toList := by decide
    exact ⟨by simp, hword.append (bare_cleanName _)⟩
  · exact h

theorem get_mem_of_foundBy (h : m.FoundBy arrowPattern) :
    m.get 2 ∈ ["->>", "-->>", "->", "--"] := by
  have hbody : arrowPattern.body? 2 = some (words ["->>", "-->>", "->", "--"]) := by
    simp [arrowPattern]
  obtain ⟨s, t, cs, hfits, hrest, hget⟩ := h.body hbody
  obtain ⟨p, hp, hfits⟩ := Fits.anyOf hfits
  obtain ⟨w, hw, rfl⟩ := List.mem_map.mp hp
  rw [hfits.lit, List.append_cancel_right_eq] at hrest
  rwa [String.toList_inj.mp (hget.trans hrest.symm)]

theorem bare_arrow (h : m ∈ arrowPattern.findAll line) : Bare (m.get 2).toList := by
  have hbare : ∀ w ∈ ["->>", "-->>", "->", "--"], Bare w.toList := by decide
  exact hbare _ (get_mem_of_foundBy (findAll_sound h))

theorem bare_cleanArrow (h : m ∈ arrowPattern.findAll line) : Bare (cleanArrow m) := by
  have htext (cs : List Char) : Bare (cs.map fun c => if isArrowText c then c else '_') := by
    intro c hc hmem
    obtain ⟨d, -, rfl⟩ := List.mem_map.mp hc
    have htick := eq_of_mem_fence hmem
    split at htick
    · rename_i hd
      rw [htick] at hd
      exact absurd hd (by decide)
    · exact absurd htick (by decide)
  have hcolon : Bare ": ".toList := by decide
  rw [cleanArrow, String.toList_append, String.toList_append, String.toList_append]
  exact ((((bare_cleanName _).append (bare_arrow h)).append (bare_cleanName _)).append
    hcolon).append (htext _)

theorem infix_of_cleanArrows (h : fence <:+: arrowPattern.replaceAll cleanArrow line) :
    fence <:+: line := by
  refine infix_of_replaceAll fence_ne_nil ?_ h
  intro m hm
  refine ⟨?_, bare_cleanArrow hm⟩
  rw [cleanArrow]
  simp

/-- A character that is no letter of any case. -/
structure Plain (z : Char) : Prop where
  steady : Text.Steady [z]
  mates : ∀ mates ∈ Text.caseMates, mates.contains z.toNat = false

instance (z : Char) : Decidable (Plain z) :=
  decidable_of_iff (Text.Steady [z] ∧ ∀ mates ∈ Text.caseMates, mates.contains z.toNat = false)
    ⟨fun h => ⟨h.1, h.2⟩, fun h => ⟨h.1, h.2⟩⟩

theorem Plain.lowerChar_ne {d : Char} (hz : Plain z) (hc : Text.lowerChar c ≠ z)
    (h : Text.sameLetter c d = true) : Text.lowerChar d ≠ z := by
  simp only [Text.sameLetter, Bool.or_eq_true, beq_iff_eq, List.any_eq_true,
    Bool.and_eq_true] at h
  rcases h with h | ⟨mates, hmem, -, hmate⟩
  · rwa [← h]
  · intro hd
    rw [hd, hz.mates mates hmem] at hmate
    cases hmate

theorem Plain.notMem_map_lowerChar (hz : Plain z) {ws ds : List Char}
    (h : List.Forall₂ (fun c d => Text.sameLetter c d = true) ws ds)
    (hw : z ∉ ws.map Text.lowerChar) : z ∉ ds.map Text.lowerChar := by
  induction h with
  | nil => exact hw
  | @cons c d ws ds hcd _ ih =>
    simp only [List.map_cons, List.mem_cons, not_or] at hw ⊢
    exact ⟨Ne.symm (hz.lowerChar_ne (Ne.symm hw.1) hcd), ih hw.2⟩

/-- The command of an activation is written in letters. -/
theorem notMem_lower_command (h : activationPattern.find? line = some m) (hz : Plain z)
    (hletters : ∀ w ∈ ["activate", "deactivate"], z ∉ w.toList.map Text.lowerChar) :
    z ∉ (Text.lower (m.get 1)).toList := by
  have hbody : activationPattern.body? 1 = some (wordsAnyCase ["activate", "deactivate"]) := by
    simp [activationPattern]
  obtain ⟨s, t, cs, hfits, hrest, hget⟩ := (find?_sound h).body hbody
  obtain ⟨p, hp, hfits⟩ := Fits.anyOf hfits
  obtain ⟨w, hw, rfl⟩ := List.mem_map.mp hp
  obtain ⟨ds, hds, hrest'⟩ := hfits.litAnyCase
  rw [hrest', List.append_cancel_right_eq] at hrest
  rw [Text.lower, String.toList_ofList, hget, ← hrest, ← List.singleton_infix_iff,
    Text.infix_lowerChars hz.steady, List.singleton_infix_iff]
  exact hz.notMem_map_lowerChar hds (hletters w hw)

theorem not_infix_lower_command (h : activationPattern.find? line = some m) :
    ¬ fence <:+: (Text.lower (m.get 1)).toList := by
  have htick : Char.ofNat 96 ∈ fence := by decide
  exact fun hfence =>
    notMem_lower_command h (by decide) (by decide) (hfence.subset htick)

theorem infix_of_cleanActivation (h : fence <:+: cleanActivation line) : fence <:+: line := by
  rw [cleanActivation] at h
  split at h
  · rename_i m hm
    exfalso
    have hblanks : Bare "    ".toList := by decide
    have hblank : ' ' ∉ fence := by decide
    rw [String.toList_append, String.toList_append, String.toList_append, List.append_assoc,
      List.append_assoc] at h
    rcases infix_of_infix_append (a := []) fence_ne_nil (by decide) hblanks h with h | h
    · exact fence_ne_nil (List.infix_nil.mp h)
    · rcases (infix_append_cons_iff hblank).mp h with h | h
      · exact not_infix_lower_command hm h
      · exact (bare_cleanName _).not_fenced h
  · exact h

theorem infix_of_cleanLine (h : fence <:+: cleanLine line) : fence <:+: line := by
  have hparticipant {cs : List Char}
      (h : fence <:+: if mentions cs "participant" then cleanParticipant cs else cs) :
      fence <:+: cs := by
    split at h
    · exact infix_of_cleanParticipant h
    · exact h
  have hactivation {cs : List Char}
      (h : fence <:+: if mentions cs "activate" then cleanActivation cs else cs) :
      fence <:+: cs := by
    split at h
    · exact infix_of_cleanActivation h
    · exact h
  exact hparticipant (infix_of_cleanArrows (hactivation h))

/-! ### Cleaning a drawing -/

def isComment (line : List Char) : Bool := "%%".toList.isPrefixOf (Chars.trim line)

/-- The lines of a drawing that cleaning keeps: neither comments nor empty lines at the start. -/
def keptLines (code : List Char) : List (List Char) :=
  ((Chars.splitOn ['\n'] code).dropWhile fun l => (Chars.trim l).isEmpty || isComment l).filter
    fun l => !isComment l

theorem toList_clean (code : String) :
    (clean code).toList = ['\n'].intercalate ((keptLines code.toList).map cleanLine) := by
  have hlines : clean code
      = Text.join "\n" ((keptLines code.toList).map fun l => String.ofList (cleanLine l)) := rfl
  have hchars : (String.toList ∘ fun l => String.ofList (cleanLine l)) = cleanLine :=
    funext fun l => String.toList_ofList
  rw [hlines, Text.join, String.toList_intercalate, List.map_map, hchars]
  rfl

theorem infix_of_mem_keptLines {code : List Char} (h : line ∈ keptLines code) : line <:+: code := by
  have hline := (List.dropWhile_suffix _).subset (List.mem_filter.mp h).1
  rw [Chars.splitOn_singleton] at hline
  exact infix_of_mem_splitOn hline

theorem infix_clean_iff :
    fence <:+: (clean code).toList ↔
      ∃ line ∈ keptLines code.toList, fence <:+: cleanLine line := by
  rw [toList_clean, infix_intercalate_iff fence_ne_nil newline_notMem_fence]
  simp

/-- Cleaning a drawing brings in no fence. -/
theorem infix_of_clean (h : fence <:+: (clean code).toList) : fence <:+: code.toList := by
  obtain ⟨line, hline, hfence⟩ := infix_clean_iff.mp h
  exact (infix_of_cleanLine hfence).trans (infix_of_mem_keptLines hline)

/-! ### Drawings between fences -/

def between (body : String) : String := "```mermaid\n" ++ body ++ "\n```\n"

theorem fenced_eq_some (h : fenced code = some text) : text = between (clean code) := by
  rw [fenced] at h
  split at h
  · exact (Option.some.inj h).symm
  · cases h

theorem toList_between (body : String) :
    (between body).toList
      = "```mermaid".toList ++ '\n' :: (body.toList ++ '\n' :: "```\n".toList) := by
  have hopening : "```mermaid\n".toList = "```mermaid".toList ++ ['\n'] := by decide
  have hclosing : "\n```\n".toList = '\n' :: "```\n".toList := by decide
  rw [between, String.toList_append, String.toList_append, hopening, hclosing, List.append_assoc,
    List.append_assoc, List.singleton_append]

theorem length_between (body : String) :
    (between body).toList.length = 11 + (body.toList.length + 5) := by
  rw [toList_between, List.length_append, List.length_cons, List.length_append, List.length_cons]
  show 10 + (body.toList.length + (4 + 1) + 1) = _
  omega

theorem standsAt_opening (i : Nat) : StandsAt fence "```mermaid".toList i ↔ i = 0 := by
  constructor
  · intro h
    have hplaces : ∀ j < 8, StandsAt fence "```mermaid".toList j → j = 0 := by decide
    have hle : i + 3 ≤ 10 := h.add_length_le fence_ne_nil
    exact hplaces i (by omega) h
  · rintro rfl
    decide

theorem standsAt_closing (i : Nat) : StandsAt fence "```\n".toList i ↔ i = 0 := by
  constructor
  · intro h
    have hplaces : ∀ j < 2, StandsAt fence "```\n".toList j → j = 0 := by decide
    have hle : i + 3 ≤ 4 := h.add_length_le fence_ne_nil
    exact hplaces i (by omega) h
  · rintro rfl
    decide

/-- A drawing has its own two fences, at the start and in front of the last line end, and those of
its body. -/
theorem standsAt_between (body : String) (i : Nat) :
    StandsAt fence (between body).toList i ↔
      (i = 0 ∨ i + 4 = (between body).toList.length) ∨
        ∃ j, StandsAt fence body.toList j ∧ i = 11 + j := by
  rw [length_between, toList_between, standsAt_append_cons fence_ne_nil newline_notMem_fence,
    standsAt_opening]
  simp only [standsAt_append_cons fence_ne_nil newline_notMem_fence, standsAt_closing]
  have hten : "```mermaid".toList.length = 10 := rfl
  rw [hten]
  constructor
  · rintro (rfl | ⟨j, h | ⟨k, rfl, rfl⟩, rfl⟩)
    · exact .inl (.inl rfl)
    · exact .inr ⟨j, h, rfl⟩
    · exact .inl (.inr (by omega))
  · rintro ((rfl | hi) | ⟨j, h, rfl⟩)
    · exact .inl rfl
    · exact .inr ⟨_, .inr ⟨0, rfl, rfl⟩, by omega⟩
    · exact .inr ⟨j, .inl h, rfl⟩

theorem fences_of_drawing (body : String) :
    (∀ i, StandsAt fence (between body).toList i ↔
        i = 0 ∨ i + 4 = (between body).toList.length) ↔ ¬ fence <:+: body.toList := by
  constructor
  · intro honly hbody
    obtain ⟨j, hj⟩ := infix_iff_standsAt.mp hbody
    -- A place in the body is behind the first line and in front of the last.
    have hle : j + 3 ≤ body.toList.length := hj.add_length_le fence_ne_nil
    have hlength := length_between body
    rcases (honly (11 + j)).mp ((standsAt_between body _).mpr (.inr ⟨j, hj, rfl⟩)) with h | h
    · omega
    · omega
  · intro hbody i
    rw [standsAt_between]
    constructor
    · rintro (h | ⟨j, hj, -⟩)
      · exact h
      · exact absurd (infix_iff_standsAt.mpr ⟨j, hj⟩) hbody
    · exact .inl

/-! ### Replies -/

/-- A reply that opens a drawing is cut before the next fence. -/
theorem not_infix_cut {reply : List Char} {start stop : Nat}
    (h : fence? reply = some (start, some stop)) :
    ¬ fence <:+: Chars.trim ((reply.take stop).drop (start + 10)) := by
  obtain ⟨start', -, heq⟩ := Option.map_eq_some_iff.mp h
  obtain ⟨rfl, hstop⟩ := Prod.mk.inj heq
  obtain ⟨length, hfind, rfl⟩ := Option.map_eq_some_iff.mp hstop
  have hcut : (reply.take (length + (start' + 10))).drop (start' + 10)
      = (reply.drop (start' + 10)).take length := by
    rw [List.drop_take, Nat.add_sub_cancel]
  rw [hcut]
  intro hfence
  exact not_infix_take fence_ne_nil hfind (hfence.trans (trimOf_isInfix _ _))

/-- The drawing of a reply is made from what stands behind its own opening fence, which holds no
other fence, or else from the whole reply. -/
theorem of_ofReply {reply : String} (h : ofReply .guarded reply = some text) :
    ∃ code, fenced code = some text ∧
      (Text.contains reply "```mermaid" = true ∧ ¬ fence <:+: code.toList ∨
        Text.contains reply "```mermaid" = false ∧ code = reply) := by
  unfold ofReply at h
  dsimp only at h
  have hopens : Text.contains reply "```mermaid" = (fence? reply.toList).isSome := by
    rw [fence?, Option.isSome_map]
    rfl
  rw [hopens]
  cases hplace : fence? reply.toList with
  | none =>
    rw [hplace] at h
    dsimp only at h
    split at h
    · exact ⟨reply, h, .inr ⟨rfl, rfl⟩⟩
    · cases h
  | some place =>
    obtain ⟨start, stop?⟩ := place
    rw [hplace] at h
    cases stop? with
    | none => cases h
    | some stop =>
      dsimp only at h
      split at h
      · refine ⟨_, h, .inl ⟨rfl, ?_⟩⟩
        rw [String.toList_ofList]
        exact not_infix_cut hplace
      · cases h

/-- A drawing that a model was asked for comes from its reply to the question about the file. -/
theorem of_askedSequence {ask : Document.Ask Id} {on : Bool} {facts : Value} {code : List Char}
    (h : (Document.askedSequence ask on facts code).run = .ok (some text)) :
    ∃ question reply, prompt facts code = .ok (some question) ∧
      (ask ⟨question, systemPrompt⟩).run = .ok (.text reply) ∧
      ofReply .guarded reply = some text := by
  unfold Document.askedSequence at h
  split at h
  · cases h
  · split at h
    · rename_i question hprompt
      have hattempt (p : Prompt) : (Document.attempt (ask p)).run = .ok (ask p).run := rfl
      rw [Document.run_bind_ok (hattempt _)] at h
      split at h
      · rename_i reply hreply
        exact ⟨question, reply, hprompt, hreply, Except.ok.inj h⟩
      · cases h
    · cases h

/-- **A drawing that a model was asked for.**  It is a text between the lines of its own fences.
These are its only fences exactly if the reply opened a drawing itself, or no line that cleaning
keeps of the reply has a fence when it is clean.  A line has one then only if it had one before, so
with a reply without fences nothing can go wrong either. -/
theorem asked_drawing_fences (ask : Document.Ask Id) (on : Bool) (facts : Value) (code : List Char)
    (text : String) (h : (Document.askedSequence ask on facts code).run = .ok (some text)) :
    ∃ question reply body, prompt facts code = .ok (some question) ∧
      (ask ⟨question, systemPrompt⟩).run = .ok (.text reply) ∧
      text = "```mermaid\n" ++ body ++ "\n```\n" ∧
      ((∀ i, StandsAt fence text.toList i ↔ i = 0 ∨ i + 4 = text.toList.length) ↔
        Text.contains reply "```mermaid" = true ∨
          ∀ line ∈ keptLines reply.toList, ¬ fence <:+: cleanLine line) ∧
      ∀ line ∈ keptLines reply.toList, fence <:+: cleanLine line →
        fence <:+: line ∧ line <:+: reply.toList := by
  obtain ⟨question, reply, hprompt, hreply, hdrawing⟩ := of_askedSequence h
  obtain ⟨source, hfenced, hsource⟩ := of_ofReply hdrawing
  obtain rfl := fenced_eq_some hfenced
  refine ⟨question, reply, clean source, hprompt, hreply, rfl, ?_, ?_⟩
  · rw [fences_of_drawing]
    rcases hsource with ⟨hopens, hbare⟩ | ⟨hopens, rfl⟩
    · exact iff_of_true (fun hfence => hbare (infix_of_clean hfence)) (.inl hopens)
    · rw [infix_clean_iff, hopens]
      simp
  · intro line hline hfence
    exact ⟨infix_of_cleanLine hfence, infix_of_mem_keptLines hline⟩

def oneClass : Value := .record [("classes", .list [.record [("name", .text "A")]])]

/-- A model that gives the same reply to every question. -/
def replies (reply : String) : Document.Ask Id := fun _ => pure (.text reply)

theorem run_askedSequence_replies (reply : String) :
    (Document.askedSequence (replies reply) true oneClass []).run
      = .ok (ofReply .guarded reply) := by
  have hprompt : ∃ question, prompt oneClass [] = .ok (some question) := ⟨_, rfl⟩
  obtain ⟨question, hprompt⟩ := hprompt
  rw [Document.askedSequence, hprompt]
  rfl

theorem own_fence_cut :
    (Document.askedSequence (replies "```mermaid\nsequenceDiagram\nparticipant A\n```\n```")
        true oneClass []).run
      = .ok (some "```mermaid\nsequenceDiagram\nparticipant A\n```\n") ∧
      ∀ i, StandsAt fence "```mermaid\nsequenceDiagram\nparticipant A\n```\n".toList i ↔
        i = 0 ∨ i + 4 = "```mermaid\nsequenceDiagram\nparticipant A\n```\n".toList.length := by
  have hreply : ofReply .guarded "```mermaid\nsequenceDiagram\nparticipant A\n```\n```"
      = some "```mermaid\nsequenceDiagram\nparticipant A\n```\n" := by decide
  have h := run_askedSequence_replies "```mermaid\nsequenceDiagram\nparticipant A\n```\n```"
  rw [hreply] at h
  obtain ⟨question, reply, body, -, hreply, -, hfences, -⟩ := asked_drawing_fences _ _ _ _ _ h
  refine ⟨h, hfences.mpr (.inl ?_)⟩
  obtain rfl := Value.text.inj (Except.ok.inj hreply)
  decide

/-- **A fence that is kept.**  A reply between fences without the name of a drawing is put between
other fences as it is, and the first of its own ends the drawing before it has begun. -/
theorem other_fence_kept :
    ∃ text, (Document.askedSequence (replies "```\nsequenceDiagram\nparticipant A\n```") true
        oneClass []).run = .ok (some text) ∧
      text = "```mermaid\n```\nsequenceDiagram\nparticipant A\n```\n```\n" ∧
      StandsAt fence text.toList 11 ∧ 11 + 4 ≠ text.toList.length := by
  have hreply : ofReply .guarded "```\nsequenceDiagram\nparticipant A\n```"
      = some "```mermaid\n```\nsequenceDiagram\nparticipant A\n```\n```\n" := by decide
  refine ⟨_, ?_, rfl, by decide, by decide⟩
  rw [run_askedSequence_replies, hreply]

end CodeScribe.ClassSequence
