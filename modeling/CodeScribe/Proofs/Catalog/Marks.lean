import CodeScribe.Catalog.Sequence
import CodeScribe.Proofs.Text.Case
import Mathlib.Data.List.Basic

/-!
# The marks of a sequence drawing

A drawing is a list of lines, and each line between its fences is one mark: it declares a
participant, draws an arrow, opens or closes a bar, or puts a note over a participant.  This file
reads the marks back from the lines and says what a well-formed drawing is.
-/

namespace CodeScribe.Catalog

open Text Pattern

/-! ### Words in steps -/

/-- A steady word is mentioned exactly if neighbouring characters spell it in some case. -/
theorem mentions_iff {s word : String} (hw : Steady word.toList) :
    mentions s word = true ↔ word.toList <:+: s.toList.map lowerChar := by
  rw [mentions, Text.contains, Chars.contains_iff_infix, ← infix_lowerChars hw, Text.lower,
    String.toList_ofList]

theorem mentions_of_occursIn {p : Pattern} {s v word : String} {a b : List Char}
    (h : (p ++ litAnyCase v).occursIn s.toList = true) (hv : v.toList = a ++ b) (hb : Single b)
    (hlow : b.map lowerChar = word.toList) (hw : Steady word.toList) : mentions s word = true := by
  rw [mentions_iff hw, ← hlow]
  exact infix_of_occursIn h hv hb

namespace Sequence

theorem mentions_queue_of_mem_consumerNames {steps : List String} {name : String}
    (h : name ∈ consumerNames steps) : steps.any (mentions · "queue") = true := by
  have hname : name ∈ steps.filterMap fun s =>
      (consumerStepPattern.find? s.toList).map (·.get 1) :=
    (List.mem_filter.mp (List.mem_eraseDups.mp h)).1
  obtain ⟨s, hs, hm⟩ := List.mem_filterMap.mp hname
  obtain ⟨m, hm, -⟩ := Option.map_eq_some_iff.mp hm
  refine List.any_eq_true.mpr ⟨s, hs, ?_⟩
  exact mentions_of_occursIn (v := "reads queue") (a := "reads ".toList) (b := "queue".toList)
    (Option.isSome_iff_exists.mpr ⟨m, hm⟩) (by decide) (by decide) (by decide)
    (by decide)

theorem touchesDatabase_of_readsDatabase {steps : List String} {name : String}
    (h : readsDatabase name steps = true) : touchesDatabase steps = true := by
  obtain ⟨s, hs, hoccurs⟩ := List.any_eq_true.mp h
  refine List.any_eq_true.mpr ⟨s, hs, ?_⟩
  exact mentions_of_occursIn (v := "reads DB") (a := "reads ".toList) (b := "DB".toList) hoccurs
    (by decide) (by decide) (by decide) (by decide)

/-! ### Reading marks -/

/-- What a line of a drawing says. -/
inductive Mark where
  | participant (id : String)
  | arrow (source target : String)
  | activate (id : String)
  | deactivate (id : String)
  | note (id : String)
  deriving DecidableEq

namespace Mark

/-- A word, and what stands behind it. -/
def word? (cs : List Char) : Option (String × List Char) :=
  if cs.takeWhile isWord = [] then none
  else some (String.ofList (cs.takeWhile isWord), cs.dropWhile isWord)

def wordBefore (ending : List Char → Bool) (cs : List Char) : Option String :=
  (word? cs).bind fun (w, rest) => if ending rest then some w else none

/-- The text of an arrow or a note stands behind a colon. -/
def hasText (cs : List Char) : Bool := ": ".toList.isPrefixOf cs

/-- A label stands behind a word of its own, or there is none. -/
def mayHaveLabel (cs : List Char) : Bool := cs.isEmpty || " as ".toList.isPrefixOf cs

def ofKeyword (keyword : String) (rest : List Char) : Option Mark :=
  if keyword = "participant" then (wordBefore mayHaveLabel rest).map participant
  else if keyword = "activate" then (wordBefore List.isEmpty rest).map activate
  else if keyword = "deactivate" then (wordBefore List.isEmpty rest).map deactivate
  else if keyword = "Note" then
    (rest.dropPrefix? "over ".toList).bind fun rest => (wordBefore hasText rest).map note
  else none

def ofWord (first : String) : List Char → Option Mark
  | ' ' :: rest => ofKeyword first rest
  | '-' :: '>' :: '>' :: rest => (wordBefore hasText rest).map (arrow first)
  | '-' :: '-' :: '>' :: '>' :: rest => (wordBefore hasText rest).map (arrow first)
  | _ => none

/-- The mark of a line, which stands two blanks from the margin. -/
def ofLine (line : String) : Option Mark :=
  (line.toList.dropPrefix? "  ".toList).bind fun body =>
    (word? body).bind fun (first, rest) => ofWord first rest

def declared? : Mark → Option String
  | participant id => some id
  | _ => none

def uses : Mark → List String
  | participant _ => []
  | arrow source target => [source, target]
  | activate id | deactivate id | note id => [id]

def isBar : Mark → Bool
  | activate _ | deactivate _ => true
  | _ => false

section Reading

variable {id source target : String} {rest : List Char}

theorem word?_append (hid : MadeOf isWord id) (hrest : rest.head?.any isWord = false) :
    word? (id.toList ++ rest) = some (id, rest) := by
  have htake : rest.takeWhile isWord = [] := by
    cases rest with
    | nil => rfl
    | cons c rest => exact List.takeWhile_cons_of_neg (by simpa using hrest)
  have hdrop : rest.dropWhile isWord = rest := by
    cases rest with
    | nil => rfl
    | cons c rest => exact List.dropWhile_cons_of_neg (by simpa using hrest)
  rw [word?, List.takeWhile_append_of_pos hid.2, List.dropWhile_append_of_pos hid.2, htake, hdrop,
    List.append_nil, if_neg hid.1, String.ofList_toList]

theorem wordBefore_append {ending : List Char → Bool} (hid : MadeOf isWord id)
    (hrest : rest.head?.any isWord = false) (hending : ending rest = true) :
    wordBefore ending (id.toList ++ rest) = some id := by
  rw [wordBefore, word?_append hid hrest, Option.bind_some]
  exact if_pos hending

theorem wordBefore_hasText (hid : MadeOf isWord id) (text : List Char) :
    wordBefore hasText (id.toList ++ ':' :: ' ' :: text) = some id :=
  wordBefore_append hid (show isWord ':' = false by decide) rfl

/-- An identifier at the end of a line. -/
theorem wordBefore_isEmpty (hid : MadeOf isWord id) :
    wordBefore List.isEmpty id.toList = some id := by
  have h : wordBefore List.isEmpty (id.toList ++ []) = some id := wordBefore_append hid rfl rfl
  rwa [List.append_nil] at h

theorem ofLine_append {line first : String}
    (hline : line.toList = ' ' :: ' ' :: (first.toList ++ rest)) (hfirst : MadeOf isWord first)
    (hrest : rest.head?.any isWord = false) : ofLine line = ofWord first rest := by
  have hbody : line.toList.dropPrefix? "  ".toList = some (first.toList ++ rest) := by
    have hindent : ([' ', ' '] == "  ".toList) = true := by decide
    rw [hline]
    exact List.dropPrefix?_append_of_beq _ hindent
  rw [ofLine, hbody, Option.bind_some, word?_append hfirst hrest, Option.bind_some]

theorem ofLine_keyword {line : String} (keyword : String) (hkeyword : MadeOf isWord keyword)
    (hline : line.toList = ' ' :: ' ' :: (keyword.toList ++ ' ' :: rest)) :
    ofLine line = ofKeyword keyword rest :=
  ofLine_append hline hkeyword (show isWord ' ' = false by decide)

theorem ofLine_participant (hid : MadeOf isWord id) (label : String) :
    ofLine (participantLine id label) = some (participant id) := by
  obtain ⟨ending, hline, hword, hlabel⟩ : ∃ ending, (participantLine id label).toList =
      ' ' :: ' ' :: ("participant".toList ++ ' ' :: (id.toList ++ ending)) ∧
      ending.head?.any isWord = false ∧ mayHaveLabel ending = true := by
    by_cases hlabel : label = ""
    · exact ⟨[], by simp [participantLine, hlabel], rfl, rfl⟩
    · refine ⟨' ' :: 'a' :: 's' :: ' ' :: label.toList, ?_, show isWord ' ' = false by decide, rfl⟩
      simp [participantLine, hlabel]
  rw [ofLine_keyword "participant" (by decide) hline, ofKeyword, if_pos rfl,
    wordBefore_append hid hword hlabel, Option.map_some]

theorem ofLine_activate (hid : MadeOf isWord id) :
    ofLine ("  activate " ++ id) = some (activate id) := by
  have hline : ("  activate " ++ id).toList =
      ' ' :: ' ' :: ("activate".toList ++ ' ' :: id.toList) := by simp
  rw [ofLine_keyword "activate" (by decide) hline, ofKeyword, if_neg (by decide),
    if_pos rfl, wordBefore_isEmpty hid, Option.map_some]

theorem ofLine_deactivate (hid : MadeOf isWord id) :
    ofLine ("  deactivate " ++ id) = some (deactivate id) := by
  have hline : ("  deactivate " ++ id).toList =
      ' ' :: ' ' :: ("deactivate".toList ++ ' ' :: id.toList) := by simp
  rw [ofLine_keyword "deactivate" (by decide) hline, ofKeyword, if_neg (by decide),
    if_neg (by decide), if_pos rfl, wordBefore_isEmpty hid, Option.map_some]

theorem ofLine_note (hid : MadeOf isWord id) (text : String) :
    ofLine ("  Note over " ++ id ++ ": " ++ text) = some (note id) := by
  have hline : ("  Note over " ++ id ++ ": " ++ text).toList = ' ' :: ' ' :: ("Note".toList ++
      ' ' :: ("over ".toList ++ (id.toList ++ ':' :: ' ' :: text.toList))) := by simp
  rw [ofLine_keyword "Note" (by decide) hline, ofKeyword, if_neg (by decide),
    if_neg (by decide), if_neg (by decide), if_pos rfl,
    List.dropPrefix?_append_of_beq _ (beq_self_eq_true _), Option.bind_some,
    wordBefore_hasText hid, Option.map_some]

theorem ofLine_arrow (hsource : MadeOf isWord source) (htarget : MadeOf isWord target)
    (text : String) : ofLine (Sequence.arrow source target text) = some (arrow source target) := by
  have hline : (Sequence.arrow source target text).toList = ' ' :: ' ' :: (source.toList ++
      '-' :: '>' :: '>' :: (target.toList ++ ':' :: ' ' :: text.toList)) := by
    simp [Sequence.arrow]
  rw [ofLine_append hline hsource (show isWord '-' = false by decide), ofWord,
    wordBefore_hasText htarget, Option.map_some]

theorem ofLine_answer (hsource : MadeOf isWord source) (htarget : MadeOf isWord target)
    (text : String) : ofLine (Sequence.answer source target text) = some (arrow source target) := by
  have hline : (Sequence.answer source target text).toList = ' ' :: ' ' :: (source.toList ++
      '-' :: '-' :: '>' :: '>' :: (target.toList ++ ':' :: ' ' :: text.toList)) := by
    simp [Sequence.answer]
  rw [ofLine_append hline hsource (show isWord '-' = false by decide), ofWord,
    wordBefore_hasText htarget, Option.map_some]

end Reading

end Mark

theorem madeOf_partId (name : String) : MadeOf isWord (partId name) := by
  rw [partId, CallGraph.nodeId]
  split
  · decide
  · rename_i hne
    refine ⟨fun hnil => hne (by simpa using hnil), ?_⟩
    intro c hc
    rw [String.toList_ofList] at hc
    obtain ⟨d, -, rfl⟩ := List.mem_map.mp (List.mem_of_mem_take hc)
    split
    · assumption
    · decide

/-- The marks of a drawing: between its fences, every line is a mark. -/
def marksOf (lines : List String) : Option (List Mark) :=
  if lines.take 2 = ["```mermaid", "sequenceDiagram"] ∧ lines.getLast? = some "```" then
    (lines.drop 2).dropLast.mapM Mark.ofLine
  else none

abbrev ReadAs (lines : List String) (marks : List Mark) : Prop :=
  List.Forall₂ (fun line mark => Mark.ofLine line = some mark) lines marks

theorem marksOf_fenced {drawn : List String} {marks : List Mark} (h : ReadAs drawn marks) :
    marksOf (["```mermaid", "sequenceDiagram"] ++ drawn ++ ["```"]) = some marks := by
  have hmarks : drawn.mapM Mark.ofLine = some marks := by
    induction h with
    | nil => rfl
    | cons hline _ ih => simp [hline, ih]
  have hdrawn : (drawn ++ ["```"]).dropLast = drawn := List.dropLast_concat
  rw [marksOf, if_pos ⟨rfl, List.getLast?_concat⟩, ← hmarks]
  exact congrArg (List.mapM Mark.ofLine) hdrawn

/-! ### Well-formed drawings -/

/-- Bars that are closed in the reverse of the order in which they were opened. -/
inductive Nested : List Mark → Prop
  | nil : Nested []
  | mark {m : Mark} {marks : List Mark} : m.isBar = false → Nested marks → Nested (m :: marks)
  | bar {id : String} {inner marks : List Mark} : Nested inner → Nested marks →
      Nested (.activate id :: (inner ++ .deactivate id :: marks))

theorem Nested.append {as bs : List Mark} (ha : Nested as) (hb : Nested bs) :
    Nested (as ++ bs) := by
  induction ha with
  | nil => exact hb
  | mark hm _ ih => exact .mark hm ih
  | bar hinner _ _ ih =>
    rw [List.cons_append, List.append_assoc, List.cons_append]
    exact .bar hinner ih

theorem Nested.of_forall {marks : List Mark} (h : ∀ m ∈ marks, m.isBar = false) : Nested marks := by
  induction marks with
  | nil => exact .nil
  | cons m marks ih =>
    exact .mark (h m List.mem_cons_self) (ih fun x hx => h x (List.mem_cons_of_mem _ hx))

/-- Participants are declared once, and before they are used; bars are nested. -/
structure WellFormed (marks : List Mark) : Prop where
  declaredOnce : (marks.filterMap (·.declared?)).Nodup
  declaredBefore : ∀ before m after, marks = before ++ m :: after →
    ∀ id ∈ m.uses, .participant id ∈ before
  nested : Nested marks

/-- Lines that use known participants only, declare none, and close the bars that they open. -/
def Block (known lines : List String) : Prop :=
  ∃ marks, ReadAs lines marks ∧ Nested marks ∧
    ∀ m ∈ marks, m.declared? = none ∧ ∀ id ∈ m.uses, id ∈ known

namespace Block

variable {known : List String} {ls ls' : List String}

theorem nil : Block known [] := ⟨[], .nil, .nil, by simp⟩

theorem append (h : Block known ls) (h' : Block known ls') : Block known (ls ++ ls') := by
  obtain ⟨marks, hread, hnested, huses⟩ := h
  obtain ⟨marks', hread', hnested', huses'⟩ := h'
  refine ⟨marks ++ marks', List.rel_append hread hread', hnested.append hnested', ?_⟩
  intro m hm
  exact (List.mem_append.mp hm).elim (huses m) (huses' m)

theorem when' {condition : Bool} (h : condition = true → Block known ls) :
    Block known (when' condition ls) := by
  cases condition with
  | false => exact nil
  | true => exact h rfl

theorem flatMap {names : List String} {f : String → List String}
    (h : ∀ n ∈ names, Block known (f n)) : Block known (names.flatMap f) := by
  induction names with
  | nil => exact nil
  | cons n names ih =>
    rw [List.flatMap_cons]
    exact (h n List.mem_cons_self).append (ih fun m hm => h m (List.mem_cons_of_mem _ hm))

theorem line {l : String} {m : Mark} (hl : Mark.ofLine l = some m) (hbar : m.isBar = false)
    (hdeclared : m.declared? = none) (huses : ∀ id ∈ m.uses, id ∈ known) : Block known [l] :=
  ⟨[m], .cons hl .nil, .mark hbar .nil, by simpa using ⟨hdeclared, huses⟩⟩

theorem bar {id : String} (hid : MadeOf isWord id) (hknown : id ∈ known) (h : Block known ls) :
    Block known (("  activate " ++ id) :: (ls ++ ["  deactivate " ++ id])) := by
  obtain ⟨marks, hread, hnested, huses⟩ := h
  refine ⟨.activate id :: (marks ++ [.deactivate id]),
    .cons (Mark.ofLine_activate hid)
      (List.rel_append hread (.cons (Mark.ofLine_deactivate hid) .nil)), .bar hnested .nil, ?_⟩
  intro m hm
  simp only [List.mem_cons, List.mem_append, List.not_mem_nil, or_false] at hm
  rcases hm with rfl | hm | rfl
  · exact ⟨rfl, by simpa [Mark.uses] using hknown⟩
  · exact huses m hm
  · exact ⟨rfl, by simpa [Mark.uses] using hknown⟩

variable {source target : String} (hsource : MadeOf isWord source) (htarget : MadeOf isWord target)
  (hfrom : source ∈ known) (hto : target ∈ known) (question reply : String)

include hsource htarget hfrom hto

theorem arrow : Block known [arrow source target question] :=
  line (Mark.ofLine_arrow hsource htarget question) rfl rfl (by simp [Mark.uses, hfrom, hto])

theorem answer : Block known [answer source target reply] :=
  line (Mark.ofLine_answer hsource htarget reply) rfl rfl (by simp [Mark.uses, hfrom, hto])

theorem exchange :
    Block known [Sequence.arrow source target question, Sequence.answer target source reply] :=
  (arrow hsource htarget hfrom hto question).append (answer htarget hsource hto hfrom reply)

/-- A participant works on a question until it has answered. -/
theorem call (h : Block known ls) :
    Block known ([Sequence.arrow source target question, "  activate " ++ target] ++ ls ++
      [Sequence.answer target source reply, "  deactivate " ++ target]) := by
  have hinner := h.append (answer htarget hsource hto hfrom reply)
  have hcall := (arrow hsource htarget hfrom hto question).append (bar htarget hto hinner)
  simpa using hcall

end Block

/-! ### Declared participants -/

/-- The participants that are declared, each at its first place. -/
def firstParts (seen : List String) : List (String × String) → List (String × String)
  | [] => []
  | (id, label) :: parts =>
    if seen.contains id then firstParts seen parts
    else (id, label) :: firstParts (id :: seen) parts

def declareStep (st : List String × List String) (part : String × String) :
    List String × List String :=
  if st.1.contains part.1 then st else (part.1 :: st.1, participantLine part.1 part.2 :: st.2)

theorem foldl_declareStep (parts : List (String × String)) (seen out : List String) :
    (parts.foldl declareStep (seen, out)).2.reverse =
      out.reverse ++ (firstParts seen parts).map fun part => participantLine part.1 part.2 := by
  induction parts generalizing seen out with
  | nil => simp [firstParts]
  | cons part parts ih =>
    rw [List.foldl_cons, firstParts, declareStep]
    split
    · exact ih seen out
    · rw [ih]
      simp

theorem declare_eq (parts : List (String × String)) :
    declare parts = (firstParts ["Client"] parts).map fun part => participantLine part.1 part.2 :=
  foldl_declareStep parts ["Client"] []

theorem mem_ids_firstParts {parts : List (String × String)} {seen : List String} {id : String} :
    id ∈ (firstParts seen parts).map (·.1) ↔ id ∉ seen ∧ id ∈ parts.map (·.1) := by
  induction parts generalizing seen with
  | nil => simp [firstParts]
  | cons part parts ih =>
    rw [firstParts]
    split
    · rename_i hseen
      rw [ih, List.map_cons, List.mem_cons]
      grind
    · rename_i hseen
      rw [List.map_cons, List.map_cons, List.mem_cons, List.mem_cons, ih]
      grind

theorem nodup_ids_firstParts (seen : List String) (parts : List (String × String)) :
    ((firstParts seen parts).map (·.1)).Nodup := by
  induction parts generalizing seen with
  | nil => exact List.nodup_nil
  | cons part parts ih =>
    rw [firstParts]
    split
    · exact ih seen
    · refine List.nodup_cons.mpr ⟨fun hmem => ?_, ih _⟩
      exact (mem_ids_firstParts.mp hmem).1 List.mem_cons_self

theorem readAs_participants {parts : List (String × String)}
    (hparts : ∀ id ∈ parts.map (·.1), MadeOf isWord id) :
    ReadAs (parts.map fun part => participantLine part.1 part.2)
      ((parts.map (·.1)).map Mark.participant) := by
  rw [List.map_map]
  refine List.forall₂_map_left_iff.mpr (List.forall₂_map_right_iff.mpr (List.forall₂_same.mpr ?_))
  exact fun part hpart => Mark.ofLine_participant (hparts _ (List.mem_map_of_mem hpart)) part.2

/-- Declarations in front of marks that use what they declare make a well-formed drawing. -/
theorem WellFormed.of_declared {ids : List String} {body : List Mark} (hids : ids.Nodup)
    (hnested : Nested body)
    (hbody : ∀ m ∈ body, m.declared? = none ∧ ∀ id ∈ m.uses, id ∈ ids) :
    WellFormed (ids.map Mark.participant ++ body) where
  declaredOnce := by
    have hnone : body.filterMap (·.declared?) = [] :=
      List.filterMap_eq_nil_iff.mpr fun m hm => (hbody m hm).1
    have hself : (ids.map Mark.participant).filterMap (·.declared?) = ids := by
      simp [List.filterMap_map, Mark.declared?]
    rwa [List.filterMap_append, hself, hnone, List.append_nil]
  declaredBefore := by
    intro before m after hmarks id hid
    -- Declarations use nothing, so the mark stands in the body, behind all of them.
    obtain ⟨between, rfl, rfl⟩ : ∃ between, before = ids.map Mark.participant ++ between ∧
        body = between ++ m :: after := by
      rcases List.append_eq_append_iff.mp hmarks with ⟨between, hbefore, hrest⟩ | ⟨cs, hdecl, hrest⟩
      · exact ⟨between, hbefore, hrest⟩
      · cases cs with
        | nil => exact ⟨[], by simpa using hdecl.symm, by simpa using hrest.symm⟩
        | cons m' cs =>
          obtain ⟨rfl, -⟩ := List.cons.inj hrest
          have hm : m ∈ ids.map Mark.participant := by simp [hdecl]
          obtain ⟨id', -, rfl⟩ := List.mem_map.mp hm
          cases hid
    have hmem : id ∈ ids := (hbody m (by simp)).2 id hid
    exact List.mem_append_left _ (List.mem_map_of_mem hmem)
  nested := by
    refine (Nested.of_forall fun m hm => ?_).append hnested
    obtain ⟨id, -, rfl⟩ := List.mem_map.mp hm
    rfl

/-! ### The drawing of a request -/

@[simp] theorem Activity.database_ofSteps (steps : List String) :
    (Activity.ofSteps steps).database = touchesDatabase steps := rfl

@[simp] theorem Activity.consumers_ofSteps (steps : List String) :
    (Activity.ofSteps steps).consumers = consumerNames steps := rfl

@[simp] theorem Activity.queue_ofSteps (steps : List String) : (Activity.ofSteps steps).queue =
    (!(messageNames steps).isEmpty || steps.any (mentions · "queue")) := rfl

structure Activity.Complete (a : Activity) : Prop where
  queue : ∀ name ∈ a.consumers, a.queue = true
  database : ∀ name, readsDatabase name a.steps = true → a.database = true

theorem Activity.complete_ofSteps (steps : List String) : (Activity.ofSteps steps).Complete where
  queue name hname := by
    rw [Activity.queue_ofSteps, mentions_queue_of_mem_consumerNames hname, Bool.or_true]
  database name := touchesDatabase_of_readsDatabase

/-- The participants that the drawing of a request declares. -/
def declaredParts (controller : String) (dependencies : List String) (a : Activity) :
    List (String × String) :=
  ("Client", "") :: firstParts ["Client"] (participants (some controller) dependencies a)

/-- The identifiers of these participants. -/
def declaredIds (controller : String) (dependencies : List String) (a : Activity) : List String :=
  (declaredParts controller dependencies a).map (·.1)

section Request

variable {controller : String} {dependencies : List String} {a : Activity}

theorem mem_ids_participants {id : String} :
    id ∈ (participants (some controller) dependencies a).map (·.1) ↔
      (∃ n ∈ controller :: dependencies, id = partId n) ∨
      (id = "Database" ∧ a.database = true) ∨ (id = "MessageBroker" ∧ a.queue = true) ∨
      ∃ n ∈ a.consumers, id = partId n := by
  have hnamed (names : List String) :
      id ∈ (names.map fun n => (partId n, n)).map (·.1) ↔ ∃ n ∈ names, id = partId n := by
    rw [List.map_map, List.mem_map]
    simp only [Function.comp_apply, eq_comm]
  have hgiven (given : Bool) (name : String) :
      id ∈ (if given then [(name, "")] else []).map (·.1) ↔ id = name ∧ given = true := by
    cases given <;> simp
  rw [participants, List.map_append, List.map_append, List.map_append, List.mem_append,
    List.mem_append, List.mem_append, hnamed, hgiven, hgiven, hnamed, or_assoc, or_assoc]
  rfl

theorem mem_declaredIds {id : String} :
    id ∈ declaredIds controller dependencies a ↔ id = "Client" ∨
      (∃ n ∈ controller :: dependencies, id = partId n) ∨
      (id = "Database" ∧ a.database = true) ∨ (id = "MessageBroker" ∧ a.queue = true) ∨
      ∃ n ∈ a.consumers, id = partId n := by
  rw [declaredIds, declaredParts, List.map_cons, List.mem_cons, mem_ids_firstParts,
    mem_ids_participants, List.mem_singleton]
  by_cases hclient : id = "Client"
  · exact iff_of_true (.inl hclient) (.inl hclient)
  · rw [and_iff_right hclient]

theorem client_mem_declaredIds : "Client" ∈ declaredIds controller dependencies a :=
  List.mem_cons_self

theorem component_mem_declaredIds {n : String} (hn : n ∈ controller :: dependencies) :
    partId n ∈ declaredIds controller dependencies a :=
  mem_declaredIds.mpr (.inr (.inl ⟨n, hn, rfl⟩))

theorem database_mem_declaredIds (h : a.database = true) :
    "Database" ∈ declaredIds controller dependencies a :=
  mem_declaredIds.mpr (.inr (.inr (.inl ⟨rfl, h⟩)))

theorem broker_mem_declaredIds (h : a.queue = true) :
    "MessageBroker" ∈ declaredIds controller dependencies a :=
  mem_declaredIds.mpr (.inr (.inr (.inr (.inl ⟨rfl, h⟩))))

theorem consumer_mem_declaredIds {n : String} (hn : n ∈ a.consumers) :
    partId n ∈ declaredIds controller dependencies a :=
  mem_declaredIds.mpr (.inr (.inr (.inr (.inr ⟨n, hn, rfl⟩))))

theorem nodup_declaredIds : (declaredIds controller dependencies a).Nodup :=
  List.nodup_cons.mpr ⟨fun h => (mem_ids_firstParts.mp h).1 (List.mem_singleton.mpr rfl),
    nodup_ids_firstParts _ _⟩

theorem madeOf_of_mem_declaredIds {id : String}
    (h : id ∈ declaredIds controller dependencies a) : MadeOf isWord id := by
  rcases mem_declaredIds.mp h with rfl | ⟨n, -, rfl⟩ | ⟨rfl, -⟩ | ⟨rfl, -⟩ | ⟨n, -, rfl⟩
  · decide
  · exact madeOf_partId n
  · decide
  · decide
  · exact madeOf_partId n

variable {id : String} (hid : id ∈ declaredIds controller dependencies a)

include hid

theorem block_dataLines (h : a.database = true) :
    Block (declaredIds controller dependencies a) (dataLines id) :=
  have hdatabase := database_mem_declaredIds h
  .exchange (madeOf_of_mem_declaredIds hid) (madeOf_of_mem_declaredIds hdatabase) hid hdatabase _ _

theorem block_publishLines (h : a.queue = true) (label : String) :
    Block (declaredIds controller dependencies a) (publishLines id label) :=
  have hbroker := broker_mem_declaredIds h
  .exchange (madeOf_of_mem_declaredIds hid) (madeOf_of_mem_declaredIds hbroker) hid hbroker _ _

theorem block_call {target : String} {ls : List String}
    (htarget : target ∈ declaredIds controller dependencies a)
    (h : Block (declaredIds controller dependencies a) ls) (question reply : String) :
    Block (declaredIds controller dependencies a)
      ([arrow id target question, "  activate " ++ target] ++ ls ++
        [answer target id reply, "  deactivate " ++ target]) :=
  h.call (madeOf_of_mem_declaredIds hid) (madeOf_of_mem_declaredIds htarget) hid htarget _ _

theorem block_dependencyLines {name : String} (hname : name ∈ dependencies) :
    Block (declaredIds controller dependencies a) (dependencyLines id a name) := by
  have hpart : partId name ∈ declaredIds controller dependencies a :=
    component_mem_declaredIds (List.mem_cons_of_mem controller hname)
  have hinner : Block (declaredIds controller dependencies a)
      (when' (a.database && keepsData name) (dataLines (partId name)) ++
        when' (a.queue && passesMessages name)
          (publishLines (partId name) (messageLabel "Publish" a.messages))) := by
    refine .append (.when' fun h => ?_) (.when' fun h => ?_)
    · exact block_dataLines hpart (Bool.and_eq_true_iff.mp h).1
    · exact block_publishLines hpart (Bool.and_eq_true_iff.mp h).1 _
  have hcall := block_call hid hpart hinner (actionOf name a.database a.queue a.messages) "Result"
  rwa [← List.append_assoc] at hcall

omit hid

theorem block_consumerLines (ha : a.Complete) {name : String} (hname : name ∈ a.consumers) :
    Block (declaredIds controller dependencies a) (consumerLines a name) := by
  have hqueue := ha.queue name hname
  have hpart : partId name ∈ declaredIds controller dependencies a :=
    consumer_mem_declaredIds hname
  have hinner : Block (declaredIds controller dependencies a)
      (when' (readsDatabase name a.steps) (dataLines (partId name)) ++
        when' (!(a.publishes.listOf name).isEmpty) (publishLines (partId name)
          ("Publish " ++ Text.join ", " (a.publishes.listOf name)))) := by
    refine .append (.when' fun h => ?_) (.when' fun _ => ?_)
    · exact block_dataLines hpart (ha.database name h)
    · exact block_publishLines hpart hqueue _
  have hcall := block_call (broker_mem_declaredIds hqueue) hpart hinner
    (messageLabel "Deliver" a.messages) "Ack"
  rwa [← List.append_assoc] at hcall

theorem block_requestLines (ha : a.Complete) (label : String) :
    Block (declaredIds controller dependencies a)
      (requestLines controller dependencies label a) := by
  have hpart : partId controller ∈ declaredIds controller dependencies a :=
    component_mem_declaredIds List.mem_cons_self
  have hinner : Block (declaredIds controller dependencies a)
      (dependencies.flatMap (dependencyLines (partId controller) a) ++
        when' (dependencies.isEmpty && a.database) (dataLines (partId controller)) ++
        when' (dependencies.isEmpty && a.queue)
          (publishLines (partId controller) (messageLabel "Publish" a.messages)) ++
        a.consumers.flatMap (consumerLines a) ++
        when' (!(remainingSteps a.steps).isEmpty)
          ["  Note over " ++ partId controller ++ ": " ++
            Text.join " | " (remainingSteps a.steps)]) := by
    refine .append (.append (.append (.append ?_ ?_) ?_) ?_) ?_
    · exact .flatMap fun name hname => block_dependencyLines hpart hname
    · exact .when' fun h => block_dataLines hpart (Bool.and_eq_true_iff.mp h).2
    · exact .when' fun h => block_publishLines hpart (Bool.and_eq_true_iff.mp h).2 _
    · exact .flatMap fun name hname => block_consumerLines ha hname
    · refine .when' fun _ => .line (Mark.ofLine_note (madeOf_partId controller) _) rfl rfl ?_
      simpa [Mark.uses] using hpart
  have hcall := block_call client_mem_declaredIds hpart hinner label "Response"
  simpa [requestLines] using hcall

end Request

/-- The drawing of a request reads as a well-formed one with the declared participants. -/
theorem marksOf_lines {controller : String} (hcontroller : controller ≠ "")
    (dependencies : List String) (label : String) (steps : List String) :
    ∃ marks, marksOf (lines (some controller) dependencies label steps) = some marks ∧
      WellFormed marks ∧ ∀ id, .participant id ∈ marks ↔
        id ∈ declaredIds controller dependencies (Activity.ofSteps steps) := by
  have hrequest : Block (declaredIds controller dependencies (Activity.ofSteps steps)) _ :=
    block_requestLines (Activity.complete_ofSteps steps) label
  obtain ⟨body, hread, hnested, hbody⟩ := hrequest
  refine ⟨(declaredIds controller dependencies (Activity.ofSteps steps)).map .participant ++ body,
    ?_, .of_declared nodup_declaredIds hnested hbody, fun id => ?_⟩
  · have hgiven : given? (some controller) = some controller := by simp [given?, hcontroller]
    have hlines : lines (some controller) dependencies label steps =
        ["```mermaid", "sequenceDiagram"] ++
          ((declaredParts controller dependencies (Activity.ofSteps steps)).map
            (fun part => participantLine part.1 part.2) ++
          requestLines controller dependencies label (Activity.ofSteps steps)) ++ ["```"] := by
      rw [lines, hgiven, declare_eq]
      simp [declaredParts, participantLine]
    rw [hlines]
    exact marksOf_fenced (List.rel_append
      (readAs_participants fun _ => madeOf_of_mem_declaredIds) hread)
  · have hnot : .participant id ∉ body := fun hmem => by cases (hbody _ hmem).1
    simp [hnot]

/-- In the drawing of a request to a controller, exactly one line declares each participant: the
client, the controller and the components it depends on, the consumers, and the database and the
message broker if the steps tell of them.  Arrows, bars and notes stand behind the declarations of
the participants they need, and bars are nested. -/
theorem lines_wellFormed (controller : String) (hcontroller : controller ≠ "")
    (dependencies : List String) (label : String) (steps : List String) :
    ∃ marks, marksOf (lines (some controller) dependencies label steps) = some marks ∧
      WellFormed marks ∧
      ∀ id, .participant id ∈ marks ↔ id = "Client" ∨
        (∃ n ∈ controller :: dependencies, id = partId n) ∨
        (id = "Database" ∧ touchesDatabase steps = true) ∨
        (id = "MessageBroker" ∧
          (messageNames steps ≠ [] ∨ ∃ s ∈ steps, mentions s "queue" = true)) ∨
        ∃ n ∈ consumerNames steps, id = partId n := by
  obtain ⟨marks, hmarks, hwf, hids⟩ := marksOf_lines hcontroller dependencies label steps
  refine ⟨marks, hmarks, hwf, fun id => ?_⟩
  have hqueue : (Activity.ofSteps steps).queue = true ↔
      messageNames steps ≠ [] ∨ ∃ s ∈ steps, mentions s "queue" = true := by
    simp
  rw [hids, mem_declaredIds, hqueue, Activity.database_ofSteps, Activity.consumers_ofSteps]

/-- A component, a consumer and the controller itself share identifiers with other participants. -/
theorem lines_wellFormed_of_collisions :
    "Web Shop" ≠ "" ∧
    ∃ marks, marksOf (lines (some "Web Shop") ["Web-Shop", "Database"] "GET /orders"
        ["Insert/Update DB", "Consumer Client reads queue", "Consumer Client reads DB"]) =
          some marks ∧
      WellFormed marks ∧ .participant "Web_Shop" ∈ marks ∧
        .participant "MessageBroker" ∈ marks := by
  obtain ⟨marks, hmarks, hwf, hids⟩ := lines_wellFormed "Web Shop" (by decide)
    ["Web-Shop", "Database"] "GET /orders"
    ["Insert/Update DB", "Consumer Client reads queue", "Consumer Client reads DB"]
  refine ⟨by decide, marks, hmarks, hwf, (hids _).mpr (.inr (.inl ⟨"Web Shop", by decide, ?_⟩)),
    (hids _).mpr (.inr (.inr (.inr (.inl
      ⟨rfl, .inr ⟨"Consumer Client reads queue", by decide, ?_⟩⟩))))⟩
  · decide
  · decide

end Sequence

end CodeScribe.Catalog
