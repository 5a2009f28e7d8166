import CodeScribe.Proofs.Catalog.Bodies
import CodeScribe.Proofs.Catalog.Flows
import CodeScribe.Proofs.Catalog.Marks

/-!
# When a drawing shows a database

A drawing shows a database if its steps mention one.  The steps are sentences in which names stand
that a source has chosen, so the mention may also come from a name.

* `mentions_blank_iff` — a word stands in one of the parts that blanks separate;
* `database_drawn_iff` — so does the drawing of its endpoint.
-/

namespace CodeScribe.Catalog

open Pattern Text

/-! ### Words between blanks -/

theorem mentions_blank_iff {s a b word : String} (hw : Steady word.toList)
    (hblank : ' ' ∉ word.toList) (hs : s.toList = a.toList ++ ' ' :: b.toList) :
    mentions s word = true ↔ mentions a word = true ∨ mentions b word = true := by
  have hspace : lowerChar ' ' = ' ' := by decide
  rw [mentions_iff hw, mentions_iff hw, mentions_iff hw, hs, List.map_append, List.map_cons, hspace,
    Chars.infix_append_cons_iff hblank]

/-! ### Sentences that mention a database -/

namespace Sentence

def TellsOfDatabase : Sentence → Prop
  | change | readsDatabase _ => True
  | message x => mentions x "db" = true
  | reads c => mentions c "db" = true
  | publishes c x => mentions c "db" = true ∨ mentions x "db" = true
  | newId | endpoint => False

theorem mentions_words {s : Sentence} {w₁ w₂ w₃ w₄ : String}
    (h : s.words = some (w₁, w₂, w₃, w₄)) :
    mentions s.text "db" = true ↔ mentions w₁ "db" = true ∨ mentions w₂ "db" = true ∨
      mentions w₃ "db" = true ∨ mentions w₄ "db" = true := by
  have hsteady : Steady "db".toList := by decide
  have hlast : (w₃ ++ " " ++ w₄).toList = w₃.toList ++ ' ' :: w₄.toList := by simp
  have hthree : (w₂ ++ " " ++ (w₃ ++ " " ++ w₄)).toList =
      w₂.toList ++ ' ' :: (w₃ ++ " " ++ w₄).toList := by simp
  have hall : s.text.toList = w₁.toList ++ ' ' :: (w₂ ++ " " ++ (w₃ ++ " " ++ w₄)).toList := by
    rw [toList_text h]
    simp
  rw [mentions_blank_iff hsteady (by decide) hall, mentions_blank_iff hsteady (by decide) hthree,
    mentions_blank_iff hsteady (by decide) hlast]

theorem mentions_text (s : Sentence) : mentions s.text "db" = true ↔ s.TellsOfDatabase := by
  have hverb : mentions "Publish/Send" "db" = false := by decide
  have hto : mentions "to" "db" = false := by decide
  have hqueue : mentions "queue" "db" = false := by decide
  have hconsumer : mentions "Consumer" "db" = false := by decide
  have hreads : mentions "reads" "db" = false := by decide
  have hpublishes : mentions "publishes" "db" = false := by decide
  have hdatabase : mentions "DB" "db" = true := by decide
  cases s with
  | newId => exact iff_of_false (by decide) id
  | change => exact iff_of_true (by decide) trivial
  | endpoint => exact iff_of_false (by decide) id
  | message x =>
    rw [mentions_words rfl]
    simp [TellsOfDatabase, hverb, hto, hqueue]
  | reads c =>
    rw [mentions_words rfl]
    simp [TellsOfDatabase, hconsumer, hreads, hqueue]
  | readsDatabase c =>
    rw [mentions_words rfl]
    simp [TellsOfDatabase, hdatabase]
  | publishes c x =>
    rw [mentions_words rfl]
    simp [TellsOfDatabase, hconsumer, hpublishes]

def reader? : Sentence → Option String
  | readsDatabase consumer => some consumer
  | _ => none

/-- What a sentence of one kind was made with stands in it. -/
theorem mem_filterMap_iff {β : Type} {f : Sentence → Option β} (make : β → Sentence)
    (hf : ∀ s y, f s = some y ↔ s = make y) {ss : List Sentence} {y : β} :
    y ∈ ss.filterMap f ↔ make y ∈ ss := by
  simp [List.mem_filterMap, hf]

end Sentence

/-! ### Flows -/

theorem readers_flowSentences (body : List Char) (matched : List Consumer) :
    (flowSentences body matched).filterMap (·.reader?) =
      (matched.filter (·.readsDatabase)).map (·.name) := by
  have hone : ∀ c : Consumer, c.sentences.filterMap (·.reader?) =
      if c.readsDatabase then [c.name] else [] := by
    intro c
    cases hdb : c.readsDatabase <;>
      simp [Consumer.sentences, hdb, Sentence.reader?, List.filterMap_map]
  rw [filterMap_flowSentences _ rfl rfl rfl]
  simp only [hone]
  induction matched with
  | nil => simp [Sentence.reader?]
  | cons c matched ih =>
    simp only [Sentence.reader?, List.filterMap_none, List.nil_append] at ih ⊢
    rw [List.flatMap_cons, ih, List.filter_cons]
    cases c.readsDatabase <;> rfl

section Flows

variable {body : List Char} {matched : List Consumer}

theorem message_mem_flowSentences {x : String} :
    .message x ∈ flowSentences body matched ↔ x ∈ messagesOf (stripComments body) := by
  rw [← messages_flowSentences body matched]
  refine (Sentence.mem_filterMap_iff .message fun s y => ?_).symm
  cases s <;> simp [Sentence.message?]

theorem reads_mem_flowSentences {n : String} :
    .reads n ∈ flowSentences body matched ↔ n ∈ matched.map (·.name) := by
  rw [← consumers_flowSentences body matched]
  refine (Sentence.mem_filterMap_iff .reads fun s y => ?_).symm
  cases s <;> simp [Sentence.consumer?]

theorem readsDatabase_mem_flowSentences {n : String} :
    .readsDatabase n ∈ flowSentences body matched ↔
      n ∈ (matched.filter (·.readsDatabase)).map (·.name) := by
  rw [← readers_flowSentences body]
  refine (Sentence.mem_filterMap_iff .readsDatabase fun s y => ?_).symm
  cases s <;> simp [Sentence.reader?]

theorem publishes_mem_flowSentences {n x : String} :
    .publishes n x ∈ flowSentences body matched ↔ ∃ c ∈ matched, c.name = n ∧ x ∈ c.publishes := by
  have hpairs : (n, x) ∈ (flowSentences body matched).filterMap (·.publish?) ↔
      .publishes n x ∈ flowSentences body matched := by
    refine Sentence.mem_filterMap_iff (fun pair : String × String => .publishes pair.1 pair.2)
      fun s y => ?_
    cases s <;> simp [Sentence.publish?, Prod.ext_iff]
  rw [← hpairs, publishes_flowSentences]
  simp only [List.mem_flatMap, List.mem_map, Prod.mk.injEq]
  grind

/-- The steps of a flow mention a database if it is changed, if a consumer reads it, or if a
message, a consumer or an event has a name that mentions one. -/
theorem touchesDatabase_flow :
    touchesDatabase ((flowSentences body matched).map (·.text)) = true ↔
      databaseStep ∈ (flowSentences body matched).map (·.text) ∨
      (∃ c ∈ matched, c.readsDatabase = true) ∨
      (∃ x ∈ messagesOf (stripComments body), mentions x "db" = true) ∨
      ∃ c ∈ matched, mentions c.name "db" = true ∨ ∃ x ∈ c.publishes, mentions x "db" = true := by
  have hany : touchesDatabase ((flowSentences body matched).map (·.text)) = true ↔
      ∃ s ∈ flowSentences body matched, s.TellsOfDatabase := by
    simp [touchesDatabase, Sentence.mentions_text]
  rw [hany]
  constructor
  · rintro ⟨s, hs, htells⟩
    cases s with
    | newId => cases htells
    | endpoint => cases htells
    | change => exact .inl (List.mem_map.mpr ⟨.change, hs, rfl⟩)
    | message x => exact .inr (.inr (.inl ⟨x, message_mem_flowSentences.mp hs, htells⟩))
    | reads n =>
      obtain ⟨c, hc, rfl⟩ := List.mem_map.mp (reads_mem_flowSentences.mp hs)
      exact .inr (.inr (.inr ⟨c, hc, .inl htells⟩))
    | readsDatabase n =>
      obtain ⟨c, hc, -⟩ := List.mem_map.mp (readsDatabase_mem_flowSentences.mp hs)
      exact .inr (.inl ⟨c, List.mem_filter.mp hc⟩)
    | publishes n x =>
      obtain ⟨c, hc, rfl, hx⟩ := publishes_mem_flowSentences.mp hs
      exact .inr (.inr (.inr ⟨c, hc, htells.imp_right fun h => ⟨x, hx, h⟩⟩))
  · rintro (hchange | ⟨c, hc, hreads⟩ | ⟨x, hx, htells⟩ | ⟨c, hc, htells | ⟨x, hx, htells⟩⟩)
    · obtain ⟨s, hs, htext⟩ := List.mem_map.mp hchange
      refine ⟨s, hs, (Sentence.mentions_text s).mp ?_⟩
      rw [htext]
      decide
    · have hmem : c ∈ matched.filter (·.readsDatabase) := List.mem_filter.mpr ⟨hc, hreads⟩
      exact ⟨_, readsDatabase_mem_flowSentences.mpr (List.mem_map_of_mem hmem), trivial⟩
    · exact ⟨_, message_mem_flowSentences.mpr hx, htells⟩
    · exact ⟨_, reads_mem_flowSentences.mpr (List.mem_map_of_mem hc), htells⟩
    · exact ⟨_, publishes_mem_flowSentences.mpr ⟨c, hc, rfl, hx⟩, .inr htells⟩

theorem mem_consumerNames_flow (hmatched : ∀ c ∈ matched, c.WellNamed) {n : String} :
    n ∈ consumerNames ((flowSentences body matched).map (·.text)) ↔ n ∈ matched.map (·.name) := by
  rw [consumerNames, filterMap_text (wellNamed_flowSentences hmatched) fun _ =>
    Sentence.consumer?_text, consumers_flowSentences, mem_distinct, and_iff_left_iff_imp]
  intro hn
  obtain ⟨c, hc, rfl⟩ := List.mem_map.mp hn
  exact (hmatched c hc).name.ne_empty

/-- The participants of a flow's drawing include a database exactly if a component has that
identifier, the flow works on a database, or a name in its steps makes it so. -/
theorem database_mem_declaredIds_iff (controller : String) (dependencies : List String)
    (hmatched : ∀ c ∈ matched, c.WellNamed) :
    "Database" ∈ Sequence.declaredIds controller dependencies
        (.ofSteps ((flowSentences body matched).map (·.text))) ↔
      (∃ n ∈ controller :: dependencies, Sequence.partId n = "Database") ∨
      databaseStep ∈ (flowSentences body matched).map (·.text) ∨
      (∃ c ∈ matched, c.readsDatabase = true) ∨
      (∃ x ∈ messagesOf (stripComments body), mentions x "db" = true) ∨
      (∃ c ∈ matched, mentions c.name "db" = true ∨ ∃ x ∈ c.publishes, mentions x "db" = true) ∨
      ∃ c ∈ matched, Sequence.partId c.name = "Database" := by
  have hconsumers : (∃ n ∈ consumerNames ((flowSentences body matched).map (·.text)),
      "Database" = Sequence.partId n) ↔ ∃ c ∈ matched, Sequence.partId c.name = "Database" := by
    simp [mem_consumerNames_flow hmatched, eq_comm]
  have hclient : "Database" ≠ "Client" := by decide
  have hbroker : "Database" ≠ "MessageBroker" := by decide
  rw [Sequence.mem_declaredIds, Sequence.Activity.database_ofSteps,
    Sequence.Activity.consumers_ofSteps, touchesDatabase_flow, hconsumers]
  simp only [hclient, hbroker, true_and, false_and, false_or, or_assoc, eq_comm]

end Flows

/-! ### Drawings -/

section Drawings

variable {graph : Option Dependency.Graph} {files : List SourceFile} {k : Nat} {e : Endpoint}

theorem drawings_ofFiles (graph : Option Dependency.Graph) (files : List SourceFile) :
    (ServiceCatalog.ofFiles graph files).drawings =
      (ServiceCatalog.ofFiles graph files).endpoints.map
        (drawingOf (ServiceCatalog.ofFiles graph files).dependencies
          (ServiceCatalog.ofFiles graph files).flows) := rfl

theorem drawing_of_flow (he : (ServiceCatalog.ofFiles graph files).endpoints[k]? = some e) :
    ∃ flow drawing controller, (ServiceCatalog.ofFiles graph files).flows[k]? = some flow ∧
      (ServiceCatalog.ofFiles graph files).drawings[k]? = some drawing ∧
      flow.endpoint = e ∧ e.controller = some controller ∧ controller ≠ "" ∧
      drawing.mermaid = Text.join "\n" (Sequence.lines (some controller)
        ((ServiceCatalog.ofFiles graph files).dependencies.listOf controller) (requestLabel e)
        flow.steps) := by
  have hmem : e ∈ (extracted files).map (·.1) :=
    endpoints_ofFiles graph files ▸ List.mem_of_getElem? he
  obtain ⟨x, hx, rfl⟩ := List.mem_map.mp hmem
  obtain ⟨controller, -, hcontroller, -, hword, -⟩ := named_of_mem_extracted hx
  have hgiven : Sequence.given? x.1.controller = some controller := by
    rw [hcontroller]
    simp [Sequence.given?, hword.ne_empty]
  have hsteps := stepsFor_flows (keptBodies files)
    (consumersByMessage ((files.filter isCSharp).map contentText)) (List.mem_of_getElem? he)
  rw [← flows_ofFiles graph files] at hsteps
  rw [flows_ofFiles, drawings_ofFiles, List.getElem?_map, List.getElem?_map, he]
  refine ⟨_, _, controller, rfl, rfl, rfl, hcontroller, hword.ne_empty, ?_⟩
  rw [drawingOf, hsteps, dependenciesOf, hgiven, hcontroller, Option.map_some, Option.getD_some,
    Sequence.render]

end Drawings

/-- The drawing of an endpoint declares a database exactly if its controller or a component it
depends on has that identifier, if the steps of its flow tell of a change or of a consumer that
reads the database, or if a name in the steps makes it so: that of a message, of a consumer or of
an event that mentions one, or that of a consumer with the same identifier. -/
theorem database_drawn_iff (graph : Option Dependency.Graph) (files : List SourceFile) (k : Nat)
    (e : Endpoint) (he : (ServiceCatalog.ofFiles graph files).endpoints[k]? = some e) :
    ∃ flow drawing controller marks,
      (ServiceCatalog.ofFiles graph files).flows[k]? = some flow ∧
      (ServiceCatalog.ofFiles graph files).drawings[k]? = some drawing ∧
      flow.endpoint = e ∧ e.controller = some controller ∧
      let dependencies := (ServiceCatalog.ofFiles graph files).dependencies.listOf controller
      let lines := Sequence.lines (some controller) dependencies (requestLabel e) flow.steps
      let matched := matchedConsumers
        (consumersByMessage ((files.filter isCSharp).map contentText)) flow.messages
      drawing.mermaid = Text.join "\n" lines ∧ Sequence.marksOf lines = some marks ∧
      (.participant "Database" ∈ marks ↔
        (∃ n ∈ controller :: dependencies, Sequence.partId n = "Database") ∨
        databaseStep ∈ flow.steps ∨ (∃ c ∈ matched, c.readsDatabase = true) ∨
        (∃ x ∈ flow.messages, mentions x "db" = true) ∨
        (∃ c ∈ matched, mentions c.name "db" = true ∨ ∃ x ∈ c.publishes, mentions x "db" = true) ∨
        ∃ c ∈ matched, Sequence.partId c.name = "Database") := by
  obtain ⟨flow, drawing, controller, hflow, hdrawing, hend, hcontroller, hne, hmermaid⟩ :=
    drawing_of_flow he
  obtain ⟨marks, hmarks, -, hids⟩ := Sequence.marksOf_lines hne
    ((ServiceCatalog.ofFiles graph files).dependencies.listOf controller) (requestLabel e)
    flow.steps
  refine ⟨flow, drawing, controller, marks, hflow, hdrawing, hend, hcontroller, hmermaid, hmarks,
    ?_⟩
  obtain ⟨e', -, rfl⟩ := List.mem_map.mp (List.mem_of_getElem? hflow)
  obtain ⟨body, hmessages, hsteps⟩ := steps_flowOf _ _ e'
  dsimp only
  rw [hids, hsteps, hmessages]
  apply database_mem_declaredIds_iff
  intro c hc
  obtain ⟨m, -, hc⟩ := List.mem_flatMap.mp hc
  exact wellNamed_of_mem_consumers hc

/-- A controller that passes on an order, and a consumer that keeps it in a database. -/
def ledgerSource : SourceFile :=
  .ofTexts "Orders.cs" "Orders.cs" "Orders.cs" "csharp"
    ("class OrderController \x7b\n[HttpPost]\n" ++
      "public void Place() \x7b bus.Publish<Order>(o); \x7d\n\x7d\n" ++
      "class Ledger : IConsumer<Order> \x7b DbContext store; \x7d")

/-- The database is drawn because the consumer reads it: the flow has no step about a change. -/
theorem reading_consumer_draws_database :
    ∃ e flow controller marks,
      (ServiceCatalog.ofFiles none [ledgerSource]).endpoints[0]? = some e ∧
      (ServiceCatalog.ofFiles none [ledgerSource]).flows[0]? = some flow ∧
      databaseStep ∉ flow.steps ∧
      Sequence.marksOf (Sequence.lines (some controller)
        ((ServiceCatalog.ofFiles none [ledgerSource]).dependencies.listOf controller)
        (requestLabel e) flow.steps) = some marks ∧
      .participant "Database" ∈ marks := by
  have hflows : ((ServiceCatalog.ofFiles none [ledgerSource]).flows.map
      fun f => (f.messages, f.steps)) = [(["Order"], ["Publish/Send Order to queue",
        "Consumer Ledger reads queue", "Consumer Ledger reads DB",
        "Consumer Ledger publishes Order"])] := by decide +kernel
  have hconsumers : ∃ c ∈ matchedConsumers (consumersByMessage
      (([ledgerSource].filter isCSharp).map contentText)) ["Order"], c.readsDatabase = true := by
    rw [← List.any_eq_true]
    decide +kernel
  obtain ⟨f, hf, hfacts⟩ := List.map_eq_singleton_iff.mp hflows
  obtain ⟨hmessages, hsteps⟩ := Prod.mk.inj hfacts
  obtain ⟨e, he⟩ : ∃ e, (ServiceCatalog.ofFiles none [ledgerSource]).endpoints = [e] := by
    rw [flows_ofFiles, List.map_eq_singleton_iff] at hf
    exact hf.imp fun _ h => h.1
  obtain ⟨flow, _, controller, marks, hflow, -, -, -, -, hmarks, hdatabase⟩ :=
    database_drawn_iff none [ledgerSource] 0 e (by rw [he]; rfl)
  obtain rfl : f = flow := by
    rw [hf] at hflow
    exact Option.some.inj hflow
  refine ⟨e, f, controller, marks, by rw [he]; rfl, hflow, ?_, hmarks, ?_⟩
  · rw [hsteps]
    decide
  · rw [hmessages] at hdatabase
    exact hdatabase.mpr (.inr (.inr (.inl hconsumers)))

def feedbackSource : SourceFile :=
  .ofTexts "A.cs" "A.cs" "A.cs" "csharp"
    ("class AController \x7b\n[HttpPost]\n" ++
      "public void Post() \x7b bus.Publish(new Feedback()); \x7d\n\x7d")

/-- The name of a message draws a database that no step is about. -/
theorem feedback_draws_database :
    ∃ flow drawing, (ServiceCatalog.ofFiles none [feedbackSource]).flows[0]? = some flow ∧
      (ServiceCatalog.ofFiles none [feedbackSource]).drawings[0]? = some drawing ∧
      flow.steps = ["Publish/Send Feedback to queue"] ∧ databaseStep ∉ flow.steps ∧
      matchedConsumers (consumersByMessage (([feedbackSource].filter isCSharp).map contentText))
        flow.messages = [] ∧
      drawing.components = ["AController"] ∧
      drawing.mermaid = Text.join "\n" ["```mermaid", "sequenceDiagram", "  participant Client",
        "  participant AController as AController", "  participant Database",
        "  participant MessageBroker", "  Client->>AController: POST", "  activate AController",
        "  AController->>Database: Read/Write data", "  Database-->>AController: Data/ACK",
        "  AController->>MessageBroker: Publish Feedback", "  MessageBroker-->>AController: Ack",
        "  AController-->>Client: Response", "  deactivate AController", "```"] := by
  have hflows : (ServiceCatalog.ofFiles none [feedbackSource]).flows.map
      (fun f => (f.messages, f.steps)) = [(["Feedback"], ["Publish/Send Feedback to queue"])] := by
    decide +kernel
  have hdrawings : (ServiceCatalog.ofFiles none [feedbackSource]).drawings.map
      (fun d => (d.components, d.mermaid)) = [(["AController"], Text.join "\n" ["```mermaid",
        "sequenceDiagram", "  participant Client", "  participant AController as AController",
        "  participant Database", "  participant MessageBroker", "  Client->>AController: POST",
        "  activate AController", "  AController->>Database: Read/Write data",
        "  Database-->>AController: Data/ACK", "  AController->>MessageBroker: Publish Feedback",
        "  MessageBroker-->>AController: Ack", "  AController-->>Client: Response",
        "  deactivate AController", "```"])] := by decide +kernel
  obtain ⟨f, hf, hfacts⟩ := List.map_eq_singleton_iff.mp hflows
  obtain ⟨d, hd, hdrawn⟩ := List.map_eq_singleton_iff.mp hdrawings
  obtain ⟨hmessages, hsteps⟩ := Prod.mk.inj hfacts
  obtain ⟨hcomponents, hmermaid⟩ := Prod.mk.inj hdrawn
  refine ⟨f, d, by rw [hf]; rfl, by rw [hd]; rfl, hsteps, ?_, ?_, hcomponents, hmermaid⟩
  · rw [hsteps]
    decide
  · rw [hmessages]
    have hnone : (matchedConsumers (consumersByMessage
        (([feedbackSource].filter isCSharp).map contentText)) ["Feedback"]).isEmpty = true := by
      decide
    exact List.isEmpty_iff.mp hnone

end CodeScribe.Catalog
