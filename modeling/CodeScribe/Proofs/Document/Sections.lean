import CodeScribe.Document.Records
import CodeScribe.Proofs.Document.Isolation
import CodeScribe.Proofs.Document.Writing

/-!
# The sections of a document that is written as the files come

What is known about a file once it has been described decides which section comes of it.
-/

namespace CodeScribe.Document

open CodeScribe.Document.Stream

variable {t : Table Value} {v : Value}

/-! ### What an outcome comes of -/

section Outcomes

variable {α β : Type}

theorem exists_of_map {x : Outcome α} {f : α → β} {b : β} (h : x.map f = .ok b) :
    ∃ a, x = .ok a ∧ f a = b := by
  cases x with
  | error fault => cases h
  | ok a =>
    cases h
    exact ⟨a, rfl, rfl⟩

theorem exists_of_run_bind {x : ExceptT Fault Id α} {f : α → ExceptT Fault Id β} {b : β}
    (h : (x >>= f).run = .ok b) : ∃ a, x.run = .ok a ∧ (f a).run = .ok b := by
  cases hx : x.run with
  | error fault =>
    rw [ExceptT.run_bind, hx] at h
    cases h
  | ok a => exact ⟨a, rfl, by rwa [run_bind_ok hx] at h⟩

/-- What goes through a list gives comes of its items. -/
theorem exists_of_run_mapM {f : α → ExceptT Fault Id β} {as : List α} {bs : List β}
    (h : (as.mapM f).run = .ok bs) : ∀ b ∈ bs, ∃ a, (f a).run = .ok b := by
  induction as generalizing bs with
  | nil =>
    cases h
    simp
  | cons a as ih =>
    rw [List.mapM_cons] at h
    obtain ⟨b, hb, h⟩ := exists_of_run_bind h
    obtain ⟨rest, hrest, h⟩ := exists_of_run_bind h
    cases h
    exact List.forall_mem_cons.mpr ⟨⟨a, hb⟩, ih hrest⟩

end Outcomes

/-! ### Facts that can be counted -/

theorem hasLists_facts (facts : Facts) : ∃ t, facts.toValue = .record t ∧ HasLists t := by
  cases facts <;>
    exact ⟨_, rfl, by simp [HasLists, counted, Value.listOf, Value.texts]⟩

theorem hasLists_set (ht : HasLists t) {key : String}
    (hv : key ∈ counted.map Prod.fst → ∃ items, v = .list items) : HasLists (t.set key v) :=
  Table.forall_set (P := fun k (a : Value) => k ∈ counted.map Prod.fst → ∃ items, a = .list items)
    ht hv

theorem joinedTo_list {old : Option Value} {items : List Value}
    (hold : ∀ a, old = some a → ∃ olds, a = .list olds)
    (h : Merge.joinedTo old (.list items) = .ok v) : ∃ news, v = .list news := by
  have hlist : ∃ olds, old.getD (.list []) = .list olds := by
    cases old with
    | none => exact ⟨[], rfl⟩
    | some a => exact hold a rfl
  obtain ⟨olds, holds⟩ := hlist
  rw [Merge.joinedTo, holds, Merge.joined] at h
  split at h
  · obtain ⟨names, -, h⟩ := exists_of_bind h
    obtain ⟨news, -, h⟩ := exists_of_bind h
    cases h
    exact ⟨_, rfl⟩
  · cases h
    exact ⟨_, rfl⟩

theorem hasLists_enter {u : Table Value} {e : String × Value} (ht : HasLists t)
    (he : e.1 ∈ counted.map Prod.fst → ∃ items, e.2 = .list items) (h : Merge.enter t e = .ok u) :
    HasLists u := by
  rw [Merge.enter] at h
  split at h
  · obtain ⟨v, hjoined, rfl⟩ := exists_of_map h
    refine hasLists_set ht fun hkey => ?_
    obtain ⟨items, hitems⟩ := he hkey
    rw [hitems] at hjoined
    exact joinedTo_list (fun a ha => ht (e.1, a) (Table.mem_of_get? ha) hkey) hjoined
  · cases h
    exact ht

theorem hasLists_foldlM_enter {es : List (String × Value)} {u : Table Value} (ht : HasLists t)
    (hes : HasLists es) (h : es.foldlM Merge.enter t = .ok u) : HasLists u := by
  induction es generalizing t with
  | nil =>
    cases h
    exact ht
  | cons e es ih =>
    rw [List.foldlM_cons] at h
    obtain ⟨v, henter, h⟩ := exists_of_bind h
    have hv := hasLists_enter ht (hes e List.mem_cons_self) henter
    exact ih hv (fun d hd => hes d (List.mem_cons_of_mem e hd)) h

theorem exists_tables {infos : List Value} (h : ∀ v ∈ infos, ∃ t, v = .record t ∧ HasLists t) :
    ∃ tables : List (Table Value), infos = tables.map .record ∧ ∀ t ∈ tables, HasLists t := by
  induction infos with
  | nil => exact ⟨[], rfl, by simp⟩
  | cons v infos ih =>
    obtain ⟨⟨t, rfl, ht⟩, hrest⟩ := List.forall_mem_cons.mp h
    obtain ⟨tables, rfl, htables⟩ := ih hrest
    exact ⟨t :: tables, rfl, List.forall_mem_cons.mpr ⟨ht, htables⟩⟩

/-- Facts of chunks that can be counted are merged to facts that can be. -/
theorem hasLists_all {infos : List Value} (h : ∀ v ∈ infos, ∃ t, v = .record t ∧ HasLists t)
    (hv : Merge.all infos = .ok v) : ∃ u, v = .record u ∧ HasLists u := by
  obtain ⟨tables, rfl, htables⟩ := exists_tables h
  have hflat : HasLists tables.flatten := by
    intro e he
    obtain ⟨t, ht, het⟩ := List.mem_flatten.mp he
    exact htables t ht e het
  rw [Merge.all_records] at hv
  obtain ⟨u, hmerged, rfl⟩ := exists_of_map hv
  exact ⟨u, rfl, hasLists_foldlM_enter (t := []) (by simp [HasLists]) hflat hmerged⟩

theorem hasLists_withMessaging (ht : HasLists t) (messaging : Option Value) :
    ∃ u, Describe.withMessaging messaging (.record t) = .record u ∧ HasLists u := by
  cases messaging with
  | none => exact ⟨t, rfl, ht⟩
  | some flows =>
    refine ⟨t.set "messaging_flows" flows, Value.put_record t _ flows, ?_⟩
    exact hasLists_set ht (by simp [counted])

/-! ### Messages -/

/-- The messages of a file: none, or those of a bus, a channel or a broker. -/
inductive Passes : Option Value → Prop where
  | nothing : Passes none
  | bus (flows : Bus.Flows) : Passes (some (Messaging.marked "masstransit" flows.toValue))
  | channel (flows : Channel.Flows) : Passes (some (Messaging.marked "amqplib" flows.toValue))
  | broker (exchanges queues bindings : List Value) :
      Passes (some (Messaging.marked "infra_config" (.record [("exchanges", .list exchanges),
        ("queues", .list queues), ("bindings", .list bindings)])))

theorem definitionsOf_cases {data : Value} (h : Broker.definitionsOf data = .ok v) :
    v = .map [] ∨ ∃ exchanges queues bindings, v = .record [("exchanges", .list exchanges),
      ("queues", .list queues), ("bindings", .list bindings)] := by
  rw [Broker.definitionsOf] at h
  dsimp only at h
  split at h
  · cases h
    exact .inl rfl
  · split at h
    · cases h
      exact .inl rfl
    · obtain ⟨exchanges, -, h⟩ := exists_of_bind h
      obtain ⟨topics, -, h⟩ := exists_of_bind h
      obtain ⟨rootTopics, -, h⟩ := exists_of_bind h
      obtain ⟨queues, -, h⟩ := exists_of_bind h
      obtain ⟨bindings, -, h⟩ := exists_of_bind h
      cases h
      exact .inr ⟨_, _, _, rfl⟩

theorem passes_flowsIn {l : Language} {content : Value} {messaging : Option Value}
    (h : Messaging.flowsIn (some l) content = .ok messaging) : Passes messaging := by
  cases l with
  | csharp =>
    obtain ⟨found, -, h⟩ := exists_of_bind h
    cases found with
    | true =>
      obtain ⟨code, -, h⟩ := exists_of_bind h
      cases h
      exact .bus _
    | false =>
      cases h
      exact .nothing
  | javascript | typescript =>
    obtain ⟨found, -, h⟩ := exists_of_bind h
    cases found with
    | true =>
      obtain ⟨code, -, h⟩ := exists_of_bind h
      cases h
      exact .channel _
    | false =>
      cases h
      exact .nothing
  | config =>
    cases content with
    | text s =>
      obtain ⟨flows, hflows, h⟩ := exists_of_bind h
      obtain rfl | ⟨exchanges, queues, bindings, rfl⟩ := definitionsOf_cases hflows
      · cases h
        exact .nothing
      · cases h
        exact .broker exchanges queues bindings
    | _ =>
      cases h
      exact .nothing
  | _ =>
    cases h
    exact .nothing

/-- Whether a file publishes messages on a channel. -/
def publishesOnChannel (d : Described) : Bool :=
  (Passing.ofDescribed d).any fun p =>
    p.way.same (.text "amqplib") && !(p.under "publishes").isEmpty

theorem Stream.Listable.marked (ht : Listable t) (way : String) :
    Listable (t.set "source_type" (.text way)) := by
  have hget (key : String) (hkey : key ≠ "source_type") :
      (t.set "source_type" (.text way)).get? key = t.get? key := by
    rw [Table.get?_set, if_neg hkey]
  refine ⟨?_, ?_, ?_⟩
  · rw [hget _ (by decide)]
    exact ht.queues
  · intro key hkey
    rw [hget key (by rintro rfl; revert hkey; decide)]
    exact ht.texts key hkey
  · rw [hget _ (by decide)]
    exact ht.consumers

theorem completes_marked (ht : Listable t) (way : String) :
    Completes (messagingPart (Messaging.marked way (.record t))) := by
  rw [Messaging.marked, Value.put_record]
  exact completes_messagingPart (ht.marked way)

theorem listable_of_texts (hqueues : "flows" ∉ t.names) (hconsumers : "consumer_messages" ∉ t.names)
    (htexts : ∀ e ∈ t, e.1 ∈ listed.map Prod.fst → ∃ ss, e.2 = .texts ss) : Listable t where
  queues := by simp [Table.get?_eq_none.mpr hqueues]
  texts key hkey v hv := htexts (key, v) (Table.mem_of_get? hv) hkey
  consumers := by simp [Table.get?_eq_none.mpr hconsumers]

theorem listable_bus (flows : Bus.Flows) :
    Listable [("queues", .listOf Bus.Queue.toValue flows.queues),
      ("flows", .listOf Bus.Queue.toValue flows.queues), ("publishes", .texts flows.publishes),
      ("sends", .texts flows.sends), ("send_endpoints", .texts flows.sendEndpoints),
      ("consumer_messages", .listOf Bus.Consumer.toValue flows.consumers)] where
  queues := by simp [Table.get?_cons]
  texts := by simp [Table.get?_cons, listed]
  consumers := by simp [Table.get?_cons]

/-- What the messages of a file come to in its section. -/
theorem messagingPart_cases {d : Described} (h : Passes d.messaging) :
    publishesOnChannel d = false ∧ Completes (messagingPart (d.messaging.getD .null)) ∨
      publishesOnChannel d = true ∧ Adds (messagingPart (d.messaging.getD .null))
        (.error (.notJoinable 0 "dict")) "#### Messaging Flows\n\n" := by
  rw [publishesOnChannel, Passing.ofDescribed]
  generalize d.messaging = messaging at h ⊢
  cases h with
  | nothing => exact .inl ⟨rfl, completes_pure⟩
  | bus flows => exact .inl ⟨rfl, completes_marked (listable_bus flows) "masstransit"⟩
  | channel flows =>
    have hvalue : ∃ exchanges queues bindings sent consumed, flows.toValue = .record
        [("exchanges", exchanges), ("queues", queues), ("bindings", bindings),
          ("publishes", .list (flows.publishes.map fun p =>
            .record [("exchange", .text p.exchange), ("routing_key", .text p.routingKey)])),
          ("send_to_queue", sent), ("consumes", consumed)] := ⟨_, _, _, _, _, rfl⟩
    obtain ⟨exchanges, queues, bindings, sent, consumed, hvalue⟩ := hvalue
    rw [hvalue, Option.getD_some]
    -- Messages on a channel are tables, so that the first one, if there is any, cannot be listed.
    cases flows.publishes with
    | nil =>
      have htexts : ∃ ss, Value.list [] = .texts ss := ⟨[], rfl⟩
      exact .inl ⟨rfl, completes_marked (listable_of_texts (by simp) (by simp)
        (by simpa [listed] using htexts)) "amqplib"⟩
    | cons p ps =>
      refine .inr ⟨rfl, ?_⟩
      rw [Messaging.marked, Value.put_record]
      exact adds_messagingPart_publishing rfl rfl
  | broker exchanges queues bindings =>
    exact .inl ⟨rfl, completes_marked (listable_of_texts (by simp) (by simp) (by simp [listed]))
      "infra_config"⟩

/-! ### Described files -/

/-- What holds of every described file. -/
structure WellDescribed (f : SourceFile) (d : Described) : Prop where
  name : d.name = nameOf f
  path : d.path = pathOf f
  relativePath : d.relativePath = relativePathOf f
  documentation : ∃ doc, d.documentation = .text doc
  facts : ∃ t, d.facts = .record t ∧ HasLists t
  messaging : Passes d.messaging
  callGraphs : ∃ graphs : List CallGraph, d.callGraphs = graphs.map CallGraph.toValue

theorem wellDescribed_bare (f : SourceFile) (note : String) :
    WellDescribed f (.bare f note) where
  name := rfl
  path := rfl
  relativePath := rfl
  documentation := ⟨note, rfl⟩
  facts := ⟨_, rfl, by simp [HasLists, counted]⟩
  messaging := .nothing
  callGraphs := ⟨[], rfl⟩

theorem joinedDocs_text {docs : List Value} (h : ∀ v ∈ docs, ∃ s, v = .text s) :
    ∃ doc, Describe.joinedDocs docs = .text doc := by
  cases docs with
  | nil => exact ⟨_, rfl⟩
  | cons doc rest =>
    cases rest with
    | nil => exact h doc List.mem_cons_self
    | cons other rest => exact ⟨_, rfl⟩

theorem callGraphsOf_eq (l : Language) (content : Value) :
    ∃ graphs : List CallGraph, Describe.callGraphsOf l content = graphs.map CallGraph.toValue := by
  unfold Describe.callGraphsOf
  split
  · exact ⟨_, rfl⟩
  · exact ⟨[], rfl⟩

section Answers

variable {answer : Prompt → Outcome Value} {style : EntryStyle} {l : Language} {f : SourceFile}

/-- What comes of a chunk: facts that can be counted, and an answer. -/
theorem chunk_eq_ok {messaging : Option Value} {total : Nat} {numbered : Value × Nat}
    {described : Value × Value}
    (h : (Describe.chunk (askFixed answer) l style.options messaging total numbered).run =
      .ok described) :
    (∃ t, described.1 = .record t ∧ HasLists t) ∧ ∃ p, answer p = .ok described.2 := by
  obtain ⟨facts, -, h⟩ := exists_of_run_bind h
  obtain ⟨p, -, h⟩ := exists_of_run_bind h
  obtain ⟨doc, hdoc, h⟩ := exists_of_run_bind h
  cases h
  obtain ⟨t, hfacts, ht⟩ := hasLists_facts facts
  refine ⟨?_, p, hdoc⟩
  rw [hfacts]
  exact hasLists_withMessaging ht messaging

theorem wellDescribed_of_describedAs {d : Described}
    (hanswer : ∀ p v, answer p = .ok v → ∃ s, v = .text s)
    (h : describedAs answer style l f = .ok d) : WellDescribed f d := by
  obtain ⟨content, -, h⟩ := exists_of_run_bind h
  obtain ⟨messaging, hmessaging, h⟩ := exists_of_run_bind h
  obtain ⟨chunks, -, h⟩ := exists_of_run_bind h
  obtain ⟨described, hdescribed, h⟩ := exists_of_run_bind h
  obtain ⟨facts, hfacts, h⟩ := exists_of_run_bind h
  cases h
  have hchunks := exists_of_run_mapM hdescribed
  have hinfos : ∀ v ∈ described.map (·.1), ∃ t, v = .record t ∧ HasLists t := by
    intro v hv
    obtain ⟨c, hc, rfl⟩ := List.mem_map.mp hv
    obtain ⟨numbered, hnumbered⟩ := hchunks c hc
    exact (chunk_eq_ok hnumbered).1
  obtain ⟨t, rfl, ht⟩ := hasLists_all hinfos hfacts
  refine ⟨rfl, rfl, rfl, ?_, hasLists_withMessaging ht messaging, passes_flowsIn hmessaging,
    callGraphsOf_eq l content⟩
  refine joinedDocs_text fun v hv => ?_
  obtain ⟨c, hc, rfl⟩ := List.mem_map.mp hv
  obtain ⟨numbered, hnumbered⟩ := hchunks c hc
  obtain ⟨-, p, hp⟩ := chunk_eq_ok hnumbered
  exact hanswer p _ hp

end Answers

/-! ### Sections -/

def heading (l : Language) (f : SourceFile) : String :=
  "### " ++ (nameOf f).display ++ " (" ++ Text.upper l.id ++ ")\n\n" ++
    ("**Path:** `" ++ ((relativePathOf f).orElse (pathOf f)).display ++ "`\n\n")

/-- What stands behind the documentation in a section. -/
def closing (info : Value) : Writing Unit := do
  factsPart (← ofOutcome (info.fieldOr "parsed_info" (.map [])))
  messagingPart (← ofOutcome (info.fieldOrNull "messaging_flows"))
  sequencePart info
  callGraphsPart info
  write "---\n\n"

section Section

variable {f : SourceFile} {d : Described}

/-- A section is a heading, the documentation without white space around it, and what stands
behind that. -/
theorem adds_fileSection (h : WellDescribed f d) {doc : String} (hdoc : d.documentation = .text doc)
    {o : Outcome Unit} {rest : String} (hrest : Adds (closing d.toValue) o rest) (l : Language) :
    Adds (fileSection d.toValue (.text l.id)) o
      (heading l f ++ Text.trim doc ++ "\n\n" ++ rest) := by
  have hsection : Adds (fileSection d.toValue (.text l.id)) o
      ("" ++ ("### " ++ d.name.display ++ " (" ++ Text.upper l.id ++ ")\n\n" ++
        ("**Path:** `" ++ (d.relativePath.orElse d.path).display ++ "`\n\n" ++
          (Text.trim doc ++ "\n\n" ++ rest)))) := by
    refine (adds_meet l.id).bind_ok ?_
    refine Adds.ofOutcome_bind rfl (Adds.ofOutcome_bind rfl ?_)
    refine (adds_write _).bind_ok ?_
    refine Adds.ofOutcome_bind rfl (Adds.ofOutcome_bind rfl ?_)
    refine (adds_write _).bind_ok ?_
    refine Adds.ofOutcome_bind (a := d.documentation) rfl ?_
    rw [hdoc]
    refine Adds.ofOutcome_bind rfl ?_
    exact (adds_write _).bind_ok hrest
  rw [h.name, h.path, h.relativePath] at hsection
  simpa only [heading, String.append_assoc, String.empty_append] using hsection

theorem adds_sequencePart (d : Described) : Adds (sequencePart d.toValue) (.ok ()) "" :=
  Adds.ofOutcome_bind rfl (adds_pure ())

theorem completes_closing (h : WellDescribed f d) (hchannel : publishesOnChannel d = false) :
    Completes (closing d.toValue) := by
  obtain ⟨t, hfacts, ht⟩ := h.facts
  obtain ⟨graphs, hgraphs⟩ := h.callGraphs
  obtain ⟨-, hmessaging⟩ | ⟨htrue, -⟩ := messagingPart_cases h.messaging
  · refine Completes.ofOutcome_bind (a := d.facts) rfl ?_
    rw [hfacts]
    refine (completes_factsPart ht).bind ?_
    refine Completes.ofOutcome_bind rfl (hmessaging.bind ?_)
    refine Completes.bind ⟨_, adds_sequencePart d⟩ ?_
    have hvalue : d.toValue.fieldOrNull "call_graphs" = .ok (.listOf CallGraph.toValue graphs) := by
      rw [Value.listOf, ← hgraphs]
      rfl
    exact (completes_callGraphsPart hvalue).bind (completes_write _)
  · rw [hchannel] at htrue
    cases htrue

/-- Messages on a channel break a section off. -/
theorem adds_closing_publishing (h : WellDescribed f d) (hchannel : publishesOnChannel d = true)
    {facts : String} (hfacts : Adds (factsPart d.facts) (.ok ()) facts) :
    Adds (closing d.toValue) (.error (.notJoinable 0 "dict"))
      (facts ++ "#### Messaging Flows\n\n") := by
  obtain ⟨hfalse, -⟩ | ⟨-, hmessaging⟩ := messagingPart_cases h.messaging
  · rw [hchannel] at hfalse
    cases hfalse
  · refine Adds.ofOutcome_bind rfl (hfacts.bind_ok ?_)
    exact Adds.ofOutcome_bind rfl hmessaging.bind_error

end Section

/-- The section of a file that something went wrong with. -/
def noteSection (l : Language) (f : SourceFile) (fault : Fault) : String :=
  heading l f ++ Text.trim (failureNote fault) ++ "\n\n" ++ "#### Code Structure\n\n\n---\n\n"

theorem adds_closing_bare (f : SourceFile) (note : String) :
    Adds (closing (Described.bare f note).toValue) (.ok ())
      "#### Code Structure\n\n\n---\n\n" := by
  have hcounts : Adds (counted.forM (countLine noFacts)) (.ok ()) "" := fun d hd =>
    ⟨d, rfl, String.append_empty.symm, hd⟩
  have hfacts : Adds (factsPart noFacts) (.ok ()) ("#### Code Structure\n\n" ++ ("" ++ "\n")) :=
    (adds_write _).bind_ok (hcounts.bind_ok (adds_write _))
  have hgraphs : Adds (callGraphsPart (Described.bare f note).toValue) (.ok ()) "" :=
    Adds.ofOutcome_bind rfl (adds_pure ())
  have hclosing : Adds (closing (Described.bare f note).toValue) (.ok ())
      ("#### Code Structure\n\n" ++ ("" ++ "\n") ++ ("" ++ ("" ++ ("" ++ "---\n\n")))) := by
    refine Adds.ofOutcome_bind rfl (hfacts.bind_ok ?_)
    refine Adds.ofOutcome_bind rfl ((adds_pure ()).bind_ok ?_)
    exact (adds_sequencePart _).bind_ok (hgraphs.bind_ok (adds_write _))
  exact hclosing

theorem adds_noteSection (l : Language) (f : SourceFile) (fault : Fault) :
    Adds (fileSection (Described.bare f (failureNote fault)).toValue (.text l.id)) (.ok ())
      (noteSection l f fault) :=
  adds_fileSection (wellDescribed_bare f _) rfl (adds_closing_bare f _) l

/-- What comes of a file, from how describing it ends. -/
inductive Streamed (l : Language) (f : SourceFile) : Outcome Described → String → Prop where
  /-- One section, with the documentation. -/
  | whole {d : Described} {doc rest : String} (hdoc : d.documentation = .text doc)
      (hchannel : publishesOnChannel d = false)
      (hrest : Adds (closing d.toValue) (.ok ()) rest) :
      Streamed l f (.ok d) (heading l f ++ Text.trim doc ++ "\n\n" ++ rest)
  /-- A section that breaks off at the messages, and behind it one that says why. -/
  | cut {d : Described} {doc facts : String} (hdoc : d.documentation = .text doc)
      (hchannel : publishesOnChannel d = true)
      (hfacts : Adds (factsPart d.facts) (.ok ()) facts) :
      Streamed l f (.ok d) (heading l f ++ Text.trim doc ++ "\n\n" ++
        (facts ++ "#### Messaging Flows\n\n") ++ noteSection l f (.notJoinable 0 "dict"))
  /-- A section that says what went wrong. -/
  | note {fault : Fault} : Streamed l f (.error fault) (noteSection l f fault)

def Shows (l : Language) (f : SourceFile) (e : FileEntry) (text : String) : Prop :=
  ∃ doc rest, e.described.documentation = .text doc ∧
    Adds (closing e.described.toValue) (.ok ()) rest ∧
    text = heading l f ++ Text.trim doc ++ "\n\n" ++ rest

theorem head?_append_of_head? {s : String} {a : Char} (h : s.toList.head? = some a)
    (t : String) : (s ++ t).toList.head? = some a := by
  rw [String.toList_append, List.head?_append, h]
  rfl

theorem getLast?_append_of_getLast? {t : String} {b : Char} (h : t.toList.getLast? = some b)
    (s : String) : (s ++ t).toList.getLast? = some b := by
  rw [String.toList_append, List.getLast?_append, h]
  rfl

/-- A text whose first and last characters are no white space is trimmed to itself. -/
theorem trim_of_ends {s : String} {a b : Char} (ha : s.toList.head? = some a)
    (hb : s.toList.getLast? = some b) (hfirst : Text.isBlank a = false)
    (hlast : Text.isBlank b = false) : Text.trim s = s := by
  obtain ⟨cs, hcs⟩ := List.head?_eq_some_iff.mp ha
  obtain ⟨ds, hds⟩ := List.getLast?_eq_some_iff.mp hb
  have hleft : Chars.trimLeftOf Text.isBlank s.toList = s.toList := by
    rw [hcs, Chars.trimLeftOf, List.dropWhile_cons_of_neg (by simp [hfirst])]
  have hright : Chars.trimRightOf Text.isBlank s.toList = s.toList := by
    rw [hds, Chars.trimRightOf, List.reverse_append, List.reverse_singleton, List.singleton_append,
      List.dropWhile_cons_of_neg (by simp [hlast])]
    simp
  rw [Text.trim, Chars.trim, Chars.trimOf, hleft, hright, String.ofList_toList]

/-- The note on a failure and its details are different, also without white space around them. -/
theorem trim_failureDetails_ne (fault : Fault) :
    Text.trim (failureDetails fault) ≠ Text.trim (failureNote fault) := by
  have hhead : (failureNote fault).toList.head? = some '*' :=
    head?_append_of_head? (head?_append_of_head? rfl _) _
  have hnote : Text.trim (failureNote fault) = failureNote fault :=
    trim_of_ends hhead (getLast?_append_of_getLast? rfl _) rfl rfl
  have hdetails : Text.trim (failureDetails fault) = failureDetails fault := by
    refine trim_of_ends (a := '*') (b := '>') ?_ (getLast?_append_of_getLast? rfl _) rfl rfl
    exact head?_append_of_head? (head?_append_of_head? (head?_append_of_head? hhead _) _) _
  -- The details begin with the note, but there is a trace behind it.
  rw [hnote, hdetails]
  intro heq
  have hlength := congrArg String.length heq
  simp only [failureDetails, String.length_append] at hlength
  have hpositive : 0 < traceText.length := by decide
  omega

/-- One section with the documentation of the entry comes exactly of a file that could be described
and does not publish on a channel. -/
theorem shows_iff {answer own : Prompt → Outcome Value} {style : EntryStyle} {l : Language}
    {f : SourceFile} (hanswer : ∀ p v, answer p = .ok v → ∃ s, v = .text s) {text : String}
    (h : Streamed l f (describedAs answer style l f) text) :
    Shows l f (entryOf answer own style l f) text ↔
      ∃ d, describedAs answer style l f = .ok d ∧ publishesOnChannel d = false := by
  rw [entryOf]
  cases hd : describedAs answer style l f with
  | error fault =>
    rw [hd] at h
    cases h with
    | note =>
      -- The section has the note where the entry has the details.
      refine ⟨?_, by simp⟩
      rintro ⟨doc, rest, hdoc, hrest, htext⟩
      obtain rfl : failureDetails fault = doc := by simpa [Described.bare] using hdoc
      obtain ⟨-, rfl⟩ := (adds_closing_bare f _).unique hrest
      have htrim : Text.trim (failureNote fault) = Text.trim (failureDetails fault) := by
        simpa only [noteSection, String.append_left_inj, String.append_right_inj] using htext
      exact absurd htrim.symm (trim_failureDetails_ne fault)
  | ok d =>
    rw [hd] at h
    have hknown := wellDescribed_of_describedAs hanswer hd
    cases h with
    | whole hdoc hchannel hrest =>
      exact ⟨fun _ => ⟨d, rfl, hchannel⟩, fun _ => ⟨_, _, hdoc, hrest, rfl⟩⟩
    | cut hdoc hchannel hfacts =>
      constructor
      · rintro ⟨doc, rest, -, hrest, -⟩
        obtain ⟨hends, -⟩ := (adds_closing_publishing hknown hchannel hfacts).unique hrest
        cases hends
      · rintro ⟨d', hd', hfalse⟩
        cases hd'
        rw [hchannel] at hfalse
        cases hfalse

end CodeScribe.Document
