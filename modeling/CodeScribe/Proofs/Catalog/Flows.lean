import CodeScribe.Catalog.Build
import CodeScribe.Proofs.Catalog.Sentences
import Mathlib.Data.List.Induction

/-!
# What the steps of a flow tell

The steps of a flow are sentences about its messages and the consumers of these.  Read back, they
tell just what they were made from.

* `flow_steps_decode` — for every flow of a catalog, the decoders give back its messages, its
  consumers and what these publish.
-/

namespace CodeScribe.Catalog

open Pattern Text

/-! ### The sentences of a flow -/

def bodySentences (body : List Char) : List Sentence :=
  let body := stripComments body
  let when' (p : Pattern) (s : Sentence) : List Sentence := if p.occursIn body then [s] else []
  when' newIdPattern .newId ++ when' changePattern .change ++ (messagesOf body).map .message ++
    when' (lit "GetSendEndpoint(") .endpoint

def Consumer.sentences (c : Consumer) : List Sentence :=
  .reads c.name :: (if c.readsDatabase then [.readsDatabase c.name] else []) ++
    c.publishes.map (.publishes c.name)

def matchedConsumers (consumers : Table (List Consumer)) (messages : List String) :
    List Consumer :=
  messages.flatMap fun m => (consumers.get? (shortType m)).getD []

theorem text_bodySentences (body : List Char) :
    (bodySentences body).map (·.text) = (stepsOf body).1 := by
  have hwhen : ∀ (b : Bool) (s : Sentence),
      (if b then [s] else []).map (·.text) = if b then [s.text] else [] := by
    intro b s
    cases b <;> rfl
  simp only [bodySentences, stepsOf, List.map_append, List.map_map, hwhen]
  rfl

theorem text_sentences (c : Consumer) : c.sentences.map (·.text) = consumerSteps c := by
  simp only [Consumer.sentences, consumerSteps, List.map_append, List.map_cons, List.map_map]
  cases c.readsDatabase <;> rfl

/-- The sentences of a flow: those of the body, then those of the matched consumers. -/
def flowSentences (body : List Char) (matched : List Consumer) : List Sentence :=
  bodySentences body ++ matched.flatMap (·.sentences)

theorem steps_flowOf (bodies : Table (List Char)) (consumers : Table (List Consumer))
    (e : Endpoint) :
    ∃ body, (flowOf bodies consumers e).messages = messagesOf (stripComments body) ∧
      (flowOf bodies consumers e).steps =
        (flowSentences body (matchedConsumers consumers (flowOf bodies consumers e).messages)).map
          (·.text) := by
  refine ⟨(bodies.get? (bodyKey e.controller e.method)).getD [], rfl, ?_⟩
  rw [flowSentences, List.map_append, text_bodySentences, List.map_flatMap]
  simp only [text_sentences]
  rfl

/-! ### What the sentences tell -/

theorem wellNamed_flowSentences {body : List Char} {matched : List Consumer}
    (hmatched : ∀ c ∈ matched, c.WellNamed) :
    ∀ s ∈ flowSentences body matched, s.WellNamed := by
  have hwhen : ∀ (b : Bool) (s : Sentence), s.WellNamed →
      ∀ s' ∈ (if b then [s] else []), s'.WellNamed := by
    intro b s hs s' hs'
    cases b with
    | false => cases hs'
    | true => rwa [List.mem_singleton.mp hs']
  intro s hs
  simp only [flowSentences, bodySentences, List.mem_append, List.mem_flatMap] at hs
  rcases hs with (((hs | hs) | hs) | hs) | ⟨c, hc, hs⟩
  · exact hwhen _ .newId trivial s hs
  · exact hwhen _ .change trivial s hs
  · obtain ⟨x, hx, rfl⟩ := List.mem_map.mp hs
    exact mem_messagesOf hx
  · exact hwhen _ .endpoint trivial s hs
  · have hc := hmatched c hc
    simp only [Consumer.sentences, List.mem_append, List.mem_cons] at hs
    rcases hs with (rfl | hs) | hs
    · exact hc.name
    · exact hwhen _ (.readsDatabase c.name) hc.name s hs
    · obtain ⟨x, hx, rfl⟩ := List.mem_map.mp hs
      exact ⟨hc.name, hc.publishes x hx⟩

/-- What a function finds in the sentences of a flow, from what it finds in each kind. -/
theorem filterMap_flowSentences {β : Type} (f : Sentence → Option β) (hid : f .newId = none)
    (hchange : f .change = none) (hendpoint : f .endpoint = none) (body : List Char)
    (matched : List Consumer) :
    (flowSentences body matched).filterMap f =
      (messagesOf (stripComments body)).filterMap (fun x => f (.message x)) ++
        matched.flatMap fun c => c.sentences.filterMap f := by
  have hwhen : ∀ (b : Bool) (s : Sentence), f s = none →
      (if b then [s] else []).filterMap f = [] := by
    intro b s hs
    cases b <;> simp [hs]
  simp only [flowSentences, bodySentences, List.filterMap_append, hwhen _ _ hid,
    hwhen _ _ hchange, hwhen _ _ hendpoint, List.filterMap_map, List.filterMap_flatMap,
    List.nil_append, List.append_nil]
  rfl

variable (body : List Char) (matched : List Consumer)

theorem messages_flowSentences : (flowSentences body matched).filterMap (·.message?) =
    messagesOf (stripComments body) := by
  have hnone : ∀ c : Consumer, c.sentences.filterMap (·.message?) = [] := by
    intro c
    cases hdb : c.readsDatabase <;>
      simp [Consumer.sentences, hdb, Sentence.message?, List.filterMap_map]
  rw [filterMap_flowSentences _ rfl rfl rfl]
  simp only [hnone]
  simp [Sentence.message?]

theorem consumers_flowSentences :
    (flowSentences body matched).filterMap (·.consumer?) = matched.map (·.name) := by
  have hone : ∀ c : Consumer, c.sentences.filterMap (·.consumer?) = [c.name] := by
    intro c
    cases hdb : c.readsDatabase <;>
      simp [Consumer.sentences, hdb, Sentence.consumer?, List.filterMap_map]
  rw [filterMap_flowSentences _ rfl rfl rfl]
  simp only [hone]
  simp [Sentence.consumer?, List.map_eq_flatMap]

theorem publishes_flowSentences : (flowSentences body matched).filterMap (·.publish?) =
    matched.flatMap fun c => c.publishes.map fun x => (c.name, x) := by
  have hall : ∀ c : Consumer,
      c.sentences.filterMap (·.publish?) = c.publishes.map fun x => (c.name, x) := by
    intro c
    cases hdb : c.readsDatabase <;>
      simp [Consumer.sentences, hdb, Sentence.publish?, List.filterMap_map]
  rw [filterMap_flowSentences _ rfl rfl rfl]
  simp only [hall]
  simp [Sentence.publish?]

/-! ### Reading back -/

/-- Steps that are sentences tell what a pattern finds in each sentence. -/
theorem filterMap_text {β : Type} {ss : List Sentence} {decode : String → Option β}
    {tell : Sentence → Option β} (hss : ∀ s ∈ ss, s.WellNamed)
    (h : ∀ s : Sentence, s.WellNamed → decode s.text = tell s) :
    (ss.map (·.text)).filterMap decode = ss.filterMap tell := by
  rw [List.filterMap_map]
  exact List.filterMap_congr fun s hs => h s (hss s hs)

def enter (t : Table (List String)) (pair : String × String) : Table (List String) :=
  t.alter pair.1 fun ms =>
    if (ms.getD []).contains pair.2 then ms.getD [] else ms.getD [] ++ [pair.2]

theorem addPublish_text {s : Sentence} (hs : s.WellNamed) (t : Table (List String)) :
    addPublish t s.text = (s.publish?.map (enter t)).getD t := by
  have hread := Sentence.publish?_text hs
  cases hfind : publishStepPattern.find? s.text.toList with
  | none =>
    rw [hfind, Option.map_none] at hread
    rw [addPublish, hfind, ← hread]
    rfl
  | some m =>
    rw [hfind, Option.map_some] at hread
    cases s with
    | publishes c x =>
      cases hread
      have hx : MadeOf isWord (m.get 2) := hs.2
      rw [addPublish, hfind]
      dsimp only
      rw [shortType_eq_self hx.2, if_neg (by simpa using hx.ne_empty)]
      rfl
    | newId => cases hread
    | change => cases hread
    | endpoint => cases hread
    | message _ => cases hread
    | reads _ => cases hread
    | readsDatabase _ => cases hread

theorem consumerPublishes_text {ss : List Sentence} (hss : ∀ s ∈ ss, s.WellNamed) :
    consumerPublishes (ss.map (·.text)) = (ss.filterMap (·.publish?)).foldl enter [] := by
  have hfold : ∀ t : Table (List String),
      (ss.map (·.text)).foldl addPublish t = (ss.filterMap (·.publish?)).foldl enter t := by
    induction ss with
    | nil => intro t; rfl
    | cons s ss ih =>
      obtain ⟨hs, hss⟩ := List.forall_mem_cons.mp hss
      intro t
      rw [List.map_cons, List.foldl_cons, addPublish_text hs, ih hss]
      cases hpair : s.publish? with
      | none => rw [List.filterMap_cons_none hpair]; rfl
      | some pair => rw [List.filterMap_cons_some hpair]; rfl
  exact hfold []

/-- One more element keeps the others, and comes last if it is new. -/
theorem eraseDups_append_singleton (xs : List String) (x : String) :
    (xs ++ [x]).eraseDups = if x ∈ xs then xs.eraseDups else xs.eraseDups ++ [x] := by
  rw [List.eraseDups_append]
  split
  · rename_i h
    simp [List.removeAll, h]
  · rename_i h
    simp only [List.removeAll, List.filter_cons, List.filter_nil, List.elem_eq_mem, h]
    rfl

/-- Entering messages one by one keeps, for each consumer, each message once and in order. -/
theorem get?_foldl_enter (pairs : List (String × String)) (name : String) :
    (pairs.foldl enter []).get? name =
      let messages := (pairs.filter (·.1 == name)).map (·.2)
      if messages = [] then none else some messages.eraseDups := by
  induction pairs using List.reverseRecOn with
  | nil => rfl
  | append_singleton pairs pair ih =>
    obtain ⟨c, x⟩ := pair
    rw [List.foldl_append, List.foldl_cons, List.foldl_nil, enter, Table.get?_alter]
    by_cases hc : name = c
    · subst hc
      have hfilter : ((pairs ++ [(name, x)]).filter (·.1 == name)).map (·.2)
          = (pairs.filter (·.1 == name)).map (·.2) ++ [x] := by simp [List.filter_append]
      rw [if_pos rfl, ih, hfilter]
      generalize (pairs.filter (·.1 == name)).map (·.2) = messages
      have hne : messages ++ [x] ≠ [] := by simp
      dsimp only
      rw [if_neg hne, eraseDups_append_singleton]
      cases messages with
      | nil => rfl
      | cons y ys => simp [List.mem_eraseDups]
    · have hfilter : (pairs ++ [(c, x)]).filter (·.1 == name) = pairs.filter (·.1 == name) := by
        simp [List.filter_append, beq_false_of_ne fun h => hc h.symm]
      rw [if_neg hc, ih, hfilter]

theorem published_of_name (entries : List Consumer) (name : String) :
    ((entries.flatMap fun c => c.publishes.map fun x => (c.name, x)).filter (·.1 == name)).map (·.2)
      = (entries.filter (·.name == name)).flatMap (·.publishes) := by
  induction entries with
  | nil => rfl
  | cons c entries ih =>
    rw [List.flatMap_cons, List.filter_append, List.map_append, ih, List.filter_cons]
    by_cases hc : c.name = name
    · simp [hc, List.filter_map, Function.comp_def]
    · simp [hc, List.filter_map, Function.comp_def]

theorem exists_sentences {graph : Option Dependency.Graph} {files : List SourceFile} {f : Flow}
    (hf : f ∈ (ServiceCatalog.ofFiles graph files).flows) :
    ∃ ss : List Sentence, f.steps = ss.map (·.text) ∧ (∀ s ∈ ss, s.WellNamed) ∧
      let entries := matchedConsumers
        (consumersByMessage ((files.filter isCSharp).map contentText)) f.messages
      ss.filterMap (·.message?) = f.messages ∧
      ss.filterMap (·.consumer?) = entries.map (·.name) ∧
      ss.filterMap (·.publish?) =
        entries.flatMap fun c => c.publishes.map fun x => (c.name, x) := by
  obtain ⟨e, -, he⟩ := List.mem_map.mp hf
  obtain ⟨body, hmessages, hsteps⟩ := steps_flowOf _ _ e
  rw [he] at hmessages hsteps
  refine ⟨_, hsteps, wellNamed_flowSentences ?_, ?_, consumers_flowSentences _ _,
    publishes_flowSentences _ _⟩
  · intro c hc
    obtain ⟨m, -, hc⟩ := List.mem_flatMap.mp hc
    exact wellNamed_of_mem_consumers hc
  · rw [messages_flowSentences, hmessages]

/-- The steps of every flow decode to its messages, to the names of the matched consumers, and to
what these consumers publish: `flowMessages` reads them in order, the other decoders each once. -/
theorem flow_steps_decode (graph : Option Dependency.Graph) (files : List SourceFile) (f : Flow)
    (hf : f ∈ (ServiceCatalog.ofFiles graph files).flows) :
    let entries := matchedConsumers
      (consumersByMessage ((files.filter isCSharp).map contentText)) f.messages
    AppSequence.flowMessages f.steps = (f.messages, entries.map (·.name)) ∧
    messageNames f.steps = ((f.messages.map shortType).filter (· != "")).eraseDups ∧
    consumerNames f.steps = (entries.map (·.name)).eraseDups ∧
    ∀ name, (consumerPublishes f.steps).get? name =
      let published := (entries.filter (·.name == name)).flatMap (·.publishes)
      if published = [] then none else some published.eraseDups := by
  intro entries
  obtain ⟨ss, hsteps, hss, hmessages, hconsumers, hpublishes⟩ := exists_sentences hf
  have hnames : ∀ x ∈ entries.map (·.name), (x != "") = true := by
    rw [← hconsumers]
    intro x hx
    obtain ⟨s, hs, hx⟩ := List.mem_filterMap.mp hx
    cases s with
    | reads c =>
      cases hx
      have hname : MadeOf isWord x := hss _ hs
      simpa using hname.ne_empty
    | _ => cases hx
  rw [hsteps]
  refine ⟨?_, ?_, ?_, ?_⟩
  · rw [AppSequence.flowMessages, filterMap_text hss fun _ => Sentence.drawnMessage?_text,
      filterMap_text hss fun _ => Sentence.drawnConsumer?_text, hmessages, hconsumers]
  · have hshort : ∀ s : Sentence, s.WellNamed →
        (messageStepPattern.find? s.text.toList).map (fun m => shortType (m.get 1)) =
          s.message?.map shortType := by
      intro s hs
      rw [← Sentence.message?_text hs, Option.map_map, Function.comp_def]
    rw [messageNames, filterMap_text hss hshort, ← hmessages, List.map_filterMap]
    rfl
  · rw [consumerNames, filterMap_text hss fun _ => Sentence.consumer?_text, hconsumers, distinct,
      List.filter_eq_self.mpr hnames]
  · intro name
    rw [consumerPublishes_text hss, get?_foldl_enter, hpublishes, published_of_name]

def orderSource : SourceFile :=
  .ofTexts "Orders.cs" "Orders.cs" "Orders.cs" "csharp"
    ("class OrderController \x7b\n[HttpPost]\n" ++
      "public void Place() \x7b bus.Publish<Shop.Order>(o); \x7d\n\x7d\n" ++
      "class Billing : IConsumer<Order> \x7b void Take() \x7b bus.Publish<Bill>(b); \x7d \x7d")

theorem order_steps_decode :
    ∃ f ∈ (ServiceCatalog.ofFiles none [orderSource]).flows,
      f.messages = ["Shop.Order"] ∧
      f.steps = ["Publish/Send Shop.Order to queue", "Consumer Billing reads queue",
        "Consumer Billing publishes Order", "Consumer Billing publishes Bill"] ∧
      AppSequence.flowMessages f.steps = (["Shop.Order"], ["Billing"]) := by
  have hfacts : (ServiceCatalog.ofFiles none [orderSource]).flows.map
      (fun f => (f.messages, f.steps)) = [(["Shop.Order"],
        ["Publish/Send Shop.Order to queue", "Consumer Billing reads queue",
          "Consumer Billing publishes Order", "Consumer Billing publishes Bill"])] := by
    decide +kernel
  obtain ⟨f, hflows, hf⟩ := List.map_eq_singleton_iff.mp hfacts
  obtain ⟨hmessages, hsteps⟩ := Prod.mk.inj hf
  have hmem : f ∈ (ServiceCatalog.ofFiles none [orderSource]).flows := by simp [hflows]
  refine ⟨f, hmem, hmessages, hsteps, ?_⟩
  rw [(flow_steps_decode none [orderSource] f hmem).1, hmessages]
  decide +kernel

end CodeScribe.Catalog
