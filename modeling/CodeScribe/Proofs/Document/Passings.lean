import CodeScribe.Document.Records
import CodeScribe.Messaging.Flows
import CodeScribe.Proofs.Diagram.MessageLines
import CodeScribe.Proofs.Source.Settings

/-!
# Services in the diagram of all messages

The files of a document name services to the diagram of their messages: a script that uses a
channel names itself, and a source on a bus names whoever listens to its queues, and itself if it
sends to the address of a queue.  These services, the messages and the consumers are declared before
any arrow that touches them.  A source that publishes messages, and does nothing else, is drawn with
an arrow but not declared.

* `Document.Passing.Found.extends` — the parts that a file adds are named, and their services are
  those that the file names;
* `Document.Passing.ends_declared` — the diagram of any files: which ends of arrows are declared;
* `Document.Passing.publisher_undeclared` — an end that no line declares does occur.
-/

namespace CodeScribe

variable {ε α β : Type}

theorem ok_bind (a : α) (f : α → Except ε β) : (.ok a >>= f) = f a := rfl

/-- Each item of a list succeeds, so the list does. -/
theorem mapM_eq_ok {f : α → Except ε β} {g : α → β} {xs : List α} (h : ∀ x ∈ xs, f x = .ok (g x)) :
    xs.mapM f = .ok (xs.map g) := by
  induction xs with
  | nil => rfl
  | cons x xs ih =>
    obtain ⟨hx, hxs⟩ := List.forall_mem_cons.mp h
    rw [List.mapM_cons, hx, ih hxs]
    rfl

theorem filterMapM_eq_ok {f : α → Except ε (Option β)} {g : α → Option β} {xs : List α}
    (h : ∀ x ∈ xs, f x = .ok (g x)) : xs.filterMapM f = .ok (xs.filterMap g) := by
  induction xs with
  | nil => rfl
  | cons x xs ih =>
    obtain ⟨hx, hxs⟩ := List.forall_mem_cons.mp h
    rw [List.filterMapM_cons, hx, ih hxs, List.filterMap_cons]
    cases g x <;> rfl

namespace Integration

open Value (text)

variable {v : Value}

/-! ### What a record adds -/

/-- Parts that were added to others are named if those are, and name more services. -/
structure Extends (p q : Parts) (services : List String) : Prop where
  named : p.Named → q.Named
  services : ∀ s, s ∈ q.services ↔ s ∈ p.services ∨ s ∈ services

theorem Extends.refl (p : Parts) : Extends p p [] := ⟨id, by simp⟩

theorem Extends.trans {p q r : Parts} {as bs : List String} (h : Extends p q as)
    (h' : Extends q r bs) : Extends p r (as ++ bs) := by
  refine ⟨h'.named ∘ h.named, ?_⟩
  intro s
  rw [h'.services, h.services, List.mem_append, or_assoc]

theorem mem_services_append (p q : Parts) {publishers : List Publisher}
    {consumers : List (Value × Value)} (hp : q.publishers = p.publishers ++ publishers)
    (hc : q.consumers = p.consumers ++ consumers) (s : String) :
    s ∈ q.services ↔ s ∈ p.services ∨
      (∃ x ∈ publishers, x.service = text s) ∨ ∃ c ∈ consumers, c.2 = text s := by
  simp only [Parts.mem_services, hp, hc, List.mem_append, or_and_right, exists_or]
  exact or_or_or_comm

theorem named_itself {publishers : List Publisher} {consumers : List (Value × Value)}
    {file : String} (hp : ∀ x ∈ publishers, x.service = text file)
    (hc : ∀ c ∈ consumers, c.2 = text file) (s : String) :
    ((∃ x ∈ publishers, x.service = text s) ∨ ∃ c ∈ consumers, c.2 = text s) ↔
      (publishers ≠ [] ∨ consumers ≠ []) ∧ s = file := by
  constructor
  · rintro (⟨x, hx, hs⟩ | ⟨c, hcm, hs⟩)
    · exact ⟨.inl (List.ne_nil_of_mem hx), Value.text.inj (hs.symm.trans (hp x hx))⟩
    · exact ⟨.inr (List.ne_nil_of_mem hcm), Value.text.inj (hs.symm.trans (hc c hcm))⟩
  · rintro ⟨hp' | hc', rfl⟩
    · obtain ⟨x, hx⟩ := List.exists_mem_of_ne_nil _ hp'
      exact .inl ⟨x, hx, hp x hx⟩
    · obtain ⟨c, hcm⟩ := List.exists_mem_of_ne_nil _ hc'
      exact .inr ⟨c, hcm, hc c hcm⟩

/-- The value of a field, nothing if there is none. -/
def fieldAt (v : Value) (key : String) : Value := (v.get? key).getD .null

theorem fieldOr_of_isTable (h : Broker.isTable v = true) (key : String) (default : Value) :
    v.fieldOr key default = .ok ((v.get? key).getD default) := by
  cases v with
  | map entries => rfl
  | _ => cases h

theorem fieldOrNull_of_isTable (h : Broker.isTable v = true) (key : String) :
    v.fieldOrNull key = .ok (fieldAt v key) := fieldOr_of_isTable h key .null

theorem under_eq {flows : Value} {key : String} {items : List Value}
    (h : flows.get? key = some (.list items)) : under flows key = .ok items := by
  have htable : Broker.isTable flows = true := by
    cases flows with
    | map entries => rfl
    | _ => cases h
  rw [under, fieldOr_of_isTable htable, h]
  cases items <;> rfl

theorem addNamed_named (table : List (Value × Value)) {valueOf : Value → Outcome Value}
    {items : List Value}
    (hitems : ∀ x ∈ items, Broker.isTable x = true ∧ isName (fieldAt x "name") = true)
    (hvalue : ∀ x ∈ items, ∃ v, valueOf x = .ok v) :
    ∃ t, addNamed table valueOf items = .ok t ∧
      ((∀ e ∈ table, ∃ s, e.1 = text s) → ∀ e ∈ t, ∃ s, e.1 = text s) := by
  refine foldlM_along (fun _ (t : List (Value × Value)) =>
    (∀ e ∈ table, ∃ s, e.1 = text s) → ∀ e ∈ t, ∃ s, e.1 = text s) ?_ id
  intro done x t hx ht
  obtain ⟨hisTable, hname⟩ := hitems x hx
  obtain ⟨v, hv⟩ := hvalue x hx
  rw [fieldOrNull_of_isTable hisTable]
  by_cases hpresent : (fieldAt x "name").isPresent = true
  · obtain ⟨s, hs⟩ := exists_text_of_isName hname hpresent
    refine ⟨Value.insert (text s) v t, ?_, ?_⟩
    · show (if (fieldAt x "name").isPresent = true then _ else _) = _
      rw [if_pos hpresent, hs, hv]
      rfl
    · intro htable
      exact forall_key_insert (P := fun k => ∃ s, k = text s) (ht htable) ⟨s, rfl⟩ v
  · refine ⟨t, ?_, ht⟩
    show (if (fieldAt x "name").isPresent = true then _ else _) = _
    rw [if_neg hpresent]
    rfl

/-- Exchanges, queues and bindings as some flows list them: tables with names. -/
structure Topology (flows : Value) (es qs bs : List Value) : Prop where
  exchanges : flows.get? "exchanges" = some (.list es)
  queues : flows.get? "queues" = some (.list qs)
  bindings : flows.get? "bindings" = some (.list bs)
  table : ∀ x ∈ es ++ qs ++ bs, Broker.isTable x = true
  name : ∀ x ∈ es ++ qs ++ bs, ∀ key ∈ ["name", "exchange", "queue"], isName (fieldAt x key) = true

theorem Topology.extends {flows : Value} {es qs bs : List Value} (h : Topology flows es qs bs)
    (p : Parts) : ∃ q, addTopology p flows = .ok q ∧ Extends p q [] := by
  have hitems {xs : List Value} (hxs : xs ⊆ es ++ qs ++ bs) :
      ∀ x ∈ xs, Broker.isTable x = true ∧ isName (fieldAt x "name") = true :=
    fun x hx => ⟨h.table x (hxs hx), h.name x (hxs hx) "name" (by simp)⟩
  have hes : es ⊆ es ++ qs ++ bs := fun x hx => by simp [hx]
  have hqs : qs ⊆ es ++ qs ++ bs := fun x hx => by simp [hx]
  obtain ⟨exchanges, hexchanges, hnamedE⟩ := addNamed_named p.exchanges (hitems hes)
    fun x hx => ⟨_, fieldOr_of_isTable (h.table x (hes hx)) "type" (text "")⟩
  obtain ⟨queues, hqueues, hnamedQ⟩ := addNamed_named p.queues (hitems hqs)
    fun x hx => ⟨.bool true, rfl⟩
  have hbindings : bs.mapM (fun b => do
      return (← b.fieldOrNull "exchange", ← b.fieldOrNull "queue"))
        = .ok (bs.map fun b => (fieldAt b "exchange", fieldAt b "queue")) := by
    apply mapM_eq_ok
    intro b hb
    have htable := h.table b (by simp [hb])
    rw [fieldOrNull_of_isTable htable, fieldOrNull_of_isTable htable]
    rfl
  refine ⟨{ p with exchanges, queues, bindings := p.bindings ++ bs.map fun b =>
    (fieldAt b "exchange", fieldAt b "queue") }, ?_, ?_, ?_⟩
  · rw [addTopology, under_eq h.exchanges, under_eq h.queues, under_eq h.bindings]
    simp only [ok_bind, hexchanges, hqueues, hbindings]
    rfl
  · intro hp
    refine ⟨hnamedE hp.exchanges, hnamedQ hp.queues, ?_, hp.publishers, hp.consumers,
      hp.messagePublishers, hp.messageConsumers⟩
    refine List.forall_mem_append.mpr ⟨hp.bindings, ?_⟩
    intro b hb
    obtain ⟨x, hx, rfl⟩ := List.mem_map.mp hb
    exact ⟨h.name x (by simp [hx]) "exchange" (by simp), h.name x (by simp [hx]) "queue" (by simp)⟩
  · intro s
    simp [Parts.services]

def IsTextTable (v : Value) : Prop :=
  ∃ fields : List (String × String), v = .record (fields.map fun e => (e.1, text e.2))

theorem IsTextTable.isTable (h : IsTextTable v) : Broker.isTable v = true := by
  obtain ⟨fields, rfl⟩ := h
  rfl

theorem IsTextTable.isName_fieldAt (h : IsTextTable v) (key : String) :
    isName (fieldAt v key) = true := by
  obtain ⟨fields, rfl⟩ := h
  have hget : isName ((Value.lookup (text key) (fields.map fun e => (text e.1, text e.2))).getD
      .null) = true := by
    induction fields with
    | nil => rfl
    | cons e es ih =>
      rw [List.map_cons, Value.lookup]
      split
      · simp [isName, Value.text?]
      · exact ih
  simpa [fieldAt, Value.record, Value.get?, Function.comp_def] using hget

end Integration

namespace Document.Passing

open Integration
open Value (text)

variable {p : Passing} {file : String} {v : Value}

/-! ### Services that a file names -/

def itself (p : Passing) (uses : List Value) : List String :=
  if uses.isEmpty then [] else p.file.text?.toList

def listeners (p : Passing) (flow : Value) : List String :=
  if !(fieldAt flow "queue").isPresent then []
  else if Text.join ", " ((fieldAt flow "consumers").items.filterMap Value.text?) = "" then
    p.file.text?.toList
  else [Text.join ", " ((fieldAt flow "consumers").items.filterMap Value.text?)]

/-- The services that a file names: itself, if it uses a channel or the address of a queue, and the
listeners of its queues on a bus. -/
def services (p : Passing) : List String :=
  if p.way.same (text "amqplib") then
    p.itself (p.under "publishes" ++ p.under "send_to_queue" ++ p.under "consumes")
  else if p.way.same (text "masstransit") then
    (p.under "flows").flatMap p.listeners ++
      p.itself ((p.under "send_endpoints").filter fun address => (queueOf? address).isSome)
  else []

theorem under_eq_of_list {key : String} {items : List Value}
    (h : p.flows.get? key = some (.list items)) : p.under key = items := by
  rw [under, h]
  cases items <;> rfl

theorem mem_itself (hfile : p.file = text file) {uses : List Value} {s : String} :
    s ∈ p.itself uses ↔ uses ≠ [] ∧ s = file := by
  cases uses <;> simp [itself, hfile, Value.text?]

/-! ### Channels -/

def ofChannel (file : String) (f : Channel.Flows) : Passing :=
  ⟨text file, Messaging.marked "amqplib" f.toValue⟩

theorem topology_channel (f : Channel.Flows) :
    ∃ es qs bs, Topology (Messaging.marked "amqplib" f.toValue) es qs bs := by
  have htexts : ∀ x ∈ (f.exchanges.map fun e => Value.record [("name", text e.name),
      ("type", text e.type)]) ++ (f.queues.map fun q => Value.record [("name", text q)]) ++
        f.bindings.map fun b => Value.record [("queue", text b.queue),
          ("exchange", text b.exchange), ("routing_key", text b.routingKey)], IsTextTable x := by
    intro x hx
    simp only [List.mem_append, List.mem_map] at hx
    rcases hx with (⟨e, -, rfl⟩ | ⟨q, -, rfl⟩) | ⟨b, -, rfl⟩
    · exact ⟨[("name", e.name), ("type", e.type)], rfl⟩
    · exact ⟨[("name", q)], rfl⟩
    · exact ⟨[("queue", b.queue), ("exchange", b.exchange), ("routing_key", b.routingKey)], rfl⟩
  exact ⟨_, _, _, rfl, rfl, rfl, fun x hx => (htexts x hx).isTable,
    fun x hx key _ => (htexts x hx).isName_fieldAt key⟩

theorem services_channel (file : String) (f : Channel.Flows) :
    (ofChannel file f).services
      = (ofChannel file f).itself ((f.publishes.map fun x => .record [("exchange", text x.exchange),
          ("routing_key", text x.routingKey)]) ++ (f.sends.map fun q => .record [("queue", text q)])
            ++ f.consumes.map fun q => .record [("queue", text q)]) := by
  have hservices : (ofChannel file f).services = (ofChannel file f).itself _ := rfl
  rw [hservices, under_eq_of_list rfl, under_eq_of_list rfl, under_eq_of_list rfl]

/-- What a script that uses a channel adds to exchanges, queues and bindings. -/
def addUses (p : Parts) (file : String) (f : Channel.Flows) : Parts :=
  { p with
    publishers := p.publishers ++
      (f.publishes.map fun x => { service := text file, exchange := text x.exchange }) ++
        f.sends.map fun q => { service := text file, queue := text q }
    consumers := p.consumers ++ f.consumes.map fun q => (text q, text file) }

theorem addChannel_eq {f : Channel.Flows} {p p' : Parts} (file : String)
    (h : addTopology p (Messaging.marked "amqplib" f.toValue) = .ok p') :
    addChannel p (text file) (Messaging.marked "amqplib" f.toValue)
      = .ok (addUses p' file f) := by
  have hpublished : (f.publishes.map fun x => Value.record [("exchange", text x.exchange),
      ("routing_key", text x.routingKey)]).mapM (fun x => do
        return { service := text file, exchange := ← x.fieldOrNull "exchange" : Publisher })
      = .ok (f.publishes.map fun x => { service := text file, exchange := text x.exchange }) := by
    rw [List.mapM_map]
    exact mapM_eq_ok fun x _ => rfl
  have hsent : (f.sends.map fun q => Value.record [("queue", text q)]).mapM (fun x => do
        return { service := text file, queue := ← x.fieldOrNull "queue" : Publisher })
      = .ok (f.sends.map fun q => { service := text file, queue := text q }) := by
    rw [List.mapM_map]
    exact mapM_eq_ok fun x _ => rfl
  have hconsumed : (f.consumes.map fun q => Value.record [("queue", text q)]).mapM (fun x => do
        return (← x.fieldOrNull "queue", text file))
      = .ok (f.consumes.map fun q => (text q, text file)) := by
    rw [List.mapM_map]
    exact mapM_eq_ok fun x _ => rfl
  rw [addChannel, h, ok_bind, under_eq rfl, ok_bind, hpublished, ok_bind, under_eq rfl, ok_bind,
    hsent, ok_bind, under_eq rfl, ok_bind, hconsumed, ok_bind]
  rfl

theorem isName_text (s : String) : isName (text s) = true := by
  simp [isName, Value.text?]

theorem addUses_extends (p : Parts) (file : String) (f : Channel.Flows) :
    Extends p (addUses p file f)
      (ofChannel file f).services := by
  refine ⟨?_, ?_⟩
  · intro hp
    refine ⟨hp.exchanges, hp.queues, hp.bindings, ?_, ?_, hp.messagePublishers,
      hp.messageConsumers⟩
    · refine List.forall_mem_append.mpr ⟨List.forall_mem_append.mpr ⟨hp.publishers, ?_⟩, ?_⟩
      · exact List.forall_mem_map.mpr fun x _ => ⟨⟨file, rfl⟩, isName_text _, rfl⟩
      · exact List.forall_mem_map.mpr fun q _ => ⟨⟨file, rfl⟩, rfl, isName_text _⟩
    · refine List.forall_mem_append.mpr ⟨hp.consumers, ?_⟩
      exact List.forall_mem_map.mpr fun q _ => ⟨isName_text _, file, rfl⟩
  · intro s
    rw [mem_services_append p _ (List.append_assoc _ _ _) rfl, services_channel,
      mem_itself rfl]
    have hpublishers : ∀ x ∈ (f.publishes.map fun x =>
        ({ service := text file, exchange := text x.exchange } : Publisher)) ++
          f.sends.map fun q => { service := text file, queue := text q },
        x.service = text file :=
      List.forall_mem_append.mpr ⟨List.forall_mem_map.mpr fun _ _ => rfl,
        List.forall_mem_map.mpr fun _ _ => rfl⟩
    rw [named_itself hpublishers (List.forall_mem_map.mpr fun _ _ => rfl)]
    simp [or_iff_not_imp_left]

theorem addChannel_extends (f : Channel.Flows) (file : String) (p : Parts) :
    ∃ q, addChannel p (text file) (Messaging.marked "amqplib" f.toValue) = .ok q ∧
      Extends p q (ofChannel file f).services := by
  obtain ⟨es, qs, bs, htopology⟩ := topology_channel f
  obtain ⟨p', hp', hextends⟩ := htopology.extends p
  exact ⟨addUses p' file f, addChannel_eq file hp', hextends.trans (addUses_extends p' file f)⟩

/-! ### Buses -/

def ofBus (file : String) (f : Bus.Flows) : Passing :=
  ⟨text file, Messaging.marked "masstransit" f.toValue⟩

theorem joined_texts (sep : String) (ss : List String) :
    (Value.texts ss).joined sep = .ok (Text.join sep ss) := by
  have hfrom (i : Nat) : Value.textsFrom i (ss.map text) = .ok ss := by
    induction ss generalizing i with
    | nil => rfl
    | cons s ss ih =>
      rw [List.map_cons, Value.textsFrom, ih]
      rfl
  rw [Value.texts, Value.joined, Value.each]
  simp only [hfrom]
  rfl

theorem items_texts (ss : List String) : (Value.texts ss).items.filterMap Value.text? = ss := by
  rw [Value.texts, Value.items, List.filterMap_map]
  exact List.filterMap_some

def listener (file : String) (q : Bus.Queue) : String :=
  if Text.join ", " q.consumers = "" then file else Text.join ", " q.consumers

theorem listeners_queue (hfile : p.file = text file) (q : Bus.Queue) :
    p.listeners q.toValue = if (text q.name).isPresent then [listener file q] else [] := by
  have hqueue : fieldAt q.toValue "queue" = text q.name := rfl
  have hconsumers : fieldAt q.toValue "consumers" = Value.texts q.consumers := rfl
  rw [listeners, listener, hqueue, hconsumers, items_texts]
  by_cases hpresent : (text q.name).isPresent = true
  · by_cases hnames : Text.join ", " q.consumers = "" <;>
      simp [hpresent, hnames, hfile, Value.text?]
  · simp [hpresent]

def addListener (p : Parts) (queue service : String) : Parts :=
  { p with
    queues := Value.insert (text queue) (.bool true) p.queues
    consumers := p.consumers ++ [(text queue, text service)] }

theorem addListener_extends (p : Parts) (queue service : String) :
    Extends p (addListener p queue service) [service] := by
  refine ⟨?_, ?_⟩
  · intro hp
    refine ⟨hp.exchanges, ?_, hp.bindings, hp.publishers, ?_, hp.messagePublishers,
      hp.messageConsumers⟩
    · exact forall_key_insert (P := fun k => ∃ s, k = text s) hp.queues ⟨queue, rfl⟩ (.bool true)
    · refine List.forall_mem_append.mpr ⟨hp.consumers, ?_⟩
      exact List.forall_mem_singleton.mpr ⟨isName_text _, service, rfl⟩
  · intro s
    rw [mem_services_append p (addListener p queue service) (List.append_nil _).symm rfl]
    simp [eq_comm]

/-- What a queue of a bus adds: itself, and who listens to it. -/
def addQueue (file : String) (p : Parts) (q : Bus.Queue) : Parts :=
  if (text q.name).isPresent then addListener p q.name (listener file q) else p

theorem addEndpoint_eq (file : String) (p : Parts) (q : Bus.Queue) :
    addEndpoint (text file) p q.toValue = .ok (addQueue file p q) := by
  have hqueue : q.toValue.fieldOrNull "queue" = .ok (text q.name) := rfl
  have hconsumers : q.toValue.fieldOr "consumers" (.list []) = .ok (Value.texts q.consumers) := rfl
  rw [addEndpoint, hqueue, ok_bind, addQueue, hconsumers]
  cases (text q.name).isPresent
  · rfl
  · rw [listener]
    simp only [ok_bind, joined_texts, Bool.not_true, Bool.false_eq_true, if_false, if_true]
    by_cases hnames : Text.join ", " q.consumers = ""
    · simp only [hnames, if_true, beq_self_eq_true]
      rfl
    · simp only [hnames, if_false, beq_iff_eq]
      rfl

theorem addQueue_extends (hfile : p.file = text file) (parts : Parts) (q : Bus.Queue) :
    Extends parts (addQueue file parts q) (p.listeners q.toValue) := by
  rw [listeners_queue hfile, addQueue]
  split
  · exact addListener_extends parts q.name (listener file q)
  · exact Extends.refl parts

def addMessages (file : String) (p : Parts) (f : Bus.Flows) : Parts :=
  { p with
    messagePublishers := p.messagePublishers ++
      ((f.publishes ++ f.sends).map text).map (·, text file)
    messageConsumers := p.messageConsumers ++ f.consumers.filterMap fun c =>
      if (text c.message).isPresent then
        some (text c.message, (text c.name).orElse (text file)) else none
    publishers := p.publishers ++ ((f.sendEndpoints.map text).filterMap queueOf?).map fun q =>
      { service := text file, queue := text q } }

theorem foldlM_addEndpoint (file : String) (p : Parts) (qs : List Bus.Queue) :
    (qs.map Bus.Queue.toValue).foldlM (addEndpoint (text file)) p
      = .ok (qs.foldl (addQueue file) p) := by
  induction qs generalizing p with
  | nil => rfl
  | cons q qs ih =>
    rw [List.map_cons, List.foldlM_cons, addEndpoint_eq, ok_bind, ih, List.foldl_cons]

theorem addBus_eq (file : String) (f : Bus.Flows) (p : Parts) :
    addBus p (text file) (Messaging.marked "masstransit" f.toValue)
      = .ok (addMessages file (f.queues.foldl (addQueue file) p) f) := by
  have hconsumed : (f.consumers.map Bus.Consumer.toValue).filterMapM (fun c => do
      let message ← c.fieldOrNull "message"
      if message.isPresent then
        return some (message, (← c.fieldOrNull "consumer").orElse (text file))
      else return none) = .ok (f.consumers.filterMap fun c =>
        if (text c.message).isPresent then
          some (text c.message, (text c.name).orElse (text file)) else none) := by
    have hstep : ∀ v ∈ f.consumers.map Bus.Consumer.toValue, (do
        let message ← v.fieldOrNull "message"
        if message.isPresent then
          return some (message, (← v.fieldOrNull "consumer").orElse (text file))
        else return none : Outcome (Option (Value × Value)))
          = .ok (if (fieldAt v "message").isPresent then
            some (fieldAt v "message", (fieldAt v "consumer").orElse (text file)) else none) := by
      intro v hv
      obtain ⟨c, -, rfl⟩ := List.mem_map.mp hv
      have htable : Broker.isTable c.toValue = true := rfl
      rw [fieldOrNull_of_isTable htable, fieldOrNull_of_isTable htable, ok_bind]
      split <;> rfl
    rw [filterMapM_eq_ok hstep, List.filterMap_map]
    rfl
  rw [addBus, under_eq rfl, ok_bind, foldlM_addEndpoint, ok_bind, under_eq rfl, ok_bind,
    under_eq rfl, ok_bind, under_eq rfl, ok_bind, hconsumed, ok_bind, under_eq rfl, ok_bind,
    ← List.map_append]
  rfl

theorem addMessages_extends (file : String) (p : Parts) (f : Bus.Flows) :
    Extends p (addMessages file p f) ((ofBus file f).itself
      ((f.sendEndpoints.map text).filter fun address => (queueOf? address).isSome)) := by
  refine ⟨?_, ?_⟩
  · intro hp
    refine ⟨hp.exchanges, hp.queues, hp.bindings, ?_, hp.consumers, ?_, ?_⟩
    · refine List.forall_mem_append.mpr ⟨hp.publishers, ?_⟩
      exact List.forall_mem_map.mpr fun q _ => ⟨⟨file, rfl⟩, rfl, isName_text _⟩
    · refine List.forall_mem_append.mpr ⟨hp.messagePublishers, ?_⟩
      exact List.forall_mem_map.mpr fun m _ => ⟨file, rfl⟩
    · refine List.forall_mem_append.mpr ⟨hp.messageConsumers, ?_⟩
      intro m hm
      obtain ⟨c, -, hc⟩ := List.mem_filterMap.mp hm
      split at hc
      · obtain rfl := Option.some.inj hc
        dsimp only
        rw [Value.orElse]
        split
        · exact ⟨c.name, rfl⟩
        · exact ⟨file, rfl⟩
      · cases hc
  · intro s
    rw [mem_services_append p (addMessages file p f) rfl (List.append_nil _).symm]
    rw [mem_itself rfl, named_itself (List.forall_mem_map.mpr fun _ _ => rfl) (by simp)]
    simp

theorem foldl_addQueue_extends (hfile : p.file = text file) (parts : Parts) (qs : List Bus.Queue) :
    Extends parts (qs.foldl (addQueue file) parts)
      ((qs.map Bus.Queue.toValue).flatMap p.listeners) := by
  induction qs generalizing parts with
  | nil => exact Extends.refl parts
  | cons q qs ih =>
    rw [List.foldl_cons, List.map_cons, List.flatMap_cons]
    exact (addQueue_extends hfile parts q).trans (ih (addQueue file parts q))

theorem services_bus (file : String) (f : Bus.Flows) :
    (ofBus file f).services
      = (f.queues.map Bus.Queue.toValue).flatMap (ofBus file f).listeners ++
        (ofBus file f).itself
          ((f.sendEndpoints.map text).filter fun address => (queueOf? address).isSome) := by
  have hservices : (ofBus file f).services
      = ((ofBus file f).under "flows").flatMap (ofBus file f).listeners ++
        (ofBus file f).itself (((ofBus file f).under "send_endpoints").filter
          fun address => (queueOf? address).isSome) := rfl
  rw [hservices, under_eq_of_list rfl, under_eq_of_list rfl]

theorem addBus_extends (file : String) (f : Bus.Flows) (p : Parts) :
    ∃ q, addBus p (text file) (Messaging.marked "masstransit" f.toValue) = .ok q ∧
      Extends p q (ofBus file f).services := by
  refine ⟨_, addBus_eq file f p, ?_⟩
  rw [services_bus]
  exact (foldl_addQueue_extends rfl p f.queues).trans (addMessages_extends file _ f)

/-! ### Settings -/

theorem exchangesUnder_tables {key type : String} {es : List Value}
    (h : Broker.exchangesUnder v key type = .ok es) : ∀ x ∈ es, Broker.isTable x = true := by
  obtain ⟨items, -, h⟩ := exists_of_bind h
  obtain rfl := Except.ok.inj h
  exact List.forall_mem_map.mpr fun _ _ => rfl

theorem queuesOf_tables {qs : List Value} (h : Broker.queuesOf v = .ok qs) :
    ∀ x ∈ qs, Broker.isTable x = true := by
  obtain ⟨items, -, h⟩ := exists_of_bind h
  obtain rfl := Except.ok.inj h
  exact List.forall_mem_map.mpr fun _ _ => rfl

theorem bindingsOf_tables {bs : List Value} (h : Broker.bindingsOf v = .ok bs) :
    ∀ x ∈ bs, Broker.isTable x = true := by
  obtain ⟨items, -, h⟩ := exists_of_bind h
  obtain rfl := Except.ok.inj h
  intro x hx
  obtain ⟨q, -, hq⟩ := List.mem_filterMap.mp hx
  dsimp only at hq
  split at hq
  · obtain rfl := Option.some.inj hq
    rfl
  · cases hq

theorem definitionsOf_tables {data flows : Value} (h : Broker.definitionsOf data = .ok flows)
    (hpresent : flows.isPresent = true) :
    ∃ es qs bs, flows = .record [("exchanges", .list es), ("queues", .list qs),
      ("bindings", .list bs)] ∧ ∀ x ∈ es ++ qs ++ bs, Broker.isTable x = true := by
  have hempty : (Value.map []).isPresent = false := rfl
  unfold Broker.definitionsOf at h
  dsimp only at h
  split at h
  · obtain rfl := Except.ok.inj h
    cases hempty.symm.trans hpresent
  split at h
  · obtain rfl := Except.ok.inj h
    cases hempty.symm.trans hpresent
  obtain ⟨exchanges, hexchanges, h⟩ := exists_of_bind h
  obtain ⟨topics, htopics, h⟩ := exists_of_bind h
  obtain ⟨rootTopics, hroot, h⟩ := exists_of_bind h
  obtain ⟨queues, hqueues, h⟩ := exists_of_bind h
  obtain ⟨bindings, hbindings, h⟩ := exists_of_bind h
  obtain rfl := Except.ok.inj h
  refine ⟨_, _, _, rfl, ?_⟩
  simp only [List.forall_mem_append]
  exact ⟨⟨⟨⟨exchangesUnder_tables hexchanges, exchangesUnder_tables htopics⟩,
    exchangesUnder_tables hroot⟩, queuesOf_tables hqueues⟩, bindingsOf_tables hbindings⟩

/-! ### Messages as they are found -/

/-- Flows as one of the readers of sources and settings finds them. -/
inductive Extracted : Value → Prop
  | bus (code : List Char) :
      Extracted (Messaging.marked "masstransit" (Bus.flowsIn code).toValue)
  | channel (code : List Char) :
      Extracted (Messaging.marked "amqplib" (Channel.flowsIn code).toValue)
  | broker {settings : String} {definitions : Value}
      (h : Broker.definitionsIn settings = .ok definitions)
      (present : definitions.isPresent = true) :
      Extracted (Messaging.marked "infra_config" definitions)

/-- Whatever is found in a file, in any language, is found by one of the readers. -/
theorem extracted_of_flowsIn {language : Option Language} {content flows : Value}
    (h : Messaging.flowsIn language content = .ok (some flows)) : Extracted flows := by
  unfold Messaging.flowsIn at h
  split at h
  · obtain ⟨mentioned, -, h⟩ := exists_of_bind h
    split at h
    · obtain ⟨code, -, h⟩ := exists_of_bind h
      obtain rfl := Option.some.inj (Except.ok.inj h)
      exact .bus code
    · cases h
  · obtain ⟨mentioned, -, h⟩ := exists_of_bind h
    split at h
    · obtain ⟨code, -, h⟩ := exists_of_bind h
      obtain rfl := Option.some.inj (Except.ok.inj h)
      exact .channel code
    · cases h
  · obtain ⟨mentioned, -, h⟩ := exists_of_bind h
    split at h
    · obtain ⟨code, -, h⟩ := exists_of_bind h
      obtain rfl := Option.some.inj (Except.ok.inj h)
      exact .channel code
    · cases h
  · split at h
    · obtain ⟨definitions, hdefinitions, h⟩ := exists_of_bind h
      have h := Except.ok.inj h
      split at h
      · rename_i hpresent
        obtain rfl := Option.some.inj h
        exact .broker hdefinitions hpresent
      · cases h
    · cases h
  · cases h

/-- The messages of a file as they are found in it.  The names in settings are texts; those in
sources always are. -/
structure Found (p : Passing) : Prop where
  file : ∃ s, p.file = text s
  flows : Extracted p.flows
  names : ∀ key ∈ ["exchanges", "queues", "bindings"], ∀ item ∈ p.under key,
    ∀ field ∈ ["name", "exchange", "queue"], isName (fieldAt item field) = true

theorem Found.extends (h : p.Found) (parts : Parts) :
    ∃ q, addRecord parts p.record = .ok q ∧ Extends parts q p.services := by
  obtain ⟨⟨file, hfile⟩, hflows, hnames⟩ := h
  obtain ⟨pfile, flows⟩ := p
  obtain rfl : pfile = text file := hfile
  cases hflows with
  | bus code => exact addBus_extends file (Bus.flowsIn code) parts
  | channel code => exact addChannel_extends (Channel.flowsIn code) file parts
  | broker hdefinitions hpresent =>
    obtain ⟨es, qs, bs, rfl, htables⟩ := definitionsOf_tables hdefinitions hpresent
    refine Topology.extends ⟨rfl, rfl, rfl, htables, ?_⟩ parts
    intro x hx key hkey
    simp only [List.mem_append] at hx
    rcases hx with (hx | hx) | hx
    · exact hnames "exchanges" (by simp) x (by rwa [under_eq_of_list rfl]) key hkey
    · exact hnames "queues" (by simp) x (by rwa [under_eq_of_list rfl]) key hkey
    · exact hnames "bindings" (by simp) x (by rwa [under_eq_of_list rfl]) key hkey

theorem found_bus (file : String) (code : List Char) : (ofBus file (Bus.flowsIn code)).Found := by
  refine ⟨⟨file, rfl⟩, .bus code, ?_⟩
  -- The queues of a bus have no `name`, and it lists neither exchanges nor bindings.
  have hexchanges : (ofBus file (Bus.flowsIn code)).under "exchanges" = [] := rfl
  have hbindings : (ofBus file (Bus.flowsIn code)).under "bindings" = [] := rfl
  simp only [List.forall_mem_cons, List.not_mem_nil, IsEmpty.forall_iff, implies_true, and_true]
  rw [hexchanges, hbindings, under_eq_of_list rfl]
  refine ⟨by simp, List.forall_mem_map.mpr fun q _ => ?_, by simp⟩
  exact ⟨rfl, rfl, isName_text q.name⟩

theorem found_channel (file : String) (code : List Char) :
    (ofChannel file (Channel.flowsIn code)).Found := by
  refine ⟨⟨file, rfl⟩, .channel code, ?_⟩
  obtain ⟨es, qs, bs, htopology⟩ := topology_channel (Channel.flowsIn code)
  intro key hkey item hitem
  refine htopology.name item ?_
  simp only [List.mem_cons, List.not_mem_nil, or_false] at hkey
  simp only [List.mem_append]
  rcases hkey with rfl | rfl | rfl
  · rw [under_eq_of_list htopology.exchanges] at hitem
    exact .inl (.inl hitem)
  · rw [under_eq_of_list htopology.queues] at hitem
    exact .inl (.inr hitem)
  · rw [under_eq_of_list htopology.bindings] at hitem
    exact .inr hitem

/-- Together the files name the services of the parts that are drawn. -/
theorem foldlM_addRecord {ps : List Passing} (found : ∀ p ∈ ps, p.Found) :
    ∃ parts, (ps.map record).foldlM addRecord {} = .ok parts ∧ parts.Named ∧
      ∀ s, s ∈ parts.services ↔ s ∈ ps.flatMap services := by
  have hstart : Parts.Named {} := by constructor <;> simp
  have hstep : ∀ done p parts, p ∈ ps → Extends {} parts (done.flatMap services) →
      ∃ next, addRecord parts p.record = .ok next ∧
        Extends {} next ((done ++ [p]).flatMap services) := by
    intro done p parts hp hparts
    obtain ⟨next, hnext, hextends⟩ := (found p hp).extends parts
    refine ⟨next, hnext, ?_⟩
    rw [List.flatMap_append, List.flatMap_singleton]
    exact hparts.trans hextends
  obtain ⟨parts, hparts, hextends⟩ := foldlM_along (fun done parts =>
    Extends {} parts (done.flatMap services)) hstep (Extends.refl {})
  refine ⟨parts, ?_, hextends.named hstart, ?_⟩
  · rw [List.foldlM_map]
    exact hparts
  · intro s
    rw [hextends.services]
    simp [Parts.services]

theorem integrationGraph_eq {ps : List Passing} {parts : Parts}
    (h : (ps.map record).foldlM addRecord {} = .ok parts) :
    integrationGraph ps = if parts.isEmpty then .ok none else parts.draw.map some := by
  rw [integrationGraph]
  split
  · rename_i hnil
    obtain rfl := List.isEmpty_iff.mp hnil
    obtain rfl := Except.ok.inj h
    rfl
  · rw [draw, h, ok_bind]
    cases parts.isEmpty
    · cases parts.draw <;> rfl
    · rfl

theorem isMissing_congr {as bs : List String} (h : ∀ s, s ∈ as ↔ s ∈ bs) (id : String) :
    isMissing as id = isMissing bs id := by
  have hids : (as.map serviceId).contains id = (bs.map serviceId).contains id := by
    rw [Bool.eq_iff_iff, List.contains_iff_mem, List.contains_iff_mem, List.mem_map, List.mem_map]
    simp only [h]
  rw [isMissing, isMissing, hids]

theorem services_of_isEmpty {parts : Parts} (h : parts.isEmpty = true) : parts.services = [] := by
  simp only [Parts.isEmpty, Bool.and_eq_true, List.isEmpty_iff] at h
  obtain ⟨⟨⟨⟨-, hpublishers⟩, hconsumers⟩, -⟩, -⟩ := h
  simp [Parts.services, hpublishers, hconsumers]

/-- What was announced up to a set of missing ends is declared once before, or nowhere. -/
theorem countP_before {services : List String} {lines before after : List String}
    {source target id : String} (hannounced : Announced (isMissing services · = true) lines)
    (hcount : Text.startsWith id "S_" = true →
      lines.countP (declares id) = if isMissing services id then 0 else 1)
    (hsplit : lines = before ++ arrowLine source target :: after) (hend : id = source ∨ id = target)
    (hpassing : isPassing id = true) :
    before.countP (declares id) = if isMissing services id then 0 else 1 := by
  by_cases hmissing : isMissing services id = true
  · have hnone := hcount (Bool.and_eq_true_iff.mp hmissing).1
    rw [if_pos hmissing] at hnone ⊢
    rw [hsplit, List.countP_append] at hnone
    omega
  · rw [if_neg hmissing]
    exact (hannounced before source target after hsplit id hend hpassing).resolve_left hmissing

/-- **Ends of arrows are declared.**  The messages that are found in any files can be drawn.  In the
lines of the drawing, an end of an arrow that is a service, a message or a consumer is declared by
exactly one line before the arrow, unless it is a service that no file names.  A service is declared
once if some file names it, and not at all otherwise. -/
theorem ends_declared (ps : List Passing) (found : ∀ p ∈ ps, p.Found) :
    ∃ diagram, integrationGraph ps = .ok diagram ∧
      (∀ before source target after, linesOf diagram = before ++ arrowLine source target :: after →
        ∀ id, id = source ∨ id = target → isPassing id = true →
          before.countP (declares id) = if isMissing (ps.flatMap services) id then 0 else 1) ∧
      ∀ id, Text.startsWith id "S_" = true → (linesOf diagram).countP (declares id)
        = if isMissing (ps.flatMap services) id then 0 else 1 := by
  obtain ⟨parts, hparts, hnamed, hservices⟩ := foldlM_addRecord found
  have hmissing : ∀ id, isMissing parts.services id = isMissing (ps.flatMap services) id :=
    isMissing_congr hservices
  have hgraph := integrationGraph_eq hparts
  by_cases hempty : parts.isEmpty = true
  · -- There is nothing to draw, so no file names a service either.
    refine ⟨none, by rw [hgraph, if_pos hempty], ?_, ?_⟩
    · intro before source target after hsplit
      simp [linesOf] at hsplit
    · intro id hid
      rw [← hmissing, services_of_isEmpty hempty]
      simp [linesOf, isMissing, hid]
  · obtain ⟨diagram, hdraw, hannounced, hcount⟩ := hnamed.linesOf_draw
    refine ⟨some diagram, by rw [hgraph, if_neg hempty, hdraw]; rfl, ?_, ?_⟩
    · intro before source target after hsplit id hend hpassing
      rw [← hmissing]
      exact countP_before hannounced (hcount id) hsplit hend hpassing
    · intro id hid
      rw [← hmissing]
      exact hcount id hid

/-- A source that publishes a message and listens to a queue. -/
def listening : Passing := ofBus "B.cs" (Bus.flowsIn
  "ReceiveEndpoint(\"q\", e => \x7b e.Consumer<C>(); \x7d); bus.Publish<X>(m);".toList)

/-- A source that publishes a message and does nothing else. -/
def publishing : Passing :=
  ofBus "A.cs" (Bus.flowsIn "using MassTransit; bus.Publish<X>(m);".toList)

def sending : Passing :=
  ofChannel "s.js" (Channel.flowsIn "channel.sendToQueue('q', data);".toList)

theorem listener_declared :
    (∀ p ∈ [publishing, sending, listening], p.Found) ∧
      ∃ diagram, integrationGraph [publishing, sending, listening] = .ok diagram ∧
        (linesOf diagram).countP (declares "S_s_js") = 1 ∧
        (linesOf diagram).countP (declares "S_C") = 1 ∧
        (linesOf diagram).countP (declares "S_A_cs") = 0 := by
  have hfound : ∀ p ∈ [publishing, sending, listening], p.Found := by
    simpa using ⟨found_bus _ _, found_channel _ _, found_bus _ _⟩
  have hservices : [publishing, sending, listening].flatMap services = ["s.js", "C"] := by
    delta publishing listening Bus.flowsIn Bus.messagesIn Bus.queuesIn Text.sortDistinct
    rw [Text.sort_eq_insertionSort]
    decide
  obtain ⟨diagram, hdiagram, -, hcount⟩ := ends_declared _ hfound
  rw [hservices] at hcount
  exact ⟨hfound, diagram, hdiagram, hcount "S_s_js" (by decide), hcount "S_C" (by decide),
    hcount "S_A_cs" (by decide)⟩

/-- **An end that no line declares.**  A source that publishes a message, and does nothing else, is
drawn with an arrow to the message; no line declares it. -/
theorem publisher_undeclared :
    publishing.Found ∧
      ∃ diagram, integrationGraph [publishing] = .ok (some diagram) ∧
        arrowLine "S_A_cs" "MSG_MSG_X" ∈ linesOf (some diagram) ∧
        (linesOf (some diagram)).countP (declares "S_A_cs") = 0 := by
  have hlines : (integrationGraph [publishing]).toOption.map linesOf
      = some ["```mermaid", "graph LR", "  MSG_MSG_X[\"Message X\"]", "  S_A_cs --> MSG_MSG_X",
        "```"] := by
    delta publishing Bus.flowsIn Bus.messagesIn Bus.queuesIn Text.sortDistinct
    rw [Text.sort_eq_insertionSort]
    decide
  refine ⟨found_bus _ _, ?_⟩
  cases hgraph : integrationGraph [publishing] with
  | error fault =>
    rw [hgraph] at hlines
    cases hlines
  | ok diagram =>
    rw [hgraph] at hlines
    cases diagram with
    | none => cases hlines
    | some diagram =>
      refine ⟨diagram, rfl, ?_⟩
      rw [Option.some.inj hlines]
      decide

end Document.Passing

end CodeScribe
