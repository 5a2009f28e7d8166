import CodeScribe.Document.FileEntry
import CodeScribe.Document.Stream
import CodeScribe.Proofs.Document.Merging
import CodeScribe.Proofs.Frame

/-!
# What writing adds to a document

Writing only ever adds text to a document, also if it fails half-way.

* `Stream.completes_factsPart`, `Stream.completes_messagingPart`, `Stream.completes_callGraphsPart`
  — the parts of a section, from the shape of the data that they show.
-/

namespace CodeScribe

namespace Value

/-! ### Fields of tables with text keys -/

theorem fieldOr_record (t : Table Value) (key : String) (default : Value) :
    (record t).fieldOr key default = .ok ((t.get? key).getD default) := by
  rw [← Merge.lookup_fieldsOf]
  rfl

theorem fieldOrNull_record (t : Table Value) (key : String) :
    (record t).fieldOrNull key = .ok ((t.get? key).getD null) := fieldOr_record t key null

theorem put_record (t : Table Value) (key : String) (v : Value) :
    (record t).put key v = record (t.set key v) := by
  rw [Merge.record_eq, put, Merge.insert_fieldsOf, Merge.record_eq]

theorem textsFrom_texts (i : Nat) (ss : List String) : textsFrom i (ss.map text) = .ok ss := by
  induction ss generalizing i with
  | nil => rfl
  | cons s ss ih =>
    rw [List.map_cons, textsFrom, ih]
    rfl

theorem joined_texts (sep : String) (ss : List String) :
    (texts ss).joined sep = .ok (Text.join sep ss) := by
  rw [texts, joined, each]
  dsimp only
  rw [textsFrom_texts]
  rfl

end Value

namespace Document.Stream

/-! ### Text that is added -/

variable {α β : Type} {t : Table Value}

/-- Some writing ends in one way on every document that is not finished, and adds a text to it. -/
def Adds (w : Writing α) (o : Outcome α) (s : String) : Prop :=
  ∀ d : Stream, d.finished = false →
    ∃ d' : Stream, (ExceptT.run w).run d = (o, d') ∧ d'.text = d.text ++ s ∧ d'.finished = false

theorem adds_pure (a : α) : Adds (pure a) (.ok a) "" := fun d hd =>
  ⟨d, rfl, String.append_empty.symm, hd⟩

theorem adds_write (s : String) : Adds (write s) (.ok ()) s := by
  intro d hd
  refine ⟨{ d with text := d.text ++ s }, ?_, rfl, hd⟩
  have hget : (ExceptT.run (get : Writing Stream)).run d = (.ok d, d) := rfl
  rw [write, Frame.run_bind_of_ok hget]
  dsimp only
  rw [if_neg (by simp [hd])]
  rfl

section Bind

variable {x : Writing α} {f : α → Writing β} {a : α} {fault : Fault} {o : Outcome β}
  {s t : String}

theorem Adds.bind_ok (hx : Adds x (.ok a) s) (hf : Adds (f a) o t) :
    Adds (x >>= f) o (s ++ t) := by
  intro d hd
  obtain ⟨d₁, hrun, htext, hfinished⟩ := hx d hd
  obtain ⟨d₂, hrun', htext', hfinished'⟩ := hf d₁ hfinished
  refine ⟨d₂, ?_, ?_, hfinished'⟩
  · rw [Frame.run_bind_of_ok hrun, hrun']
  · rw [htext', htext, String.append_assoc]

theorem Adds.bind_error (hx : Adds x (.error fault) s) : Adds (x >>= f) (.error fault) s := by
  intro d hd
  obtain ⟨d', hrun, htext, hfinished⟩ := hx d hd
  exact ⟨d', Frame.run_bind_of_error hrun, htext, hfinished⟩

theorem Adds.ofOutcome_bind {r : Outcome α} (hr : r = .ok a) (hf : Adds (f a) o s) :
    Adds (ofOutcome r >>= f) o s := by
  subst hr
  exact hf

theorem adds_ofOutcome_error {r : Outcome α} (hr : r = .error fault) :
    Adds (ofOutcome r >>= f) (.error fault) "" := by
  subst hr
  intro d hd
  exact ⟨d, rfl, String.append_empty.symm, hd⟩

end Bind

/-- There is only one way in which writing ends, and one text that it adds. -/
theorem Adds.unique {w : Writing α} {o o' : Outcome α} {s s' : String} (h : Adds w o s)
    (h' : Adds w o' s') : o = o' ∧ s = s' := by
  obtain ⟨d, hrun, htext, -⟩ := h {} rfl
  obtain ⟨d', hrun', htext', -⟩ := h' {} rfl
  rw [hrun] at hrun'
  obtain ⟨rfl, rfl⟩ := Prod.mk.inj hrun'
  refine ⟨rfl, ?_⟩
  simpa using htext.symm.trans htext'

theorem adds_meet (id : String) : Adds (meet (.text id)) (.ok ()) "" := fun _ hd =>
  ⟨_, rfl, String.append_empty.symm, hd⟩

/-! ### Writing that does not fail -/

def Completes (w : Writing Unit) : Prop := ∃ s, Adds w (.ok ()) s

theorem completes_pure : Completes (pure ()) := ⟨_, adds_pure ()⟩

theorem completes_write (s : String) : Completes (write s) := ⟨s, adds_write s⟩

theorem Completes.bind {w : Writing Unit} {f : Unit → Writing Unit} (hw : Completes w)
    (hf : Completes (f ())) : Completes (w >>= f) := by
  obtain ⟨s, hs⟩ := hw
  obtain ⟨t, ht⟩ := hf
  exact ⟨s ++ t, hs.bind_ok ht⟩

theorem Completes.ofOutcome_bind {r : Outcome α} {f : α → Writing Unit} {a : α} (hr : r = .ok a)
    (hf : Completes (f a)) : Completes (ofOutcome r >>= f) := by
  obtain ⟨s, hs⟩ := hf
  exact ⟨s, hs.ofOutcome_bind hr⟩

theorem completes_forM {f : α → Writing Unit} {l : List α} (h : ∀ a ∈ l, Completes (f a)) :
    Completes (l.forM f) := by
  induction l with
  | nil => exact completes_pure
  | cons a l ih =>
    obtain ⟨ha, hl⟩ := List.forall_mem_cons.mp h
    exact ha.bind (ih hl)

/-! ### The numbers of declarations -/

def HasLists (t : Table Value) : Prop :=
  ∀ e ∈ t, e.1 ∈ counted.map Prod.fst → ∃ items, e.2 = .list items

theorem completes_countLine (ht : HasLists t) {entry : String × String} (hentry : entry ∈ counted) :
    Completes (countLine (.record t) entry) := by
  refine Completes.ofOutcome_bind (Value.fieldOrNull_record t entry.1) ?_
  cases hget : t.get? entry.1 with
  | none => exact completes_pure
  | some v =>
    obtain ⟨items, hitems⟩ := ht (entry.1, v) (Table.mem_of_get? hget) (List.mem_map_of_mem hentry)
    obtain rfl : v = .list items := hitems
    rw [Option.getD_some]
    split
    · exact Completes.ofOutcome_bind rfl (completes_write _)
    · exact completes_pure

theorem completes_factsPart (ht : HasLists t) : Completes (factsPart (.record t)) := by
  rw [factsPart]
  split
  · refine (completes_write _).bind ?_
    exact (completes_forM fun entry hentry => completes_countLine ht hentry).bind
      (completes_write _)
  · exact completes_pure

/-! ### Messages -/

theorem joinedOrNone_texts (ss : List String) : ∃ s, joinedOrNone (.texts ss) = .ok s := by
  rw [joinedOrNone, Value.joined_texts]
  exact ⟨_, rfl⟩

theorem completes_flowLine (q : Bus.Queue) : Completes (flowLine q.toValue) := by
  obtain ⟨consumers, hconsumers⟩ := joinedOrNone_texts q.consumers
  obtain ⟨sagas, hsagas⟩ := joinedOrNone_texts q.sagas
  refine Completes.ofOutcome_bind (a := consumers) ?_ ?_
  · exact hconsumers
  · refine Completes.ofOutcome_bind (a := sagas) hsagas ?_
    exact Completes.ofOutcome_bind rfl (completes_write _)

/-- What a line says about a consumer. -/
theorem exists_mapM_consumers (cs : List Bus.Consumer) :
    ∃ entries, (cs.map Bus.Consumer.toValue).mapM (fun item => do
      return (← item.fieldOrNull "consumer").display ++ "(" ++
        (← item.fieldOrNull "message").display ++ ")") = .ok entries := by
  induction cs with
  | nil => exact ⟨[], rfl⟩
  | cons c cs ih =>
    obtain ⟨entries, hentries⟩ := ih
    rw [List.map_cons, List.mapM_cons, hentries]
    exact ⟨_, rfl⟩

/-- The names under which messages are listed as they are, with their titles. -/
def listed : List (String × String) :=
  [("publishes", "Publishes"), ("sends", "Sends"), ("send_endpoints", "Send Endpoints")]

structure Listable (t : Table Value) : Prop where
  queues : ∀ v, t.get? "flows" = some v → ∃ qs : List Bus.Queue, v = .listOf Bus.Queue.toValue qs
  texts : ∀ key ∈ listed.map Prod.fst, ∀ v, t.get? key = some v → ∃ ss, v = .texts ss
  consumers : ∀ v, t.get? "consumer_messages" = some v →
    ∃ cs : List Bus.Consumer, v = .listOf Bus.Consumer.toValue cs

theorem completes_listLine (ht : Listable t) {entry : String × String} (hentry : entry ∈ listed) :
    Completes (listLine (.record t) entry) := by
  refine Completes.ofOutcome_bind (Value.fieldOrNull_record t entry.1) ?_
  cases hget : t.get? entry.1 with
  | none => exact completes_pure
  | some v =>
    obtain ⟨ss, rfl⟩ := ht.texts entry.1 (List.mem_map_of_mem hentry) v hget
    rw [Option.getD_some]
    split
    · exact Completes.ofOutcome_bind (Value.joined_texts _ ss) (completes_write _)
    · exact completes_pure

theorem completes_consumerLine (ht : Listable t) : Completes (consumerLine (.record t)) := by
  refine Completes.ofOutcome_bind (Value.fieldOrNull_record t _) ?_
  cases hget : t.get? "consumer_messages" with
  | none => exact completes_pure
  | some v =>
    obtain ⟨cs, rfl⟩ := ht.consumers v hget
    rw [Option.getD_some]
    split
    · obtain ⟨entries, hentries⟩ := exists_mapM_consumers cs
      refine Completes.ofOutcome_bind (a := entries) hentries ?_
      split
      · exact completes_write _
      · exact completes_pure
    · exact completes_pure

theorem completes_messagingPart (ht : Listable t) : Completes (messagingPart (.record t)) := by
  have hend : Completes (do
      listed.forM (listLine (.record t))
      consumerLine (.record t)
      write "\n") :=
    (completes_forM fun entry hentry => completes_listLine ht hentry).bind
      ((completes_consumerLine ht).bind (completes_write _))
  rw [messagingPart]
  split
  · refine (completes_write _).bind ?_
    refine Completes.ofOutcome_bind (Value.fieldOrNull_record t _) ?_
    cases hget : t.get? "flows" with
    | none => exact hend
    | some v =>
      obtain ⟨qs, rfl⟩ := ht.queues v hget
      rw [Option.getD_some]
      dsimp only
      split
      · refine Completes.ofOutcome_bind rfl ?_
        refine Completes.bind (completes_forM fun q hq => ?_) hend
        obtain ⟨q, -, rfl⟩ := List.mem_map.mp hq
        exact completes_flowLine q
      · exact hend
  · exact completes_pure

/-- Messages that are tables and no texts cannot be listed: the section breaks off. -/
theorem adds_messagingPart_publishing {entries : List (Value × Value)} {rest : List Value}
    (hqueues : t.get? "flows" = none)
    (hfirst : t.get? "publishes" = some (.list (.map entries :: rest))) :
    Adds (messagingPart (.record t)) (.error (.notJoinable 0 "dict"))
      "#### Messaging Flows\n\n" := by
  have hpresent : (Value.record t).isPresent = true := by
    cases t with
    | nil => cases hfirst
    | cons e t => rfl
  have hline : Adds (listLine (.record t) ("publishes", "Publishes"))
      (.error (.notJoinable 0 "dict")) "" := by
    refine Adds.ofOutcome_bind (Value.fieldOrNull_record t "publishes") ?_
    rw [hfirst, Option.getD_some]
    exact adds_ofOutcome_error rfl
  rw [messagingPart, if_pos hpresent]
  refine (adds_write _).bind_ok (t := "") ?_
  refine Adds.ofOutcome_bind (Value.fieldOrNull_record t "flows") ?_
  rw [hqueues]
  exact Adds.bind_error (Adds.bind_error hline)

/-! ### Call graphs -/

theorem completes_callGraphPart (g : CallGraph) : Completes (callGraphPart g.toValue) := by
  refine Completes.ofOutcome_bind rfl ?_
  refine (completes_write _).bind ?_
  exact Completes.ofOutcome_bind rfl (completes_write _)

theorem completes_callGraphsPart {info : Value} {graphs : List CallGraph}
    (h : info.fieldOrNull "call_graphs" = .ok (.listOf CallGraph.toValue graphs)) :
    Completes (callGraphsPart info) := by
  refine Completes.ofOutcome_bind h ?_
  split
  · refine (completes_write _).bind ?_
    refine Completes.ofOutcome_bind rfl (completes_forM fun g hg => ?_)
    obtain ⟨g, -, rfl⟩ := List.mem_map.mp hg
    exact completes_callGraphPart g
  · exact completes_pure

end Document.Stream

end CodeScribe
