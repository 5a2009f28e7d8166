import CodeScribe.Diagram.Integration
import CodeScribe.Proofs.Text.Stretches

/-!
# Nodes and arrows of a diagram of messages

A diagram of messages is drawn line by line.  A line declares a node, with a text in brackets, or
draws an arrow between two nodes.  The nodes of services, messages and consumers have tags of their
own, and a node that was declared is not declared again.

* `Integration.declares_nodeLine`, `Integration.arrowLine_inj` — a line says one thing only, since
  identifiers are words and labels have no brackets;
* `Integration.Drawing.Sound.declare`, `Integration.Drawing.Sound.arrow` — what one line more
  preserves.
-/

namespace CodeScribe

/-- A run over a list succeeds if each step does that starts from what the run has kept so far. -/
theorem foldlM_along {ε α β : Type} {f : β → α → Except ε β} {xs : List α} (I : List α → β → Prop)
    (step : ∀ done x b, x ∈ xs → I done b → ∃ b', f b x = .ok b' ∧ I (done ++ [x]) b')
    {b : β} (start : I [] b) : ∃ b', xs.foldlM f b = .ok b' ∧ I xs b' := by
  -- From the end of the list, since the property speaks about the part that is done.
  induction xs using List.reverseRecOn with
  | nil => exact ⟨b, rfl, start⟩
  | append_singleton xs x ih =>
    obtain ⟨mid, hmid, hI⟩ := ih fun done y b' hy => step done y b' (List.mem_append_left _ hy)
    obtain ⟨last, hlast, hI'⟩ := step xs x mid (List.mem_append_right _ List.mem_cons_self) hI
    refine ⟨last, ?_, hI'⟩
    rw [List.foldlM_append, hmid]
    show List.foldlM f mid [x] = .ok last
    rw [List.foldlM_cons, hlast]
    rfl

namespace Integration

open Text (isWord isAlnum MadeOf)

variable {line : String} {p : Parts}

/-! ### Identifiers -/

/-- The identifier of a name: whatever is neither a letter nor a digit becomes an underscore. -/
def textId (s : String) : String :=
  String.ofList (s.toList.map fun c => if isAlnum c then c else '_')

theorem idPiece_singleton (c : Char) :
    idPiece (.text (String.singleton c))
      = .ok (String.singleton (if isAlnum c then c else '_')) := by
  by_cases hc : isAlnum c = true <;>
    simp [idPiece, Value.textFor, hc, bind, Except.bind, pure, Except.pure]

theorem nodeId_text (s : String) : nodeId (.text s) = .ok (textId s) := by
  have hpieces (cs : List Char) :
      (cs.map fun c => Value.text (String.singleton c)).mapM idPiece
        = .ok (cs.map fun c => String.singleton (if isAlnum c then c else '_')) := by
    induction cs with
    | nil => rfl
    | cons c cs ih =>
      rw [List.map_cons, List.mapM_cons, idPiece_singleton, ih]
      rfl
  have hjoin : String.join (s.toList.map fun c => String.singleton (if isAlnum c then c else '_'))
      = textId s := by
    rw [← String.toList_inj, String.toList_join, textId, String.toList_ofList, List.flatMap_map,
      List.map_eq_flatMap]
    simp
  show (do return String.join (← (s.toList.map fun c => Value.text (String.singleton c)).mapM
    idPiece) : Outcome String) = _
  rw [hpieces]
  exact congrArg Except.ok hjoin

theorem messageId_eq (message : Value) :
    messageId message = .ok ("MSG_" ++ textId ("MSG_" ++ message.display)) := by
  rw [messageId, nodeId_text]
  rfl

theorem madeOf_textId (tag : String) (htag : MadeOf isWord tag) (s : String) :
    MadeOf isWord (tag ++ textId s) := by
  refine ⟨by simp [htag.1], ?_⟩
  intro c hc
  rw [String.toList_append, List.mem_append] at hc
  rcases hc with hc | hc
  · exact htag.2 c hc
  · rw [textId, String.toList_ofList] at hc
    obtain ⟨d, -, rfl⟩ := List.mem_map.mp hc
    split
    · rename_i hd
      rw [isWord, hd, Bool.true_or]
    · decide

/-! ### Labels -/

/-- A text that ends neither a label nor a line, and looks like no arrow. -/
def Plain (s : String) : Prop := '[' ∉ s.toList ∧ '>' ∉ s.toList ∧ '\n' ∉ s.toList

instance (s : String) : Decidable (Plain s) :=
  inferInstanceAs (Decidable ('[' ∉ s.toList ∧ '>' ∉ s.toList ∧ '\n' ∉ s.toList))

theorem Plain.append {s t : String} (hs : Plain s) (ht : Plain t) : Plain (s ++ t) := by
  obtain ⟨hs₁, hs₂, hs₃⟩ := hs
  obtain ⟨ht₁, ht₂, ht₃⟩ := ht
  refine ⟨?_, ?_, ?_⟩
  · simp [hs₁, ht₁]
  · simp [hs₂, ht₂]
  · simp [hs₃, ht₃]

/-- A character of a label other than a blank is one of the value's text that may stand there. -/
theorem mem_label {v : Value} {c : Char} (h : c ∈ (label v).toList) :
    c = ' ' ∨ c ∈ "label".toList ∨
      Pattern.noneOf "[]\"`<>|" c = true ∧ (c == '\\' || c == '\n' || c == '\r') = false := by
  by_cases hblank : c = ' '
  · exact .inl hblank
  refine .inr ?_
  unfold label at h
  dsimp only at h
  split at h
  · exact .inl h
  · rw [String.toList_ofList] at h
    have hstretch := (List.singleton_infix_iff c _).mpr h
    have hbefore := Pattern.infix_of_replaceAll (List.cons_ne_nil c [])
      (fun m _ => ⟨by simp, by simp [Ne.symm hblank]⟩) (hstretch.trans (Chars.trimOf_isInfix _ _))
    obtain ⟨d, hd, hdc⟩ := List.mem_map.mp ((List.singleton_infix_iff c _).mp hbefore)
    refine .inr ?_
    split at hdc
    · exact absurd hdc.symm hblank
    · rename_i hkept
      subst hdc
      exact ⟨(List.mem_filter.mp hd).2, Bool.eq_false_iff.mpr hkept⟩

theorem plain_label (v : Value) : Plain (label v) := by
  refine ⟨?_, ?_, ?_⟩ <;> intro h <;> have hc := mem_label h <;> revert hc <;> decide

/-! ### Lines -/

def nodeLine (id text : String) : String := "  " ++ id ++ "[\"" ++ text ++ "\"]"

def arrowLine (source target : String) : String := "  " ++ source ++ " --> " ++ target

/-- Whether a line declares a node: the identifier is followed by a text in quotes and brackets. -/
def declares (id line : String) : Bool :=
  Text.startsWith line ("  " ++ id ++ "[\"") && Text.endsWith line "\"]"

theorem declares_nodeLine {id id' text : String} (hid : '[' ∉ id'.toList)
    (htext : '[' ∉ text.toList) : declares id (nodeLine id' text) = decide (id = id') := by
  rw [Bool.eq_iff_iff, decide_eq_true_iff, declares, Bool.and_eq_true_iff]
  constructor
  · rintro ⟨hstart, -⟩
    obtain ⟨rest, hrest⟩ := List.isPrefixOf_iff_prefix.mp hstart
    have hchars : id.toList ++ '[' :: ('"' :: rest)
        = id'.toList ++ '[' :: ('"' :: (text.toList ++ ['"', ']'])) := by
      simpa [nodeLine] using hrest
    exact String.toList_inj.mp (Chars.cut_once hid (by simp [htext]) hchars).1
  · rintro rfl
    constructor
    · apply List.isPrefixOf_iff_prefix.mpr
      exact ⟨text.toList ++ ['"', ']'], by simp [nodeLine]⟩
    · simp [nodeLine, Text.endsWith, Chars.endsWith]

theorem declares_eq_false (h : '[' ∉ line.toList) (id : String) : declares id line = false := by
  rw [Bool.eq_false_iff]
  intro hdeclares
  obtain ⟨rest, hrest⟩ := List.isPrefixOf_iff_prefix.mp (Bool.and_eq_true_iff.mp hdeclares).1
  rw [← hrest] at h
  simp at h

theorem arrowLine_inj {source target source' target' : String} (hs : '>' ∉ source'.toList)
    (ht : '>' ∉ target'.toList) (h : arrowLine source target = arrowLine source' target') :
    source = source' ∧ target = target' := by
  have hchars : (source.toList ++ [' ', '-', '-']) ++ '>' :: (' ' :: target.toList)
      = (source'.toList ++ [' ', '-', '-']) ++ '>' :: (' ' :: target'.toList) := by
    simpa [arrowLine] using congrArg String.toList h
  obtain ⟨hsource, htarget⟩ := Chars.cut_once (by simp [hs]) (by simp [ht]) hchars
  exact ⟨String.toList_inj.mp (List.append_cancel_right hsource),
    String.toList_inj.mp (List.cons.inj htarget).2⟩

theorem ne_arrowLine (h : '>' ∉ line.toList) (source target : String) :
    line ≠ arrowLine source target := by
  rintro rfl
  simp [arrowLine] at h

/-! ### Sound drawings -/

/-- Whether an identifier belongs to a service, a message or a consumer. -/
def isPassing (id : String) : Bool :=
  Text.startsWith id "S_" || Text.startsWith id "MSG_" || Text.startsWith id "C_"

/-- The ends of every arrow were declared once before it, apart from those that are missing. -/
def Announced (missing : String → Prop) (lines : List String) : Prop :=
  ∀ before source target after, lines = before ++ arrowLine source target :: after →
    ∀ id, id = source ∨ id = target → isPassing id = true →
      missing id ∨ before.countP (declares id) = 1

variable {missing : String → Prop} {lines : List String}

/-- A place in a list with one item more is the last one or a place in the list before. -/
theorem append_singleton_eq_append_cons {α : Type} {xs before after : List α} {x y : α}
    (h : xs ++ [x] = before ++ y :: after) :
    (before = xs ∧ y = x) ∨ ∃ after', xs = before ++ y :: after' := by
  rcases List.eq_nil_or_concat after with rfl | ⟨after', z, rfl⟩
  · obtain ⟨hxs, hx⟩ := List.append_inj' h rfl
    exact .inl ⟨hxs.symm, (List.singleton_inj.mp hx).symm⟩
  · refine .inr ⟨after', ?_⟩
    rw [List.concat_eq_append, ← List.cons_append, ← List.append_assoc] at h
    exact (List.append_inj' h rfl).1

theorem Announced.append_line (h : Announced missing lines) (hline : '>' ∉ line.toList) :
    Announced missing (lines ++ [line]) := by
  intro before source target after hsplit id
  rcases append_singleton_eq_append_cons hsplit with ⟨-, harrow⟩ | ⟨after', hsplit⟩
  · exact absurd harrow.symm (ne_arrowLine hline source target)
  · exact h before source target after' hsplit id

theorem Announced.append_arrow (h : Announced missing lines) {source target : String}
    (hs : '>' ∉ source.toList) (ht : '>' ∉ target.toList)
    (hends : ∀ id, id = source ∨ id = target → isPassing id = true →
      missing id ∨ lines.countP (declares id) = 1) :
    Announced missing (lines ++ [arrowLine source target]) := by
  intro before source' target' after hsplit id
  rcases append_singleton_eq_append_cons hsplit with ⟨rfl, harrow⟩ | ⟨after', hsplit⟩
  · obtain ⟨rfl, rfl⟩ := arrowLine_inj hs ht harrow
    exact hends id
  · exact h before source' target' after' hsplit id

/-- The lines of a drawing are lines, each of its nodes is declared once, and the ends of its arrows
are declared before; what is missing is not declared. -/
structure Drawing.Sound (missing : String → Prop) (d : Drawing) : Prop where
  newline : ∀ line ∈ d.lines, '\n' ∉ line.toList
  count : ∀ id, d.lines.countP (declares id) = if id ∈ d.declared then 1 else 0
  announced : Announced missing d.lines
  present : ∀ id ∈ d.declared, ¬ missing id

namespace Drawing

variable {d : Drawing} {id text source target : String}

theorem subset_declare : d.declared ⊆ (d.declare id text).declared := by
  rw [declare]
  split
  · exact List.Subset.refl _
  · exact List.subset_append_left _ _

theorem mem_declare : id ∈ (d.declare id text).declared := by
  rw [declare]
  split
  · rename_i h
    exact List.contains_iff_mem.mp h
  · exact List.mem_append_right _ List.mem_cons_self

theorem Sound.declare (h : d.Sound missing) (hid : MadeOf isWord id) (htext : Plain text)
    (hmissing : ¬ missing id) : (d.declare id text).Sound missing := by
  have hbracket : '[' ∉ id.toList := hid.not_mem (by decide)
  have hnew : declares id (nodeLine id text) = true := by
    rw [declares_nodeLine hbracket htext.1, decide_eq_true rfl]
  rw [Drawing.declare]
  split
  · exact h
  · rename_i hold
    rw [List.contains_iff_mem] at hold
    refine ⟨?_, ?_, ?_, ?_⟩
    · intro line hline
      rcases List.mem_append.mp hline with hline | hline
      · exact h.newline line hline
      · rw [List.mem_singleton.mp hline]
        have hword : '\n' ∉ id.toList := hid.not_mem (by decide)
        simp [hword, htext.2.2]
    · intro id'
      show (d.lines ++ [nodeLine id text]).countP (declares id')
        = if id' ∈ d.declared ++ [id] then 1 else 0
      rw [List.countP_append, h.count, List.countP_singleton, declares_nodeLine hbracket htext.1]
      by_cases heq : id' = id
      · simp [heq, hold]
      · simp [heq]
    · apply h.announced.append_line
      have harrow : '>' ∉ id.toList := hid.not_mem (by decide)
      simp [harrow, htext.2.1]
    · intro id' hid'
      rcases List.mem_append.mp hid' with hid' | hid'
      · exact h.present id' hid'
      · rwa [List.mem_singleton.mp hid']

/-- An arrow may end in a node that is of another kind, missing or declared. -/
def MayEnd (missing : String → Prop) (d : Drawing) (id : String) : Prop :=
  isPassing id = false ∨ missing id ∨ id ∈ d.declared

theorem Sound.arrow (h : d.Sound missing) (hs : MadeOf isWord source) (ht : MadeOf isWord target)
    (hsource : d.MayEnd missing source) (htarget : d.MayEnd missing target) :
    (d.arrow source target).Sound missing := by
  have hword {c : Char} (hc : isWord c = false) : c ∉ source.toList ∧ c ∉ target.toList :=
    ⟨hs.not_mem hc, ht.not_mem hc⟩
  refine ⟨?_, ?_, ?_, h.present⟩
  · intro line hline
    rcases List.mem_append.mp hline with hline | hline
    · exact h.newline line hline
    · rw [List.mem_singleton.mp hline]
      simp [hword (c := '\n') (by decide)]
  · intro id
    show (d.lines ++ [arrowLine source target]).countP (declares id) = _
    have hno : '[' ∉ (arrowLine source target).toList := by
      simp [arrowLine, hword (c := '[') (by decide)]
    rw [List.countP_append, h.count, List.countP_singleton, declares_eq_false hno]
    rfl
  · have hcount {id : String} (hid : d.MayEnd missing id) (hpassing : isPassing id = true) :
        missing id ∨ d.lines.countP (declares id) = 1 := by
      rcases hid with hother | hmissing | hdeclared
      · cases hother.symm.trans hpassing
      · exact .inl hmissing
      · exact .inr (by rw [h.count, if_pos hdeclared])
    apply h.announced.append_arrow (hword (by decide)).1 (hword (by decide)).2
    rintro id (rfl | rfl) hpassing
    · exact hcount hsource hpassing
    · exact hcount htarget hpassing

end Drawing

/-! ### Ascending names -/

theorem insertByName_perm {e : Value × Value} (he : ∃ s, e.1 = .text s) {es : List (Value × Value)}
    (hes : ∀ f ∈ es, ∃ s, f.1 = .text s) :
    ∃ sorted, insertByName e es = .ok sorted ∧ sorted.Perm (e :: es) := by
  induction es with
  | nil => exact ⟨[e], rfl, List.Perm.refl _⟩
  | cons f es ih =>
    obtain ⟨hf, hes⟩ := List.forall_mem_cons.mp hes
    obtain ⟨rest, hrest, hperm⟩ := ih hes
    obtain ⟨s, hs⟩ := he
    obtain ⟨t, ht⟩ := hf
    rw [insertByName, hs, ht, hrest]
    by_cases hlt : s < t
    · refine ⟨e :: f :: es, ?_, List.Perm.refl _⟩
      simp [before, hlt, bind, Except.bind, pure, Except.pure]
    · refine ⟨f :: rest, ?_, (hperm.cons f).trans (List.Perm.swap e f es)⟩
      simp [before, hlt, bind, Except.bind, pure, Except.pure]

/-- Named entries can be put into ascending order. -/
theorem sortByName_perm {es : List (Value × Value)} (hes : ∀ e ∈ es, ∃ s, e.1 = .text s) :
    ∃ sorted, sortByName es = .ok sorted ∧ sorted.Perm es := by
  have hstep : ∀ done e (sorted : List (Value × Value)), e ∈ es →
      (sorted.Perm done ∧ ∀ f ∈ done, ∃ s, f.1 = .text s) →
        ∃ next, insertByName e sorted = .ok next ∧
          (next.Perm (done ++ [e]) ∧ ∀ f ∈ done ++ [e], ∃ s, f.1 = .text s) := by
    rintro done e sorted he ⟨hperm, hdone⟩
    have hsorted : ∀ f ∈ sorted, ∃ s, f.1 = .text s :=
      fun f hf => hdone f (hperm.mem_iff.mp hf)
    obtain ⟨next, hnext, hperm'⟩ := insertByName_perm (hes e he) hsorted
    refine ⟨next, hnext, ?_, ?_⟩
    · exact (hperm'.trans (hperm.cons e)).trans (List.perm_append_singleton e done).symm
    · exact List.forall_mem_append.mpr ⟨hdone, by simpa using hes e he⟩
  obtain ⟨sorted, hsorted, hperm, -⟩ := foldlM_along _ hstep ⟨List.Perm.refl [], by simp⟩
  exact ⟨sorted, hsorted, hperm⟩

/-! ### Steps -/

/-- A name: a text, unless it does not count as given. -/
def isName (v : Value) : Bool := !v.isPresent || v.text?.isSome

theorem exists_text_of_isName {v : Value} (h : isName v = true) (hpresent : v.isPresent = true) :
    ∃ s, v = .text s := by
  cases v <;> simp [isName, hpresent, Value.text?] at h ⊢

/-- A step succeeds, keeps a drawing sound and its nodes declared, and declares some nodes. -/
def Grows (missing : String → Prop) (d : Drawing) (ids : List String) (step : Outcome Drawing) :
    Prop :=
  ∃ d', step = .ok d' ∧ d'.Sound missing ∧ d.declared ⊆ d'.declared ∧ ids ⊆ d'.declared

/-- A run of steps that need some nodes declares the nodes of all steps. -/
theorem grows_foldlM {α : Type} {f : Drawing → α → Outcome Drawing} (ids : α → List String)
    {xs : List α} {given : List String} {d : Drawing}
    (step : ∀ x ∈ xs, ∀ d, d.Sound missing → given ⊆ d.declared → Grows missing d (ids x) (f d x))
    (hd : d.Sound missing) (hgiven : given ⊆ d.declared) :
    Grows missing d (xs.flatMap ids) (xs.foldlM f d) := by
  refine foldlM_along (fun done (d' : Drawing) =>
    d'.Sound missing ∧ d.declared ⊆ d'.declared ∧ done.flatMap ids ⊆ d'.declared) ?_
    ⟨hd, List.Subset.refl _, List.nil_subset _⟩
  rintro done x d' hx ⟨hsound, hold, hdone⟩
  obtain ⟨d'', hstep, hsound', hold', hnew⟩ := step x hx d' hsound
    (List.Subset.trans hgiven hold)
  refine ⟨d'', hstep, hsound', List.Subset.trans hold hold', ?_⟩
  rw [List.flatMap_append, List.flatMap_singleton]
  exact List.append_subset.mpr ⟨List.Subset.trans hdone hold', hnew⟩

def serviceId (s : String) : String := "S_" ++ textId s

theorem madeOf_serviceId (s : String) : MadeOf isWord (serviceId s) :=
  madeOf_textId "S_" (by decide) s

theorem isPassing_exchange (s : String) : isPassing ("EX_" ++ s) = false := by
  simp [isPassing, Text.startsWith, List.isPrefixOf]

theorem isPassing_queue (s : String) : isPassing ("Q_" ++ s) = false := by
  simp [isPassing, Text.startsWith, List.isPrefixOf]

section Steps

variable {d : Drawing} {s : String}

theorem grows_self (h : d.Sound missing) : Grows missing d [] (.ok d) :=
  ⟨d, rfl, h, List.Subset.refl _, List.nil_subset _⟩

theorem grows_drawBinding (h : d.Sound missing) {b : Value × Value} (hexchange : isName b.1 = true)
    (hqueue : isName b.2 = true) : Grows missing d [] (drawBinding d b) := by
  rw [drawBinding]
  split
  · exact grows_self h
  · rename_i hpresent
    rw [Bool.or_eq_true, not_or, Bool.not_eq_true', Bool.not_eq_true', Bool.not_eq_false,
      Bool.not_eq_false] at hpresent
    obtain ⟨s, hs⟩ := exists_text_of_isName hexchange hpresent.1
    obtain ⟨t, ht⟩ := exists_text_of_isName hqueue hpresent.2
    rw [hs, ht, nodeId_text, nodeId_text]
    refine ⟨d.arrow ("EX_" ++ textId s) ("Q_" ++ textId t), rfl, ?_, List.Subset.refl _,
      List.nil_subset _⟩
    exact h.arrow (madeOf_textId _ (by decide) s) (madeOf_textId _ (by decide) t)
      (.inl (isPassing_exchange _)) (.inl (isPassing_queue _))

/-- What is drawn for a name, if there is one. -/
theorem grows_if_named (h : d.Sound missing) {v : Value} (hv : isName v = true)
    (step : String → Drawing)
    (hstep : ∀ s, (step (textId s)).Sound missing ∧ d.declared ⊆ (step (textId s)).declared) :
    Grows missing d [] (if v.isPresent then do return step (← nodeId v) else return d) := by
  split
  · rename_i hpresent
    obtain ⟨s, rfl⟩ := exists_text_of_isName hv hpresent
    rw [nodeId_text]
    exact ⟨step (textId s), rfl, (hstep s).1, (hstep s).2, List.nil_subset _⟩
  · exact grows_self h

theorem Drawing.Sound.declareService (h : d.Sound missing) (hlisted : ¬ missing (serviceId s)) :
    (d.declare (serviceId s) ("Service " ++ label (.text s))).Sound missing :=
  h.declare (madeOf_serviceId s) (Plain.append (by decide) (plain_label _)) hlisted

theorem grows_drawPublisher (h : d.Sound missing) {p : Publisher} (hs : p.service = .text s)
    (hlisted : ¬ missing (serviceId s)) (hexchange : isName p.exchange = true)
    (hqueue : isName p.queue = true) : Grows missing d [serviceId s] (drawPublisher d p) := by
  have hsound := h.declareService hlisted
  obtain ⟨d₁, hd₁, hsound₁, hold₁, -⟩ := grows_if_named hsound hexchange
    (fun id => Drawing.arrow _ (serviceId s) ("EX_" ++ id))
    fun t => ⟨hsound.arrow (madeOf_serviceId s) (madeOf_textId _ (by decide) t)
      (.inr (.inr Drawing.mem_declare)) (.inl (isPassing_exchange _)), List.Subset.refl _⟩
  obtain ⟨d₂, hd₂, hsound₂, hold₂, -⟩ := grows_if_named hsound₁ hqueue
    (fun id => d₁.arrow (serviceId s) ("Q_" ++ id))
    fun t => ⟨hsound₁.arrow (madeOf_serviceId s) (madeOf_textId _ (by decide) t)
      (.inr (.inr (hold₁ Drawing.mem_declare))) (.inl (isPassing_queue _)), List.Subset.refl _⟩
  refine ⟨d₂, ?_, hsound₂, ?_, ?_⟩
  · rw [drawPublisher, hs, nodeId_text]
    show (if p.exchange.isPresent = true then _ else _) = _
    by_cases hpresent : p.exchange.isPresent = true
    · obtain ⟨e, he⟩ := exists_text_of_isName hexchange hpresent
      rw [if_pos hpresent, he, nodeId_text] at hd₁ ⊢
      obtain rfl := Except.ok.inj hd₁
      exact hd₂
    · rw [if_neg hpresent] at hd₁ ⊢
      obtain rfl := Except.ok.inj hd₁
      exact hd₂
  · exact List.Subset.trans (List.Subset.trans Drawing.subset_declare hold₁) hold₂
  · exact List.cons_subset.mpr ⟨hold₂ (hold₁ Drawing.mem_declare), List.nil_subset _⟩

theorem grows_drawConsumer (h : d.Sound missing) {c : Value × Value} (hs : c.2 = .text s)
    (hlisted : ¬ missing (serviceId s)) (hqueue : isName c.1 = true) :
    Grows missing d [serviceId s] (drawConsumer d c) := by
  have hsound := h.declareService hlisted
  obtain ⟨d₁, hd₁, hsound₁, hold₁, -⟩ := grows_if_named hsound hqueue
    (fun id => Drawing.arrow _ ("Q_" ++ id) (serviceId s))
    fun t => ⟨hsound.arrow (madeOf_textId _ (by decide) t) (madeOf_serviceId s)
      (.inl (isPassing_queue _)) (.inr (.inr Drawing.mem_declare)), List.Subset.refl _⟩
  refine ⟨d₁, ?_, hsound₁, List.Subset.trans Drawing.subset_declare hold₁,
    List.cons_subset.mpr ⟨hold₁ Drawing.mem_declare, List.nil_subset _⟩⟩
  rw [drawConsumer, hs, nodeId_text]
  exact hd₁

variable (hservice : ∀ id, missing id → Text.startsWith id "S_" = true)
include hservice

theorem not_missing_tag {tag : String} (htag : ∀ s, Text.startsWith (tag ++ s) "S_" = false)
    (s : String) : ¬ missing (tag ++ s) := by
  intro hmissing
  have hstart := hservice _ hmissing
  rw [htag] at hstart
  cases hstart

theorem grows_drawExchange (h : d.Sound missing) {e : Value × Value} (hs : e.1 = .text s) :
    Grows missing d [] (drawExchange d e) := by
  have htext : Plain ("Exchange " ++
      if e.2.isPresent then label (.text s) ++ " (" ++ label e.2 ++ ")" else label (.text s)) := by
    apply Plain.append (by decide)
    split
    · exact (((plain_label _).append (by decide)).append (plain_label _)).append (by decide)
    · exact plain_label _
  rw [drawExchange, hs, nodeId_text]
  exact ⟨_, rfl, h.declare (madeOf_textId "EX_" (by decide) s) htext
    (not_missing_tag hservice (by simp [Text.startsWith, List.isPrefixOf]) _),
    Drawing.subset_declare, List.nil_subset _⟩

theorem grows_drawQueue (h : d.Sound missing) {q : Value × Value} (hs : q.1 = .text s) :
    Grows missing d [] (drawQueue d q) := by
  have htext : Plain ("Queue " ++ label (.text s)) := Plain.append (by decide) (plain_label _)
  rw [drawQueue, hs, nodeId_text]
  exact ⟨_, rfl, h.declare (madeOf_textId "Q_" (by decide) s) htext
    (not_missing_tag hservice (by simp [Text.startsWith, List.isPrefixOf]) _),
    Drawing.subset_declare, List.nil_subset _⟩

theorem Drawing.Sound.declareMessage (h : d.Sound missing) (message : Value) :
    (d.declare ("MSG_" ++ textId ("MSG_" ++ message.display))
      ("Message " ++ label message)).Sound missing :=
  h.declare (madeOf_textId "MSG_" (by decide) _) (Plain.append (by decide) (plain_label _))
    (not_missing_tag hservice (by simp [Text.startsWith, List.isPrefixOf]) _)

/-- The publisher of a message is not declared by its arrow; it has to be declared or missing. -/
theorem grows_drawMessagePublisher (h : d.Sound missing) {p : Value × Value} (hs : p.2 = .text s)
    (hknown : missing (serviceId s) ∨ serviceId s ∈ d.declared) :
    Grows missing d [] (drawMessagePublisher d p) := by
  rw [drawMessagePublisher]
  split
  · exact grows_self h
  · rw [messageId_eq, hs, nodeId_text]
    exact ⟨_, rfl, (h.declareMessage hservice p.1).arrow (madeOf_serviceId s)
      (madeOf_textId "MSG_" (by decide) _)
      (.inr (hknown.imp_right fun hold => Drawing.subset_declare hold))
      (.inr (.inr Drawing.mem_declare)), Drawing.subset_declare, List.nil_subset _⟩

theorem grows_drawMessageConsumer (h : d.Sound missing) {c : Value × Value} (hs : c.2 = .text s) :
    Grows missing d [] (drawMessageConsumer d c) := by
  rw [drawMessageConsumer]
  split
  · exact grows_self h
  · rw [messageId_eq, hs, nodeId_text]
    have hconsumer := (h.declareMessage hservice c.1).declare (madeOf_textId "C_" (by decide) s)
      (Plain.append (s := "Consumer ") (by decide) (plain_label (.text s)))
      (not_missing_tag hservice (by simp [Text.startsWith, List.isPrefixOf]) _)
    exact ⟨_, rfl, hconsumer.arrow (madeOf_textId "MSG_" (by decide) _)
      (madeOf_textId "C_" (by decide) s)
      (.inr (.inr (Drawing.subset_declare Drawing.mem_declare))) (.inr (.inr Drawing.mem_declare)),
      List.Subset.trans Drawing.subset_declare Drawing.subset_declare, List.nil_subset _⟩

end Steps

/-! ### Whole diagrams -/

structure Parts.Named (p : Parts) : Prop where
  exchanges : ∀ e ∈ p.exchanges, ∃ s, e.1 = .text s
  queues : ∀ q ∈ p.queues, ∃ s, q.1 = .text s
  bindings : ∀ b ∈ p.bindings, isName b.1 = true ∧ isName b.2 = true
  publishers : ∀ x ∈ p.publishers,
    (∃ s, x.service = .text s) ∧ isName x.exchange = true ∧ isName x.queue = true
  consumers : ∀ c ∈ p.consumers, isName c.1 = true ∧ ∃ s, c.2 = .text s
  messagePublishers : ∀ m ∈ p.messagePublishers, ∃ s, m.2 = .text s
  messageConsumers : ∀ m ∈ p.messageConsumers, ∃ s, m.2 = .text s

/-- The services that pass something to an exchange or a queue, and those that read a queue. -/
def Parts.services (p : Parts) : List String :=
  (p.publishers.map (·.service) ++ p.consumers.map (·.2)).filterMap Value.text?

theorem Parts.mem_services {s : String} :
    s ∈ p.services ↔
      (∃ x ∈ p.publishers, x.service = .text s) ∨ ∃ c ∈ p.consumers, c.2 = .text s := by
  have htext (v : Value) : v.text? = some s ↔ v = .text s := by
    cases v <;> simp [Value.text?]
  simp only [services, List.mem_filterMap, List.mem_append, List.mem_map, htext, exists_eq_right]

/-- Whether an identifier belongs to a service, but to none of the given ones. -/
def isMissing (services : List String) (id : String) : Bool :=
  Text.startsWith id "S_" && !(services.map serviceId).contains id

/-- A service that neither publishes to an exchange or a queue nor reads a queue. -/
def Parts.Missing (p : Parts) (id : String) : Prop := isMissing p.services id = true

theorem Parts.Missing.startsWith (id : String) (h : p.Missing id) :
    Text.startsWith id "S_" = true :=
  (Bool.and_eq_true_iff.mp h).1

theorem Parts.missing_serviceId (s : String) :
    p.Missing (serviceId s) ↔ serviceId s ∉ p.services.map serviceId := by
  have hstart : Text.startsWith (serviceId s) "S_" = true := by
    simp [serviceId, Text.startsWith]
  rw [Missing, isMissing, hstart, Bool.true_and, Bool.not_eq_true', ← Bool.not_eq_true,
    List.contains_iff_mem]

def opening : Drawing := { lines := ["```mermaid", "graph LR"] }

theorem sound_opening (missing : String → Prop) : opening.Sound missing := by
  refine ⟨by decide, ?_, ?_, by simp [opening]⟩
  · intro id
    have hfirst : declares id "```mermaid" = false := declares_eq_false (by decide) id
    have hsecond : declares id "graph LR" = false := declares_eq_false (by decide) id
    simp [opening, hfirst, hsecond]
  · have hempty : Announced missing [] := by
      intro before source target after hsplit
      simp at hsplit
    have hfirst : Announced missing ([] ++ ["```mermaid"]) := hempty.append_line (by decide)
    exact hfirst.append_line (by decide)

namespace Parts.Named

variable {p : Parts} {d : Drawing}

theorem not_missing {s : String} (hs : s ∈ p.services) : ¬ p.Missing (serviceId s) := by
  rw [missing_serviceId, not_not]
  exact List.mem_map_of_mem hs

theorem draw_exchanges (h : p.Named) {es : List (Value × Value)} (hes : es.Perm p.exchanges)
    (hd : d.Sound p.Missing) :
    Grows p.Missing d (es.flatMap fun _ => []) (es.foldlM drawExchange d) := by
  refine grows_foldlM _ ?_ hd (List.nil_subset _)
  intro e he d hd _
  obtain ⟨s, hs⟩ := h.exchanges e (hes.mem_iff.mp he)
  exact grows_drawExchange Missing.startsWith hd hs

theorem draw_queues (h : p.Named) {qs : List (Value × Value)} (hqs : qs.Perm p.queues)
    (hd : d.Sound p.Missing) :
    Grows p.Missing d (qs.flatMap fun _ => []) (qs.foldlM drawQueue d) := by
  refine grows_foldlM _ ?_ hd (List.nil_subset _)
  intro q hq d hd _
  obtain ⟨s, hs⟩ := h.queues q (hqs.mem_iff.mp hq)
  exact grows_drawQueue Missing.startsWith hd hs

theorem draw_bindings (h : p.Named) (hd : d.Sound p.Missing) :
    Grows p.Missing d (p.bindings.flatMap fun _ => []) (p.bindings.foldlM drawBinding d) := by
  refine grows_foldlM _ ?_ hd (List.nil_subset _)
  intro b hb d hd _
  exact grows_drawBinding hd (h.bindings b hb).1 (h.bindings b hb).2

def nodesOf (service : Value) : List String := (service.text?.map serviceId).toList

theorem draw_publishers (h : p.Named) (hd : d.Sound p.Missing) :
    Grows p.Missing d (p.publishers.flatMap fun x => nodesOf x.service)
      (p.publishers.foldlM drawPublisher d) := by
  refine grows_foldlM _ ?_ hd (List.nil_subset _)
  intro x hx d hd _
  obtain ⟨⟨s, hs⟩, hexchange, hqueue⟩ := h.publishers x hx
  rw [hs]
  exact grows_drawPublisher hd hs (not_missing (mem_services.mpr (.inl ⟨x, hx, hs⟩))) hexchange
    hqueue

theorem draw_consumers (h : p.Named) (hd : d.Sound p.Missing) :
    Grows p.Missing d (p.consumers.flatMap fun c => nodesOf c.2)
      (p.consumers.foldlM drawConsumer d) := by
  refine grows_foldlM _ ?_ hd (List.nil_subset _)
  intro c hc d hd _
  obtain ⟨hqueue, s, hs⟩ := h.consumers c hc
  rw [hs]
  exact grows_drawConsumer hd hs (not_missing (mem_services.mpr (.inr ⟨c, hc, hs⟩))) hqueue

theorem map_services_subset :
    p.services.map serviceId ⊆ (p.publishers.flatMap fun x => nodesOf x.service) ++
      p.consumers.flatMap fun c => nodesOf c.2 := by
  intro id hid
  obtain ⟨s, hs, rfl⟩ := List.mem_map.mp hid
  have hnode {v : Value} (hv : v = .text s) : serviceId s ∈ nodesOf v := by
    simp [nodesOf, hv, Value.text?]
  rcases mem_services.mp hs with ⟨x, hx, hservice⟩ | ⟨c, hc, hservice⟩
  · exact List.mem_append_left _ (List.mem_flatMap.mpr ⟨x, hx, hnode hservice⟩)
  · exact List.mem_append_right _ (List.mem_flatMap.mpr ⟨c, hc, hnode hservice⟩)

/-- A publisher of messages is missing, unless the loops before have declared it. -/
theorem draw_messagePublishers (h : p.Named) (hd : d.Sound p.Missing)
    (hdeclared : p.services.map serviceId ⊆ d.declared) :
    Grows p.Missing d (p.messagePublishers.flatMap fun _ => [])
      (p.messagePublishers.foldlM drawMessagePublisher d) := by
  refine grows_foldlM _ ?_ hd hdeclared
  intro m hm d hd hdeclared
  obtain ⟨s, hs⟩ := h.messagePublishers m hm
  refine grows_drawMessagePublisher Missing.startsWith hd hs ?_
  by_cases hmissing : p.Missing (serviceId s)
  · exact .inl hmissing
  · rw [missing_serviceId, not_not] at hmissing
    exact .inr (hdeclared hmissing)

theorem draw_messageConsumers (h : p.Named) (hd : d.Sound p.Missing) :
    Grows p.Missing d (p.messageConsumers.flatMap fun _ => [])
      (p.messageConsumers.foldlM drawMessageConsumer d) := by
  refine grows_foldlM _ ?_ hd (List.nil_subset _)
  intro m hm d hd _
  obtain ⟨s, hs⟩ := h.messageConsumers m hm
  exact grows_drawMessageConsumer Missing.startsWith hd hs

/-- **Diagrams of named parts are sound.**  Every service that reaches an exchange or a queue is
declared, and only other services are missing. -/
theorem draw (h : p.Named) :
    ∃ d : Drawing, p.draw = .ok (Text.join "\n" (d.lines ++ ["```"])) ∧ d.Sound p.Missing ∧
      p.services.map serviceId ⊆ d.declared := by
  obtain ⟨exchanges, hexchanges, hpermE⟩ := sortByName_perm h.exchanges
  obtain ⟨queues, hqueues, hpermQ⟩ := sortByName_perm h.queues
  obtain ⟨d₁, h₁, hd₁, -⟩ := h.draw_exchanges hpermE (sound_opening _)
  obtain ⟨d₂, h₂, hd₂, -⟩ := h.draw_queues hpermQ hd₁
  obtain ⟨d₃, h₃, hd₃, -⟩ := h.draw_bindings hd₂
  obtain ⟨d₄, h₄, hd₄, -, hpublishers⟩ := h.draw_publishers hd₃
  obtain ⟨d₅, h₅, hd₅, hold₅, hconsumers⟩ := h.draw_consumers hd₄
  have hservices : p.services.map serviceId ⊆ d₅.declared :=
    List.Subset.trans map_services_subset
      (List.append_subset.mpr ⟨List.Subset.trans hpublishers hold₅, hconsumers⟩)
  -- Whoever publishes messages and is a service has been declared by the two loops before.
  obtain ⟨d₆, h₆, hd₆, hold₆, -⟩ := h.draw_messagePublishers hd₅ hservices
  obtain ⟨d₇, h₇, hd₇, hold₇, -⟩ := h.draw_messageConsumers hd₆
  refine ⟨d₇, ?_, hd₇, List.Subset.trans hservices (List.Subset.trans hold₆ hold₇)⟩
  rw [opening] at h₁
  simp only [Parts.draw, hexchanges, hqueues, bind, Except.bind, h₁, h₂, h₃, h₄, h₅, h₆, h₇]
  rfl

end Parts.Named

/-! ### Shown lines -/

/-- The lines of a diagram, none if there is none. -/
def linesOf (diagram : Option String) : List String :=
  diagram.elim [] fun text => Text.splitOn text "\n"

theorem Drawing.Sound.linesOf {d : Drawing} (h : d.Sound missing) :
    linesOf (some (Text.join "\n" (d.lines ++ ["```"]))) = d.lines ++ ["```"] := by
  refine Text.lines_join ?_ (by simp)
  exact List.forall_mem_append.mpr ⟨h.newline, by decide⟩

/-- The fence at the end of a diagram declares nothing and is no arrow. -/
theorem Parts.Named.linesOf_draw (h : p.Named) :
    ∃ diagram, p.draw = .ok diagram ∧ Announced p.Missing (linesOf (some diagram)) ∧
      ∀ id, Text.startsWith id "S_" = true →
        (linesOf (some diagram)).countP (declares id)
          = if isMissing p.services id then 0 else 1 := by
  obtain ⟨d, hdraw, hsound, hdeclared⟩ := h.draw
  refine ⟨_, hdraw, ?_, ?_⟩
  · rw [hsound.linesOf]
    exact hsound.announced.append_line (by decide)
  · intro id hid
    have hfence : declares id "```" = false := declares_eq_false (by decide) id
    rw [hsound.linesOf, List.countP_append, hsound.count, List.countP_singleton, hfence]
    by_cases hmissing : isMissing p.services id = true
    · rw [if_pos hmissing, if_neg fun hmem => hsound.present id hmem hmissing]
      rfl
    · have hlisted : id ∈ p.services.map serviceId := by
        simpa [isMissing, hid] using hmissing
      rw [if_neg hmissing, if_pos (hdeclared hlisted)]
      rfl

end Integration

end CodeScribe
