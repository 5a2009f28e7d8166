import CodeScribe.Document.FileEntry
import CodeScribe.Proofs.Document.Merging
import CodeScribe.Proofs.Source.Settings

/-!
# Members of classes in merged facts

A chunk can cut a class off, so that the facts of one chunk show the class without the methods that
the facts of another show.  A merge joins the classes of chunks by their names and keeps the first
of each name as it stands: the methods of a class are those that the first chunk with the class
shows.

* `Merge.methods_merged` — the methods of a class in merged facts.
-/

namespace CodeScribe.Merge

open Value

/-! ### Items of a name -/

def itemsAt (key : String) (info : Value) : List Value := oldItems (info.get? key)

def isCalled (name : String) (item : Value) : Bool := (nameOf item).text? == some name

def called (key name : String) (info : Value) : List Value :=
  (itemsAt key info).filter (isCalled name)

def declares (className : String) (info : Value) : Bool :=
  !(called "classes" className info).isEmpty

def hasMethod (className method : String) (info : Value) : Bool :=
  (called "classes" className info).any fun c => !(called "methods" method c).isEmpty

theorem same_text (s : String) (v : Value) : same (text s) v = (v.text? == some s) := by
  cases v with
  | text t =>
    by_cases h : s = t
    · simp [same_text_text, text?, h]
    · simp [same_text_text, text?, h, Ne.symm h]
  | _ => rfl

theorem isNewTo_of_isCalled {name : String} {item : Value} (h : isCalled name item = true)
    (olds : List Value) : isNewTo olds item = (olds.filter (isCalled name)).isEmpty := by
  have hname : nameOf item = text name := eq_text_of_text? (by simpa [isCalled] using h)
  rw [isNewTo, hname, Bool.eq_iff_iff]
  simp [same_text, isCalled]

theorem filter_joinedItems {items : List Value} (hnamed : ∀ i ∈ items, isNamed [i] = true)
    (olds : List Value) (name : String) :
    (joinedItems olds items).filter (isCalled name) =
      if (olds.filter (isCalled name)).isEmpty then items.filter (isCalled name)
      else olds.filter (isCalled name) := by
  have hnew : (items.filter (isNewTo olds)).filter (isCalled name) =
      items.filter fun i => isCalled name i && (olds.filter (isCalled name)).isEmpty := by
    rw [List.filter_filter]
    apply List.filter_congr
    intro i _
    by_cases hi : isCalled name i = true
    · rw [isNewTo_of_isCalled hi]
    · simp [hi]
  rw [joinedItems_named hnamed, List.filter_append, hnew]
  split
  · rename_i hempty
    simp [List.isEmpty_iff.mp hempty]
  · rename_i hsome
    simp [hsome]

/-- The items of a name in a list joined from several come from the first that has some. -/
theorem filter_foldl_joinedItems {itemss : List (List Value)}
    (hnamed : ∀ items ∈ itemss, ∀ i ∈ items, isNamed [i] = true) (olds : List Value)
    (name : String) :
    (itemss.foldl joinedItems olds).filter (isCalled name) =
      (((olds :: itemss).map (List.filter (isCalled name))).find? (!·.isEmpty)).getD [] := by
  induction itemss generalizing olds with
  | nil => cases h : olds.filter (isCalled name) <;> simp [h]
  | cons items itemss ih =>
    obtain ⟨hitems, hrest⟩ := List.forall_mem_cons.mp hnamed
    rw [List.foldl_cons, ih hrest, List.map_cons, filter_joinedItems hitems]
    cases h : olds.filter (isCalled name) <;> simp [h]

/-! ### The items of a key -/

theorem get?_merged_of_ne {es : List (String × Value)} {key : String} (hes : ∀ e ∈ es, e.1 ≠ key)
    (t : Table Value) : (merged t es).get? key = t.get? key :=
  Table.get?_foldl_absorb_of_ne (fun e he => hes e (List.mem_filter.mp he).1) t

theorem oldItems_merged {es : Table Value} (hnd : es.names.Nodup) {key : String}
    (hlist : ∀ v ∈ es.get? key, ∃ items, v = list items) (t : Table Value) :
    oldItems ((merged t es).get? key) =
      joinedItems (oldItems (t.get? key)) (oldItems (es.get? key)) := by
  induction es generalizing t with
  | nil => rfl
  | cons e es ih =>
    obtain ⟨k, v⟩ := e
    rw [Table.names_cons, List.nodup_cons] at hnd
    rw [Table.get?_cons] at hlist ⊢
    rw [merged_cons]
    by_cases hk : key = k
    · subst hk
      rw [if_pos rfl] at hlist ⊢
      obtain ⟨items, rfl⟩ := hlist v rfl
      have hother : ∀ e ∈ es, e.1 ≠ key := by
        rintro ⟨k, w⟩ he rfl
        exact hnd.1 (Table.mem_names.mpr ⟨w, he⟩)
      have hcounts : counts (list items) = true := rfl
      rw [if_pos hcounts, get?_merged_of_ne hother, Table.get?_absorb, if_pos rfl]
      rfl
    · rw [if_neg hk] at hlist ⊢
      split
      · rw [ih hnd.2 hlist, Table.get?_absorb, if_neg hk]
      · exact ih hnd.2 hlist t

theorem oldItems_merged_flatten {ts : List (Table Value)} (hnd : ∀ t ∈ ts, t.names.Nodup)
    {key : String} (hlist : ∀ t ∈ ts, ∀ v ∈ t.get? key, ∃ items, v = list items)
    (t : Table Value) :
    oldItems ((merged t ts.flatten).get? key) =
      (ts.map fun t => oldItems (t.get? key)).foldl joinedItems (oldItems (t.get? key)) := by
  induction ts generalizing t with
  | nil => rfl
  | cons u ts ih =>
    obtain ⟨hndHead, hndRest⟩ := List.forall_mem_cons.mp hnd
    obtain ⟨hlistHead, hlistRest⟩ := List.forall_mem_cons.mp hlist
    rw [List.flatten_cons, merged_append, ih hndRest hlistRest, oldItems_merged hndHead hlistHead]
    rfl

/-! ### What the keys of facts hold -/

/-- What a key of facts holds, in every language. -/
def factKind (key : String) : Kind :=
  if key ∈ ["classes", "interfaces", "enums", "structs", "structures", "modules", "types",
      "records", "unions", "functions", "traits", "constants"] then .named
  else if key ∈ ["using", "imports", "open", "use", "comments", "tags", "custom_elements",
      "top_level_keys"] then .plain
  else .single

structure Regular (kind : Kind) (v : Value) : Prop where
  holds : kind.Holds v
  isKey : kind = .named → ∀ name ∈ compared v, name.isKey = true

theorem regular_text {s : String} : Regular .single (text s) where
  holds := fun _ h => by cases h
  isKey := fun h => by cases h

theorem regular_record {t : Table Value} : Regular .single (record t) where
  holds := fun _ h => by cases h
  isKey := fun h => by cases h

theorem regular_list {items : List Value} (h : ∀ v ∈ items, v.isKey = true) :
    Regular .plain (list items) where
  holds := ⟨items, rfl, fun v hv => by
    cases v with
    | map entries => cases h _ hv
    | _ => rfl⟩
  isKey := fun h => by cases h

theorem regular_texts {ss : List String} : Regular .plain (texts ss) := by
  refine regular_list fun v hv => ?_
  obtain ⟨s, -, rfl⟩ := List.mem_map.mp hv
  rfl

/-- A table that starts with a name. -/
def Titled (v : Value) : Prop := ∃ name fields, v = record (("name", text name) :: fields)

theorem regular_listOf {α : Type} {toValue : α → Value} {as : List α}
    (h : ∀ a, Titled (toValue a)) : Regular .named (listOf toValue as) := by
  have hnamed : ∀ i ∈ as.map toValue, isNamed [i] = true := by
    intro i hi
    obtain ⟨a, -, rfl⟩ := List.mem_map.mp hi
    obtain ⟨name, fields, hvalue⟩ := h a
    rw [hvalue]
    rfl
  refine ⟨⟨_, rfl, hnamed⟩, fun _ name hname => ?_⟩
  rw [listOf, compared_named hnamed] at hname
  obtain ⟨i, hi, rfl⟩ := List.mem_map.mp hname
  obtain ⟨a, -, rfl⟩ := List.mem_map.mp hi
  obtain ⟨name, fields, hvalue⟩ := h a
  rw [hvalue]
  rfl

theorem itemsAt_record (key : String) (t : Table Value) :
    itemsAt key (record t) = oldItems (t.get? key) := by
  rw [itemsAt, record_eq, Value.get?, lookup_fieldsOf]

/-- A table with one entry for each key, which holds what the key says. -/
structure Proper (t : Table Value) : Prop where
  nodup : t.names.Nodup
  regular : ∀ e ∈ t, Regular (factKind e.1) e.2

/-- The facts of a source are a table with one entry for each key, which holds what the key says. -/
theorem proper_read (language : Language) (options : ReadOptions) (code : List Char) :
    ∃ t : Table Value, (Facts.read language options code).toValue = record t ∧ Proper t := by
  cases language
  all_goals
    refine ⟨_, rfl, by simp [Table.names], ?_⟩
    simp only [List.forall_mem_cons]
  case' java => refine ⟨regular_text, regular_texts, ?_, ?_, ?_, regular_texts, by simp⟩
  case' csharp => refine ⟨regular_text, regular_texts, ?_, ?_, ?_, ?_, regular_texts, by simp⟩
  case' vbnet => refine ⟨regular_text, regular_texts, ?_, ?_, ?_, ?_, ?_, regular_texts, by simp⟩
  case' fsharp => refine ⟨regular_text, regular_texts, ?_, ?_, ?_, ?_, ?_, regular_texts, by simp⟩
  case' php => refine ⟨regular_text, regular_texts, ?_, ?_, ?_, ?_, ?_, regular_texts, by simp⟩
  case' javascript => refine ⟨regular_texts, ?_, ?_, regular_texts, by simp⟩
  case' typescript => refine ⟨regular_texts, ?_, ?_, ?_, ?_, ?_, regular_texts, by simp⟩
  case markup => exact ⟨regular_texts, regular_texts, regular_texts, by simp⟩
  case config =>
    exact ⟨regular_text, regular_list (Settings.isKey_formatOf code), regular_texts, by simp⟩
  -- What is left are lists of declarations, and each of these starts with its name.
  all_goals exact regular_listOf fun _ => ⟨_, _, rfl⟩

/-- The facts of chunks as they are merged, each with the messages that the file passes, if any. -/
def readings (language : Language) (options : ReadOptions) (messaging : Option (Table Value))
    (chunks : List (List Char)) : List Value :=
  chunks.map fun chunk => Document.Describe.withMessaging (messaging.map record)
    (Facts.read language options chunk).toValue

theorem proper_reading (language : Language) (options : ReadOptions)
    (messaging : Option (Table Value)) (chunk : List Char) :
    ∃ t : Table Value, Document.Describe.withMessaging (messaging.map record)
      (Facts.read language options chunk).toValue = record t ∧ Proper t := by
  obtain ⟨t, hread, ht⟩ := proper_read language options chunk
  cases messaging with
  | none => exact ⟨t, hread, ht⟩
  | some flows =>
    refine ⟨t.set "messaging_flows" (record flows), ?_, Table.nodup_names_alter ht.nodup _ _, ?_⟩
    · rw [hread, record_eq, record_eq, ← insert_fieldsOf]
      rfl
    · have hflows : Regular (factKind "messaging_flows") (record flows) := regular_record
      exact Table.forall_set (P := fun key v => Regular (factKind key) v) ht.regular hflows

/-- The facts of chunks are tables with one entry for each key, which holds what the key says. -/
theorem exists_proper_readings (language : Language) (options : ReadOptions)
    (messaging : Option (Table Value)) (chunks : List (List Char)) :
    ∃ ts : List (Table Value),
      readings language options messaging chunks = ts.map record ∧ ∀ t ∈ ts, Proper t := by
  choose table htable hproper using proper_reading language options messaging
  refine ⟨chunks.map table, ?_, ?_⟩
  · rw [readings, List.map_map]
    exact List.map_congr_left fun chunk _ => htable chunk
  · intro t ht
    obtain ⟨chunk, -, rfl⟩ := List.mem_map.mp ht
    exact hproper chunk

/-! ### Merged facts -/

section Proper

variable {ts : List (Table Value)} (hts : ∀ t ∈ ts, Proper t)

include hts

theorem all_proper : all (ts.map record) = .ok (record (merged [] ts.flatten)) := by
  have hregular : ∀ e ∈ ts.flatten, Regular (factKind e.1) e.2 := by
    intro e he
    obtain ⟨t, ht, he⟩ := List.mem_flatten.mp he
    exact (hts t ht).regular e he
  exact all_eq_merged (fun e he => (hregular e he).holds) fun e he => (hregular e he).isKey

theorem itemsAt_merged {key : String} (hkey : factKind key = .named) :
    itemsAt key (record (merged [] ts.flatten)) =
      ((ts.map record).map (itemsAt key)).foldl joinedItems [] ∧
    ∀ items ∈ (ts.map record).map (itemsAt key), ∀ i ∈ items, isNamed [i] = true := by
  have hnamed : ∀ t ∈ ts, ∀ v ∈ t.get? key,
      ∃ items, v = list items ∧ ∀ i ∈ items, isNamed [i] = true := by
    intro t ht v hv
    have hholds := ((hts t ht).regular (key, v) (Table.mem_of_get? hv)).holds
    rwa [hkey] at hholds
  have hitems : (ts.map record).map (itemsAt key) = ts.map fun t => oldItems (t.get? key) := by
    rw [List.map_map]
    exact List.map_congr_left fun t _ => itemsAt_record key t
  rw [hitems]
  constructor
  · rw [itemsAt_record]
    exact oldItems_merged_flatten (fun t ht => (hts t ht).nodup)
      (fun t ht v hv => (hnamed t ht v hv).imp fun _ h => h.1) []
  · intro items hmem
    obtain ⟨t, ht, rfl⟩ := List.mem_map.mp hmem
    cases hget : t.get? key with
    | none => simp
    | some v =>
      obtain ⟨items, rfl, hall⟩ := hnamed t ht v hget
      exact hall

theorem called_merged {key : String} (hkey : factKind key = .named) (name : String) :
    called key name (record (merged [] ts.flatten)) =
      (((ts.map record).find? fun info => !(called key name info).isEmpty).map
        (called key name)).getD [] := by
  obtain ⟨hmerged, hnamed⟩ := itemsAt_merged hts hkey
  rw [called, hmerged, filter_foldl_joinedItems hnamed, List.map_cons, List.map_map,
    List.find?_cons_of_neg (by simp), List.find?_map]
  rfl

end Proper

/-- Merging the facts of chunks has a result, which shows a class if the facts of any chunk do.  Of
its methods it shows those that the facts of the first chunk with the class show, and no others:
what a later chunk adds to a class is lost. -/
theorem methods_merged (language : Language) (options : ReadOptions)
    (messaging : Option (Table Value)) (chunks : List (List Char)) :
    ∃ facts, all (readings language options messaging chunks) = .ok facts ∧
      ∀ className,
        declares className facts =
          (readings language options messaging chunks).any (declares className) ∧
        ∀ method, hasMethod className method facts = true ↔
          ∃ first, (readings language options messaging chunks).find? (declares className) =
            some first ∧ hasMethod className method first = true := by
  obtain ⟨ts, hreadings, hts⟩ := exists_proper_readings language options messaging chunks
  rw [hreadings]
  refine ⟨_, all_proper hts, ?_⟩
  intro className
  have hkey : factKind "classes" = .named := rfl
  have hcalled : called "classes" className (record (merged [] ts.flatten)) =
      (((ts.map record).find? (declares className)).map (called "classes" className)).getD [] :=
    called_merged hts hkey className
  cases hfind : (ts.map record).find? (declares className) with
  | none =>
    rw [hfind] at hcalled
    have hnone := List.any_eq_false.mpr (List.find?_eq_none.mp hfind)
    rw [hnone, declares, hcalled]
    simp [hasMethod, hcalled]
  | some first =>
    rw [hfind] at hcalled
    have hfirst : declares className first = true := List.find?_some hfind
    have hsome := List.any_eq_true.mpr ⟨first, List.mem_of_find?_eq_some hfind, hfirst⟩
    rw [hsome, ← hfirst, declares, declares, hcalled]
    simp [hasMethod, hcalled]

/-- A source, and two chunks of it that share twenty characters.  The first one ends within the
class. -/
def cutSource : String := "// 0123\nclass A \x7b void f() \x7b \x7d \x7d"

@[inherit_doc cutSource]
def cutChunks : List (List Char) := [cutSource.toList.take 26, cutSource.toList.drop 6]

/-- The second chunk shows the class whole, but its method is lost. -/
theorem method_of_later_chunk_lost :
    Chunk.split cutSource.toList 26 20 = some cutChunks ∧
      (∃ info ∈ readings .csharp ⟨true, true⟩ none cutChunks, hasMethod "A" "f" info = true) ∧
      ∃ facts, all (readings .csharp ⟨true, true⟩ none cutChunks) = .ok facts ∧
        hasMethod "A" "f" facts = false := by
  have hshown : (readings .csharp ⟨true, true⟩ none cutChunks).any (hasMethod "A" "f") = true := by
    decide +kernel
  have hlost : (all (readings .csharp ⟨true, true⟩ none cutChunks)).toOption.any
      (!hasMethod "A" "f" ·) = true := by decide +kernel
  refine ⟨by decide +kernel, List.any_eq_true.mp hshown, ?_⟩
  cases hall : all (readings .csharp ⟨true, true⟩ none cutChunks) with
  | error fault =>
    rw [hall] at hlost
    cases hlost
  | ok facts =>
    rw [hall] at hlost
    exact ⟨facts, rfl, by simpa [Except.toOption] using hlost⟩

end CodeScribe.Merge
