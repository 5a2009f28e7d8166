import CodeScribe.Data.Record

/-!
# Merging the facts of chunks

The facts of the chunks of a file are merged key by key: lists are joined without repetition,
named items by their names; of other values the first one stays.

* `Merge.joined` — a list joined to what is there already.
-/

namespace CodeScribe.Merge

open Value

/-- Whether a list is one of named items, judged by its first. -/
def isNamed : List Value → Bool
  | map entries :: _ => (lookup (text "name") entries).isSome
  | _ => false

def namesOf : List Value → Outcome (List Value)
  | [] => .ok []
  | map entries :: rest => do
    let name ← ((lookup (text "name") entries).getD null).asKey
    return name :: (← namesOf rest)
  | _ :: rest => namesOf rest

def unknownItems (known : List Value) : List Value → Outcome (List Value)
  | [] => .ok []
  | item :: rest => do
    let name ← (← item.fieldOrNull "name").asKey
    let more ← unknownItems known rest
    return if known.any (same name) then more else item :: more

/-- Items put behind others, unless they are there. -/
def distinct : List Value → List Value → List Value
  | old, [] => old
  | old, item :: rest => distinct (if old.any (same item) then old else old ++ [item]) rest

/-- Whether data that is no list holds an item. -/
def heldBy (item : Value) : Value → Outcome Bool
  | text s => match item with
    | text t => .ok (Text.contains s t)
    | v => .error (.wrongKind ("'in <string>' requires string as left operand, not " ++ v.kind))
  | map entries => do return (lookup (← item.asKey) entries).isSome
  | other => .error (.notSearchable other.kind)

/-- Data that is no list keeps still as long as it holds every item, and fails at the first that
it does not hold. -/
def keptBy (old : Value) : List Value → Outcome Value
  | [] => .ok old
  | item :: rest => do
    if ← heldBy item old then keptBy old rest else .error (.noOperation old.kind "append")

/-- Items joined to data that is no list: it cannot take any, though nothing is wrong as long as
it holds them. -/
def joinedToOther (old : Value) (items : List Value) : Outcome Value := do
  if isNamed items then
    let _ ← old.each
    .error (.noOperation old.kind "append")
  else keptBy old items

def joined (old : Value) (items : List Value) : Outcome Value :=
  match old with
  | list olds => do
    if isNamed items then return list (olds ++ (← unknownItems (← namesOf olds) items))
    else return list (distinct olds items)
  | other => joinedToOther other items

/-- Merge one key: nothing and the empty text do not count. -/
def entry (merged : List (Value × Value)) (key value : Value) :
    Outcome (List (Value × Value)) :=
  match value with
  | null => .ok merged
  | text "" => .ok merged
  | list items => do
    return insert key (← joined ((lookup key merged).getD (list [])) items) merged
  | other => .ok (if (lookup key merged).isSome then merged else insert key other merged)

/-- Merge the facts of one chunk. -/
def one (merged : List (Value × Value)) (info : Value) : Outcome (List (Value × Value)) := do
  (← info.entriesFor "items").foldlM (fun m (k, v) => entry m k v) merged

/-- Merge the facts of all chunks. -/
def all (infos : List Value) : Outcome Value := do return map (← infos.foldlM one [])

end CodeScribe.Merge
