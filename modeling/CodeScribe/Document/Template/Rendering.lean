import CodeScribe.Document.Template.Reading
import CodeScribe.Data.Table

/-!
# Filling templates

A template is filled from a table of named values.  A name or part that is not there is
undefined: it is shown as nothing, counts as not given and has no items; only its parts cannot
be asked for.
-/

namespace CodeScribe.Document

def shownText : Option Value → String
  | some v => v.display
  | none => ""

/-- A text made safe for markup. -/
def escaped (s : String) : String :=
  String.join (s.toList.map fun c => match c with
    | '&' => "&amp;"
    | '<' => "&lt;"
    | '>' => "&gt;"
    | '"' => "&#34;"
    | '\'' => "&#39;"
    | c => String.singleton c)

/-- Units of size, each a thousand and twenty-four times the one before. -/
def sizeUnits : List String := ["B", "KB", "MB", "GB"]

/-- A size in the first unit in which it stays below a thousand and twenty-four. -/
def sizeIn : List String → Float → String
  | [], x => Decimal.fixed 1 x ++ " TB"
  | unit :: units, x =>
    if x < 1024 then Decimal.fixed 1 x ++ " " ++ unit else sizeIn units (x / 1024)

/-- A number of bytes in a readable unit. -/
def sizeText : Value → Outcome String
  | .bool b => .ok (sizeIn sizeUnits (if b then 1 else 0))
  | .int n => .ok (sizeIn sizeUnits (Float.ofInt n))
  | .float x => .ok (sizeIn sizeUnits x)
  | v => .error (.notOrdered v.kind "float")

def pathList (v : Value) : Outcome String := do
  return Text.join "\n" ((← v.each).map fun p => "- `" ++ p.display ++ "`")

/-- The number of items, zero for what does not count as given. -/
def itemCount (v : Value) : Outcome Nat := if v.isPresent then v.size else .ok 0

def Filter.apply : Filter → Option Value → Outcome Value
  | .length, none => .ok (.int 0)
  | .length, some v => do return .nat (← v.size)
  | .join _, none => .ok (.text "")
  | .join sep, some v => do return .text (Text.join sep ((← v.each).map Value.display))
  | .upper, v => .ok (.text (Text.upper (shownText v)))
  | .lower, v => .ok (.text (Text.lower (shownText v)))
  | .trim, v => .ok (.text (Text.trim (shownText v)))
  | .replace old new, v => .ok (.text (Text.replace (shownText v) old new))
  | .fallback b, v => .ok (v.getD (.bool b))
  | .paths, none => .ok (.text "")
  | .paths, some v => do return .text (← pathList v)
  | .fileSize, none => .error .undefinedPart
  | .fileSize, some v => do return .text (← sizeText v)
  | .count, none => .ok (.int 0)
  | .count, some v => do return .nat (← itemCount v)

/-- Whether a value that may be undefined counts as given. -/
def isGiven (v : Option Value) : Bool := v.any Value.isPresent

def Expr.eval (names : Table Value) : Expr → Outcome (Option Value)
  | name n => .ok (names.get? n)
  | text s => .ok (some (.text s))
  | truth b => .ok (some (.bool b))
  | part e key => do
    match ← e.eval names with
    | some v => return v.get? key
    | none => .error .undefinedPart
  | entries e => do
    match ← e.eval names with
    | some (.map es) => return some (.list (es.map fun (k, v) => .list [k, v]))
    | _ => .error .undefinedPart
  | filtered e f => do return some (← f.apply (← e.eval names))
  | negated e => do return some (.bool !(isGiven (← e.eval names)))
  | both a b => do
    let x ← a.eval names
    if isGiven x then b.eval names else return x
  | either a b => do
    let x ← a.eval names
    if isGiven x then return x else b.eval names
  | equal a b => do
    match ← a.eval names, ← b.eval names with
    | some x, some y => return some (.bool (x.same y))
    | none, none => return some (.bool true)
    | _, _ => return some (.bool false)
  | isDefined e => do return some (.bool (← e.eval names).isSome)
  | isNull e => do return some (.bool ((← e.eval names).any Value.isNull))
  | given e condition => do
    if isGiven (← condition.eval names) then e.eval names else return none

/-- Names for the parts of an item: one name for the item, several for its own items. -/
def bindItem (keys : List String) (item : Value) (names : Table Value) : Outcome (Table Value) :=
  match keys with
  | [key] => .ok (Table.set names key item)
  | keys => do return (keys.zip (← item.each)).foldl (fun t (k, v) => Table.set t k v) names

/-- Items, each with the switch that tells the last one. -/
def withLast : List Value → List (Value × Bool)
  | [] => []
  | [v] => [(v, true)]
  | v :: rest => (v, false) :: withLast rest

mutual

/-- The names after a piece and the text that it gives. -/
def Node.fill (mask : String → String) : Node → Table Value → Outcome (Table Value × String)
  | .text s, names => .ok (names, s)
  | .shown e, names => do return (names, mask (shownText (← e.eval names)))
  | .assign name e, names => do
    match ← e.eval names with
    | some v => return (Table.set names name v, "")
    | none => return (names.filter (·.1 != name), "")
  | .branch condition yes no, names => do
    if isGiven (← condition.eval names) then fillAll mask yes names else fillAll mask no names
  | .each keys source body, names => do
    let items ← match ← source.eval names with
      | some v => v.each
      | none => pure []
    let texts ← (withLast items).mapM fun (item, last) => do
      let inner ← bindItem keys item (Table.set names "loop" (.record [("last", .bool last)]))
      return (← fillAll mask body inner).2
    return (names, String.join texts)

/-- The names after some pieces and the text that they give. -/
def fillAll (mask : String → String) :
    List Node → Table Value → Outcome (Table Value × String)
  | [], names => .ok (names, "")
  | node :: rest, names => do
    let (names, before) ← node.fill mask names
    let (names, after) ← fillAll mask rest names
    return (names, before ++ after)

end

def Template.fill (t : Template) (names : Table Value) : Outcome String := do
  return (← fillAll id t.nodes names).2

/-- The text of a template filled from named values, what is shown being made safe for
markup. -/
def Template.fillEscaped (t : Template) (names : Table Value) : Outcome String := do
  return (← fillAll escaped t.nodes names).2

end CodeScribe.Document
