import CodeScribe.Data.Yaml.Token
import CodeScribe.Fault

/-!
# Nodes of settings texts

The second step from a settings text to data: tokens become a tree of tagged nodes.

Which kind of data a plain scalar stands for is decided by `resolve`, handed in by the caller.
-/

namespace CodeScribe.Yaml

/-- A tree of tagged nodes. -/
inductive Node where
  | scalar (tag text : String)
  | sequence (tag : String) (items : List Node)
  | mapping (tag : String) (entries : List (Node × Node))
deriving Inhabited

def coreTag (name : String) : String := "tag:yaml.org,2002:" ++ name

/-- What is known while tokens are read. -/
structure Reading where
  tokens : List (Token × Mark)
  handles : List (String × String) := []
  anchors : List (String × Node) := []

/-- Reading tokens; a malformed text stops it. -/
abbrev Read := StateT Reading (Except (Malformed × Trouble))

def Token.id : Token → String
  | directive .. => "<directive>"
  | documentStart => "<document start>"
  | documentEnd => "<document end>"
  | streamEnd => "<stream end>"
  | blockSequenceStart => "<block sequence start>"
  | blockMappingStart => "<block mapping start>"
  | blockEnd => "<block end>"
  | flowSequenceStart => "["
  | flowSequenceEnd => "]"
  | flowMappingStart => "\x7b"
  | flowMappingEnd => "\x7d"
  | blockEntry => "-"
  | flowEntry => ","
  | key => "?"
  | value => ":"
  | again _ => "<alias>"
  | anchor _ => "<anchor>"
  | tag .. => "<tag>"
  | scalar .. => "<scalar>"
  | broken _ => "<broken>"

namespace Read

def next : Read Token := do
  match (← get).tokens with
  | [] => pure .streamEnd
  | (.broken trouble, _) :: _ => throw (.scanning, trouble)
  | (t, _) :: _ => pure t

def mark : Read Mark := do return ((← get).tokens.head?.map (·.2)).getD {}

def skip : Read Unit := modify fun s => { s with tokens := s.tokens.tail }

def nextIn (ts : List Token) : Read Bool := do return ts.contains (← next)

/-- Go past the next token if it is the given one, and tell whether it was. -/
def take (t : Token) : Read Bool := do
  if (← next) == t then
    skip
    pure true
  else pure false

/-- There is trouble at the next token. -/
def fail {α : Type} (stage : Malformed) (context : Option (String × Mark)) (problem : String) :
    Read α := do
  throw (stage, { context := context.map (·.1), start := context.map (·.2), problem,
                  mark := ← mark })

/-- Something else was expected than the next token. -/
def unexpected {α : Type} (context : Option (String × Mark)) (what verb : String) : Read α := do
  fail .parsing context ("expected " ++ what ++ ", but " ++ verb ++ " " ++
    Value.quoted (← next).id)

/-- Go past a token that must be there in a collection that started at a place. -/
def expect (t : Token) (context : String) (start : Mark) (what verb : String) : Read Unit := do
  if !(← take t) then unexpected (some (context, start)) what verb

/-- No text is so deep that this happens: there is a step for every token. -/
def tooDeep {α : Type} : Read α := fail .parsing none "too deep"

end Read

/-- The anchor and tag in front of a node. -/
structure Properties where
  anchor : Option String := none
  tag : Option String := none

namespace Read

def takeAnchor : Read (Option String) := do
  match ← next with
  | .anchor name => skip; pure (some name)
  | _ => pure none

/-- The next tag, with its handle written out; the node started at a place. -/
def takeTag (start : Mark) : Read (Option String) := do
  match ← next with
  | .tag none suffix =>
    skip
    pure (some suffix)
  | .tag (some handle) suffix =>
    match (← get).handles.lookup handle with
    | some full =>
      skip
      pure (some (full ++ suffix))
    | none =>
      fail .parsing (some ("while parsing a node", start))
        ("found undefined tag handle " ++ Value.quoted handle)
  | _ => pure none

/-- The anchor and tag in front of a node, in either order. -/
def takeProperties : Read Properties := do
  let start ← mark
  match ← takeAnchor with
  | some name =>
    let tag ← takeTag start
    pure ⟨some name, tag⟩
  | none =>
    match ← takeTag start with
    | some tag =>
      let anchor ← takeAnchor
      pure ⟨anchor, some tag⟩
    | none => pure ⟨none, none⟩

def collectionTag (p : Properties) (default : String) : String :=
  match p.tag with
  | none | some "!" => coreTag default
  | some tag => tag

/-- A new anchor must not be taken. -/
def checkAnchor (p : Properties) : Read Unit := do
  match p.anchor with
  | some name =>
    if ((← get).anchors.lookup name).isSome then
      fail .composing (some ("found duplicate anchor " ++ Value.quoted name ++
        "; first occurrence", {})) "second occurrence"
  | none => pure ()

def remember (p : Properties) (node : Node) : Read Node := do
  match p.anchor with
  | some name => modify fun s => { s with anchors := (name, node) :: s.anchors }
  | none => pure ()
  pure node

end Read

open Read

/-- Where a node stands: in a block, in a block mapping where a sequence may go without deeper
indentation, or inside a flow collection. -/
inductive Place where
  | block
  | blockValue
  | flow
deriving DecidableEq

def emptyNode (resolve : String → String) : Node := .scalar (resolve "") ""

mutual

def readNode (resolve : String → String) : Nat → Place → Read Node
  | 0, _ => tooDeep
  | n + 1, place => do
    let start ← mark
    match ← next with
    | .again name =>
      match (← get).anchors.lookup name with
      | some node =>
        skip
        pure node
      | none => fail .composing none ("found undefined alias " ++ Value.quoted name)
    | _ =>
      let p ← takeProperties
      let opening ← mark
      match ← next with
      | .blockEntry =>
        if place == .blockValue then
          checkAnchor p
          let items ← readIndentless resolve n
          remember p (.sequence (collectionTag p "seq") items)
        else readEmpty resolve place start p
      | .scalar text plain =>
        skip
        checkAnchor p
        let tag := match p.tag with
          | none => if plain then resolve text else coreTag "str"
          | some "!" => resolve text
          | some tag => tag
        remember p (.scalar tag text)
      | .flowSequenceStart =>
        skip
        checkAnchor p
        let items ← readFlowItems resolve opening n true
        remember p (.sequence (collectionTag p "seq") items)
      | .flowMappingStart =>
        skip
        checkAnchor p
        let entries ← readFlowEntries resolve opening n true
        remember p (.mapping (collectionTag p "map") entries)
      | .blockSequenceStart =>
        if place == .flow then readEmpty resolve place start p
        else
          skip
          checkAnchor p
          let items ← readItems resolve opening n
          remember p (.sequence (collectionTag p "seq") items)
      | .blockMappingStart =>
        if place == .flow then readEmpty resolve place start p
        else
          skip
          checkAnchor p
          let entries ← readEntries resolve opening n
          remember p (.mapping (collectionTag p "map") entries)
      | _ => readEmpty resolve place start p

def readEmpty (resolve : String → String) (place : Place) (start : Mark) (p : Properties) :
    Read Node := do
  if p.anchor.isNone && p.tag.isNone then
    let kind := if place == .flow then "flow" else "block"
    unexpected (some ("while parsing a " ++ kind ++ " node", start)) "the node content" "found"
  checkAnchor p
  let tag := match p.tag with
    | none | some "!" => resolve ""
    | some tag => tag
  remember p (.scalar tag "")

def readItems (resolve : String → String) (start : Mark) : Nat → Read (List Node)
  | 0 => tooDeep
  | n + 1 => do
    if ← take .blockEntry then
      let item ← if ← nextIn [.blockEntry, .blockEnd] then pure (emptyNode resolve)
        else readNode resolve n .block
      return item :: (← readItems resolve start n)
    else
      expect .blockEnd "while parsing a block collection" start "<block end>" "found"
      pure []

/-- The items of a block sequence that is indented no deeper than its key. -/
def readIndentless (resolve : String → String) : Nat → Read (List Node)
  | 0 => tooDeep
  | n + 1 => do
    if ← take .blockEntry then
      let item ← if ← nextIn [.blockEntry, .key, .value, .blockEnd] then pure (emptyNode resolve)
        else readNode resolve n .block
      return item :: (← readIndentless resolve n)
    else pure []

def readEntries (resolve : String → String) (start : Mark) : Nat → Read (List (Node × Node))
  | 0 => tooDeep
  | n + 1 => do
    if ← take .key then
      let key ← if ← nextIn [.key, .value, .blockEnd] then pure (emptyNode resolve)
        else readNode resolve n .blockValue
      let value ← if ← take .value then
          if ← nextIn [.key, .value, .blockEnd] then pure (emptyNode resolve)
          else readNode resolve n .blockValue
        else pure (emptyNode resolve)
      return (key, value) :: (← readEntries resolve start n)
    else
      expect .blockEnd "while parsing a block mapping" start "<block end>" "found"
      pure []

/-- The items of a flow sequence; a pair among them is a mapping of one entry. -/
def readFlowItems (resolve : String → String) (start : Mark) : Nat → Bool → Read (List Node)
  | 0, _ => tooDeep
  | n + 1, first => do
    if ← take .flowSequenceEnd then pure []
    else
      if !first then
        expect .flowEntry "while parsing a flow sequence" start "',' or ']'" "got"
      if ← take .key then
        let key ← if ← nextIn [.value, .flowEntry, .flowSequenceEnd] then pure (emptyNode resolve)
          else readNode resolve n .flow
        let value ← if ← take .value then
            if ← nextIn [.flowEntry, .flowSequenceEnd] then pure (emptyNode resolve)
            else readNode resolve n .flow
          else pure (emptyNode resolve)
        return .mapping (coreTag "map") [(key, value)] :: (← readFlowItems resolve start n false)
      else if ← take .flowSequenceEnd then pure []
      else
        let item ← readNode resolve n .flow
        return item :: (← readFlowItems resolve start n false)

def readFlowEntries (resolve : String → String) (start : Mark) :
    Nat → Bool → Read (List (Node × Node))
  | 0, _ => tooDeep
  | n + 1, first => do
    if ← take .flowMappingEnd then pure []
    else
      if !first then
        expect .flowEntry "while parsing a flow mapping" start "',' or '\x7d'" "got"
      if ← take .key then
        let key ← if ← nextIn [.value, .flowEntry, .flowMappingEnd] then pure (emptyNode resolve)
          else readNode resolve n .flow
        let value ← if ← take .value then
            if ← nextIn [.flowEntry, .flowMappingEnd] then pure (emptyNode resolve)
            else readNode resolve n .flow
          else pure (emptyNode resolve)
        return (key, value) :: (← readFlowEntries resolve start n false)
      else if ← take .flowMappingEnd then pure []
      else
        let key ← readNode resolve n .flow
        return (key, emptyNode resolve) :: (← readFlowEntries resolve start n false)

end

/-- The handles that every document knows. -/
def defaultHandles : List (String × String) := [("!", "!"), ("!!", coreTag "")]

def readDirectives : Nat → Bool → Read Unit
  | 0, _ => tooDeep
  | n + 1, versioned => do
    match ← next with
    | .directive "YAML" [major, _] =>
      if versioned then fail .parsing none "found duplicate YAML directive"
      if major.toNat? != some 1 then
        fail .parsing none "found incompatible YAML document (version 1.* is required)"
      skip
      readDirectives n true
    | .directive "TAG" [handle, full] =>
      if ((← get).handles.lookup handle).isSome then
        fail .parsing none ("duplicate tag handle " ++ Value.quoted handle)
      skip
      modify fun s => { s with handles := (handle, full) :: s.handles }
      readDirectives n versioned
    | .directive .. =>
      skip
      readDirectives n versioned
    | _ => modify fun s => { s with handles := s.handles ++ defaultHandles }

def skipDocumentEnds : Nat → Read Unit
  | 0 => pure ()
  | n + 1 => do if ← take .documentEnd then skipDocumentEnds n

/-- Read the start of an explicit document, and tell whether there is one. -/
def readDocumentStart (fuel : Nat) : Read Bool := do
  skipDocumentEnds fuel
  if (← next) == .streamEnd then pure false
  else
    modify fun s => { s with handles := [] }
    readDirectives fuel false
    if !(← take .documentStart) then unexpected none "'<document start>'" "found"
    pure true

def Token.isFrame : Token → Bool
  | .directive .. | .documentStart | .documentEnd | .streamEnd => true
  | _ => false

def readSingle (resolve : String → String) (fuel : Nat) : Read (Option Node) := do
  let first ← next
  let start ← mark
  let started ← match first with
    | .directive .. | .documentStart => readDocumentStart fuel
    | .streamEnd => pure false
    | _ =>
      modify fun s => { s with handles := defaultHandles }
      pure true
  if !started then pure none
  else
    let explicit := match first with
      | .directive .. | .documentStart => true
      | _ => false
    let node ← if explicit && (← next).isFrame then pure (emptyNode resolve)
      else readNode resolve fuel .block
    let _ ← take .documentEnd
    let another ← mark
    if ← readDocumentStart fuel then
      throw (.composing, { context := some "expected a single document in the stream",
                           start := some start, problem := "but found another document",
                           mark := another })
    pure (some node)

def Node.ofTokens? (resolve : String → String) (tokens : List (Token × Mark)) :
    Except (Malformed × Trouble) (Option Node) :=
  ((readSingle resolve (4 * tokens.length + 8)).run { tokens := tokens }).map (·.1)

end CodeScribe.Yaml
