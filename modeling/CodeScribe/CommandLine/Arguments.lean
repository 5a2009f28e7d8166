import CodeScribe.CommandLine.Options
import CodeScribe.Data.Value
import CodeScribe.Text.Similarity

/-!
# Command line arguments
-/

namespace CodeScribe

inductive Misuse where
  /-- No option has this name; others come near it. -/
  | unknown (name : String) (near : List String)
  /-- An option lacks its value. -/
  | lacksValue (name : String)
  /-- An option was given a value that it does not take. -/
  | takesNoValue (name : String)
  /-- A value is none of those that an option takes. -/
  | notAmong (option : CommandOption) (value : String) (names : List String)
  /-- Arguments are left that belong to no option. -/
  | leftOver (arguments : List String)
  /-- The values do not fit together. -/
  | unusable (problem : String)

namespace Misuse

def message : Misuse → String
  | unknown name [] => "No such option: " ++ name
  | unknown name [near] => "No such option: " ++ name ++ " Did you mean " ++ near ++ "?"
  | unknown name near =>
    "No such option: " ++ name ++ " (Possible options: " ++ Text.join ", " near ++ ")"
  | lacksValue name => "Option " ++ Value.quoted name ++ " requires an argument."
  | takesNoValue name => "Option " ++ Value.quoted name ++ " does not take a value."
  | notAmong option value names =>
    "Invalid value for " ++ option.hint ++ ": " ++ Value.quoted value ++ " is not one of " ++
      Text.join ", " (names.map Value.quoted) ++ "."
  | leftOver arguments =>
    (if arguments.length == 1 then "Got unexpected extra argument ("
      else "Got unexpected extra arguments (") ++ Text.join " " arguments ++ ")"
  | unusable problem => "Invalid value: " ++ problem

def lines (m : Misuse) : List String :=
  [CommandLine.usage, "Try 'techdocgen --help' for help.", "", "Error: " ++ m.message]

end Misuse

/-! ### Reading -/

/-- The options that were given, oldest first, and the arguments that belong to none. -/
structure Given where
  values : List (CommandOption × String) := []
  others : List String := []

namespace Given

def add (g : Given) (o : CommandOption) (value : String) : Given :=
  { g with values := g.values ++ [(o, value)] }

/-- The value of an option; the last one counts. -/
def value? (g : Given) (long : String) : Option String :=
  (g.values.reverse.find? (·.1.long == long)).map (·.2)

def has (g : Given) (long : String) : Bool := (g.value? long).isSome

/-- Read short options written together.  The first one that takes a value takes what is left; if
nothing is, it is handed on. -/
def letters : List Char → Given → Except Misuse (Given × Option (String × CommandOption))
  | [], g => .ok (g, none)
  | c :: rest, g =>
    let name := String.ofList ['-', c]
    match CommandOption.lettered? c with
    | none => .error (.unknown name [])
    | some o =>
      if o.takes = .nothing then letters rest (g.add o "")
      else if rest.isEmpty then .ok (g, some (name, o))
      else .ok (g.add o (String.ofList rest), none)

/-- An argument cut at its first equality sign. -/
def cut (argument : String) : String × Option String :=
  let (name, rest) := argument.toList.span (· != '=')
  (String.ofList name, if rest.isEmpty then none else some (String.ofList (rest.drop 1)))

/-- Read one option; one that still lacks its value is handed on. -/
def readOption (argument : String) (g : Given) :
    Except Misuse (Given × Option (String × CommandOption)) :=
  let (name, value) := cut argument
  match CommandOption.named? name, value with
  | some o, none => if o.takes = .nothing then .ok (g.add o "", none) else .ok (g, some (name, o))
  | some o, some v => if o.takes = .nothing then .error (.takesNoValue name) else .ok (g.add o v, none)
  | none, _ =>
    if Text.startsWith argument "--" then
      .error (.unknown name (Similarity.closest name (CommandOption.all.map (·.long))))
    else letters (argument.toList.drop 1) g

/-- Read arguments one after another; two dashes end the options. -/
def read : List String → Option (String × CommandOption) → Given → Except Misuse Given
  | [], none, g => .ok g
  | [], some (name, _), _ => .error (.lacksValue name)
  | argument :: rest, some (_, o), g => read rest none (g.add o argument)
  | argument :: rest, none, g =>
    if argument == "--" then .ok { g with others := g.others ++ rest }
    else if Text.startsWith argument "-" && 1 < argument.length then
      match readOption argument g with
      | .ok (g, pending) => read rest pending g
      | .error misuse => .error misuse
    else read rest none { g with others := g.others ++ [argument] }

def spelling (o : CommandOption) (value : String) : Except Misuse String :=
  match o.takes with
  | .oneOf names =>
    match names.find? (· == Text.lower value) with
    | some name => .ok name
    | none => .error (.notAmong o value names)
  | _ => .ok value

/-- The options in the order in which their values are checked: those given, then the others. -/
def checked (g : Given) : List CommandOption :=
  let given := (g.values.map (·.1)).eraseDups
  given ++ CommandOption.own.filter fun o => !given.contains o

def settle (g : Given) : Except Misuse Given := do
  let values ← g.checked.mapM fun o => do
    match (g.value? o.long).or o.usual with
    | some v => return some (o, ← spelling o v)
    | none => return none
  if g.others.isEmpty then return { g with values := values.filterMap id }
  else throw (.leftOver g.others)

end Given

/-! ### What a run is asked for -/

/-- What a run is asked for. -/
structure Arguments where
  source : Option String := none
  kind : Option String := some "auto"
  output : Option String := none
  provider : Option String := none
  config : Option String := none
  branch : Option String := none
  verbose : Bool := false
  map : Bool := false
  mapFormat : String := "json"
  mapOutput : Option String := none
  stream : Bool := false
  domain : Option String := none
  allDomains : Bool := false
  structureName : Option String := none
  listStructures : Bool := false
deriving DecidableEq, Repr

namespace Arguments

def ofGiven (g : Given) : Arguments where
  source := g.value? "--source"
  kind := g.value? "--type"
  output := g.value? "--output"
  provider := g.value? "--provider"
  config := g.value? "--config"
  branch := g.value? "--branch"
  verbose := g.has "--verbose"
  map := g.has "--dep-map"
  mapFormat := (g.value? "--dep-map-format").getD "json"
  mapOutput := g.value? "--dep-map-output"
  stream := g.has "--stream"
  domain := g.value? "--domain"
  allDomains := g.has "--all-domains"
  structureName := g.value? "--doc-structure"
  listStructures := g.has "--list-structures"

/-- Read arguments; nothing is asked for but help if that is asked for. -/
def parse (arguments : List String) : Except Misuse (Option Arguments) := do
  let g ← Given.read arguments none {}
  if g.has "--help" then return none
  return some (ofGiven (← g.settle))

end Arguments

end CodeScribe
