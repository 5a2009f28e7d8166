import CodeScribe.Data.Json
import CodeScribe.Data.Yaml.Load
import CodeScribe.Source.Comment
import CodeScribe.Source.Declaration

/-!
# Markup and settings files
-/

namespace CodeScribe.Markup

open Pattern

/-- The facts of a markup file. -/
structure Source where
  tags : List String
  customElements : List String
  comments : List String

def tagPattern : Pattern :=
  char '<' ++ blanks ++ group 1 (one Char.isAlpha ++ span fun c => Text.isWord c || c == '-')

def commentPattern : Pattern :=
  lit "<!--" ++ group 1 (spanLazy fun _ => true) ++ lit "-->"

/-- The facts of a markup file; tags with a hyphen are custom elements. -/
def read (options : ReadOptions) (code : List Char) : Source :=
  let tags := tagPattern.findGroup 1 code
  { tags
    customElements := Text.sortDistinct (tags.filter fun t => Text.contains t "-")
    comments := if options.comments then commentPattern.findGroup 1 code else [] }

def Source.toValue (s : Source) : Value :=
  .record [("tags", .texts s.tags), ("custom_elements", .texts s.customElements),
    ("comments", .texts s.comments)]

end CodeScribe.Markup

namespace CodeScribe.Settings

/-- The facts of a settings file. -/
structure Source where
  format : String
  keys : List Value
  comments : List String

def keysOf : Value → List Value
  | .map entries => entries.map (·.1)
  | _ => []

/-- The format of a settings text and its outermost keys. -/
def formatOf (code : List Char) : String × List Value :=
  match Json.read code with
  | .ok v => ("json", keysOf v)
  | .error _ =>
    match Yaml.load (String.ofList code) with
    | .ok v => ("yaml", keysOf v)
    | .error _ => ("unknown", [])

def read (options : ReadOptions) (code : List Char) : Source :=
  let (format, keys) := formatOf code
  ⟨format, keys, if options.comments then CommentStyle.slashes.comments code else []⟩

def Source.toValue (s : Source) : Value :=
  .record [("config_type", .text s.format), ("top_level_keys", .list s.keys),
    ("comments", .texts s.comments)]

end CodeScribe.Settings
