import CodeScribe.Text.Pattern

/-!
# Panels and code in printed pages
-/

namespace CodeScribe.Pdf

open Text Pattern

/-! ### Panels -/

def panelKinds : List String := ["info", "warning", "note"]

/-- A panel of one kind: what stands between two marks. -/
def panel (kind : String) : Pattern :=
  let mark := lit ("\x7b" ++ kind ++ "\x7d")
  mark ++ group 1 (spanLazy fun _ => true) ++ mark

def panelsOf (cs : List Char) (kind : String) : List Char :=
  (panel kind).replaceAll
    (fun m => ("<div class=\"" ++ kind ++ "-panel\">" ++ m.get 1 ++ "</div>").toList) cs

def panels (text : String) : String := String.ofList (panelKinds.foldl panelsOf text.toList)

/-! ### Code blocks -/

def codeBlock : Pattern :=
  lit "<pre><code class=\"" ++ opt (lit "language-") ++ opt (group 1 name) ++ lit "\">" ++
    group 2 (spanLazy fun _ => true) ++ lit "</code></pre>"

def replaceEach (table : List (String × String)) (s : String) : String :=
  table.foldl (fun s (old, new) => replace s old new) s

/-- A text without escapes. -/
def unescape : String → String :=
  replaceEach [("&lt;", "<"), ("&gt;", ">"), ("&amp;", "&"), ("&quot;", "\""), ("&#39;", "'")]

def escapeChar : Char → String
  | '&' => "&amp;"
  | '<' => "&lt;"
  | '>' => "&gt;"
  | '"' => "&quot;"
  | '\'' => "&#39;"
  | c => String.singleton c

def escape (s : String) : String := String.join (s.toList.map escapeChar)

/-- Plain newlines and no mark of the byte order in front. -/
def plainText (s : String) : String :=
  let s := replace (replace s "\r\n" "\n") "\r" "\n"
  if startsWith s "\uFEFF" then drop 1 s else s

/-- The lines of a code block as they are shown: without empty lines around them, or in plain text
without blanks around them, and with a newline at the end. -/
def shownCode (language code : String) : String :=
  let code := plainText code
  let code := if lower language == "text" then trim code else trimOf (· == '\n') code
  escape (if endsWith code "\n" then code else code ++ "\n")

/-- A code block as it is shown; code that has marked parts already stays as it is. -/
def showBlock (m : Match) : List Char :=
  let code := unescape (m.get 2)
  let shown := if contains code "<span" then code else shownCode (m.get 1) code
  ("<pre><code>" ++ shown ++ "</code></pre>").toList

def codeBlocks (page : String) : String := String.ofList (codeBlock.replaceAll showBlock page.toList)

end CodeScribe.Pdf
