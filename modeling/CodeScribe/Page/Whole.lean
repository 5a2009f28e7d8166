import CodeScribe.Page.DependencyTab
import CodeScribe.Page.GenerateTab
import CodeScribe.Page.Logo
import CodeScribe.Page.PreviewTab
import CodeScribe.Page.Sidebar

/-!
# The whole page

* `Page.whole` — the page from its head to its foot.
-/

namespace CodeScribe

namespace Page

def head : Page Unit := do
  columns (.list [.int 1, .int 5])
  html logo
  html "<h1 class=\"main-header\">TechDocGen</h1>"
  html "<p class=\"brand-tagline\">by IBMC</p>"
  html ("<p class=\"sub-header\">Generate comprehensive technical documentation from your " ++
    "source code using AI</p>")

def foot : Page Unit := do
  rule
  html ("<div style='text-align: center; color: #6b7280; padding: 2rem;'>" ++
    "<strong>TechDocGen by IBMC</strong> - Powered by AI | Support: Java, .NET (C#, VB.NET, F#)," ++
    " PHP</div>")

def whole : Page Unit := do
  head
  let provider ← sidebar
  call "tabs" [.texts ["📁 Source Selection", "⚡ Generate", "📄 Preview",
    "🔗 Correlation & Dependencies"]] []
  let chosen ← sourceTab
  generateTab provider chosen
  previewTab
  dependencyTab provider
  foot

end Page

namespace Session

/-- What every session remembers, if only as nothing. -/
def standardMemory : List String :=
  ["generated_docs", "generation_status", "dependency_analysis", "dependency_map_data",
    "source_files"]

/-- The memory of a session with everything it has to remember. -/
def completed (memory : Table Value) : Table Value :=
  standardMemory.foldl (fun m key => if m.has key then m else m.set key .null) memory

/-- Show the page to a user who entered something: how it ended, and the session after it. -/
def display (s : Session) (entered : Table Value) : Except Halt Unit × Session :=
  Page.whole.runIn { s with entered, calls := [], memory := completed s.memory }

end Session

end CodeScribe
