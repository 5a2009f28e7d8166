import CodeScribe.Scribe.Basic

/-!
# Domains

The settings can name domains: parts of the code with a source, settings and a document of their
own.

* `Domain.find` — a domain by its name.
-/

namespace CodeScribe

open Document

namespace Domain

def all (config : Value) : Outcome (List Value) := do (← config.fieldOr "domains" (.list [])).each

/-- The first domain with a name; an empty one does not count. -/
def firstNamed (name : Value) : List Value → Outcome (Option Value)
  | [] => .ok none
  | d :: rest => do
    if (← d.fieldOrNull "name").same name then return if d.isPresent then some d else none
    else firstNamed name rest

def find (config name : Value) : Outcome Value := do
  match ← firstNamed name (← all config) with
  | some d => return d
  | none => .error (.unknownDomain name.display)

/-- The settings on documentation that a domain can overrule. -/
def documentationKeys : List String :=
  ["exclude_patterns", "include_patterns", "chunk_size_chars", "chunk_overlap_chars",
    "streaming_mode"]

/-- The settings on documentation with those of a domain put over them. -/
def documentationOver (domain documentation : Value) : Outcome Value :=
  documentationKeys.foldlM (fun v key => do
    let own ← domain.fieldOrNull key
    if own.isNull then return v else Config.assign key own v) documentation

def configOver (domain config : Value) : Outcome Value := do
  let documentation ← documentationOver domain (← Config.documentation config)
  let config ← Config.assign "documentation" documentation config
  ["extensions", "languages"].foldlM (fun v key => do
    let own ← domain.fieldOrNull key
    if own.isPresent then Config.assign key own v else return v) config

def outputOf (domain name asked : Value) : Outcome Value := do
  return (asked.orElse (← domain.fieldOrNull "output")).orElse
    (.text (Path.below "./docs" (name.display ++ "_technical_docs.md")))

def sourceOf (domain name : Value) : Outcome Value := do
  let source := (← domain.fieldOrNull "source").orElse (← domain.fieldOrNull "path")
  if source.isPresent then return source else .error (.domainWithoutSource name.display)

end Domain

namespace Scribe

/-- The model for a provider: the scribe's own unless the provider is another one. -/
def modelAt (s : Scribe) (provider config : Value) : Work Model :=
  if provider.same s.provider then pure s.model else Model.openAt provider config

/-- Put a document where it is wanted. -/
def saveAt (s : Scribe) (text : String) (path : Value) : Work String := do
  s.save text (some (← Work.ofOutcome path.asText))

def writeDomain (s : Scribe) (name output streaming : Value) : Work String := do
  let domain ← Work.ofOutcome (Domain.find s.config name)
  let field (key : String) (default : Value) : Work Value :=
    Work.ofOutcome (domain.fieldOr key default)
  let kind ← field "type" (.text "folder")
  let place ← Work.ofOutcome (Domain.sourceOf domain name)
  let config ← Work.ofOutcome (Domain.configOver domain s.config)
  let documentation ← Work.ofOutcome (Config.documentation config)
  let setting (key : String) (default : Value) : Work Value :=
    Work.ofOutcome (documentation.fieldOr key default)
  let template ← field "template" s.template
  let streaming ← if streaming.isNull then setting "streaming_mode" .null else pure streaming
  let output ← Work.ofOutcome (Domain.outputOf domain name output)
  let size ← setting "chunk_size_chars" s.size
  let overlap ← setting "chunk_overlap_chars" s.overlap
  let source ← Work.ofOutcome (Source.ofKind kind place (← field "branch" .null))
  let selection ← Work.ofOutcome (Selection.ofConfig config)
  let provider ← field "provider" s.provider
  let model ← s.modelAt provider config
  let options ← Work.ofOutcome (ReadOptions.ofConfig config)
  let doc ← field "doc_structure" .null
  if doc.isPresent then
    let files ← source.read selection
    let doc ← Work.ofOutcome (doc.textFor "endswith")
    s.saveAt (← s.documentBy { model := some model, provider } doc files) output
  else
    let choices : Choices :=
      { template, model := some model, provider, size, overlap, options := some options }
    if streaming.isPresent then
      s.stream choices selection source (← Work.ofOutcome output.asText)
    else s.saveAt (← s.document choices (← source.read selection)) output

/-- Write the documents of all domains that have a name, and give their paths. -/
def writeAllDomains (s : Scribe) : Work (List String) := do
  let domains ← Work.ofOutcome (Domain.all s.config)
  let written ← domains.mapM fun d => do
    let name ← Work.ofOutcome (d.fieldOrNull "name")
    if name.isPresent then return [← s.writeDomain name .null .null] else return []
  return written.flatten

end Scribe

end CodeScribe
