import CodeScribe.Text.Chars

/-!
# Built-in templates
-/

namespace CodeScribe.Document

def tag (what : String) : String := "\x7b% " ++ what ++ " %\x7d"

def shown (what : String) : String := "\x7b\x7b " ++ what ++ " \x7d\x7d"

def catalogPart (key title : String) (lines : List String) : List String :=
  [tag ("if service_catalog." ++ key), title, ""] ++ lines ++ ["", tag "endif"]

def controllersPart (title : String) : List String := catalogPart "controllers" title [
  tag "for ctrl in service_catalog.controllers",
  "- `\x7b\x7b ctrl.name \x7d\x7d`\x7b% if ctrl.route %\x7d (Route: `\x7b\x7b ctrl.route \x7d\x7d`)\x7b% endif %\x7d",
  tag "endfor"]

def endpointsPart (title : String) : List String := catalogPart "endpoints" title [
  "| Controller | Method | HTTP | Route |",
  "|------------|--------|------|-------|",
  tag "for ep in service_catalog.endpoints",
  "| `\x7b\x7b ep.controller \x7d\x7d` | `\x7b\x7b ep.method \x7d\x7d` | \x7b\x7b ep.http_verbs|join(', ') \x7d\x7d | `\x7b\x7b ep.route \x7d\x7d` |",
  tag "endfor"]

def servicesPart (mark : String) : List String :=
  catalogPart "services" (mark ++ " Services / Repositories") [
    shown "service_catalog.services|join(', ')"]

def interfacesPart (mark : String) : List String :=
  catalogPart "interfaces" (mark ++ " Interfaces") [
    shown "service_catalog.interfaces|join(', ')"]

/-- How many declarations of a kind a file has, if there are any. -/
def countPart (title key : String) : List String :=
  [tag ("if file_info.parsed_info." ++ key),
    "**" ++ title ++ ":** " ++ shown ("file_info.parsed_info." ++ key ++ "|length"), "",
    tag "endif", ""]

/-- The template of a document that goes through the source file by file. -/
def defaultTemplate : String := Text.join "\n" ([
  "# Technical Documentation",
  "",
  "**TechDocGen by IBMC**",
  "",
  "Model Use : \x7b% if llm_provider == 'ollama' %\x7dlocal \x7b% endif %\x7d\x7b\x7b model_name \x7d\x7d",
  "",
  "---",
  "",
  tag "if dependency_map",
  shown "dependency_map",
  "",
  "---",
  tag "endif",
  "",
  tag "if integration_graph or correlation_graph",
  "## Visualization",
  "",
  tag "if correlation_signals",
  "### Correlation Signals",
  "",
  "- .NET Messaging Files: \x7b\x7b correlation_signals.csharp_messaging|length \x7d\x7d",
  "- Node.js Messaging Files: \x7b\x7b correlation_signals.node_messaging|length \x7d\x7d",
  "- Angular Files: \x7b\x7b correlation_signals.angular_files|length \x7d\x7d",
  "- Cross-Stack Signal: \x7b% if correlation_signals.csharp_messaging and correlation_signals.node_messaging %\x7dDetected\x7b% else %\x7dNot detected\x7b% endif %\x7d",
  "",
  tag "if correlation_graph",
  "### Correlation Graph",
  "",
  shown "correlation_graph",
  "",
  tag "endif",
  tag "endif",
  "",
  tag "if integration_graph",
  "### Integration Graph",
  "",
  shown "integration_graph",
  "",
  tag "endif",
  "",
  "---",
  tag "endif",
  "",
  tag "if app_sequence_diagram",
  "## App Interaction Sequence",
  "",
  shown "app_sequence_diagram",
  "",
  "---",
  tag "endif",
  "",
  tag "if service_catalog",
  "## Service Catalog",
  ""] ++
  controllersPart "### Controllers" ++ [""] ++ endpointsPart "### Endpoints" ++ [
  "",
  tag "if service_catalog.endpoint_flows",
  "### Endpoint Flow Details",
  "",
  tag "for ep in service_catalog.endpoint_flows",
  "#### \x7b\x7b ep.http_verbs|join(', ') \x7d\x7d \x7b\x7b ep.route \x7d\x7d (\x7b\x7b ep.controller \x7d\x7d.\x7b\x7b ep.method \x7d\x7d)",
  "",
  tag "if ep.steps",
  tag "for step in ep.steps",
  "- \x7b\x7b step \x7d\x7d",
  tag "endfor",
  tag "else",
  "- No flow steps detected.",
  tag "endif",
  "",
  tag "endfor",
  "",
  tag "endif",
  ""] ++
  servicesPart "###" ++ [""] ++ interfacesPart "###" ++ [
  "",
  tag "if service_catalog.flow_graph",
  "### Controller Flow Graph",
  "",
  shown "service_catalog.flow_graph",
  "",
  tag "endif",
  "",
  "---",
  tag "endif",
  "",
  tag "if service_catalog and service_catalog.api_spec",
  "## API Specifications",
  "",
  "| HTTP | Route | Controller.Method | Components/Services |",
  "|------|-------|-------------------|---------------------|",
  tag "for api in service_catalog.api_spec",
  "| \x7b\x7b api.http_verbs|join(', ') \x7d\x7d | `\x7b\x7b api.route \x7d\x7d` | `\x7b\x7b api.controller \x7d\x7d.\x7b\x7b api.method \x7d\x7d` | \x7b% if api.components %\x7d\x7b\x7b api.components|join(', ') \x7d\x7d\x7b% else %\x7dN/A\x7b% endif %\x7d |",
  tag "endfor",
  "",
  tag "if service_catalog.endpoint_sequence_diagrams",
  "### Endpoint Sequence Diagrams",
  "",
  tag "for seq in service_catalog.endpoint_sequence_diagrams",
  "#### \x7b\x7b seq.http_verbs|join(', ') \x7d\x7d \x7b\x7b seq.route \x7d\x7d (\x7b\x7b seq.controller \x7d\x7d.\x7b\x7b seq.method \x7d\x7d)",
  "",
  shown "seq.mermaid",
  "",
  tag "endfor",
  tag "endif",
  "",
  "---",
  tag "endif",
  "",
  tag "if messaging_flows",
  "## Messaging Flows",
  "",
  tag "for flow in messaging_flows",
  "- Queue `\x7b\x7b flow.queue \x7d\x7d`\x7b% if flow.consumers %\x7d -> Consumers: \x7b\x7b flow.consumers|join(', ') \x7d\x7d\x7b% endif %\x7d\x7b% if flow.sagas %\x7d; Sagas: \x7b\x7b flow.sagas|join(', ') \x7d\x7d\x7b% endif %\x7d \x7b% if flow.file %\x7d(`\x7b\x7b flow.file \x7d\x7d`)\x7b% endif %\x7d",
  tag "endfor",
  "",
  "---",
  tag "endif",
  "",
  tag "for language, files in files_by_language.items()",
  tag "if language != \"unknown\"",
  "## \x7b\x7b language|upper \x7d\x7d Files",
  "",
  "Found \x7b\x7b files|length \x7d\x7d \x7b\x7b language \x7d\x7d file(s)",
  "",
  tag "for file_info in files",
  "### \x7b\x7b file_info.name \x7d\x7d",
  "",
  "**Path:** `\x7b\x7b file_info.relative_path or file_info.path \x7d\x7d`",
  "",
  shown "file_info.documentation",
  "",
  "#### Code Structure",
  "",
  tag "if file_info.parsed_info.classes",
  "**Classes:** \x7b\x7b file_info.parsed_info.classes|length \x7d\x7d",
  tag "for cls in file_info.parsed_info.classes",
  "- `\x7b\x7b cls.name \x7d\x7d`\x7b% if cls.methods %\x7d (\x7b\x7b cls.methods|length \x7d\x7d methods)\x7b% endif %\x7d",
  tag "endfor",
  "",
  tag "endif",
  ""] ++
  countPart "Functions" "functions" ++ countPart "Interfaces" "interfaces" ++
  countPart "Enums" "enums" ++ countPart "Type Aliases" "types" ++
  countPart "Top-Level Config Keys" "top_level_keys" ++
  countPart "Custom Elements" "custom_elements" ++ [
  tag "if file_info.sequence_diagram",
  "#### Sequence Diagram",
  "",
  shown "file_info.sequence_diagram",
  "",
  tag "endif",
  "",
  tag "if file_info.call_graphs",
  "#### Call Graphs",
  "",
  tag "for graph in file_info.call_graphs",
  "##### \x7b\x7b graph.class \x7d\x7d",
  "",
  shown "graph.mermaid",
  "",
  tag "endfor",
  "",
  tag "endif",
  "",
  tag "if file_info.messaging_flows",
  "#### Messaging Flows",
  "",
  tag "if file_info.messaging_flows.flows",
  tag "for flow in file_info.messaging_flows.flows",
  "- Queue `\x7b\x7b flow.queue \x7d\x7d`\x7b% if flow.consumers %\x7d -> Consumers: \x7b\x7b flow.consumers|join(', ') \x7d\x7d\x7b% endif %\x7d\x7b% if flow.sagas %\x7d; Sagas: \x7b\x7b flow.sagas|join(', ') \x7d\x7d\x7b% endif %\x7d",
  tag "endfor",
  tag "endif",
  "",
  tag "if file_info.messaging_flows.publishes",
  "- Publishes: \x7b\x7b file_info.messaging_flows.publishes|join(', ') \x7d\x7d",
  tag "endif",
  tag "if file_info.messaging_flows.sends",
  "- Sends: \x7b\x7b file_info.messaging_flows.sends|join(', ') \x7d\x7d",
  tag "endif",
  tag "if file_info.messaging_flows.send_endpoints",
  "- Send Endpoints: \x7b\x7b file_info.messaging_flows.send_endpoints|join(', ') \x7d\x7d",
  tag "endif",
  tag "if file_info.messaging_flows.consumer_messages",
  "- Consumers: \x7b% for item in file_info.messaging_flows.consumer_messages %\x7d\x7b\x7b item.consumer \x7d\x7d(\x7b\x7b item.message \x7d\x7d)\x7b% if not loop.last %\x7d, \x7b% endif %\x7d\x7b% endfor %\x7d",
  tag "endif",
  "",
  tag "endif",
  "",
  "---",
  "",
  tag "endfor",
  tag "endif",
  tag "endfor",
  ""])

/-- The template of a document that follows a document structure. -/
def architectureTemplate : String := Text.join "\n" ([
  "\x7b# Architecture-centric Documentation Template #\x7d",
  "\x7b# This template generates domain-driven documentation organized by architectural concerns #\x7d",
  "\x7b# It's flexible and uses doc_structure configuration for section definitions #\x7d",
  "",
  tag "set doc_title = (doc_structure.title if doc_structure is defined and doc_structure.title) or \"Architecture and System Overview\"",
  tag "set show_toc = (doc_structure.show_toc if doc_structure is defined and doc_structure.show_toc is not none) | default(true)",
  "",
  "# \x7b\x7b doc_title \x7d\x7d",
  "",
  "**Generated by:** TechDocGen by IBMC  ",
  "**Model Use:** \x7b% if llm_provider == 'ollama' %\x7dlocal \x7b% endif %\x7d\x7b\x7b model_name \x7d\x7d  ",
  "**Generation Date:** \x7b\x7b generation_date \x7d\x7d",
  "",
  "---",
  "",
  tag "if doc_structure.intro",
  shown "doc_structure.intro",
  "",
  "---",
  tag "endif",
  "",
  tag "if show_toc",
  "## Table of Contents",
  "",
  tag "for section in doc_structure.sections",
  "- [\x7b\x7b section.title \x7d\x7d](#\x7b\x7b section.title | lower | replace(' ', '-') | replace('(', '') | replace(')', '') | replace('+', '') \x7d\x7d)",
  tag "if section.subsections",
  tag "for subsection in section.subsections",
  "  - [\x7b\x7b subsection.title \x7d\x7d](#\x7b\x7b subsection.title | lower | replace(' ', '-') | replace('(', '') | replace(')', '') | replace('+', '') \x7d\x7d)",
  tag "endfor",
  tag "endif",
  tag "endfor",
  "",
  tag "if show_file_reference | default(true)",
  "- [Source Files Reference](#source-files-reference)",
  tag "endif",
  tag "endif",
  "",
  "---",
  "",
  tag "for section in doc_structure.sections",
  "# \x7b\x7b section.title \x7d\x7d",
  "",
  tag "if section.description",
  shown "section.description",
  "",
  tag "endif",
  tag "if section.content",
  shown "section.content",
  "",
  tag "endif",
  "",
  tag "if section.subsections",
  tag "for subsection in section.subsections",
  "## \x7b\x7b subsection.title \x7d\x7d",
  "",
  tag "if subsection.content",
  shown "subsection.content",
  "",
  tag "endif",
  "",
  tag "endfor",
  tag "endif",
  "",
  "---",
  "",
  tag "endfor",
  "",
  tag "if show_file_reference | default(true)",
  "# Source Files Reference",
  "",
  tag "if service_catalog"] ++
  controllersPart "## Controllers" ++ [""] ++ endpointsPart "## API Endpoints" ++ [""] ++
  servicesPart "##" ++ [""] ++ interfacesPart "##" ++ [
  tag "endif",
  "",
  tag "if messaging_flows",
  "## Messaging Flows",
  "",
  tag "for flow in messaging_flows",
  "- Queue `\x7b\x7b flow.queue \x7d\x7d`\x7b% if flow.consumers %\x7d → Consumers: \x7b\x7b flow.consumers|join(', ') \x7d\x7d\x7b% endif %\x7d\x7b% if flow.sagas %\x7d; Sagas: \x7b\x7b flow.sagas|join(', ') \x7d\x7d\x7b% endif %\x7d \x7b% if flow.file %\x7d(`\x7b\x7b flow.file \x7d\x7d`)\x7b% endif %\x7d",
  tag "endfor",
  "",
  tag "endif",
  "",
  tag "if integration_graph and integration_graph|trim",
  "## Integration Graph",
  "",
  shown "integration_graph",
  "",
  tag "endif",
  "",
  tag "if app_sequence_diagram and app_sequence_diagram|trim",
  "## Application Sequence Diagram",
  "",
  shown "app_sequence_diagram",
  "",
  tag "endif",
  "",
  "## File Inventory",
  "",
  tag "for language, files in files_by_language.items()",
  tag "if language != \"unknown\"",
  "### \x7b\x7b language|upper \x7d\x7d Files (\x7b\x7b files|length \x7d\x7d)",
  "",
  tag "for file_info in files",
  "- `\x7b\x7b file_info.relative_path or file_info.path \x7d\x7d`",
  tag "endfor",
  "",
  tag "endif",
  tag "endfor",
  tag "endif",
  "",
  "---",
  "",
  "*This documentation was automatically generated by TechDocGen. For questions or updates, please contact the development team.*",
  ""])

/-- A note to those who write templates. -/
def templateGuide : String := Text.join "\n" [
  "# Documentation Templates",
  "",
  "Templates fill in the facts of a code base.",
  ""]

/-- The built-in templates and the note beside them, by file name. -/
def builtInTemplates : List (String × String) :=
  [("README.md", templateGuide), ("architecture.md", architectureTemplate),
    ("default.md", defaultTemplate)]

end CodeScribe.Document
