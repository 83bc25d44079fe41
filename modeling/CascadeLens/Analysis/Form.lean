import CascadeLens.Analysis.Project
import CascadeLens.Document

/-! The form in which reports are handed on. -/

namespace CascadeLens

open Document

def Specificity.form (s : Specificity) : Document := .text s.text.toList

def count (n : Nat) : Document := .number n

def Identity.form (identity : Identity) : Document :=
  .fields [("tag_name", .text identity.tag), ("classes", texts identity.classes),
    ("ids", texts identity.ids), ("data_attributes", texts identity.dataAttributes),
    ("shadow_parts", texts identity.parts)]

def Match.form (item : Match) : Document :=
  .fields [("selector", .text item.selector), ("original_selector", .text item.rule.selector),
    ("matched_on", texts item.reasons), ("at_rule_context", ofText? item.rule.context),
    ("start_line", count item.rule.startLine), ("end_line", count item.rule.endLine),
    ("specificity", item.specificity.form), ("is_nested", .flag item.rule.isNested)]

def ShadowMatch.form (item : ShadowMatch) : Document :=
  .fields [("selector", .text item.selector), ("original_selector", .text item.rule.selector),
    ("matched_on", texts item.reasons), ("shadow_dom_type", texts item.kinds),
    ("at_rule_context", ofText? item.rule.context),
    ("start_line", count item.rule.startLine), ("end_line", count item.rule.endLine)]

def AtBlock.form (block : AtBlock) : Document :=
  .fields [("name", .text block.name), ("params", .text block.params),
    ("start_line", count block.startLine), ("end_line", count block.endLine),
    ("at_rule_context", ofText? block.context)]

def Diagnostic.form (diagnostic : Diagnostic) : Document :=
  .fields [("code", .text diagnostic.code.toList),
    ("severity", .text diagnostic.severity.text.toList), ("message", .text diagnostic.message),
    ("source", ofText? diagnostic.source),
    ("line", match diagnostic.line with | some line => .number line | none => .null)]

/-- The fields of a file in a report. -/
def FileAnalysis.entries (file : FileAnalysis) : List (String × Document) :=
  [("file", .text file.name), ("syntax", .text file.dialect.name),
    ("is_minified", .flag file.minified),
    ("error", ofText? (file.failure?.map (·.message.toList))),
    ("matches", .list (file.found.map (·.form))),
    ("shadow_dom_matches", .list (file.shadows.map (·.form))),
    ("keyframes", .list (file.keyframes.map (·.form))),
    ("properties", .list (file.properties.map (·.form)))]

def Candidate.form (candidate : Candidate) : Document :=
  .fields [("selector", .text candidate.source.selector),
    ("value", .text candidate.declaration.value),
    ("important", .flag candidate.declaration.important),
    ("specificity", candidate.source.specificity.form),
    ("file", .text candidate.source.rule.source),
    ("start_line", count candidate.source.rule.startLine),
    ("end_line", count candidate.source.rule.endLine)]

def Conflict.entries (conflict : Conflict) : List (String × Document) :=
  [("winner", conflict.winner.form), ("losers", .list (conflict.losers.map (·.form)))]

def GhostReport.form (report : GhostReport) : Document :=
  .fields [("ghost_classes", texts report.ghosts), ("defined_classes", texts report.defined),
    ("total_classes", count report.total), ("has_ghosts", .flag report.hasGhosts)]

def VariableDefinition.form (definition : VariableDefinition) : Document :=
  .fields [("value", .text definition.value), ("context", .text definition.context),
    ("source", .text definition.source), ("line", count definition.line)]

def VariableUsage.form (usage : VariableUsage) : Document :=
  .fields [("name", .text usage.name),
    ("definitions", .list (usage.definitions.map (·.form)))]

def Report.statistics (report : Report) : Document :=
  .fields [("files_scanned", count report.files.length),
    ("files_with_matches", count report.matchedFiles.length),
    ("total_matches", count report.found.length), ("conflicts", count report.conflicts.length)]

/-- The report as a whole. Conflicts are named by their properties. -/
def Report.form (report : Report) : Document :=
  .fields [("element", report.identity.form),
    ("files", .list (report.matchedFiles.map fun file =>
      .fields (file.entries ++ [("is_linked", .flag (report.linkOrder.contains file.name))]))),
    ("conflicts", .record (report.conflicts.map fun conflict =>
      (conflict.property, .fields conflict.entries))),
    ("ghost_classes", report.ghosts.form),
    ("variables", .list (report.usages.map (·.form))),
    ("unlinked_files", texts report.unlinkedFiles),
    ("diagnostics", .list (report.diagnostics.map (·.form))),
    ("stats", report.statistics)]

end CascadeLens
