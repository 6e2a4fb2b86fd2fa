import ArchLint.Report.Codec

/-!
# Renderings

The forms in which a report is printed. Only the pretty form looks at sources again; its drawing of the source
excerpts is left to the terminal, and `summaryLine` is what it ends with.
-/

namespace ArchLint

inductive OutputFormat where
  | text
  | json
  | compact
  | pretty
  deriving DecidableEq, Repr

namespace OutputFormat

def name : OutputFormat → String
  | text => "text"
  | json => "json"
  | compact => "compact"
  | pretty => "pretty"

def all : List OutputFormat :=
  [text, json, compact, pretty]

def ofName? (given : String) : Option OutputFormat :=
  all.find? (·.name = given)

end OutputFormat

def coloured (code : Nat) (text : String) : String :=
  s!"\x1b[{code}m{text}\x1b[0m"

namespace Fault

def summary (f : Fault) : String :=
  coloured 35 "skipped" ++ s!" {f.rule} on {f.nodeKind} at {f.file.text}:{f.line}: {f.message}"

end Fault

namespace Report

/-- Red if there are errors, yellow if there are warnings, green otherwise. -/
def colour (r : Report) : Nat :=
  if 0 < r.count .error then 31 else if 0 < r.count .warning then 33 else 32

def tally (r : Report) : String :=
  coloured r.colour
    s!"Found {r.count .error} error(s), {r.count .warning} warning(s), {r.count .info} info(s) in {r.filesChecked} file(s)"

/-- Every violation in detail with a blank line after it, then the faults and the tally. -/
def renderText (r : Report) : String :=
  String.join (r.violations.map (·.detail ++ "\n")) ++ String.join (r.faults.map (·.summary ++ "\n")) ++ r.tally ++ "\n"

def renderJson (r : Report) : String :=
  r.toJson.render ++ "\n"

def renderCompact (r : Report) : String :=
  String.join (r.violations.map (·.summary ++ "\n"))

def counted (n : Nat) (noun : String) : String :=
  if n = 1 then s!"1 {noun}" else s!"{n} {noun}s"

def summaryLine (r : Report) : String :=
  counted (r.count .error) "error" ++ ", " ++ counted (r.count .warning) "warning"
    ++ s!" in {r.filesChecked} file(s)"

end Report

/-- A source that a violation points into cannot be read. -/
structure RenderError where
  path : Path
  deriving DecidableEq

namespace RenderError

def message (e : RenderError) : String :=
  s!"Failed to read {e.path.text}"

end RenderError

namespace Diagnostic

def lines (d : Diagnostic) : List String :=
  d.headline :: d.marks.map (fun m => s!"  at byte {m.offset}, {m.length} long: {m.message}")
    ++ d.help.toList.map (fun help => s!"  help: {help}")

end Diagnostic

namespace Report

/-- The diagnostics of all violations and the summary line. Each file, seen from `root`, must be readable. -/
def renderPretty (readable : Path → Bool) (root : Path) (r : Report) : Except RenderError String := do
  let blocks ← r.violations.mapM fun v => do
    let path := root.join v.location.file
    if readable path then
      return String.join (v.diagnostic.lines.map (· ++ "\n")) ++ "\n"
    else throw ⟨path⟩
  return String.join blocks ++ r.summaryLine ++ "\n"

def render (readable : Path → Bool) (root : Path) (format : OutputFormat) (r : Report) : Except RenderError String :=
  match format with
  | .text => .ok r.renderText
  | .json => .ok r.renderJson
  | .compact => .ok r.renderCompact
  | .pretty => r.renderPretty readable root

end Report

end ArchLint
