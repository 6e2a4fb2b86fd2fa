import ArchLint.Exclusion
import ArchLint.Rule.Visitor
import ArchLint.Settings.Basic
import ArchLint.Source

/-!
# Analyzers

An analyzer knows its rules, its language and which files it is meant for. It checks a syntax tree, a source
text, or a list of files. Every rule has a context of its own, so rules do not see each other.
-/

namespace ArchLint

inductive AnalysisError where
  | noLanguage
  | badGlob (error : Pattern.GlobError)
  | nothingThere
  | unreadable (cause : ReadError)
  | unparsable (path : Path) (error : ParseError)
  deriving DecidableEq

namespace ReadError

def message : ReadError → String
  | notFound => "no such file or directory"
  | isDirectory => "is a directory"
  | notDirectory => "not a directory"
  | invalidData => "not valid text"

end ReadError

namespace AnalysisError

def message : AnalysisError → String
  | noLanguage => "No source parser configured"
  | badGlob e => s!"Invalid glob pattern: {e.message}"
  | nothingThere => "Failed to walk directory"
  | unreadable cause => s!"IO error: {cause.message}"
  | unparsable path e => s!"Parse error in {path.text}: {e.message}"

end AnalysisError

/-- What an analysis is to be set up for. Paths are seen from `directory`. -/
structure AnalysisPlan where
  directory : Path
  projectRoot : Path
  start : Option Path
  rules : List Rule
  language : Option Language
  exclude : List String
  settings : Settings
  failOnParseError : Bool

/-- An analysis that is set up. Its walk starts at `start`; its reports name files as seen from `projectRoot`.
-/
structure Analyzer where
  start : Path
  projectRoot : Path
  rules : List Rule
  language : Language
  exclusions : Exclusions
  extensions : List String
  settings : Settings
  failOnParseError : Bool

namespace AnalysisPlan

def wholeProjectRoot (plan : AnalysisPlan) : Path :=
  plan.projectRoot.absoluteFrom plan.directory

/-- Where the walk starts: as planned, or else as configured, seen from the project root. -/
def wholeStart (plan : AnalysisPlan) : Path :=
  match plan.start with
  | some start => start.absoluteFrom plan.directory
  | none => plan.settings.files.root.absoluteFrom plan.wholeProjectRoot

/-- The extensions of the files to analyse, without leading dots; those of the language if none are
configured. -/
def effectiveExtensions (plan : AnalysisPlan) (language : Language) : List String :=
  if plan.settings.files.extensions.isEmpty then language.extensions
  else plan.settings.files.extensions.map fun e => String.ofList (e.toList.dropWhile (· = '.'))

/-- Sets the analysis up. A missing language is found before a bad glob; planned globs come before configured
ones. -/
def build (plan : AnalysisPlan) : Except AnalysisError Analyzer :=
  match plan.language with
  | none => .error .noLanguage
  | some language =>
    match Exclusions.ofSources (plan.exclude ++ plan.settings.files.exclude) with
    | .error e => .error (.badGlob e)
    | .ok exclusions => .ok
      { start := plan.wholeStart
        projectRoot := plan.wholeProjectRoot
        rules := plan.rules
        language := language
        exclusions := exclusions
        extensions := plan.effectiveExtensions language
        settings := plan.settings
        failOnParseError := plan.failOnParseError }

end AnalysisPlan

namespace Analyzer

def severityOf (a : Analyzer) (rule : Rule) : Severity :=
  (a.settings.severity? rule.name).getD rule.defaultSeverity

def checkTree (a : Analyzer) (file : SourceFile) (tree : SyntaxTree) : FileReport :=
  a.rules.foldl (fun report rule => report.append (rule.check (a.severityOf rule) file tree)) .empty

def checkSource (a : Analyzer) (path : Path) (content : String) : Except ParseError FileReport :=
  (a.language.parse path content).map (a.checkTree (.within a.projectRoot path content))

/-- The report with one more file. A file that cannot be parsed is passed over, unless that is to fail. -/
def addFile (a : Analyzer) (read : Path → Except ReadError String) (r : Report) (path : Path) :
    Except AnalysisError Report :=
  match read path with
  | .error cause => .error (.unreadable cause)
  | .ok content =>
    match a.checkSource path content with
    | .ok file => .ok (r.addFile file)
    | .error e => if a.failOnParseError then .error (.unparsable path e) else .ok r

/-- The sorted report on given files. It stops at the first file that fails. -/
def analyzeFiles (a : Analyzer) (read : Path → Except ReadError String) (files : List Path) :
    Except AnalysisError Report :=
  (files.foldlM (a.addFile read) .empty).map Report.sort

end Analyzer

end ArchLint
