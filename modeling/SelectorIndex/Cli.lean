import SelectorIndex.Cli.Folder
import SelectorIndex.Cli.Loader
import SelectorIndex.Document.Matching
import SelectorIndex.Json.Printer
import SelectorIndex.RuleSet.Query

/-!
# The command line

Commands on a file of rules and a file that describes a document. The arguments
are read whole before any file is, and rules before the document. A command
either writes all of its output or reports one fault. How files are read and
what their texts hold is given from outside (`Files`, `Loader`).
-/

namespace SelectorIndex.Cli

inductive Command where
  /-- The rules that match one element, the root unless one is picked. -/
  | lookup (rules document : String) (select? : Option String)
  /-- The elements that each rule matches. -/
  | query (rules document : String)
  /-- Where the rules are filed. -/
  | index (rules : String)
  /-- Whether all selectors can be read. -/
  | check (rules : String)
  | help
  deriving DecidableEq, Repr

/-- Why a command writes no output. -/
inductive Fault where
  | noCommand
  | unknownCommand (name : String)
  /-- What a command needs. -/
  | missingFile (command needs : String)
  | missingSelector
  | unexpectedArgument (arg : String)
  | unreadableFile (name : String) (cause : FileFault)
  | malformedFile (format : Format) (name cause : String)
  | noElement (selector : String)
  | lookupFailed (cause : Failure)
  | queryFailed (cause : Failure)
  | invalidSelectors (causes : List Failure)
  deriving DecidableEq, Repr

structure Outcome where
  code : UInt32
  out : String
  err : String
  deriving DecidableEq, Repr

/-! ## Arguments -/

/-- The selector of the last `--select`. -/
def selectArg (select? : Option String) : List String → Except Fault (Option String)
  | [] => .ok select?
  | ["--select"] => .error .missingSelector
  | "--select" :: selector :: rest => selectArg (some selector) rest
  | arg :: _ => .error (.unexpectedArgument arg)

def Command.ofArgs : List String → Except Fault Command
  | [] => .error .noCommand
  | "match" :: args =>
    match args with
    | rules :: document :: rest => (selectArg none rest).map (.lookup rules document)
    | _ => .error (.missingFile "match" "a rules file and a document file")
  | "query" :: args =>
    match args with
    | [rules, document] => .ok (.query rules document)
    | _ => .error (.missingFile "query" "a rules file and a document file")
  | "index" :: args =>
    match args with
    | [rules] => .ok (.index rules)
    | _ => .error (.missingFile "index" "a rules file path")
  | "check" :: args =>
    match args with
    | [rules] => .ok (.check rules)
    | _ => .error (.missingFile "check" "a rules file path")
  | "--help" :: _ => .ok .help
  | "-h" :: _ => .ok .help
  | "help" :: _ => .ok .help
  | name :: _ => .error (.unknownCommand name)

/-- The files that a command reads, in order. -/
def Command.files : Command → List String
  | lookup rules document _ => [rules, document]
  | query rules document => [rules, document]
  | index rules => [rules]
  | check rules => [rules]
  | help => []

/-! ## Files -/

/-- The characters after the last dot of a file's name, unless it starts the name. -/
def suffix (path : String) : List Char :=
  let reversed := path.toList.reverse.takeWhile (· != '/')
  match reversed.dropWhile (· != '.') with
  | _ :: _ :: _ => (reversed.takeWhile (· != '.')).reverse
  | _ => []

def formatOf (path : String) : Format :=
  if (suffix path).map Char.toLower = "json".toList then .json else .yaml

/-- The value that a file holds. -/
def load {α : Type} (read : Format → String → Except String α) (files : Files) (path : String) :
    Except Fault α :=
  match files path with
  | .error cause => .error (.unreadableFile path cause)
  | .ok s => (read (formatOf path) s).mapError (.malformedFile (formatOf path) path)

def loadConfig (loader : Loader) : Files → String → Except Fault (Config Json) :=
  load loader.config

def loadDocument (loader : Loader) (files : Files) (path : String) : Except Fault Document :=
  (load loader.node files path).map Document.ofNode

def buildSet (config : Config Json) : RuleSet Json := (RuleSet.empty.extend config).2

/-! ## Commands -/

section Commands

variable (loader : Loader) (files : Files)

def lines (xs : List String) : String := String.join (xs.map (· ++ "\n"))

def ruleFields (r : Rule Json) : List (String × Json) :=
  [("id", .int r.id), ("selector", .string r.selector), ("data", r.data)]

/-- The lines of an answer, or the remark that there are none. -/
def answerLines (xs : List String) : String := lines (if xs.isEmpty then ["(no match)"] else xs)

def pick (doc : Document) : Option String → Except Fault Nat
  | none => .ok 0
  | some selector =>
    match doc.find? 0 selector with
    | some e => .ok e
    | none => .error (.noElement selector)

def runLookup (rules document : String) (select? : Option String) : Except Fault String := do
  let set := buildSet (← loadConfig loader files rules)
  let doc ← loadDocument loader files document
  let e ← pick doc select?
  let found ← (set.matching doc.host e).result.mapError .lookupFailed
  return answerLines (found.map fun r => (Json.object (ruleFields r)).text)

def runQuery (rules document : String) : Except Fault String := do
  let set := buildSet (← loadConfig loader files rules)
  let doc ← loadDocument loader files document
  let found ← (set.queryAll doc.host 0).result.mapError .queryFailed
  return answerLines (found.map fun m =>
    (Json.object (ruleFields m.rule ++
      [("elements", .array (m.elements.map fun e => .string (doc.describe e)))])).text)

def filingLines (set : RuleSet Json) (r : Rule Json) : List String :=
  match set.classify r.selector with
  | [] => [toString r.id ++ "\t" ++ Text.quoted r.selector ++ "\t(not indexed)"]
  | cs => cs.map fun c => toString r.id ++ "\t" ++ c.text

def padRight (width : Nat) (s : String) : String :=
  s ++ String.ofList (List.replicate (width - s.length) ' ')

def statsLine (s : IndexStats) : String :=
  padRight 10 s.name ++ " " ++ toString s.keys ++ " keys, " ++ toString s.entries ++ " entries"

def runIndex (rules : String) : Except Fault String := do
  let set := buildSet (← loadConfig loader files rules)
  return lines (set.toList.flatMap (filingLines set) ++ [""] ++ set.stats.map statsLine)

/-- A document of one element, to try selectors on. -/
def probe : Document := .ofNode { tag := "html" }

/-- The faults of the selectors that are filed somewhere, in the order of ids. -/
def invalidSelectors (set : RuleSet Json) : List Failure :=
  set.toList.filterMap fun r =>
    if (set.classify r.selector).isEmpty then none
    else match probe.host.test 0 r.selector with
      | .ok _ => none
      | .error cause => some cause

def runCheck (rules : String) : Except Fault String := do
  let config ← loadConfig loader files rules
  let set := buildSet config
  match invalidSelectors set with
  | [] => return lines ["Rules valid: " ++ toString set.size ++ " loaded, "
      ++ toString (config.rules.length - set.size) ++ " skipped"]
  | causes => .error (.invalidSelectors causes)

/-- The output of a command. Help is written where reports are. -/
def Command.run : Command → Except Fault String
  | lookup rules document select? => runLookup loader files rules document select?
  | query rules document => runQuery loader files rules document
  | index rules => runIndex loader files rules
  | check rules => runCheck loader files rules
  | help => .ok ""

end Commands

/-! ## Reports -/

def usage : String := lines [
  "Usage: selset <command> [options]",
  "",
  "Commands:",
  "  match <rules> <document> [--select <selector>]   Rules matching one element (root by default)",
  "  query <rules> <document>                         Every rule with matches under the root",
  "  index <rules>                                    Show where each rule group is indexed",
  "  check <rules>                                    Validate every selector",
  "  help                                             Show this help"]

def Fault.message : Fault → String
  | noCommand => ""
  | unknownCommand name => "unknown command \"" ++ name ++ "\""
  | missingFile command needs => command ++ " requires " ++ needs
  | missingSelector => "--select requires a selector"
  | unexpectedArgument arg => "unexpected argument \"" ++ arg ++ "\""
  | unreadableFile name cause => "failed to read \"" ++ name ++ "\": " ++ cause.message
  | malformedFile format name cause =>
    format.name ++ " parse error in \"" ++ name ++ "\": " ++ cause
  | noElement selector => "no element matches \"" ++ selector ++ "\""
  | lookupFailed cause => "match failed: " ++ cause.message
  | queryFailed cause => "query failed: " ++ cause.message
  | invalidSelectors causes =>
    toString causes.length ++ " invalid selector(s):\n  "
      ++ "\n  ".intercalate (causes.map Failure.message)

/-- What is written where a command fails. -/
def Fault.report (fault : Fault) : String :=
  let line := "error: " ++ fault.message ++ "\n"
  match fault with
  | noCommand => usage
  | unknownCommand _ => line ++ usage
  | _ => line

def Command.outcome (loader : Loader) (files : Files) (command : Command) : Outcome :=
  match command.run loader files with
  | .ok out => ⟨0, out, if command = .help then usage else ""⟩
  | .error fault => ⟨1, "", fault.report⟩

/-- What the program leaves behind when it is started with these arguments. -/
def run (files : Files) (args : List String) (loader : Loader := .json) : Outcome :=
  match Command.ofArgs args with
  | .ok command => command.outcome loader files
  | .error fault => ⟨1, "", fault.report⟩

end SelectorIndex.Cli
