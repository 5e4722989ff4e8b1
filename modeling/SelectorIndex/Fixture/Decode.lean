import SelectorIndex.Document.Decode
import SelectorIndex.Fixture

/-!
# Fixtures from JSON

A fixture as a value or a text of JSON, and several of them in one text, separated
by lines of three hyphens.
-/

namespace SelectorIndex

def Removal.record : Record Removal where
  name := "RemoveSpec"
  default := ⟨"", none⟩
  fields := [
    .needed "selector" Reader.string fun selector r => { r with selector },
    .of "data" (.optional Reader.string) fun data? r => { r with data? }]

def MatchCase.record : Record MatchCase where
  name := "MatchCase"
  default := { name := "" }
  fields := [
    .needed "name" Reader.string fun name c => { c with name },
    .of "select" (.optional Reader.string) fun select? c => { c with select? },
    .of "expect" (.list Reader.string) fun expect c => { c with expect },
    .of "error" Reader.boolean fun error c => { c with error }]

def QueryExpect.record : Record QueryExpect where
  name := "QueryExpect"
  default := ⟨"", []⟩
  fields := [
    .needed "selector" Reader.string fun selector x => { x with selector },
    .needed "elements" (.list Reader.string) fun elements x => { x with elements }]

def QueryCase.record : Record QueryCase where
  name := "QueryCase"
  default := ⟨"", []⟩
  fields := [
    .needed "name" Reader.string fun name c => { c with name },
    .needed "expect" (.list QueryExpect.record.reader) fun expect c => { c with expect }]

namespace Fixture

def record : Record Fixture where
  name := "Fixture"
  default := { name := "", document := {}, rules := [] }
  fields := [
    .needed "name" Reader.string fun name f => { f with name },
    .of "description" Reader.string fun description f => { f with description },
    .needed "document" Node.reader fun document f => { f with document },
    .needed "rules" Config.entriesReader fun rules f => { f with rules },
    .of "remove" (.list Removal.record.reader) fun removals f => { f with removals },
    .of "size" (.optional (.natural "usize")) fun size? f => { f with size? },
    .of "cases" (.list MatchCase.record.reader) fun cases f => { f with cases },
    .of "queries" (.list QueryCase.record.reader) fun queries f => { f with queries }]

def ofJson (j : Json) : Except DecodeError Fixture := Json.readValue record.reader j

/-- The one fixture of a text of JSON, read as YAML. -/
def ofText (s : String) : Except ReadError Fixture := Format.yaml.readText record.reader s

/-- A fixture for each document of such a text. -/
def listOfText (s : String) : Except ReadError (List Fixture) :=
  Format.yaml.readTexts record.reader s

end Fixture

end SelectorIndex
