import ScenarioResults.Builder.Process
import ScenarioResults.Directory
import ScenarioResults.Report.Formats

/-!
# Reading report documents

Documents are read one after the other and fed to one builder. A document whose contents cannot be read
or replayed gives the builder no event; one that is refused on the way leaves what came before the
refused event. Where the contents come from, how they are parsed and how payloads are decoded are
parameters, the fields of a `Library`.
-/

namespace ScenarioResults

/-- Why a document gave no results: its contents cannot be read, or they cannot be turned into
results. -/
inductive ReadError where
  | io (path : String) (fault : IoFault)
  | build (error : BuildError)
  deriving DecidableEq, Repr, Inhabited

/-- The text of a read error. -/
def ReadError.message : ReadError → String
  | io path fault => "failed to read " ++ path ++ ": " ++ fault.message
  | build error => "failed to parse Cucumber results: " ++ error.message

namespace Report

/-- Where contents come from, how reports are parsed and how payloads are decoded. -/
structure Library where
  contents : String → Except IoFault String
  parse : Parser := Report.parse
  decode : Decoder := Base64.decodeText

/-- The contents of a directory, read as reports. -/
def Library.ofDirectory (d : Directory) : Library := { contents := d.readText }

namespace Library

/-- The events of the document at a path, which also names the document. -/
def events (l : Library) (path : String) : Except ReadError (List Event) :=
  match l.contents path with
  | .error fault => .error (.io path fault)
  | .ok text => (readWith l.parse l.decode path text).mapError .build

/-- What is told about reading the document at a path. -/
def notices (l : Library) (path : String) : List Notice :=
  match l.contents path with
  | .error _ => []
  | .ok text => readNotices path text

end Library

/-- What reading a batch of documents leaves behind: the builder, the number of documents that were
read completely, what is told about it, and why the batch stopped early, if it did. -/
structure Batch (σ : Type) where
  builder : Builder σ
  read : Nat := 0
  notices : List Notice := []
  error : Option ReadError := none

variable {σ : Type} [AttachmentStore σ]

/-- Feed one document to a builder. -/
def feedDocument (l : Library) (b : Builder σ) (path : String) : Batch σ :=
  match l.events path with
  | .error error => { builder := b, notices := l.notices path, error := some error }
  | .ok events =>
    let r := b.processAll events
    { builder := r.builder
      read := if r.error.isNone then 1 else 0
      notices := l.notices path ++ .documentRead events.length path :: r.notices
      error := r.error.map .build }

/-- Feed documents to a builder in order, stopping at the first that fails. -/
def feedDocuments (l : Library) (b : Builder σ) : List String → Batch σ
  | [] => { builder := b }
  | path :: paths =>
    let one := feedDocument l b path
    match one.error with
    | some _ => one
    | none =>
      let rest := feedDocuments l one.builder paths
      { rest with read := one.read + rest.read, notices := one.notices ++ rest.notices }

/-- What reading a set of documents into a new tree gives: an error, or the attempt at its tally. -/
structure FilesRead where
  outcome : Except ReadError (Attempt Tree)
  notices : List Notice

/-- Read documents into a new tree and tally it. -/
def readFiles (l : Library) (settings : Settings) (paths : List String) : FilesRead :=
  let batch := feedDocuments l (Builder.new settings ({} : Shelf)) paths
  match batch.error with
  | some error => { outcome := .error error, notices := batch.notices }
  | none =>
    let tallied := batch.builder.finish
    { outcome := .ok tallied
      notices := batch.notices ++ (tallied.done?.map Tree.talliedNotice).toList }

end Report

end ScenarioResults
