import ScenarioResults.Event
import ScenarioResults.Text.Blank

/-!
# Attachment stores

Payloads are handed to a store, which answers with the reference under which it keeps them. A `Shelf`
keeps them in memory and numbers them in order of arrival, so references never repeat. A `Turnstile`
counts the calls to another store and refuses one of them.
-/

namespace ScenarioResults

/-- Why a store refused a payload: it cannot be decoded or it cannot be written. -/
inductive StoreFault where
  | undecodable (detail : String)
  | unwritable (detail : String)
  deriving DecidableEq, Repr, Inhabited

/-- The text of a store fault. -/
def StoreFault.message : StoreFault → String
  | undecodable detail => "attachment payload could not be decoded: " ++ detail
  | unwritable detail => "attachment I/O failed: " ++ detail

/-- A place that keeps payloads and hands out references to them. The answer to an offer is a
reference or a fault, with the store afterwards. -/
class AttachmentStore (σ : Type) where
  offer : σ → (mimeType : String) → (data : Bytes) → Except StoreFault String × σ

/-- Reference to a payload kept by a store, with the media type of the payload. -/
structure AttachmentRef where
  mimeType : String
  filename : String
  deriving DecidableEq, Repr, Inhabited

/-- A payload as kept in memory, under the reference that was given to the builder. -/
structure Attachment where
  filename : String
  mimeType : String
  data : Bytes
  deriving DecidableEq, Repr, Inhabited

/-- File extension for a media type: parameters after a semicolon are ignored, and an unknown type
gets `bin`. -/
def fileExtension (mimeType : String) : String :=
  match Text.folded (String.ofList (mimeType.toList.takeWhile (· != ';'))) with
  | "image/png" => "png"
  | "image/jpeg" | "image/jpg" => "jpg"
  | "image/gif" => "gif"
  | "image/svg+xml" => "svg"
  | "text/plain" => "txt"
  | "text/html" => "html"
  | "text/xml" | "application/xml" => "xml"
  | "application/json" => "json"
  | "application/pdf" => "pdf"
  | "video/mp4" => "mp4"
  | _ => "bin"

/-- Attachments kept in memory, in order of arrival. -/
structure Shelf where
  stored : List Attachment := []
  deriving DecidableEq, Repr, Inhabited

namespace Shelf

/-- The reference of the `n`-th attachment. -/
def filename (n : Nat) (mimeType : String) : String :=
  "embed_" ++ toString n ++ "." ++ fileExtension mimeType

/-- Keep one more attachment under the next number. -/
def put (s : Shelf) (mimeType : String) (data : Bytes) : String × Shelf :=
  let filename := filename (s.stored.length + 1) mimeType
  (filename, { stored := s.stored ++ [{ filename, mimeType, data }] })

/-- The attachment with the given reference. -/
def get? (s : Shelf) (filename : String) : Option Attachment :=
  s.stored.find? (·.filename == filename)

instance : AttachmentStore Shelf where
  offer s mimeType data :=
    let (filename, s) := s.put mimeType data
    (.ok filename, s)

end Shelf

/-- A store whose calls are counted and one of which may be refused: `refusal` holds the number of
that call, from 1, and the fault to answer with. -/
structure Turnstile (σ : Type) where
  inner : σ
  calls : Nat := 0
  refusal : Option (Nat × StoreFault) := none
  deriving Repr, Inhabited

instance {σ : Type} [AttachmentStore σ] : AttachmentStore (Turnstile σ) where
  offer s mimeType data :=
    let s := { s with calls := s.calls + 1 }
    match s.refusal with
    | some (n, fault) =>
      if n = s.calls then (.error fault, s)
      else
        let (answer, inner) := AttachmentStore.offer s.inner mimeType data
        (answer, { s with inner })
    | none =>
      let (answer, inner) := AttachmentStore.offer s.inner mimeType data
      (answer, { s with inner })

end ScenarioResults
