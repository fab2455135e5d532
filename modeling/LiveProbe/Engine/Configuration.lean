import LiveProbe.Engine.Probing
import LiveProbe.Probe.Document

/-!
Configurations: lists of probe documents, each list in place of the one before. A document that
fails does not stop the others, unless errors reach the host, and its probe still counts as named.
-/
namespace LiveProbe.Setup

/-- The probe that a document names, which may be told even of a malformed one. -/
def documentId? (document : Json) : Option String := (document.get? "id").bind Json.string?

def documentIds (documents : List Json) : List String := documents.filterMap documentId?

def applyDocument (document : Json) (s : Setup) : Except Error Unit × Setup :=
  match Probe.ofDocument document with
  | .error e => (.error e, s)
  | .ok p => (s.tellStatus p .received).addProbe p

def applyAll : List Json → Setup → Except Error (List DocumentStatus) × Setup
  | [], s => (.ok [], s)
  | document :: rest, s =>
    match s.applyDocument document with
    | (.ok (), s) =>
      let (statuses, s) := applyAll rest s
      (statuses.map (.applied :: ·), s)
    | (.error e, s) =>
      let s := s.warn (.documentRefused e)
      if s.engine.propagate then (.error e, s)
      else
        let (statuses, s) := applyAll rest s
        (statuses.map (.errored e.message :: ·), s)

def process (documents : List Json) (s : Setup) : Except Error (List DocumentStatus) × Setup :=
  match s.applyAll documents with
  | (.error e, s) => (.error e, s)
  | (.ok statuses, s) =>
    match s.keepProbes (documentIds documents) with
    | (.ok (), s) => (.ok statuses, s)
    | (.error e, s) =>
      let s := s.warn (.staleProbesStay e)
      (if s.engine.propagate then .error e else .ok statuses, s)

end LiveProbe.Setup
