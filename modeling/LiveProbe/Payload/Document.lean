import LiveProbe.Payload.Snapshot

/-!
Payloads as texts. A payload is written compactly and read back from any text of correct form.
-/
namespace LiveProbe

def readPayload? {α : Type} (decode? : Nat → Json.Outline → Option α) (text : String) : Option α :=
  Json.Outline.ofText? text >>= decode? Json.Outline.levelLimit

def readCapturedValue? : String → Option CapturedValue := readPayload? CapturedValue.decode?

def readCapturedVars? : String → Option CapturedVars := readPayload? CapturedVars.decode?

def readCaptureScope? : String → Option CaptureScope := readPayload? CaptureScope.decode?

def readCaptures? : String → Option Captures := readPayload? Captures.decode?

def readLocation? : String → Option SnapshotLocation := readPayload? SnapshotLocation.decode?

def readFrame? : String → Option StackFrame := readPayload? StackFrame.decode?

def readStatus? : String → Option StatusEnvelope := readPayload? StatusEnvelope.decode?

def readSnapshot? : String → Option SnapshotEnvelope := readPayload? SnapshotEnvelope.decode?

def CapturedValue.text (v : CapturedValue) : String := v.encode.compact

def StatusEnvelope.text (e : StatusEnvelope) : String := e.encode.compact

def SnapshotEnvelope.text (e : SnapshotEnvelope) : String := e.encode.compact

end LiveProbe
