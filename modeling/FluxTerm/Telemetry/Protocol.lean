import FluxTerm.Lib.Bytes
import FluxTerm.Lib.Fallible
import Mathlib.Data.List.Sort

/-!
# FluxTerm — the datagrams of a telemetry stream

`crates/performance_telemetry/src/protocol.rs`: the messages about a stream and their encoding.
-/

namespace FluxTerm.Telemetry

open FluxTerm.Lib

/-! ## Messages -/

inductive PerformanceDomain where
  | sftp
deriving DecidableEq

inductive StreamKind where
  | sftpUploadFile
  | sftpDownloadFile
  | sftpUploadDirectory
  | sftpDownloadDirectory
  | sftpUploadBatch
deriving DecidableEq

inductive StreamParameter where
  | unsigned (value : ℕ)
  | text (value : Text)
deriving DecidableEq

inductive StreamOutcome where
  | succeeded
  | failed
  | cancelled
  | partially
  | disconnected
deriving DecidableEq

structure DeviceIdentity where
  id : Text
  name : Option Text
deriving DecidableEq

structure Source where
  application : Text
  version : Text
  instanceId : Text
  device : DeviceIdentity
  platform : Text
  arch : Text
  buildProfile : Text
deriving DecidableEq

structure StreamTarget where
  host : Text
  port : ℕ
deriving DecidableEq

structure StreamCorrelation where
  sessionId : Text
  transferId : Option Text
deriving DecidableEq

structure StreamReference where
  id : Text
  domain : PerformanceDomain
  kind : StreamKind
  target : StreamTarget
  correlation : StreamCorrelation
deriving DecidableEq

structure StreamDescriptor extends StreamReference where
  startedAtUnixMs : ℕ
  parameters : List (Text × StreamParameter)
deriving DecidableEq

structure MetricWindow where
  startedAtUnixMs : ℕ
  durationMs : ℕ
deriving DecidableEq

/-- A metric; `V` is its kind, unit and value. -/
structure MetricPoint (V : Type) where
  name : Text
  attributes : List (Text × Text)
  value : V
deriving DecidableEq

inductive Message (V : Type) where
  | streamOpened (schemaVersion : ℕ) (source : Source) (stream : StreamDescriptor)
      (sequence sentAtUnixMs : ℕ)
  | metricsSnapshot (schemaVersion : ℕ) (source : Source) (stream : StreamReference)
      (sequence : ℕ) (batchId : Text) (partIndex partCount sentAtUnixMs : ℕ)
      (window : MetricWindow) (metrics : List (MetricPoint V))
  | streamClosed (schemaVersion : ℕ) (source : Source) (stream : StreamReference)
      (sequence sentAtUnixMs : ℕ) (outcome : StreamOutcome) (endedAtUnixMs : ℕ)

inductive MessageKind where
  | opened
  | snapshot
  | closed
deriving DecidableEq

namespace Message

variable {V : Type}

def streamId : Message V → Text
  | streamOpened _ _ stream _ _ => stream.id
  | metricsSnapshot _ _ stream _ _ _ _ _ _ _ => stream.id
  | streamClosed _ _ stream _ _ _ _ => stream.id

def mark : Message V → MessageKind × ℕ
  | streamOpened _ _ _ sequence _ => (.opened, sequence)
  | metricsSnapshot _ _ _ sequence _ _ _ _ _ _ => (.snapshot, sequence)
  | streamClosed _ _ _ sequence _ _ _ => (.closed, sequence)

end Message

inductive ProtocolError where
  | invalidStream
  | invalidSnapshot
  | other (code : ℕ)
deriving DecidableEq

/-- `fluxterm-pulse-protocol` and `serde_json`, as far as the encoders use them. -/
structure PulseProtocol (V : Type) where
  latestSchemaVersion : ℕ
  maxDatagramBytes : ℕ
  toVec : Message V → Except ProtocolError Bytes
  decodeDatagram : Bytes → Except ProtocolError (Message V)
  validateMetric : MetricPoint V → Except ProtocolError Unit

structure Datagram {V : Type} (X : PulseProtocol V) where
  message : Message V
  bytes : Bytes
  encoded : X.toVec message = .ok bytes
  decoded : ∃ read, X.decodeDatagram bytes = .ok read

/-! ## Opened and closed -/

def maxWireInteger : ℕ := 2 ^ 63 - 1

def maxSnapshotParts : ℕ := 256

/-- `checked_add` on `u64`. -/
def checkedAdd (a b : ℕ) : Option ℕ := if a + b < 2 ^ 64 then some (a + b) else none

def domainPrefix : PerformanceDomain → Text
  | .sftp => "fluxterm.sftp.".toList

section Encoders

variable {V : Type} (X : PulseProtocol V)

def encodeValidated (message : Message V) : Except ProtocolError (Datagram X) :=
  match encoded : X.toVec message with
  | .error err => .error err
  | .ok bytes =>
    match decoded : X.decodeDatagram bytes with
    | .error err => .error err
    | .ok read => .ok ⟨message, bytes, encoded, read, decoded⟩

variable (source : Source) (stream : StreamDescriptor)

def encodeStreamOpened (sequence sentAtUnixMs : ℕ) : Except ProtocolError (Datagram X) :=
  if sequence ≠ 0 ∨ stream.startedAtUnixMs = 0 ∨ stream.startedAtUnixMs > sentAtUnixMs ∨
      sentAtUnixMs > maxWireInteger then
    .error .invalidStream
  else
    encodeValidated X (.streamOpened X.latestSchemaVersion source stream sequence sentAtUnixMs)

def encodeStreamClosed (outcome : StreamOutcome) (endedAtUnixMs sequence sentAtUnixMs : ℕ) :
    Except ProtocolError (Datagram X) :=
  if sequence = 0 ∨ sequence > maxWireInteger ∨ endedAtUnixMs = 0 ∨
      endedAtUnixMs > sentAtUnixMs ∨ sentAtUnixMs > maxWireInteger then
    .error .invalidStream
  else
    encodeValidated X (.streamClosed X.latestSchemaVersion source stream.toStreamReference sequence
      sentAtUnixMs outcome endedAtUnixMs)

/-! ## Snapshots -/

def attributeTexts (metric : MetricPoint V) : List Text :=
  metric.attributes.flatMap fun entry => [entry.1, entry.2]

def metricLe (left right : MetricPoint V) : Bool :=
  left.name < right.name ∨
    (left.name = right.name ∧ ¬attributeTexts right < attributeTexts left)

def validFor (domain : PerformanceDomain) (metric : MetricPoint V) : Bool :=
  (X.validateMetric metric).isOk && (domainPrefix domain).isPrefixOf metric.name

/-- A metric goes into the last part, into a part of its own, or is rejected. -/
def addMetric (encodedLen : List (MetricPoint V) → Except ProtocolError ℕ)
    (chunks : List (List (MetricPoint V)) × ℕ) (metric : MetricPoint V) :
    Except ProtocolError (List (List (MetricPoint V)) × ℕ) := do
  let candidate := chunks.1.getLast?.getD [] ++ [metric]
  if (← encodedLen candidate) ≤ X.maxDatagramBytes then
    return (chunks.1.dropLast ++ [candidate], chunks.2)
  else if (← encodedLen [metric]) ≤ X.maxDatagramBytes then
    return (chunks.1 ++ [[metric]], chunks.2)
  else
    return (chunks.1, chunks.2 + 1)

def nextOf (sequence : ℕ) : Except ProtocolError ℕ :=
  match (checkedAdd sequence 1).filter (· ≤ maxWireInteger) with
  | some next => .ok next
  | none => .error .invalidSnapshot

/-- The datagrams of the parts, from a part index and a sequence number on, and the sequence
number after them. -/
def encodeParts (message : ℕ → ℕ → List (MetricPoint V) → Message V) :
    ℕ → ℕ → List (List (MetricPoint V)) → Except ProtocolError (List (Datagram X) × ℕ)
  | _, sequence, [] => .ok ([], sequence)
  | index, sequence, chunk :: chunks => do
    let datagram ← encodeValidated X (message sequence index chunk)
    let next ← nextOf sequence
    let rest ← encodeParts message (index + 1) next chunks
    return (datagram :: rest.1, rest.2)

structure SnapshotEncoding where
  datagrams : List (Datagram X)
  rejectedMetrics : ℕ
  nextSequence : ℕ

def snapshotMessage (window : MetricWindow) (batchId : Text) (sentAtUnixMs partCount : ℕ)
    (sequence partIndex : ℕ) (metrics : List (MetricPoint V)) : Message V :=
  .metricsSnapshot X.latestSchemaVersion source stream.toStreamReference sequence batchId partIndex
    partCount sentAtUnixMs window metrics

/-- `encoded_snapshot_len`, with the largest numbers in it. -/
def encodedSnapshotLen (window : MetricWindow) (batchId : Text) (sentAtUnixMs : ℕ)
    (metrics : List (MetricPoint V)) : Except ProtocolError ℕ :=
  (X.toVec (snapshotMessage X source stream window batchId sentAtUnixMs (2 ^ 32 - 1) (2 ^ 64 - 1)
    (2 ^ 32 - 1) metrics)).map List.length

/-- `encode_stream_snapshot`. The parts are at most 256, so their count is exact. -/
def encodeStreamSnapshot (window : MetricWindow) (metrics : List (MetricPoint V)) (sequence : ℕ)
    (batchId : Text) (sentAtUnixMs : ℕ) : Except ProtocolError (SnapshotEncoding X) :=
  if sequence = 0 ∨ sequence > maxWireInteger ∨ window.startedAtUnixMs = 0 ∨
      window.durationMs = 0 ∨
      (checkedAdd window.startedAtUnixMs window.durationMs).all (· > sentAtUnixMs) ∨
      sentAtUnixMs > maxWireInteger then
    .error .invalidSnapshot
  else do
    let sorted := metrics.insertionSort (metricLe · ·)
    let valid := sorted.filter (validFor X stream.domain)
    let chunks ← valid.foldlM
      (addMetric X (encodedSnapshotLen X source stream window batchId sentAtUnixMs))
      ([], sorted.length - valid.length)
    if chunks.1.length > maxSnapshotParts then
      .error .invalidSnapshot
    else do
      let parts ← encodeParts X
        (snapshotMessage X source stream window batchId sentAtUnixMs chunks.1.length) 0 sequence
        chunks.1
      return ⟨parts.1, chunks.2, parts.2⟩

end Encoders

/-! ## What the encoders return -/

section Results

variable {V : Type} {X : PulseProtocol V} {source : Source} {stream : StreamDescriptor}

theorem message_of_encodeValidated {message : Message V} {datagram : Datagram X}
    (h : encodeValidated X message = .ok datagram) : datagram.message = message := by
  unfold encodeValidated at h
  split at h
  · cases h
  · split at h
    · cases h
    · cases h
      rfl

theorem encodeStreamOpened_spec {sentAtUnixMs : ℕ} {datagram : Datagram X}
    (h : encodeStreamOpened X source stream 0 sentAtUnixMs = .ok datagram) :
    datagram.message.streamId = stream.id ∧ datagram.message.mark = (.opened, 0) := by
  unfold encodeStreamOpened at h
  split at h
  · cases h
  · rw [message_of_encodeValidated h]
    exact ⟨rfl, rfl⟩

theorem encodeStreamClosed_spec {outcome : StreamOutcome}
    {endedAtUnixMs sequence sentAtUnixMs : ℕ} {datagram : Datagram X}
    (h : encodeStreamClosed X source stream outcome endedAtUnixMs sequence sentAtUnixMs
      = .ok datagram) :
    datagram.message.streamId = stream.id ∧ datagram.message.mark = (.closed, sequence) := by
  unfold encodeStreamClosed at h
  split at h
  · cases h
  · rw [message_of_encodeValidated h]
    exact ⟨rfl, rfl⟩

theorem nextOf_eq_ok {sequence next : ℕ} (h : nextOf sequence = .ok next) :
    next = sequence + 1 := by
  unfold nextOf at h
  split at h
  · rename_i value hvalue
    cases h
    have hadd := (Option.filter_eq_some_iff.mp hvalue).1
    unfold checkedAdd at hadd
    split at hadd
    · exact (Option.some.inj hadd).symm
    · cases hadd
  · cases h

theorem encodeParts_spec {message : ℕ → ℕ → List (MetricPoint V) → Message V} {id : Text}
    (hid : ∀ sequence index chunk, (message sequence index chunk).streamId = id)
    (hmark : ∀ sequence index chunk, (message sequence index chunk).mark = (.snapshot, sequence)) :
    ∀ {chunks : List (List (MetricPoint V))} {index sequence : ℕ}
      {parts : List (Datagram X) × ℕ}, encodeParts X message index sequence chunks = .ok parts →
      (∀ datagram ∈ parts.1, datagram.message.streamId = id) ∧
        parts.1.map (·.message.mark)
          = (List.range' sequence parts.1.length).map (MessageKind.snapshot, ·) ∧
        parts.2 = sequence + parts.1.length
  | [], index, sequence, parts, h => by
    cases h
    exact ⟨fun _ hmem => absurd hmem List.not_mem_nil, rfl, rfl⟩
  | chunk :: chunks, index, sequence, parts, h => by
    unfold encodeParts at h
    obtain ⟨datagram, hdatagram, h⟩ := bind_eq_ok_iff.mp h
    obtain ⟨next, hnext, h⟩ := bind_eq_ok_iff.mp h
    obtain ⟨rest, hrest, h⟩ := bind_eq_ok_iff.mp h
    cases h
    obtain ⟨hids, hmarks, hlast⟩ := encodeParts_spec hid hmark hrest
    have hmessage := message_of_encodeValidated hdatagram
    have hnext' := nextOf_eq_ok hnext
    refine ⟨fun other hother => ?_, ?_, ?_⟩
    · rcases List.mem_cons.mp hother with rfl | hother
      · rw [hmessage]
        exact hid _ _ _
      · exact hids other hother
    · rw [List.map_cons, List.length_cons, List.range'_succ, List.map_cons, hmarks, hmessage, hmark,
        hnext']
    · rw [hlast, hnext', List.length_cons]
      omega

theorem encodeStreamSnapshot_spec {window : MetricWindow} {metrics : List (MetricPoint V)}
    {sequence sentAtUnixMs : ℕ} {batchId : Text} {encoding : SnapshotEncoding X}
    (h : encodeStreamSnapshot X source stream window metrics sequence batchId sentAtUnixMs
      = .ok encoding) :
    (∀ datagram ∈ encoding.datagrams, datagram.message.streamId = stream.id) ∧
      encoding.datagrams.map (·.message.mark)
        = (List.range' sequence encoding.datagrams.length).map (MessageKind.snapshot, ·) ∧
      encoding.nextSequence = sequence + encoding.datagrams.length := by
  unfold encodeStreamSnapshot at h
  split at h
  · cases h
  · obtain ⟨chunks, -, h⟩ := bind_eq_ok_iff.mp h
    split at h
    · cases h
    · obtain ⟨parts, hparts, h⟩ := bind_eq_ok_iff.mp h
      cases h
      exact encodeParts_spec (by intros; rfl) (by intros; rfl) hparts

end Results

end FluxTerm.Telemetry
