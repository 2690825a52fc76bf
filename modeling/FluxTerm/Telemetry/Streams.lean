import FluxTerm.Lib.Machine
import FluxTerm.Lib.Replica
import FluxTerm.Telemetry.Protocol
import Mathlib.Data.List.AList

/-!
# FluxTerm — telemetry streams between the sink and its worker

`ChannelSink` and `run_worker` of `src-tauri/src/performance_telemetry.rs`. Any thread calls the
sink; the worker takes the messages out of a bounded queue and sends datagrams. Both keep a
registry of the open streams.

* **`isLifecycle_of_reachable`** — the result on runs.

A datagram counts as sent when it is handed to the socket. The counters are left out.
-/

namespace FluxTerm.Telemetry

open FluxTerm.Lib

variable {V : Type} {X : PulseProtocol V}

/-! ## The sink -/

structure MetricBatch (V : Type) where
  streamId : Text
  window : MetricWindow
  metrics : List (MetricPoint V)

inductive RecordOutcome where
  | accepted
  | dropped
  | invalid
deriving DecidableEq

inductive WorkerMessage (X : PulseProtocol V) where
  | openStream (stream : StreamDescriptor) (datagram : Datagram X)
  | batch (batch : MetricBatch V)
  | closeStream (streamId : Text) (outcome : StreamOutcome) (endedAtUnixMs : ℕ)
  | shutdown

structure WorkerStream where
  descriptor : StreamDescriptor
  nextSequence : ℕ
  batchSequence : ℕ

structure SinkConfig where
  source : Source
  domains : List PerformanceDomain

abbrev WorkerStreams := AList fun _ : Text => WorkerStream

structure TelemetryService (X : PulseProtocol V) where
  /-- `streams` of the sink. -/
  registry : AList fun _ : Text => PerformanceDomain
  queue : List (WorkerMessage X)
  taken : Option (WorkerMessage X)
  /-- `streams` of the worker, until it has returned. -/
  worker : Option WorkerStreams
  shutdownStarted : Bool
  opened : List Text
  sent : List (Datagram X)
  discarded : List (WorkerMessage X)

def queueCapacity : ℕ := 256

namespace TelemetryService

/-- At the start. -/
def start (X : PulseProtocol V) : TelemetryService X where
  registry := ∅
  queue := []
  taken := none
  worker := some ∅
  shutdownStarted := false
  opened := []
  sent := []
  discarded := []

variable (config : SinkConfig) (s : TelemetryService X)

def trySend (message : WorkerMessage X) : RecordOutcome × TelemetryService X :=
  match s.worker with
  | none => (.dropped, s)
  | some _ =>
    if s.queue.length < queueCapacity then
      (.accepted, { s with queue := s.queue ++ [message] })
    else (.dropped, s)

/-- `open_stream`. The registry is locked from its first use to the end. -/
def openStream (stream : StreamDescriptor) (now : ℕ) : RecordOutcome × TelemetryService X :=
  if stream.domain ∉ config.domains then (.invalid, s)
  else match encodeStreamOpened X config.source stream 0 now with
    | .error _ => (.invalid, s)
    | .ok datagram =>
      if stream.id ∈ s.registry then (.invalid, s)
      else match s.trySend (.openStream stream datagram) with
        | (.accepted, s) => (.accepted, { s with
            registry := s.registry.insert stream.id stream.domain
            opened := stream.id :: s.opened })
        | refused => refused

def isForeign (X : PulseProtocol V) (domain : PerformanceDomain) (point : MetricPoint V) : Bool :=
  !(X.validateMetric point).isOk || !(domainPrefix domain).isPrefixOf point.name

def recordBatch (batch : MetricBatch V) : RecordOutcome × TelemetryService X :=
  match s.registry.lookup batch.streamId with
  | none => (.invalid, s)
  | some domain =>
    if batch.window.startedAtUnixMs = 0 ∨ batch.window.durationMs = 0 ∨
        checkedAdd batch.window.startedAtUnixMs batch.window.durationMs = none ∨
        batch.metrics = [] ∨ batch.metrics.length > 64 ∨
        batch.metrics.any (isForeign X domain) then (.invalid, s)
    else s.trySend (.batch batch)

def closeStream (streamId : Text) (outcome : StreamOutcome) (endedAtUnixMs now : ℕ) :
    RecordOutcome × TelemetryService X :=
  if streamId ∉ s.registry ∨ endedAtUnixMs = 0 ∨ endedAtUnixMs > now then (.invalid, s)
  else match s.trySend (.closeStream streamId outcome endedAtUnixMs) with
    | (.accepted, s) => (.accepted, { s with registry := s.registry.erase streamId })
    | refused => refused

def shutdown : TelemetryService X :=
  if s.shutdownStarted then s
  else (trySend { s with shutdownStarted := true } .shutdown).2

/-! ## The worker -/

/-- `receiver.recv()`. -/
def recv : Option (TelemetryService X) :=
  match s.worker, s.taken, s.queue with
  | some _, none, message :: queue => some { s with queue, taken := some message }
  | _, _, _ => none

/-- What closes the streams that are open at the end, in the order in which the map yields them.
`clock` is read twice for each. -/
def closings (X : PulseProtocol V) (source : Source) (clock : ℕ → ℕ × ℕ) :
    ℕ → List (Sigma fun _ : Text => WorkerStream) → List (Datagram X)
  | _, [] => []
  | i, entry :: entries =>
    match encodeStreamClosed X source entry.2.descriptor .disconnected (clock i).1
        entry.2.nextSequence (clock i).2 with
    | .error _ => closings X source clock (i + 1) entries
    | .ok datagram => datagram :: closings X source clock (i + 1) entries

def batchId (stream : WorkerStream) : Text :=
  stream.descriptor.id ++ ':' :: (toString stream.batchSequence).toList

/-- When a snapshot is sent, by a clock that says `now`. -/
def sentAt (window : MetricWindow) (now : ℕ) : ℕ :=
  match checkedAdd window.startedAtUnixMs window.durationMs with
  | some endedAt => max endedAt now
  | none => now

/-- `run_worker` on one message. -/
def handle (streams : WorkerStreams) (clock : ℕ → ℕ × ℕ)
    (order : List (Sigma fun _ : Text => WorkerStream)) : WorkerMessage X → TelemetryService X
  | .openStream stream datagram => { s with
      taken := none
      sent := s.sent ++ [datagram]
      worker := some (streams.insert stream.id ⟨stream, 1, 0⟩) }
  | .batch batch =>
    match streams.lookup batch.streamId with
    | none => { s with taken := none, discarded := s.discarded ++ [.batch batch] }
    | some stream =>
      match encodeStreamSnapshot X config.source stream.descriptor batch.window batch.metrics
          stream.nextSequence (batchId stream) (sentAt batch.window (clock 0).1) with
      | .error _ => { s with taken := none }
      | .ok encoding => { s with
          taken := none
          sent := s.sent ++ encoding.datagrams
          worker := some (streams.insert batch.streamId { stream with
            nextSequence := encoding.nextSequence
            batchSequence := min (stream.batchSequence + 1) (2 ^ 64 - 1) }) }
  | .closeStream streamId outcome endedAtUnixMs =>
    match streams.lookup streamId with
    | none => { s with
        taken := none
        discarded := s.discarded ++ [.closeStream streamId outcome endedAtUnixMs] }
    | some stream =>
      match encodeStreamClosed X config.source stream.descriptor outcome endedAtUnixMs
          stream.nextSequence (clock 0).1 with
      | .error _ => { s with taken := none, worker := some (streams.erase streamId) }
      | .ok datagram => { s with
          taken := none
          sent := s.sent ++ [datagram]
          worker := some (streams.erase streamId) }
  | .shutdown => { s with
      taken := none
      sent := s.sent ++ closings X config.source clock 0 order
      worker := none }

end TelemetryService

/-! ## The machine -/

inductive TelemetryStep (V : Type) where
  | openStream (stream : StreamDescriptor) (now : ℕ)
  | recordBatch (batch : MetricBatch V)
  | closeStream (streamId : Text) (outcome : StreamOutcome) (endedAtUnixMs now : ℕ)
  | shutdown
  | recv
  | handle (clock : ℕ → ℕ × ℕ) (order : List (Sigma fun _ : Text => WorkerStream))

/-- The steps. The ids of the streams are distinct; one that has been refused may be used again. -/
inductive TelemetryService.Next (config : SinkConfig) :
    TelemetryService X → TelemetryStep V → TelemetryService X → Prop
  | openStream {s : TelemetryService X} (stream : StreamDescriptor) (now : ℕ)
      (h : stream.id ∉ s.opened) :
    Next config s (.openStream stream now) (s.openStream config stream now).2
  | recordBatch {s : TelemetryService X} (batch : MetricBatch V) :
    Next config s (.recordBatch batch) (s.recordBatch batch).2
  | closeStream {s : TelemetryService X} (streamId : Text) (outcome : StreamOutcome)
      (endedAtUnixMs now : ℕ) : Next config s (.closeStream streamId outcome endedAtUnixMs now)
        (s.closeStream streamId outcome endedAtUnixMs now).2
  | shutdown {s : TelemetryService X} : Next config s .shutdown s.shutdown
  | recv {s t : TelemetryService X} (h : s.recv = some t) : Next config s .recv t
  | handle {s : TelemetryService X} {streams : WorkerStreams} {message : WorkerMessage X}
      {clock : ℕ → ℕ × ℕ} {order : List (Sigma fun _ : Text => WorkerStream)}
      (hworker : s.worker = some streams) (htaken : s.taken = some message)
      (horder : order.Perm streams.entries) :
    Next config s (.handle clock order) (s.handle config streams clock order message)

def telemetryMachine (X : PulseProtocol V) (config : SinkConfig) :
    Machine (TelemetryService X) (TelemetryStep V) where
  init s := s = .start X
  step := TelemetryService.Next config

/-! ## What is wanted -/

/-- A stream that has been opened and has sent `n` snapshots. -/
def running (n : ℕ) : List (MessageKind × ℕ) :=
  (.opened, 0) :: (List.range' 1 n).map (MessageKind.snapshot, ·)

def IsLifecycle (marks : List (MessageKind × ℕ)) : Prop :=
  marks = [] ∨ ∃ n, marks = running n ∨ marks = running n ++ [(.closed, n + 1)]

def marksOf (datagrams : List (Datagram X)) (id : Text) : List (MessageKind × ℕ) :=
  (datagrams.filter (·.message.streamId = id)).map (·.message.mark)

def TelemetryService.marks (s : TelemetryService X) (id : Text) : List (MessageKind × ℕ) :=
  marksOf s.sent id

/-! ### Marks -/

theorem running_append (n k : ℕ) :
    running n ++ (List.range' (n + 1) k).map (MessageKind.snapshot, ·) = running (n + k) := by
  unfold running
  rw [List.cons_append, ← List.map_append, Nat.add_comm n 1, List.range'_append_1]

theorem marksOf_nil (id : Text) : marksOf ([] : List (Datagram X)) id = [] := rfl

theorem marksOf_append (ds es : List (Datagram X)) (id : Text) :
    marksOf (ds ++ es) id = marksOf ds id ++ marksOf es id := by
  unfold marksOf
  rw [List.filter_append, List.map_append]

theorem marksOf_eq_nil {ds : List (Datagram X)} {id : Text}
    (h : ∀ d ∈ ds, d.message.streamId ≠ id) : marksOf ds id = [] := by
  unfold marksOf
  rw [List.filter_eq_nil_iff.mpr fun d hd => by simpa using h d hd, List.map_nil]

theorem marksOf_eq_map {ds : List (Datagram X)} {id : Text}
    (h : ∀ d ∈ ds, d.message.streamId = id) : marksOf ds id = ds.map (·.message.mark) := by
  unfold marksOf
  rw [List.filter_eq_self.mpr fun d hd => by simpa using h d hd]

/-! ## The registries -/

def touch (live : Set Text) : WorkerMessage X → Set Text
  | .openStream stream _ => insert stream.id live
  | .closeStream streamId _ _ => live \ {streamId}
  | _ => live

def InOrder (live : Set Text) : WorkerMessage X → Prop
  | .openStream stream _ => stream.id ∉ live
  | .batch batch => batch.streamId ∈ live
  | .closeStream streamId _ _ => streamId ∈ live
  | .shutdown => False

def IsShutdown : WorkerMessage X → Prop
  | .shutdown => True
  | _ => False

def openedId : WorkerMessage X → Option Text
  | .openStream stream _ => some stream.id
  | _ => none

namespace TelemetryService

variable {config : SinkConfig} {s t : TelemetryService X} {id : Text}

def pending (s : TelemetryService X) : List (WorkerMessage X) := s.taken.toList ++ s.queue

/-- A stream that the worker knows, with what it has sent for it. -/
structure Kept (s : TelemetryService X) (id : Text) (stream : WorkerStream) : Prop where
  described : stream.descriptor.id = id
  sent : ∃ n, stream.nextSequence = n + 1 ∧ s.marks id = running n

theorem Kept.congr {stream : WorkerStream} (h : s.Kept id stream) (hsent : t.sent = s.sent) :
    t.Kept id stream := ⟨h.described, by unfold marks; rw [hsent]; exact h.sent⟩

/-- **The invariant.** -/
structure InStep (s : TelemetryService X) : Prop where
  follows : ∀ streams, s.worker = some streams →
    Follows touch InOrder IsShutdown {id | id ∈ streams} s.pending {id | id ∈ s.registry}
  first : ∀ stream datagram, .openStream stream datagram ∈ s.pending →
    datagram.message.streamId = stream.id ∧ datagram.message.mark = (.opened, 0)
  once : (s.pending.filterMap openedId).Nodup
  fresh : ∀ id ∈ s.pending.filterMap openedId, id ∈ s.opened ∧ s.marks id = []
  known : ∀ id, s.marks id ≠ [] → id ∈ s.opened
  kept : ∀ streams, s.worker = some streams → ∀ id stream, streams.lookup id = some stream →
    s.Kept id stream
  lifecycle : ∀ id, IsLifecycle (s.marks id)
  none_discarded : s.discarded = []

theorem inStep_start : (start X).InStep where
  follows streams hstreams := by
    cases hstreams
    exact .nil _
  first _ _ h := absurd h List.not_mem_nil
  once := .nil
  fresh _ h := absurd h List.not_mem_nil
  known _ h := absurd rfl h
  kept streams hstreams id stream h := by
    cases hstreams
    cases h
  lifecycle _ := .inl rfl
  none_discarded := rfl

/-! ### The calls -/

theorem trySend_cases (s : TelemetryService X) (message : WorkerMessage X) :
    s.trySend message = (.accepted, { s with queue := s.queue ++ [message] }) ∨
      s.trySend message = (.dropped, s) := by
  unfold trySend
  split
  · exact .inr rfl
  · split
    · exact .inl rfl
    · exact .inr rfl

theorem pending_enqueue (s : TelemetryService X) (message : WorkerMessage X)
    (registry : AList fun _ : Text => PerformanceDomain) (opened : List Text) :
    pending { s with queue := s.queue ++ [message], registry, opened } = s.pending ++ [message] :=
  (List.append_assoc _ _ _).symm

theorem InStep.enqueue (h : s.InStep) {message : WorkerMessage X}
    {registry : AList fun _ : Text => PerformanceDomain} {opened : List Text}
    (horder : InOrder {id | id ∈ s.registry} message ∨ IsShutdown message)
    (hregistry : {id | id ∈ registry} = touch {id | id ∈ s.registry} message)
    (hfirst : ∀ stream datagram, message = .openStream stream datagram →
      datagram.message.streamId = stream.id ∧ datagram.message.mark = (.opened, 0))
    (hnew : ∀ id, openedId message = some id → id ∉ s.opened ∧ id ∈ opened)
    (hopened : ∀ id ∈ s.opened, id ∈ opened) :
    InStep { s with queue := s.queue ++ [message], registry, opened } where
  follows streams hstreams := by
    have hfollows := h.follows streams hstreams
    rw [pending_enqueue]
    dsimp only
    rw [hregistry]
    rcases horder with horder | hlast
    · exact hfollows.snoc horder
    · cases message with
      | shutdown => exact hfollows.close hlast
      | _ => exact hlast.elim
  first stream datagram hmem := by
    rw [pending_enqueue, List.mem_append, List.mem_singleton] at hmem
    exact hmem.elim (h.first stream datagram) fun heq => hfirst stream datagram heq.symm
  once := by
    rw [pending_enqueue, List.filterMap_append]
    refine List.nodup_append'.mpr ⟨h.once, ?_, ?_⟩
    · cases message with
      | openStream stream datagram => exact List.nodup_singleton _
      | _ => exact .nil
    · intro id hid hmem
      obtain ⟨_, hmessage, hid'⟩ := List.mem_filterMap.mp hmem
      rw [List.mem_singleton.mp hmessage] at hid'
      exact (hnew id hid').1 (h.fresh id hid).1
  fresh id hid := by
    rw [pending_enqueue, List.filterMap_append, List.mem_append] at hid
    rcases hid with hid | hmem
    · exact ⟨hopened id (h.fresh id hid).1, (h.fresh id hid).2⟩
    · obtain ⟨_, hmessage, hid'⟩ := List.mem_filterMap.mp hmem
      rw [List.mem_singleton.mp hmessage] at hid'
      obtain ⟨hnot, hin⟩ := hnew id hid'
      exact ⟨hin, Decidable.byContradiction fun hne => hnot (h.known id hne)⟩
  known id hid := hopened id (h.known id hid)
  kept streams hstreams id stream hlookup := (h.kept streams hstreams id stream hlookup).congr rfl
  lifecycle := h.lifecycle
  none_discarded := h.none_discarded

theorem InStep.enqueueOther (h : s.InStep) {message : WorkerMessage X}
    {registry : AList fun _ : Text => PerformanceDomain} (hother : openedId message = none)
    (horder : InOrder {id | id ∈ s.registry} message ∨ IsShutdown message)
    (hregistry : {id | id ∈ registry} = touch {id | id ∈ s.registry} message) :
    InStep { s with queue := s.queue ++ [message], registry } := by
  refine h.enqueue horder hregistry (fun stream datagram heq => ?_) (fun id hid => ?_)
    fun _ => id
  · rw [heq] at hother
    cases hother
  · rw [hother] at hid
    cases hid

theorem InStep.openStream (h : s.InStep) {stream : StreamDescriptor} {now : ℕ}
    (hid : stream.id ∉ s.opened) : (s.openStream config stream now).2.InStep := by
  unfold TelemetryService.openStream
  split
  · exact h
  · split
    · exact h
    · rename_i datagram hdatagram
      split
      · exact h
      · rename_i hnew
        rcases s.trySend_cases (.openStream stream datagram) with htry | htry
        · rw [htry]
          refine h.enqueue (.inl hnew) ?_ ?_ ?_ fun id => List.mem_cons_of_mem _
          · ext id
            exact AList.mem_insert _
          · rintro _ _ ⟨rfl, rfl⟩
            exact encodeStreamOpened_spec hdatagram
          · rintro id ⟨⟩
            exact ⟨hid, List.mem_cons_self⟩
        · rw [htry]
          exact h

theorem InStep.recordBatch (h : s.InStep) (batch : MetricBatch V) :
    (s.recordBatch batch).2.InStep := by
  unfold TelemetryService.recordBatch
  split
  · exact h
  · rename_i domain hdomain
    split
    · exact h
    · rcases s.trySend_cases (.batch batch) with htry | htry
      · rw [htry]
        have hlive : batch.streamId ∈ s.registry := AList.lookup_isSome.mp (by rw [hdomain]; rfl)
        exact h.enqueueOther rfl (.inl hlive) rfl
      · rw [htry]
        exact h

theorem InStep.closeStream (h : s.InStep) (streamId : Text) (outcome : StreamOutcome)
    (endedAtUnixMs now : ℕ) : (s.closeStream streamId outcome endedAtUnixMs now).2.InStep := by
  unfold TelemetryService.closeStream
  split
  · exact h
  · rename_i hvalid
    rw [not_or, not_not] at hvalid
    rcases s.trySend_cases (.closeStream streamId outcome endedAtUnixMs) with htry | htry
    · rw [htry]
      refine h.enqueueOther rfl (.inl hvalid.1) ?_
      ext id
      rw [Set.mem_ofPred_eq, AList.mem_erase]
      exact and_comm
    · rw [htry]
      exact h

theorem InStep.shutdown (h : s.InStep) : s.shutdown.InStep := by
  have hstarted : InStep { s with shutdownStarted := true } := ⟨h.follows, h.first, h.once,
    h.fresh, h.known, fun streams hstreams id stream hlookup =>
      (h.kept streams hstreams id stream hlookup).congr rfl, h.lifecycle, h.none_discarded⟩
  unfold TelemetryService.shutdown
  split
  · exact h
  · rcases trySend_cases { s with shutdownStarted := true } .shutdown with htry | htry
    · rw [htry]
      exact hstarted.enqueueOther rfl (.inr trivial) rfl
    · rw [htry]
      exact hstarted

/-! ### The worker -/

theorem InStep.recv (h : s.InStep) (hrecv : s.recv = some t) : t.InStep := by
  unfold TelemetryService.recv at hrecv
  split at hrecv
  · rename_i streams message queue hworker htaken hqueue
    cases hrecv
    have hpending : pending { s with queue, taken := some message } = s.pending := by
      unfold pending
      rw [htaken, hqueue]
      rfl
    refine ⟨?_, ?_, ?_, ?_, h.known, fun streams hstreams id stream hlookup =>
      (h.kept streams hstreams id stream hlookup).congr rfl, h.lifecycle, h.none_discarded⟩
    all_goals rw [hpending]
    · exact h.follows
    · exact h.first
    · exact h.once
    · exact h.fresh
  · cases hrecv

theorem pending_of_taken {message : WorkerMessage X} (htaken : s.taken = some message) :
    s.pending = message :: s.queue := by
  unfold pending
  rw [htaken]
  rfl

theorem InStep.owned (h : s.InStep) {streams : WorkerStreams} {stream : WorkerStream}
    (hworker : s.worker = some streams) (hlookup : streams.lookup id = some stream) :
    id ∈ s.opened ∧ id ∉ s.pending.filterMap openedId := by
  obtain ⟨-, n, -, hmarks⟩ := h.kept streams hworker id stream hlookup
  have hne : s.marks id ≠ [] := by
    rw [hmarks]
    exact List.cons_ne_nil _ _
  exact ⟨h.known id hne, fun hmem => hne (h.fresh id hmem).2⟩

theorem InStep.handled (h : s.InStep) {message : WorkerMessage X} {worker : Option WorkerStreams}
    {sent datagrams : List (Datagram X)} (htaken : s.taken = some message)
    (hsent : sent = s.sent ++ datagrams)
    (hfollows : ∀ streams, worker = some streams →
      Follows touch InOrder IsShutdown {id | id ∈ streams} s.queue {id | id ∈ s.registry})
    (hids : ∀ d ∈ datagrams, d.message.streamId ∈ s.opened ∧
      d.message.streamId ∉ s.queue.filterMap openedId)
    (hkept : ∀ streams, worker = some streams → ∀ id stream, streams.lookup id = some stream →
      stream.descriptor.id = id ∧
        ∃ n, stream.nextSequence = n + 1 ∧ s.marks id ++ marksOf datagrams id = running n)
    (hlifecycle : ∀ id, IsLifecycle (s.marks id ++ marksOf datagrams id)) :
    InStep { s with taken := none, sent, worker } := by
  subst hsent
  have hmarks : ∀ id, marks { s with taken := none, sent := s.sent ++ datagrams, worker } id
      = s.marks id ++ marksOf datagrams id := marksOf_append s.sent datagrams
  have hpending := pending_of_taken htaken
  have hmono : ∀ id ∈ s.queue.filterMap openedId, id ∈ s.pending.filterMap openedId := by
    intro id hid
    obtain ⟨other, hother, hid⟩ := List.mem_filterMap.mp hid
    exact List.mem_filterMap.mpr ⟨other, hpending ▸ List.mem_cons_of_mem _ hother, hid⟩
  refine ⟨hfollows, ?_, ?_, ?_, ?_, ?_, ?_, h.none_discarded⟩
  · intro stream datagram hmem
    exact h.first stream datagram (hpending ▸ List.mem_cons_of_mem _ hmem)
  · have honce := h.once
    rw [hpending] at honce
    exact honce.sublist ((List.sublist_cons_self _ _).filterMap _)
  · intro id hid
    obtain ⟨hopened, hnil⟩ := h.fresh id (hmono id hid)
    refine ⟨hopened, ?_⟩
    rw [hmarks, hnil, List.nil_append]
    exact marksOf_eq_nil fun d hd heq => (hids d hd).2 (heq ▸ hid)
  · intro id hid
    by_contra hnot
    rw [hmarks] at hid
    have hold : s.marks id = [] := Decidable.byContradiction fun hne => hnot (h.known id hne)
    rw [hold, List.nil_append] at hid
    exact hid (marksOf_eq_nil fun d hd heq => hnot (heq ▸ (hids d hd).1))
  · intro streams hstreams id stream hlookup
    obtain ⟨hdescribed, n, hnext, hrunning⟩ := hkept streams hstreams id stream hlookup
    exact ⟨hdescribed, n, hnext, (hmarks id).trans hrunning⟩
  · intro id
    rw [hmarks]
    exact hlifecycle id

theorem marks_append_of_ne {datagrams : List (Datagram X)} {owner : Text}
    (hids : ∀ d ∈ datagrams, d.message.streamId = owner) (hne : id ≠ owner) :
    s.marks id ++ marksOf datagrams id = s.marks id := by
  rw [marksOf_eq_nil fun d hd heq => hne (heq.symm.trans (hids d hd)), List.append_nil]

theorem InStep.handle_openStream (h : s.InStep) {streams : WorkerStreams}
    {stream : StreamDescriptor} {datagram : Datagram X} (clock : ℕ → ℕ × ℕ)
    (order : List (Sigma fun _ : Text => WorkerStream)) (hworker : s.worker = some streams)
    (htaken : s.taken = some (.openStream stream datagram)) :
    (s.handle config streams clock order (.openStream stream datagram)).InStep := by
  have hpending := pending_of_taken htaken
  obtain ⟨-, hfollows⟩ := (hpending ▸ h.follows streams hworker).head nofun
  obtain ⟨hid, hmark⟩ := h.first stream datagram (hpending ▸ List.mem_cons_self)
  have hfresh := h.fresh stream.id (by rw [hpending]; exact List.mem_cons_self)
  have honce := h.once
  rw [hpending] at honce
  have hids : ∀ d ∈ [datagram], d.message.streamId = stream.id := by
    intro d hd
    rw [List.mem_singleton.mp hd]
    exact hid
  have hself : s.marks stream.id ++ marksOf [datagram] stream.id = running 0 := by
    rw [hfresh.2, marksOf_eq_map hids, List.map_singleton, hmark]
    rfl
  refine h.handled htaken rfl ?_ ?_ ?_ ?_
  · rintro _ ⟨⟩
    have hset : {id | id ∈ streams.insert stream.id ⟨stream, 1, 0⟩}
        = touch {id | id ∈ streams} (WorkerMessage.openStream stream datagram) := by
      ext id
      exact AList.mem_insert _
    rw [hset]
    exact hfollows
  · intro d hd
    rw [hids d hd]
    exact ⟨hfresh.1, (List.nodup_cons.mp honce).1⟩
  · rintro _ ⟨⟩ id other hlookup
    by_cases hother : id = stream.id
    · subst hother
      rw [AList.lookup_insert] at hlookup
      cases hlookup
      exact ⟨rfl, 0, rfl, hself⟩
    · rw [AList.lookup_insert_ne hother] at hlookup
      rw [marks_append_of_ne hids hother]
      have hkept := h.kept streams hworker id other hlookup
      exact ⟨hkept.1, hkept.2⟩
  · intro id
    by_cases hother : id = stream.id
    · rw [hother, hself]
      exact .inr ⟨0, .inl rfl⟩
    · rw [marks_append_of_ne hids hother]
      exact h.lifecycle id

theorem InStep.handle_batch (h : s.InStep) {streams : WorkerStreams} {batch : MetricBatch V}
    (clock : ℕ → ℕ × ℕ) (order : List (Sigma fun _ : Text => WorkerStream))
    (hworker : s.worker = some streams) (htaken : s.taken = some (.batch batch)) :
    (s.handle config streams clock order (.batch batch)).InStep := by
  have hpending := pending_of_taken htaken
  obtain ⟨hlive, hfollows⟩ := (hpending ▸ h.follows streams hworker).head nofun
  obtain ⟨stream, hlookup⟩ := Option.isSome_iff_exists.mp (AList.lookup_isSome.mpr hlive)
  have hkept := h.kept streams hworker
  have howned := h.owned hworker hlookup
  rw [hpending] at howned
  obtain ⟨hdescribed, n, hnext, hrunning⟩ := hkept batch.streamId stream hlookup
  unfold handle
  dsimp only
  rw [hlookup]
  dsimp only
  split
  · -- nothing is sent
    refine h.handled htaken (List.append_nil _).symm ?_ (fun _ hd => absurd hd List.not_mem_nil)
      (fun streams hstreams id other hother => ?_) fun id => ?_
    · intro streams hstreams
      rw [hworker] at hstreams
      cases hstreams
      exact hfollows
    · rw [marksOf_nil, List.append_nil]
      have hother := h.kept streams hstreams id other hother
      exact ⟨hother.1, hother.2⟩
    · rw [marksOf_nil, List.append_nil]
      exact h.lifecycle id
  · rename_i encoding hencoding
    obtain ⟨hids, hmarks, hafter⟩ := encodeStreamSnapshot_spec hencoding
    rw [hdescribed] at hids
    have hself : s.marks batch.streamId ++ marksOf encoding.datagrams batch.streamId
        = running (n + encoding.datagrams.length) := by
      rw [marksOf_eq_map hids, hmarks, hrunning, hnext]
      exact running_append n _
    refine h.handled htaken rfl ?_ ?_ ?_ ?_
    · rintro _ ⟨⟩
      have hset : ∀ value, {id | id ∈ streams.insert batch.streamId value}
          = {id | id ∈ streams} := by
        intro value
        ext id
        rw [Set.mem_ofPred_eq, AList.mem_insert]
        exact or_iff_right_of_imp fun heq => heq ▸ hlive
      rw [hset]
      exact hfollows
    · intro d hd
      rw [hids d hd]
      exact ⟨howned.1, howned.2⟩
    · rintro _ ⟨⟩ id other hother
      by_cases heq : id = batch.streamId
      · subst heq
        rw [AList.lookup_insert] at hother
        cases hother
        refine ⟨hdescribed, n + encoding.datagrams.length, ?_, hself⟩
        dsimp only
        omega
      · rw [AList.lookup_insert_ne heq] at hother
        rw [marks_append_of_ne hids heq]
        exact ⟨(hkept id other hother).1, (hkept id other hother).2⟩
    · intro id
      by_cases heq : id = batch.streamId
      · rw [heq, hself]
        exact .inr ⟨_, .inl rfl⟩
      · rw [marks_append_of_ne hids heq]
        exact h.lifecycle id

theorem InStep.closed (h : s.InStep) {streams : WorkerStreams} {stream : WorkerStream}
    {streamId : Text} {outcome : StreamOutcome} {endedAtUnixMs : ℕ}
    {sent datagrams : List (Datagram X)} (hworker : s.worker = some streams)
    (htaken : s.taken = some (.closeStream streamId outcome endedAtUnixMs))
    (hlookup : streams.lookup streamId = some stream) (hsent : sent = s.sent ++ datagrams)
    (hids : ∀ d ∈ datagrams, d.message.streamId = streamId)
    (hmarks : datagrams.map (·.message.mark) = [] ∨
      datagrams.map (·.message.mark) = [(.closed, stream.nextSequence)]) :
    InStep { s with taken := none, sent, worker := some (streams.erase streamId) } := by
  have hpending := pending_of_taken htaken
  obtain ⟨-, hfollows⟩ := (hpending ▸ h.follows streams hworker).head nofun
  have howned := h.owned hworker hlookup
  rw [hpending] at howned
  obtain ⟨-, n, hnext, hrunning⟩ := h.kept streams hworker streamId stream hlookup
  refine h.handled htaken hsent ?_ ?_ ?_ ?_
  · rintro _ ⟨⟩
    have hset : {id | id ∈ streams.erase streamId} = {id | id ∈ streams} \ {streamId} := by
      ext id
      rw [Set.mem_ofPred_eq, AList.mem_erase]
      exact and_comm
    rw [hset]
    exact hfollows
  · intro d hd
    rw [hids d hd]
    exact ⟨howned.1, howned.2⟩
  · rintro _ ⟨⟩ id other hother
    have hne : id ≠ streamId := by
      rintro rfl
      rw [AList.lookup_erase] at hother
      cases hother
    rw [AList.lookup_erase_ne hne] at hother
    rw [marks_append_of_ne hids hne]
    have hkept := h.kept streams hworker id other hother
    exact ⟨hkept.1, hkept.2⟩
  · intro id
    by_cases heq : id = streamId
    · rw [heq, marksOf_eq_map hids, hrunning]
      rcases hmarks with hmarks | hmarks
      · rw [hmarks, List.append_nil]
        exact .inr ⟨n, .inl rfl⟩
      · rw [hmarks, hnext]
        exact .inr ⟨n, .inr rfl⟩
    · rw [marks_append_of_ne hids heq]
      exact h.lifecycle id

theorem InStep.handle_closeStream (h : s.InStep) {streams : WorkerStreams} {streamId : Text}
    {outcome : StreamOutcome} {endedAtUnixMs : ℕ} (clock : ℕ → ℕ × ℕ)
    (order : List (Sigma fun _ : Text => WorkerStream)) (hworker : s.worker = some streams)
    (htaken : s.taken = some (.closeStream streamId outcome endedAtUnixMs)) :
    (s.handle config streams clock order (.closeStream streamId outcome endedAtUnixMs)).InStep := by
  have hpending := pending_of_taken htaken
  obtain ⟨hlive, -⟩ := (hpending ▸ h.follows streams hworker).head nofun
  obtain ⟨stream, hlookup⟩ := Option.isSome_iff_exists.mp (AList.lookup_isSome.mpr hlive)
  have hdescribed := (h.kept streams hworker streamId stream hlookup).described
  unfold handle
  dsimp only
  rw [hlookup]
  dsimp only
  split
  · exact h.closed hworker htaken hlookup (List.append_nil _).symm
      (fun _ hd => absurd hd List.not_mem_nil) (.inl rfl)
  · rename_i datagram hdatagram
    obtain ⟨hid, hmark⟩ := encodeStreamClosed_spec hdatagram
    refine h.closed hworker htaken hlookup rfl (fun d hd => ?_) (.inr ?_)
    · rw [List.mem_singleton.mp hd, hid, hdescribed]
    · rw [List.map_singleton, hmark]

theorem marksOf_closings (source : Source) (clock : ℕ → ℕ × ℕ) :
    ∀ {order : List (Sigma fun _ : Text => WorkerStream)} {i : ℕ},
      (order.map (·.2.descriptor.id)).Nodup → ∀ id,
      marksOf (closings X source clock i order) id = [] ∨
        ∃ entry ∈ order, entry.2.descriptor.id = id ∧
          marksOf (closings X source clock i order) id = [(.closed, entry.2.nextSequence)]
  | [], i, _, id => .inl rfl
  | entry :: entries, i, hnodup, id => by
    rw [List.map_cons, List.nodup_cons] at hnodup
    have hrest := marksOf_closings source clock (i := i + 1) hnodup.2 id
    unfold closings
    split
    · exact hrest.imp_right fun ⟨other, hmem, hother⟩ => ⟨other, List.mem_cons_of_mem _ hmem, hother⟩
    · rename_i datagram hdatagram
      obtain ⟨hid, hmark⟩ := encodeStreamClosed_spec hdatagram
      rw [← List.singleton_append, marksOf_append]
      by_cases heq : entry.2.descriptor.id = id
      · refine .inr ⟨entry, List.mem_cons_self, heq, ?_⟩
        have hnone : marksOf (closings X source clock (i + 1) entries) id = [] := by
          refine hrest.resolve_right ?_
          rintro ⟨other, hmem, hother, -⟩
          exact hnodup.1 (List.mem_map.mpr ⟨other, hmem, hother.trans heq.symm⟩)
        rw [hnone, List.append_nil, marksOf_eq_map, List.map_singleton, hmark]
        intro d hd
        rw [List.mem_singleton.mp hd, hid, heq]
      · have hnone : marksOf [datagram] id = [] := by
          refine marksOf_eq_nil fun d hd => ?_
          rw [List.mem_singleton.mp hd, hid]
          exact heq
        rw [hnone, List.nil_append]
        exact hrest.imp_right fun ⟨other, hmem, hother⟩ =>
          ⟨other, List.mem_cons_of_mem _ hmem, hother⟩

theorem mem_closings {source : Source} {clock : ℕ → ℕ × ℕ} {datagram : Datagram X} :
    ∀ {order : List (Sigma fun _ : Text => WorkerStream)} {i : ℕ},
      datagram ∈ closings X source clock i order →
        ∃ entry ∈ order, datagram.message.streamId = entry.2.descriptor.id
  | [], _, h => absurd h List.not_mem_nil
  | entry :: entries, i, h => by
    unfold closings at h
    split at h
    · obtain ⟨other, hmem, hother⟩ := mem_closings h
      exact ⟨other, List.mem_cons_of_mem _ hmem, hother⟩
    · rename_i first hfirst
      rcases List.mem_cons.mp h with rfl | h
      · exact ⟨entry, List.mem_cons_self, (encodeStreamClosed_spec hfirst).1⟩
      · obtain ⟨other, hmem, hother⟩ := mem_closings h
        exact ⟨other, List.mem_cons_of_mem _ hmem, hother⟩

theorem InStep.handle_shutdown (h : s.InStep) {streams : WorkerStreams} (clock : ℕ → ℕ × ℕ)
    {order : List (Sigma fun _ : Text => WorkerStream)} (hworker : s.worker = some streams)
    (htaken : s.taken = some .shutdown) (horder : order.Perm streams.entries) :
    (s.handle config streams clock order .shutdown).InStep := by
  have hlookup : ∀ entry ∈ order, streams.lookup entry.1 = some entry.2 := fun entry hentry =>
    AList.mem_lookup_iff.mpr (horder.mem_iff.mp hentry)
  have hdescribed : ∀ entry ∈ order, entry.2.descriptor.id = entry.1 := fun entry hentry =>
    (h.kept streams hworker _ _ (hlookup entry hentry)).described
  have hnodup : (order.map (·.2.descriptor.id)).Nodup := by
    rw [List.map_congr_left hdescribed]
    exact (horder.map Sigma.fst).nodup_iff.mpr streams.keys_nodup
  refine h.handled htaken rfl nofun ?_ nofun ?_
  · intro d hd
    obtain ⟨entry, hentry, hid⟩ := mem_closings hd
    rw [hid, hdescribed entry hentry]
    have howned := h.owned hworker (hlookup entry hentry)
    rw [pending_of_taken htaken] at howned
    exact ⟨howned.1, howned.2⟩
  · intro id
    rcases marksOf_closings config.source clock hnodup id with hnone | ⟨entry, hentry, rfl, hclosed⟩
    · rw [hnone, List.append_nil]
      exact h.lifecycle id
    · obtain ⟨-, n, hnext, hrunning⟩ := h.kept streams hworker _ _ (hlookup entry hentry)
      rw [hclosed, hdescribed entry hentry, hrunning, hnext]
      exact .inr ⟨n, .inr rfl⟩

/-! ### Runs -/

/-- **The step lemma.** -/
theorem InStep.next (h : s.InStep) {step : TelemetryStep V} (hstep : Next config s step t) :
    t.InStep := by
  cases hstep with
  | openStream stream now hid => exact h.openStream hid
  | recordBatch batch => exact h.recordBatch batch
  | closeStream streamId outcome endedAtUnixMs now => exact h.closeStream _ _ _ _
  | shutdown => exact h.shutdown
  | recv hrecv => exact h.recv hrecv
  | @handle streams message clock order hworker htaken horder =>
    cases message with
    | openStream stream datagram => exact h.handle_openStream clock order hworker htaken
    | batch batch => exact h.handle_batch clock order hworker htaken
    | closeStream streamId outcome endedAtUnixMs =>
      exact h.handle_closeStream clock order hworker htaken
    | shutdown => exact h.handle_shutdown clock hworker htaken horder

end TelemetryService

/-- **The datagrams of a stream**, in every run: opened with 0, snapshots from 1 on, at most one
closed, and nothing afterwards. The worker discards no message because of its stream. -/
theorem isLifecycle_of_reachable (X : PulseProtocol V) (config : SinkConfig)
    (s : TelemetryService X) (h : (telemetryMachine X config).Reachable s) :
    (∀ id, IsLifecycle (s.marks id)) ∧ s.discarded = [] := by
  have hkept := h.induct (I := TelemetryService.InStep)
    (fun s (hs : s = _) => hs ▸ TelemetryService.inStep_start)
    fun _ _ _ _ hs hstep => hs.next hstep
  exact ⟨hkept.lifecycle, hkept.none_discarded⟩

/-! ## A stream with one snapshot -/

def sampleSource : Source := ⟨[], [], [], ⟨[], none⟩, [], [], []⟩

def sampleStream : StreamDescriptor where
  id := ['a']
  domain := .sftp
  kind := .sftpUploadFile
  target := ⟨['h'], 22⟩
  correlation := ⟨['s'], none⟩
  startedAtUnixMs := 1
  parameters := []

def sampleBatch : MetricBatch Unit := ⟨['a'], ⟨1, 1⟩, [⟨"fluxterm.sftp.x".toList, [], ()⟩]⟩

def sampleMessages : List (Message Unit) :=
  [.streamOpened 1 sampleSource sampleStream 0 1,
    .metricsSnapshot 1 sampleSource sampleStream.toStreamReference 1 "a:0".toList 0 1 2 ⟨1, 1⟩
      sampleBatch.metrics,
    .streamClosed 1 sampleSource sampleStream.toStreamReference 2 3 .succeeded 2]

/-- A format that writes the sequence number, and reads the messages of the sample. -/
def samplePulse : PulseProtocol Unit where
  latestSchemaVersion := 1
  maxDatagramBytes := 1200
  toVec message := .ok [UInt8.ofNat message.mark.2]
  decodeDatagram bytes :=
    match sampleMessages[(bytes.headD 0).toNat]? with
    | some message => .ok message
    | none => .error .invalidStream
  validateMetric _ := .ok ()

def sampleConfig : SinkConfig := ⟨sampleSource, [.sftp]⟩

theorem worked {X : PulseProtocol V} {config : SinkConfig} {s t : TelemetryService X}
    {streams : WorkerStreams} {message : WorkerMessage X}
    (h : (telemetryMachine X config).Reachable s) (hrecv : s.recv = some t)
    (hworker : t.worker = some streams) (htaken : t.taken = some message) :
    (telemetryMachine X config).Reachable
      (t.handle config streams (fun _ => (3, 3)) streams.entries message) :=
  .step (.step h (.recv hrecv)) (.handle hworker htaken (List.Perm.refl _))

theorem isLifecycle_of_reachable_sampleStream : ∃ s : TelemetryService samplePulse,
    s.marks ['a'] = [(.opened, 0), (.snapshot, 1), (.closed, 2)] ∧ IsLifecycle (s.marks ['a']) ∧
      s.discarded = [] := by
  have hstart : (telemetryMachine samplePulse sampleConfig).Reachable (.start samplePulse) :=
    .init rfl
  have hopened := worked (hstart.step (.openStream sampleStream 1 List.not_mem_nil)) rfl rfl rfl
  have hbatch := worked (hopened.step (.recordBatch sampleBatch)) rfl rfl rfl
  have hclosed := worked (hbatch.step (.closeStream ['a'] .succeeded 2 2)) rfl rfl rfl
  obtain ⟨hlifecycle, hdiscarded⟩ := isLifecycle_of_reachable samplePulse sampleConfig _ hclosed
  exact ⟨_, rfl, hlifecycle ['a'], hdiscarded⟩

end FluxTerm.Telemetry
