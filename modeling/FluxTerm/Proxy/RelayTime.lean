import FluxTerm.Proxy.Lifecycle

/-!
# FluxTerm — a relay with its clock

`relay_with_timeouts` of `crates/engine/src/proxy.rs` with the bytes it carries and the deadlines of
its reads and writes. Time is counted in milliseconds.

* **`relay_sound`** — both halves; **`cut_of_unheard`** — a silent direction ends the relay.
-/

namespace FluxTerm.Proxy

open FluxTerm.Lib

/-- `READ_TIMEOUT_SEC`. -/
def readTimeout : ℕ := 120 * 1000

/-- `WRITE_TIMEOUT_SEC`. -/
def writeTimeout : ℕ := 30 * 1000

/-! ## One direction -/

structure TimedRelay where
  relay : Relay := {}
  since : ℕ := 0
  buffer : List UInt8 := []
  received : List UInt8 := []
  sent : List UInt8 := []

namespace TimedRelay

variable (t : TimedRelay) (now : ℕ)

def overdue : Bool :=
  match t.relay.phase with
  | .reading => t.since + readTimeout ≤ now
  | .writing _ _ => t.since + writeTimeout ≤ now
  | _ => false

/-- `read` returns; no bytes at the end of the stream. -/
def receive (bytes : List UInt8) : Option TimedRelay :=
  (t.relay.step (.read bytes.length)).map fun next =>
    { t with relay := next.1, since := now, buffer := bytes, received := t.received ++ bytes }

def step : RelayEvent → Option TimedRelay
  | .read _ => none
  | .failed timedOut =>
    if timedOut && !t.overdue now then none
    else (t.relay.step (.failed timedOut)).map fun next => { t with relay := next.1 }
  | .wrote count =>
    (t.relay.step (.wrote count)).map fun next =>
      { t with
        relay := next.1
        buffer := t.buffer.drop count
        sent := t.sent ++ t.buffer.take count }
  | .reported =>
    (t.relay.step .reported).map fun next => { t with relay := next.1, since := now }
  | .goesOn => (t.relay.step .goesOn).map fun next => { t with relay := next.1, since := now }
  | .flushed => (t.relay.step .flushed).map fun next => { t with relay := next.1 }

end TimedRelay

/-! ## Both directions -/

/-- Where `relay_with_timeouts` waits. -/
inductive SelectPhase where
  | selecting
  | awaiting (direction : TrafficDirection) (bytes : ℕ)
  | returned (result : Except String (ℕ × ℕ))

structure RelayPair where
  now : ℕ := 0
  lastRead : ℕ := 0
  tasks : TrafficDirection → TimedRelay := fun _ => {}
  phase : SelectPhase := .selecting

inductive PairEvent where
  | elapse (ms : ℕ)
  | receive (direction : TrafficDirection) (bytes : List UInt8)
  | relay (direction : TrafficDirection) (event : RelayEvent)
  /-- The `JoinHandle` of a direction is ready. -/
  | joined (direction : TrafficDirection)

namespace RelayPair

variable (p : RelayPair)

/-- The pair that is returned, the direction `direction` having ended last. -/
def pairOf (direction : TrafficDirection) (first last : ℕ) : ℕ × ℕ :=
  match direction with
  | .out => (last, first)
  | .into => (first, last)

def join (direction : TrafficDirection) : Option RelayPair :=
  match p.phase, (p.tasks direction).relay.phase with
  | .selecting, .done (.ok bytes) => some { p with phase := .awaiting direction.other bytes }
  | .selecting, .done (.error code) =>
    some
      { p with
        phase := .returned (.error code)
        tasks := Function.update p.tasks direction.other
          { p.tasks direction.other with relay := (p.tasks direction.other).relay.abort } }
  | .awaiting awaited bytes, .done result =>
    if awaited = direction then
      some { p with phase := .returned (result.map (pairOf direction bytes)) }
    else none
  | _, _ => none

def step : PairEvent → Option RelayPair
  | .elapse ms => some { p with now := p.now + ms }
  | .receive direction bytes =>
    ((p.tasks direction).receive p.now bytes).map fun t =>
      { p with
        tasks := Function.update p.tasks direction t
        lastRead := if bytes = [] then p.lastRead else p.now }
  | .relay direction event =>
    ((p.tasks direction).step p.now event).map fun t =>
      { p with tasks := Function.update p.tasks direction t }
  | .joined direction => p.join direction

end RelayPair

def relayPair : Machine RelayPair PairEvent := .ofStep {} RelayPair.step

/-! ## What is wanted -/

/-- Neither endpoint fails or closes, writes are in time, and one of the endpoints is heard before
`READ_TIMEOUT_SEC` has passed since one was heard last. -/
def BusyPair (p : RelayPair) : PairEvent → Prop
  | .elapse ms => p.now + ms < p.lastRead + readTimeout
  | .receive _ bytes => bytes ≠ []
  | .relay direction (.failed timedOut) =>
    timedOut = true ∧ (p.tasks direction).relay.phase = .reading
  | _ => True

/-- A direction that reads is not left without bytes for `READ_TIMEOUT_SEC`. -/
def BothHeard (p : RelayPair) : PairEvent → Prop
  | .elapse ms => ∀ direction, (p.tasks direction).relay.phase = .reading →
    p.now + ms < (p.tasks direction).since + readTimeout
  | _ => True

/-- The relay has not returned, and neither direction is aborted. -/
structure Uncut (p : RelayPair) : Prop where
  selecting : p.phase = .selecting
  live : ∀ direction, (p.tasks direction).relay.live = true

def RelayPair.Ended (p : RelayPair) (direction : TrafficDirection) : Prop :=
  ∃ bytes, (p.tasks direction).relay.phase = .done (.ok bytes)

/-- What holds when both streams have ended without errors. -/
structure FaithfulPair (p : RelayPair) : Prop where
  whole : ∀ direction, p.Ended direction →
    (p.tasks direction).sent = (p.tasks direction).received
  returns : (∀ direction, p.Ended direction) →
    (∃ pair, p.phase = .returned (.ok pair)) ∨ ∃ direction, (p.join direction).isSome = true
  counts : ∀ pair, p.phase = .returned (.ok pair) →
    (∀ direction, p.Ended direction) ∧
      ((∀ direction, (p.tasks direction).received.length < 2 ^ 64) →
        pair = ((p.tasks .out).received.length, (p.tasks .into).received.length))

/-! ## The bytes -/

/-- A count of bytes as a `u64` that stops at its end. -/
def capped (n : ℕ) : ℕ := min n (2 ^ 64 - 1)

theorem saturatingAdd_capped (a b : ℕ) : saturatingAdd (capped a) b = capped (a + b) := by
  unfold saturatingAdd capped
  omega

/-- What a direction keeps of its bytes. -/
def TimedRelay.Kept (t : TimedRelay) : Prop :=
  match t.relay.phase with
  | .reading | .wrote => t.received = t.sent ∧ t.relay.total = capped t.sent.length
  | .writing left delta =>
    t.received = t.sent ++ t.buffer ∧ t.buffer.length = left ∧ delta ≤ t.received.length ∧
      t.relay.total = capped (t.received.length - delta)
  | .flushing (.ok bytes) | .done (.ok bytes) =>
    t.received = t.sent ∧ bytes = capped t.sent.length
  | .flushing (.error _) | .done (.error _) => True

namespace TimedRelay

variable {t t' : TimedRelay} {now : ℕ}

theorem Kept.receive {bytes : List UInt8} (h : t.Kept) (hstep : t.receive now bytes = some t') :
    t'.Kept := by
  obtain ⟨⟨r, traffic⟩, hr, rfl⟩ := Option.map_eq_some_iff.mp hstep
  have hphase : t.relay.phase = .reading := Relay.phase_of_step hr
  simp only [Kept, hphase] at h
  simp only [Relay.step, hphase] at hr
  split at hr
  · rename_i hzero
    cases hr
    rw [List.length_eq_zero_iff] at hzero
    subst hzero
    simp only [Kept, List.append_nil]
    exact h
  · split at hr
    · cases hr
      simp only [Kept]
      refine ⟨by rw [h.1], trivial, by simp, ?_⟩
      rw [List.length_append, Nat.add_sub_cancel, h.2, h.1]
    · cases hr

theorem Kept.wrote {count : ℕ} (h : t.Kept) (hstep : t.step now (.wrote count) = some t') :
    t'.Kept := by
  obtain ⟨⟨r, traffic⟩, hr, rfl⟩ := Option.map_eq_some_iff.mp hstep
  obtain ⟨left, delta, hphase⟩ := Relay.phase_of_step hr
  simp only [Kept, hphase] at h
  obtain ⟨hreceived, hleft, hdelta, htotal⟩ := h
  simp only [Relay.step, hphase] at hr
  split at hr
  · cases hr
  rename_i hcount
  rw [Bool.or_eq_true, not_or, decide_eq_true_eq, decide_eq_true_eq] at hcount
  split at hr
  · cases hr
    simp only [Kept]
    refine ⟨?_, by rw [List.length_drop, hleft], hdelta, htotal⟩
    rw [List.append_assoc, List.take_append_drop, hreceived]
  · cases hr
    have hall : t.buffer.take count = t.buffer := List.take_of_length_le (by omega)
    simp only [Kept]
    rw [hall, ← hreceived]
    refine ⟨rfl, ?_⟩
    rw [htotal, saturatingAdd_capped, Nat.sub_add_cancel hdelta]

theorem Kept.step {event : RelayEvent} (h : t.Kept) (hstep : t.step now event = some t') :
    t'.Kept := by
  cases event with
  | read count => cases hstep
  | failed timedOut =>
    simp only [TimedRelay.step] at hstep
    split at hstep
    · cases hstep
    obtain ⟨⟨r, traffic⟩, hr, rfl⟩ := Option.map_eq_some_iff.mp hstep
    rcases Relay.phase_of_step hr with hphase | ⟨left, delta, hphase⟩
    · simp only [Relay.step, hphase, Option.some.injEq, Prod.mk.injEq] at hr
      rw [← hr.1]
      trivial
    · simp only [Relay.step, hphase, Option.some.injEq, Prod.mk.injEq] at hr
      rw [← hr.1]
      trivial
  | wrote count => exact h.wrote hstep
  | reported =>
    obtain ⟨⟨r, traffic⟩, hr, rfl⟩ := Option.map_eq_some_iff.mp hstep
    have hphase : t.relay.phase = .wrote := Relay.phase_of_step hr
    simp only [Kept, hphase] at h
    simp only [Relay.step, hphase] at hr
    split at hr
    · cases hr
      exact h
    · cases hr
  | goesOn =>
    obtain ⟨⟨r, traffic⟩, hr, rfl⟩ := Option.map_eq_some_iff.mp hstep
    have hphase : t.relay.phase = .wrote := Relay.phase_of_step hr
    simp only [Kept, hphase] at h
    simp only [Relay.step, hphase, Option.some.injEq, Prod.mk.injEq] at hr
    rw [← hr.1]
    exact h
  | flushed =>
    obtain ⟨⟨r, traffic⟩, hr, rfl⟩ := Option.map_eq_some_iff.mp hstep
    obtain ⟨result, hphase⟩ := Relay.phase_of_step hr
    simp only [Kept, hphase] at h
    simp only [Relay.step, hphase, Option.some.injEq, Prod.mk.injEq] at hr
    rw [← hr.1]
    cases result with
    | ok bytes => exact h
    | error code => trivial

theorem Kept.abort (h : t.Kept) : Kept { t with relay := t.relay.abort } := by
  unfold Relay.abort
  split
  · trivial
  · exact h

theorem step_done {event : RelayEvent} {result : Except String ℕ}
    (hdone : t.relay.phase = .done result) : t.step now event = none := by
  cases hstep : t.step now event with
  | none => rfl
  | some t' =>
    cases event with
    | read count => cases hstep
    | failed timedOut =>
      simp only [TimedRelay.step] at hstep
      split at hstep
      · cases hstep
      · simp [Relay.step, hdone] at hstep
    | wrote count => simp [TimedRelay.step, Relay.step, hdone] at hstep
    | reported => simp [TimedRelay.step, Relay.step, hdone] at hstep
    | goesOn => simp [TimedRelay.step, Relay.step, hdone] at hstep
    | flushed => simp [TimedRelay.step, Relay.step, hdone] at hstep

theorem receive_done {bytes : List UInt8} {result : Except String ℕ}
    (hdone : t.relay.phase = .done result) : t.receive now bytes = none := by
  simp [receive, Relay.step, hdone]

end TimedRelay

/-! ## The pair -/

/-- What is kept in every run. -/
structure PairKept (p : RelayPair) : Prop where
  tasks : ∀ direction, (p.tasks direction).Kept
  phase : match p.phase with
    | .selecting => True
    | .awaiting direction bytes => (p.tasks direction.other).relay.phase = .done (.ok bytes)
    | .returned (.ok pair) => (p.tasks .out).relay.phase = .done (.ok pair.1) ∧
        (p.tasks .into).relay.phase = .done (.ok pair.2)
    | .returned (.error _) =>
      ∃ direction code, (p.tasks direction).relay.phase = .done (.error code)

namespace PairKept

variable {p : RelayPair}

theorem update (h : PairKept p) {direction : TrafficDirection} {t : TimedRelay} {lastRead : ℕ}
    (ht : t.Kept) (hlive : ∀ result, (p.tasks direction).relay.phase ≠ .done result) :
    PairKept { p with tasks := Function.update p.tasks direction t, lastRead := lastRead } where
  tasks other := by
    by_cases hother : other = direction
    · subst hother
      simp only [Function.update_self]
      exact ht
    · simp only [Function.update_of_ne hother]
      exact h.tasks other
  phase := by
    have hkept : ∀ {other : TrafficDirection} {result : Except String ℕ},
        (p.tasks other).relay.phase = .done result →
        (Function.update p.tasks direction t other).relay.phase = .done result := by
      intro other result hdone
      have hne : other ≠ direction := by
        rintro rfl
        exact hlive result hdone
      rw [Function.update_of_ne hne, hdone]
    have hphase := h.phase
    dsimp only
    cases hp : p.phase with
    | selecting => trivial
    | awaiting awaited bytes =>
      rw [hp] at hphase
      exact hkept hphase
    | returned result =>
      rw [hp] at hphase
      cases result with
      | ok pair => exact ⟨hkept hphase.1, hkept hphase.2⟩
      | error code =>
        obtain ⟨other, code', hdone⟩ := hphase
        exact ⟨other, code', hkept hdone⟩

theorem join {p' : RelayPair} {direction : TrafficDirection} (h : PairKept p)
    (hstep : p.join direction = some p') : PairKept p' := by
  unfold RelayPair.join at hstep
  have hphase := h.phase
  split at hstep
  · rename_i bytes hselecting hdone
    cases hstep
    refine ⟨h.tasks, ?_⟩
    cases direction <;> exact hdone
  · rename_i code hselecting hdone
    cases hstep
    refine ⟨fun other => ?_, direction, code, ?_⟩
    · by_cases hother : other = direction.other
      · subst hother
        simp only [Function.update_self]
        exact (h.tasks _).abort
      · simp only [Function.update_of_ne hother]
        exact h.tasks other
    · have hne : direction ≠ direction.other := by cases direction <;> decide
      dsimp only
      rw [Function.update_of_ne hne, hdone]
  · rename_i awaited bytes result hawaiting hdone
    split at hstep
    · rename_i heq
      subst heq
      cases hstep
      rw [hawaiting] at hphase
      refine ⟨h.tasks, ?_⟩
      cases result with
      | error code => exact ⟨awaited, code, hdone⟩
      | ok last =>
        cases awaited with
        | out => exact ⟨hdone, hphase⟩
        | into => exact ⟨hphase, hdone⟩
    · cases hstep
  · cases hstep

theorem next {p' : RelayPair} {event : PairEvent} (h : PairKept p)
    (hstep : p.step event = some p') : PairKept p' := by
  cases event with
  | elapse ms =>
    cases hstep
    exact ⟨h.tasks, h.phase⟩
  | receive direction bytes =>
    obtain ⟨t, ht, rfl⟩ := Option.map_eq_some_iff.mp hstep
    refine h.update ((h.tasks direction).receive ht) fun result hdone => ?_
    rw [TimedRelay.receive_done hdone] at ht
    cases ht
  | relay direction event =>
    obtain ⟨t, ht, rfl⟩ := Option.map_eq_some_iff.mp hstep
    refine h.update ((h.tasks direction).step ht) fun result hdone => ?_
    rw [TimedRelay.step_done hdone] at ht
    cases ht
  | joined direction => exact h.join hstep

theorem of_reachable (h : relayPair.Reachable p) : PairKept p := by
  refine h.induct (fun p hinit => ?_) fun _ _ _ _ hkept hstep => hkept.next hstep
  cases hinit
  exact ⟨fun _ => ⟨rfl, rfl⟩, trivial⟩

theorem ended (h : PairKept p) {direction : TrafficDirection} {bytes : ℕ}
    (hdone : (p.tasks direction).relay.phase = .done (.ok bytes)) :
    (p.tasks direction).received = (p.tasks direction).sent ∧
      bytes = capped (p.tasks direction).received.length := by
  have hkept := h.tasks direction
  unfold TimedRelay.Kept at hkept
  rw [hdone] at hkept
  exact ⟨hkept.1, by rw [hkept.1]; exact hkept.2⟩

theorem faithful (h : PairKept p) : FaithfulPair p where
  whole direction := by
    rintro ⟨bytes, hdone⟩
    exact (h.ended hdone).1.symm
  returns hended := by
    have hphase := h.phase
    cases hp : p.phase with
    | selecting =>
      obtain ⟨bytes, hdone⟩ := hended .out
      exact .inr ⟨.out, by simp [RelayPair.join, hp, hdone]⟩
    | awaiting awaited bytes =>
      obtain ⟨last, hdone⟩ := hended awaited
      exact .inr ⟨awaited, by simp [RelayPair.join, hp, hdone]⟩
    | returned result =>
      cases result with
      | ok pair => exact .inl ⟨pair, rfl⟩
      | error code =>
        rw [hp] at hphase
        obtain ⟨direction, code', herror⟩ := hphase
        obtain ⟨bytes, hdone⟩ := hended direction
        rw [herror] at hdone
        cases hdone
  counts pair hreturned := by
    have hphase := h.phase
    rw [hreturned] at hphase
    refine ⟨fun direction => ?_, fun hlength => ?_⟩
    · cases direction with
      | out => exact ⟨_, hphase.1⟩
      | into => exact ⟨_, hphase.2⟩
    · have hout := (h.ended hphase.1).2
      have hinto := (h.ended hphase.2).2
      have hcap : ∀ {n : ℕ}, n < 2 ^ 64 → capped n = n := fun hn => by unfold capped; omega
      rw [hcap (hlength _)] at hout hinto
      exact Prod.ext hout hinto

end PairKept

/-! ## A busy relay -/

/-- Both directions run, and no read has come to its deadline. -/
structure Heard (p : RelayPair) : Prop where
  selecting : p.phase = .selecting
  running : ∀ direction, (p.tasks direction).relay.phase = .wrote ∨
    (∃ left delta, (p.tasks direction).relay.phase = .writing left delta) ∨
    (p.tasks direction).relay.phase = .reading ∧ p.now < (p.tasks direction).since + readTimeout

namespace Heard

variable {p : RelayPair}

theorem uncut (h : Heard p) : Uncut p := by
  refine ⟨h.selecting, fun direction => ?_⟩
  unfold Relay.live
  rcases h.running direction with hphase | ⟨left, delta, hphase⟩ | ⟨hphase, -⟩
  · rw [hphase]
  · rw [hphase]
  · rw [hphase]

theorem update (h : Heard p) {direction : TrafficDirection} {t : TimedRelay} {lastRead : ℕ}
    (ht : t.relay.phase = .wrote ∨ (∃ left delta, t.relay.phase = .writing left delta) ∨
      t.relay.phase = .reading ∧ t.since = p.now) :
    Heard { p with tasks := Function.update p.tasks direction t, lastRead := lastRead } := by
  refine ⟨h.selecting, fun other => ?_⟩
  by_cases hother : other = direction
  · subst hother
    simp only [Function.update_self]
    refine ht.imp_right (Or.imp_right fun hreading => ⟨hreading.1, ?_⟩)
    rw [hreading.2]
    exact Nat.lt_add_of_pos_right (by decide)
  · simp only [Function.update_of_ne hother]
    exact h.running other

theorem next {p' : RelayPair} {event : PairEvent} (h : Heard p) (hbusy : BusyPair p event)
    (hheard : BothHeard p event) (hstep : p.step event = some p') : Heard p' := by
  cases event with
  | elapse ms =>
    cases hstep
    exact ⟨h.selecting, fun direction => (h.running direction).imp_right
      (Or.imp_right fun hreading => ⟨hreading.1, hheard direction hreading.1⟩)⟩
  | receive direction bytes =>
    obtain ⟨t, ht, rfl⟩ := Option.map_eq_some_iff.mp hstep
    refine h.update (.inr (.inl ?_))
    obtain ⟨⟨r, traffic⟩, hr, rfl⟩ := Option.map_eq_some_iff.mp ht
    have hphase : (p.tasks direction).relay.phase = .reading := Relay.phase_of_step hr
    have hlength : bytes.length ≠ 0 := fun hzero => hbusy (List.length_eq_zero_iff.mp hzero)
    simp only [Relay.step, hphase, if_neg hlength] at hr
    split at hr
    · cases hr
      exact ⟨_, _, rfl⟩
    · cases hr
  | relay direction event =>
    obtain ⟨t, ht, rfl⟩ := Option.map_eq_some_iff.mp hstep
    refine h.update ?_
    cases event with
    | read count => cases ht
    | failed timedOut =>
      -- only a read may time out, and none is overdue
      obtain ⟨rfl, hphase⟩ := hbusy
      have hdue : (p.tasks direction).overdue p.now = false := by
        rcases h.running direction with hw | ⟨left, delta, hw⟩ | ⟨-, hlt⟩
        · rw [hphase] at hw
          cases hw
        · rw [hphase] at hw
          cases hw
        · simp only [TimedRelay.overdue, hphase, decide_eq_false_iff_not]
          exact Nat.not_le_of_lt hlt
      simp [TimedRelay.step, hdue] at ht
    | wrote count =>
      obtain ⟨⟨r, traffic⟩, hr, rfl⟩ := Option.map_eq_some_iff.mp ht
      obtain ⟨left, delta, hphase⟩ := Relay.phase_of_step hr
      simp only [Relay.step, hphase] at hr
      split at hr
      · cases hr
      · split at hr
        · cases hr
          exact .inr (.inl ⟨_, _, rfl⟩)
        · cases hr
          exact .inl rfl
    | reported =>
      obtain ⟨⟨r, traffic⟩, hr, rfl⟩ := Option.map_eq_some_iff.mp ht
      have hphase : (p.tasks direction).relay.phase = .wrote := Relay.phase_of_step hr
      simp only [Relay.step, hphase] at hr
      split at hr
      · cases hr
        exact .inr (.inr ⟨rfl, rfl⟩)
      · cases hr
    | goesOn =>
      obtain ⟨⟨r, traffic⟩, hr, rfl⟩ := Option.map_eq_some_iff.mp ht
      have hphase : (p.tasks direction).relay.phase = .wrote := Relay.phase_of_step hr
      simp only [Relay.step, hphase, Option.some.injEq, Prod.mk.injEq] at hr
      refine .inr (.inr ⟨?_, rfl⟩)
      rw [← hr.1]
    | flushed =>
      obtain ⟨⟨r, traffic⟩, hr, rfl⟩ := Option.map_eq_some_iff.mp ht
      obtain ⟨result, hflushing⟩ := Relay.phase_of_step hr
      rcases h.running direction with hphase | ⟨left, delta, hphase⟩ | ⟨hphase, -⟩
      all_goals
        rw [hflushing] at hphase
        cases hphase
  | joined direction =>
    have hlive := h.uncut.live direction
    simp only [RelayPair.step, RelayPair.join, h.selecting] at hstep
    cases hphase : (p.tasks direction).relay.phase with
    | done result =>
      rw [Relay.live, hphase] at hlive
      cases hlive
    | reading => simp [hphase] at hstep
    | writing left delta => simp [hphase] at hstep
    | wrote => simp [hphase] at hstep
    | flushing result => simp [hphase] at hstep

end Heard

/-- **A busy relay is not cut**, when both endpoints are heard in time; and two streams that end
without errors give every byte and the right numbers. -/
theorem relay_sound (p : RelayPair) :
    ((relayPair.restrict fun p event => BusyPair p event ∧ BothHeard p event).Reachable p →
      Uncut p) ∧
      (relayPair.Reachable p → FaithfulPair p) := by
  refine ⟨fun h => ?_, fun h => (PairKept.of_reachable h).faithful⟩
  have hheard : Heard p := by
    refine h.induct (fun p hinit => ?_) fun _ _ _ _ hheard hstep =>
      hheard.next hstep.1.1 hstep.1.2 hstep.2
    cases hinit
    exact ⟨rfl, fun _ => .inr (.inr ⟨rfl, show 0 < 0 + readTimeout by decide⟩)⟩
  exact hheard.uncut

/-- A direction that has waited for its deadline can end the relay, whatever the other one does. -/
theorem cut_of_unheard {p : RelayPair} {direction : TrafficDirection}
    (hphase : p.phase = .selecting) (hreading : (p.tasks direction).relay.phase = .reading)
    (hdue : (p.tasks direction).since + readTimeout ≤ p.now) :
    ∃ p', Machine.exec RelayPair.step p
        [.relay direction (.failed true), .relay direction .flushed, .joined direction] = some p' ∧
      p'.phase = .returned (.error proxyIoReadTimeoutCode) ∧
      (p'.tasks direction.other).relay.live = false := by
  have hoverdue : (p.tasks direction).overdue p.now = true := by
    simp only [TimedRelay.overdue, hreading, decide_eq_true_eq]
    exact hdue
  have hfailed : ∃ p₁, p.step (.relay direction (.failed true)) = some p₁ ∧
      p₁.phase = .selecting ∧
      (p₁.tasks direction).relay.phase = .flushing (.error proxyIoReadTimeoutCode) := by
    refine ⟨{ p with tasks := Function.update p.tasks direction { p.tasks direction with relay :=
      { (p.tasks direction).relay with phase := .flushing (.error proxyIoReadTimeoutCode) } } },
      ?_, hphase, ?_⟩
    · simp only [RelayPair.step, TimedRelay.step, hoverdue, Relay.step, hreading]
      rfl
    · simp only [Function.update_self]
  obtain ⟨p₁, hstep₁, hphase₁, hflushing⟩ := hfailed
  have hflushed : ∃ p₂, p₁.step (.relay direction .flushed) = some p₂ ∧
      p₂.phase = .selecting ∧
      (p₂.tasks direction).relay.phase = .done (.error proxyIoReadTimeoutCode) := by
    refine ⟨{ p₁ with tasks := Function.update p₁.tasks direction { p₁.tasks direction with relay :=
      { (p₁.tasks direction).relay with phase := .done (.error proxyIoReadTimeoutCode) } } },
      ?_, hphase₁, ?_⟩
    · simp only [RelayPair.step, TimedRelay.step, Relay.step, hflushing]
      rfl
    · simp only [Function.update_self]
  obtain ⟨p₂, hstep₂, hphase₂, hdone⟩ := hflushed
  have hjoined : ∃ p₃, p₂.step (.joined direction) = some p₃ ∧
      p₃.phase = .returned (.error proxyIoReadTimeoutCode) ∧
      (p₃.tasks direction.other).relay.live = false := by
    refine ⟨{ p₂ with
      phase := .returned (.error proxyIoReadTimeoutCode)
      tasks := Function.update p₂.tasks direction.other
        { p₂.tasks direction.other with relay := (p₂.tasks direction.other).relay.abort } },
      ?_, rfl, ?_⟩
    · simp only [RelayPair.step, RelayPair.join, hphase₂, hdone]
    · simp only [Function.update_self]
      exact Relay.live_abort _
  obtain ⟨p₃, hstep₃, hreturned, haborted⟩ := hjoined
  refine ⟨p₃, ?_, hreturned, haborted⟩
  simp only [Machine.exec, hstep₁, hstep₂, hstep₃, Option.bind_some]

/-! ## Sample runs -/

/-- The client asks once, the server is heard every 100 seconds: the silence of the client cuts the
download off. -/
theorem download_cut : ¬∀ p : RelayPair, (relayPair.restrict BusyPair).Reachable p → Uncut p := by
  intro h
  have hstart : (relayPair.restrict BusyPair).Reachable {} := .init rfl
  have hasked := (((hstart.step ⟨show BusyPair _ (.receive .out [71]) from nofun, rfl⟩).step
    ⟨show BusyPair _ (.relay .out (.wrote 1)) from trivial, rfl⟩).step
    ⟨show BusyPair _ (.relay .out .goesOn) from trivial, rfl⟩).step
    ⟨show BusyPair _ (.elapse 100000) from show 0 + 100000 < 0 + readTimeout by decide, rfl⟩
  have hheard := (((hasked.step ⟨show BusyPair _ (.receive .into [1, 2]) from nofun, rfl⟩).step
    ⟨show BusyPair _ (.relay .into (.wrote 2)) from trivial, rfl⟩).step
    ⟨show BusyPair _ (.relay .into .goesOn) from trivial, rfl⟩).step
    ⟨show BusyPair _ (.elapse 20000) from
      show 100000 + 20000 < 100000 + readTimeout by decide, rfl⟩
  have hcut := ((hheard.step
    ⟨show BusyPair _ (.relay .out (.failed true)) from ⟨rfl, rfl⟩, rfl⟩).step
    ⟨show BusyPair _ (.relay .out .flushed) from trivial, rfl⟩).step
    ⟨show BusyPair _ (.joined .out) from trivial, rfl⟩
  cases (h _ hcut).selecting

def exchange : List PairEvent :=
  [.receive .out [71, 69], .relay .out (.wrote 1), .relay .out (.wrote 1), .relay .out .goesOn,
    .receive .into [1], .relay .into (.wrote 1), .relay .into .goesOn, .receive .into [],
    .relay .into .flushed, .joined .into, .receive .out [], .relay .out .flushed, .joined .out]

theorem relay_sound_exchange :
    (∃ p : RelayPair, Uncut p ∧ (p.tasks .out).received = [71]) ∧
      ∃ p : RelayPair, FaithfulPair p ∧ p.phase = .returned (.ok (2, 1)) := by
  constructor
  · have hstart : (relayPair.restrict fun p event => BusyPair p event ∧ BothHeard p event).Reachable
        {} := .init rfl
    have hheard := hstart.step
      ⟨show BusyPair _ (.receive .out [71]) ∧ BothHeard _ (.receive .out [71]) from
        ⟨nofun, trivial⟩, rfl⟩
    exact ⟨_, (relay_sound _).1 hheard, rfl⟩
  · have hexec : Machine.exec RelayPair.step {} exchange =
        some ((Machine.exec RelayPair.step {} exchange).get rfl) := rfl
    exact ⟨_, (relay_sound _).2 (Machine.reachable_exec hexec), rfl⟩

end FluxTerm.Proxy
