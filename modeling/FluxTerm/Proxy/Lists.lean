import FluxTerm.Lib.Mirror
import FluxTerm.Lib.Text
import FluxTerm.Proxy.Lifecycle

/-!
# FluxTerm — the lists of proxies and tunnels

What `useProxyState` and `useSshTunnelState` show beside what the backend has. Both handle the
events of the backend in order and take over whole lists that were read at other times. A list of
the hooks is seen here as the states of its ids.

* **`lists_converge`** — in runs that keep to it both lists are right in the end.
-/

namespace FluxTerm.Proxy

open FluxTerm.Lib

/-- `status === "stopped"`. -/
def ProxyStatus.gone : ProxyStatus → Bool
  | .stopped => true
  | _ => false

/-! ## Proxies -/

/-- `list` of a backend, handle by handle. -/
structure Reading (κ σ : Type) where
  remaining : List κ
  contents : κ → Option σ

structure ProxyWorld where
  /-- The status of each proxy that `open_proxy` has made. -/
  runtimes : Text → Option ProxyStatus
  /-- The keys of `proxies` of the backend. -/
  handles : List Text
  /-- The calls of `open` after `open_proxy` has begun. -/
  opening : List Text
  readings : List (Reading Text ProxyStatus)
  /-- The events, the answers of `proxy_list`, and `proxies` of the hook. -/
  mirror : Mirror Text ProxyStatus

inductive ProxyListEvent where
  /-- `open_proxy` makes a runtime. -/
  | began (id : Text)
  | bound (id : Text)
  | bindFailed (id : Text)
  /-- `open` keeps the handle and returns. -/
  | inserted (id : Text)
  /-- `open` drops a stale handle. -/
  | purged (id : Text)
  | stopping (id : Text)
  | stopped (id : Text)
  /-- `emit_proxy_update`. -/
  | emitted (id : Text)
  /-- `close` takes the handle. -/
  | closed (id : Text)
  | closedAll
  | listBegun
  | listRead (i : ℕ)
  | listAnswered (i : ℕ)
  | delivered
  /-- The hook gets the answer of `proxy_list`. -/
  | received (i : ℕ)

namespace ProxyWorld

def start : ProxyWorld := ⟨fun _ => none, [], [], [], .start⟩

def setStatus (w : ProxyWorld) (id : Text) (before after : ProxyStatus) : Option ProxyWorld :=
  if w.runtimes id = some before then
    some { w with runtimes := Function.update w.runtimes id (some after) }
  else none

def next (w : ProxyWorld) : ProxyListEvent → Option ProxyWorld
  | .began id =>
    -- the id is a new UUID
    if w.runtimes id = none ∧ w.mirror.last id = none then
      some { w with
        runtimes := Function.update w.runtimes id (some .starting)
        opening := w.opening ++ [id] }
    else none
  | .bound id =>
    if w.mirror.last id = some .starting then w.setStatus id .starting .running else none
  | .bindFailed id =>
    if w.mirror.last id = some .starting ∧ w.runtimes id = some .starting then
      some { w with
        runtimes := Function.update w.runtimes id none
        opening := w.opening.erase id }
    else none
  | .inserted id =>
    if id ∈ w.opening ∧ w.runtimes id ≠ some .starting then
      some { w with handles := w.handles ++ [id], opening := w.opening.erase id }
    else none
  | .purged id =>
    if w.runtimes id = some .stopped ∨ w.runtimes id = some .failed then
      some { w with handles := w.handles.erase id }
    else none
  | .stopping id => w.setStatus id .running .stopping
  | .stopped id => w.setStatus id .stopping .stopped
  | .emitted id =>
    (w.runtimes id).map fun status => { w with mirror := w.mirror.emit id status }
  | .closed id => if id ∈ w.handles then some { w with handles := w.handles.erase id } else none
  | .closedAll => some { w with handles := [] }
  | .listBegun => some { w with readings := w.readings ++ [⟨w.handles, fun _ => none⟩] }
  | .listRead i => do
    let reading ← w.readings[i]?
    match reading.remaining with
    | [] => none
    | id :: remaining =>
      some { w with
        readings := w.readings.set i
          ⟨remaining, Function.update reading.contents id (w.runtimes id)⟩ }
  | .listAnswered i => do
    let reading ← w.readings[i]?
    match reading.remaining with
    | [] =>
      some { w with
        readings := w.readings.eraseIdx i
        mirror := w.mirror.send ⟨fun _ => true, reading.contents⟩ }
    | _ :: _ => none
  | .delivered => (w.mirror.deliver ProxyStatus.gone).map fun mirror => { w with mirror := mirror }
  | .received i => (w.mirror.receive i).map fun mirror => { w with mirror := mirror }

end ProxyWorld

def proxyLists : Machine ProxyWorld ProxyListEvent := .ofStep .start ProxyWorld.next

/-! ## Tunnels -/

inductive SshTunnelStatus where
  | starting
  | running
  | stopping
  | stopped
  | failed
deriving DecidableEq

/-- `status === "stopped"`. -/
def SshTunnelStatus.gone : SshTunnelStatus → Bool
  | .stopped => true
  | _ => false

abbrev TunnelKey := Text × Text

structure TunnelWorld where
  runtimes : TunnelKey → Option SshTunnelStatus
  /-- The keys of `tunnel_handles` of all sessions. -/
  handles : List TunnelKey
  readings : List (Text × Reading TunnelKey SshTunnelStatus)
  /-- The events, the answers of calls, and `tunnelsBySession` of the hook. -/
  mirror : Mirror TunnelKey SshTunnelStatus

inductive TunnelEvent where
  /-- `TunnelOpen` succeeds; one that fails emits nothing. -/
  | opened (key : TunnelKey)
  | stopping (key : TunnelKey)
  | stopped (key : TunnelKey)
  /-- `emit_tunnel_update` for a connection. -/
  | updated (key : TunnelKey)
  | forwardFailed (key : TunnelKey)
  /-- `TunnelClose` has awaited the task. -/
  | closed (key : TunnelKey)
  | closedAll (sessionId : Text)
  | listBegun (sessionId : Text)
  | listRead (i : ℕ)
  | listAnswered (i : ℕ)
  | delivered
  | received (i : ℕ)

namespace TunnelWorld

def start : TunnelWorld := ⟨fun _ => none, [], [], .start⟩

def setStatus (w : TunnelWorld) (key : TunnelKey) (status : SshTunnelStatus) : TunnelWorld :=
  { w with
    runtimes := Function.update w.runtimes key (some status)
    mirror := w.mirror.emit key status }

def ofSession (sessionId : Text) (key : TunnelKey) : Bool := key.1 = sessionId

def next (w : TunnelWorld) : TunnelEvent → Option TunnelWorld
  | .opened key =>
    -- the id is a new UUID
    if w.runtimes key = none ∧ w.mirror.last key = none then
      some { w.setStatus key .running with handles := w.handles ++ [key] }
    else none
  | .stopping key =>
    if w.runtimes key = some .running then some (w.setStatus key .stopping) else none
  | .stopped key =>
    if w.runtimes key = some .running ∨ w.runtimes key = some .stopping then
      some (w.setStatus key .stopped)
    else none
  | .updated key =>
    (w.runtimes key).map fun status => { w with mirror := w.mirror.emit key status }
  | .forwardFailed key =>
    if w.runtimes key = some .running ∨ w.runtimes key = some .stopping then
      some { w with mirror := w.mirror.emit key .failed }
    else none
  | .closed key =>
    if key ∈ w.handles ∧ w.runtimes key = some .stopped then
      some { w with
        handles := w.handles.erase key
        mirror := w.mirror.send ⟨fun other => other = key, fun _ => none⟩ }
    else none
  | .closedAll sessionId =>
    if ∀ key ∈ w.handles, ofSession sessionId key = true → w.runtimes key = some .stopped then
      some { w with
        handles := w.handles.filter fun key => !ofSession sessionId key
        mirror := w.mirror.send ⟨ofSession sessionId, fun _ => none⟩ }
    else none
  | .listBegun sessionId =>
    some { w with
      readings := w.readings ++
        [(sessionId, ⟨w.handles.filter (ofSession sessionId), fun _ => none⟩)] }
  | .listRead i => do
    let (sessionId, reading) ← w.readings[i]?
    match reading.remaining with
    | [] => none
    | key :: remaining =>
      some { w with
        readings := w.readings.set i
          (sessionId, ⟨remaining, Function.update reading.contents key (w.runtimes key)⟩) }
  | .listAnswered i => do
    let (sessionId, reading) ← w.readings[i]?
    match reading.remaining with
    | [] =>
      some { w with
        readings := w.readings.eraseIdx i
        mirror := w.mirror.send ⟨ofSession sessionId, reading.contents⟩ }
    | _ :: _ => none
  | .delivered =>
    (w.mirror.deliver SshTunnelStatus.gone).map fun mirror => { w with mirror := mirror }
  | .received i => (w.mirror.receive i).map fun mirror => { w with mirror := mirror }

end TunnelWorld

def tunnelLists : Machine TunnelWorld TunnelEvent := .ofStep .start TunnelWorld.next

/-! ## What is wanted -/

/-- Once no call is in flight, every change of a status has been announced and every event handled,
the hook shows the proxies that are not stopped, with what was announced last. -/
def ProxiesConverge (w : ProxyWorld) : Prop :=
  w.opening = [] → w.readings = [] → w.mirror.queue = [] → w.mirror.answers = [] →
    (∀ id status, w.runtimes id = some status → w.mirror.last id = some status) →
    ∀ id, w.mirror.view id =
      if ∃ status, w.runtimes id = some status ∧ status ≠ .stopped then w.mirror.last id else none

/-- So does the other hook, for every session. -/
def TunnelsConverge (w : TunnelWorld) : Prop :=
  w.readings = [] → w.mirror.queue = [] → w.mirror.answers = [] →
    ∀ key, w.mirror.view key =
      if ∃ status, w.runtimes key = some status ∧ status ≠ .stopped then w.mirror.last key
      else none

/-! ## When it is so -/

def ProxyWorld.AtRest (w : ProxyWorld) (id : Text) : Prop :=
  ∀ status, w.runtimes id = some status → status ≠ .starting ∧ w.mirror.last id = some status

def ProxyInOrder (w : ProxyWorld) : ProxyListEvent → Prop
  | .bindFailed _ => False
  | .received i => w.mirror.Timely ProxyStatus.gone w.AtRest i
  | _ => True

def TunnelInOrder (w : TunnelWorld) : TunnelEvent → Prop
  | .received i => w.mirror.Timely SshTunnelStatus.gone (fun _ => True) i
  | _ => True

/-! ## Proxies in order -/

def ProxyStatus.rank : ProxyStatus → ℕ
  | .starting => 0
  | .running => 1
  | .stopping => 2
  | .stopped => 3
  | .failed => 4

structure ProxyKept (w : ProxyWorld) : Prop where
  mirror : w.mirror.Kept ProxyStatus.gone w.AtRest
  behind : ∀ id status, w.mirror.last id = some status →
    ∃ now, w.runtimes id = some now ∧ status.rank ≤ now.rank
  opening : ∀ id, w.runtimes id = some .starting → id ∈ w.opening

namespace ProxyKept

variable {w w' : ProxyWorld}

theorem setStatus (h : ProxyKept w) {id : Text} {before after : ProxyStatus}
    (hrank : before.rank < after.rank) (hstep : w.setStatus id before after = some w') :
    ProxyKept w' := by
  unfold ProxyWorld.setStatus at hstep
  split at hstep
  · rename_i hbefore
    cases hstep
    have hafter : after ≠ .starting := by
      rintro rfl
      exact Nat.not_lt_zero _ hrank
    refine ⟨h.mirror.imp fun other hrest status hstatus => ?_, fun other status hlast => ?_,
      fun other hother => ?_⟩
    · by_cases hid : other = id
      · -- what was announced of this one is behind
        subst hid
        have hannounced := (hrest after (Function.update_self ..)).2
        obtain ⟨now, hnow, hle⟩ := h.behind other after hannounced
        rw [hbefore] at hnow
        cases hnow
        exact absurd hle (Nat.not_le_of_lt hrank)
      · exact hrest status ((Function.update_of_ne hid _ _).trans hstatus)
    · obtain ⟨now, hnow, hle⟩ := h.behind other status hlast
      by_cases hid : other = id
      · subst hid
        rw [hbefore] at hnow
        cases hnow
        exact ⟨after, Function.update_self .., hle.trans (Nat.le_of_lt hrank)⟩
      · exact ⟨now, (Function.update_of_ne hid _ _).trans hnow, hle⟩
    · by_cases hid : other = id
      · subst hid
        have hself : Function.update w.runtimes other (some after) other = some after :=
          Function.update_self ..
        exact absurd (Option.some.inj (hself.symm.trans hother)) hafter
      · exact h.opening other ((Function.update_of_ne hid _ _).symm.trans hother)
  · cases hstep

theorem next {event : ProxyListEvent} (h : ProxyKept w) (horder : ProxyInOrder w event)
    (hstep : w.next event = some w') : ProxyKept w' := by
  cases event with
  | began id =>
    simp only [ProxyWorld.next] at hstep
    split at hstep
    · rename_i hfresh
      cases hstep
      refine ⟨h.mirror.imp fun other hrest status hstatus => ?_, fun other status hlast => ?_,
        fun other hother => ?_⟩
      · have hid : other ≠ id := by
          rintro rfl
          exact (hrest .starting (Function.update_self ..)).1 rfl
        exact hrest status ((Function.update_of_ne hid _ _).trans hstatus)
      · obtain ⟨now, hnow, hle⟩ := h.behind other status hlast
        have hid : other ≠ id := by
          rintro rfl
          rw [hfresh.1] at hnow
          cases hnow
        exact ⟨now, (Function.update_of_ne hid _ _).trans hnow, hle⟩
      · by_cases hid : other = id
        · exact List.mem_append_right _ (List.mem_singleton.mpr hid)
        · exact List.mem_append_left _
            (h.opening other ((Function.update_of_ne hid _ _).symm.trans hother))
    · cases hstep
  | bound id =>
    simp only [ProxyWorld.next] at hstep
    split at hstep
    · exact h.setStatus (by decide) hstep
    · cases hstep
  | bindFailed id => exact horder.elim
  | inserted id =>
    simp only [ProxyWorld.next] at hstep
    split at hstep
    · rename_i hready
      cases hstep
      refine ⟨h.mirror, h.behind, fun other hother => ?_⟩
      have hid : other ≠ id := by
        rintro rfl
        exact hready.2 hother
      exact (List.mem_erase_of_ne hid).mpr (h.opening other hother)
    · cases hstep
  | purged id =>
    simp only [ProxyWorld.next] at hstep
    split at hstep
    · cases hstep
      exact ⟨h.mirror, h.behind, h.opening⟩
    · cases hstep
  | stopping id => exact h.setStatus (by decide) hstep
  | stopped id => exact h.setStatus (by decide) hstep
  | emitted id =>
    obtain ⟨status, hstatus, rfl⟩ := Option.map_eq_some_iff.mp hstep
    refine ⟨h.mirror.emit fun other hid hrest now hnow => ?_, fun other announced hlast => ?_,
      h.opening⟩
    · obtain ⟨hstarted, hannounced⟩ := hrest now hnow
      exact ⟨hstarted, (Function.update_of_ne hid _ _).symm.trans hannounced⟩
    · by_cases hid : other = id
      · subst hid
        have hself : Function.update w.mirror.last other (some status) other = some status :=
          Function.update_self ..
        cases hself.symm.trans hlast
        exact ⟨status, hstatus, Nat.le_refl _⟩
      · exact h.behind other announced ((Function.update_of_ne hid _ _).symm.trans hlast)
  | closed id =>
    simp only [ProxyWorld.next] at hstep
    split at hstep
    · cases hstep
      exact ⟨h.mirror, h.behind, h.opening⟩
    · cases hstep
  | closedAll =>
    cases hstep
    exact ⟨h.mirror, h.behind, h.opening⟩
  | listBegun =>
    cases hstep
    exact ⟨h.mirror, h.behind, h.opening⟩
  | listRead i =>
    obtain ⟨reading, hreading, hstep⟩ := Option.bind_eq_some_iff.mp hstep
    split at hstep
    · cases hstep
    · cases hstep
      exact ⟨h.mirror, h.behind, h.opening⟩
  | listAnswered i =>
    obtain ⟨reading, hreading, hstep⟩ := Option.bind_eq_some_iff.mp hstep
    split at hstep
    · cases hstep
      exact ⟨h.mirror.send _, h.behind, h.opening⟩
    · cases hstep
  | delivered =>
    obtain ⟨mirror, hmirror, rfl⟩ := Option.map_eq_some_iff.mp hstep
    have hlast := Mirror.last_deliver hmirror
    refine ⟨?_, ?_, h.opening⟩
    · refine (h.mirror.deliver hmirror).imp fun other hrest status hstatus => ?_
      obtain ⟨hstarted, hannounced⟩ := hrest status hstatus
      exact ⟨hstarted, hlast ▸ hannounced⟩
    · intro other status hannounced
      exact h.behind other status (hlast ▸ hannounced)
  | received i =>
    obtain ⟨mirror, hmirror, rfl⟩ := Option.map_eq_some_iff.mp hstep
    have hlast := Mirror.last_receive hmirror
    refine ⟨?_, ?_, h.opening⟩
    · refine (h.mirror.receive horder hmirror).imp fun other hrest status hstatus => ?_
      obtain ⟨hstarted, hannounced⟩ := hrest status hstatus
      exact ⟨hstarted, hlast ▸ hannounced⟩
    · intro other status hannounced
      exact h.behind other status (hlast ▸ hannounced)

protected theorem start : ProxyKept .start :=
  ⟨⟨fun _ ⟨_, hs⟩ => absurd hs List.not_mem_nil, fun _ _ => .inr rfl⟩, nofun, nofun⟩

theorem converge (h : ProxyKept w) : ProxiesConverge w := by
  intro hopening _ hqueue hanswers hannounced id
  have hrest : w.AtRest id := by
    intro status hstatus
    refine ⟨?_, hannounced id status hstatus⟩
    rintro rfl
    have hmem := h.opening id hstatus
    rw [hopening] at hmem
    cases hmem
  rw [h.mirror.view_of_idle hqueue hanswers hrest]
  cases hruntime : w.runtimes id with
  | none =>
    have hlast : w.mirror.last id = none := by
      cases hlast : w.mirror.last id with
      | none => rfl
      | some status =>
        obtain ⟨now, hnow, -⟩ := h.behind id status hlast
        rw [hruntime] at hnow
        cases hnow
    rw [hlast, if_neg (by rintro ⟨status, ⟨⟩, -⟩)]
    rfl
  | some status =>
    rw [hannounced id status hruntime]
    by_cases hstopped : status = .stopped
    · rw [if_neg (by rintro ⟨other, ⟨⟩, hne⟩; exact hne hstopped), hstopped]
      rfl
    · rw [if_pos ⟨status, rfl, hstopped⟩]
      cases status <;> first | rfl | exact absurd rfl hstopped

end ProxyKept

/-! ## Tunnels in order -/

structure TunnelKept (w : TunnelWorld) : Prop where
  mirror : w.mirror.Kept SshTunnelStatus.gone fun _ => True
  announced : ∀ key, (w.mirror.last key = some .stopped ↔ w.runtimes key = some .stopped) ∧
    (w.mirror.last key = none ↔ w.runtimes key = none)

namespace TunnelKept

variable {w w' : TunnelWorld}

theorem emit (h : TunnelKept w) {key : TunnelKey} {status : SshTunnelStatus}
    {runtimes : TunnelKey → Option SshTunnelStatus} {handles : List TunnelKey}
    (hother : ∀ other, other ≠ key → runtimes other = w.runtimes other)
    (hthere : runtimes key ≠ none)
    (hstopped : status = .stopped ↔ runtimes key = some .stopped) :
    TunnelKept { w with
      runtimes := runtimes, handles := handles, mirror := w.mirror.emit key status } := by
  refine ⟨h.mirror.emit fun _ _ _ => trivial, fun other => ?_⟩
  by_cases hkey : other = key
  · subst hkey
    have hlast : (w.mirror.emit other status).last other = some status := Function.update_self ..
    dsimp only
    rw [hlast]
    refine ⟨?_, iff_of_false (Option.some_ne_none _) hthere⟩
    rw [Option.some_inj]
    exact hstopped
  · have hlast : (w.mirror.emit key status).last other = w.mirror.last other :=
      Function.update_of_ne hkey _ _
    dsimp only
    rw [hlast, hother other hkey]
    exact h.announced other

theorem setStatus (h : TunnelKept w) (key : TunnelKey) (status : SshTunnelStatus) :
    TunnelKept (w.setStatus key status) := by
  refine h.emit (fun other hkey => Function.update_of_ne hkey _ _) ?_ ?_
  · rw [Function.update_self]
    exact Option.some_ne_none _
  · rw [Function.update_self, Option.some_inj]

theorem next {event : TunnelEvent} (h : TunnelKept w) (horder : TunnelInOrder w event)
    (hstep : w.next event = some w') : TunnelKept w' := by
  cases event with
  | opened key =>
    simp only [TunnelWorld.next] at hstep
    split at hstep
    · cases hstep
      have hset := h.setStatus key .running
      exact ⟨hset.mirror, hset.announced⟩
    · cases hstep
  | stopping key =>
    simp only [TunnelWorld.next] at hstep
    split at hstep
    · cases hstep
      exact h.setStatus key .stopping
    · cases hstep
  | stopped key =>
    simp only [TunnelWorld.next] at hstep
    split at hstep
    · cases hstep
      exact h.setStatus key .stopped
    · cases hstep
  | updated key =>
    obtain ⟨status, hstatus, rfl⟩ := Option.map_eq_some_iff.mp hstep
    refine h.emit (fun _ _ => rfl) ?_ ?_
    · rw [hstatus]
      exact Option.some_ne_none _
    · rw [hstatus, Option.some_inj]
  | forwardFailed key =>
    simp only [TunnelWorld.next] at hstep
    split at hstep
    · rename_i hlive
      cases hstep
      refine h.emit (fun _ _ => rfl) ?_ ?_
      · rcases hlive with hlive | hlive <;> rw [hlive] <;> exact Option.some_ne_none _
      · rcases hlive with hlive | hlive <;> rw [hlive] <;> decide
    · cases hstep
  | closed key =>
    simp only [TunnelWorld.next] at hstep
    split at hstep
    · cases hstep
      exact ⟨h.mirror.send _, h.announced⟩
    · cases hstep
  | closedAll sessionId =>
    simp only [TunnelWorld.next] at hstep
    split at hstep
    · cases hstep
      exact ⟨h.mirror.send _, h.announced⟩
    · cases hstep
  | listBegun sessionId =>
    cases hstep
    exact ⟨h.mirror, h.announced⟩
  | listRead i =>
    obtain ⟨⟨sessionId, reading⟩, hreading, hstep⟩ := Option.bind_eq_some_iff.mp hstep
    dsimp only at hstep
    split at hstep
    · cases hstep
    · cases hstep
      exact ⟨h.mirror, h.announced⟩
  | listAnswered i =>
    obtain ⟨⟨sessionId, reading⟩, hreading, hstep⟩ := Option.bind_eq_some_iff.mp hstep
    dsimp only at hstep
    split at hstep
    · cases hstep
      exact ⟨h.mirror.send _, h.announced⟩
    · cases hstep
  | delivered =>
    obtain ⟨mirror, hmirror, rfl⟩ := Option.map_eq_some_iff.mp hstep
    refine ⟨h.mirror.deliver hmirror, fun key => ?_⟩
    dsimp only
    rw [Mirror.last_deliver hmirror]
    exact h.announced key
  | received i =>
    obtain ⟨mirror, hmirror, rfl⟩ := Option.map_eq_some_iff.mp hstep
    refine ⟨h.mirror.receive horder hmirror, fun key => ?_⟩
    dsimp only
    rw [Mirror.last_receive hmirror]
    exact h.announced key

protected theorem start : TunnelKept .start :=
  ⟨⟨fun _ ⟨_, hs⟩ => absurd hs List.not_mem_nil, fun _ _ => .inr rfl⟩, fun _ => ⟨Iff.rfl, Iff.rfl⟩⟩

theorem converge (h : TunnelKept w) : TunnelsConverge w := by
  intro _ hqueue hanswers key
  rw [h.mirror.view_of_idle hqueue hanswers trivial]
  obtain ⟨hstopped, hthere⟩ := h.announced key
  cases hlast : w.mirror.last key with
  | none => exact (ite_self _).symm
  | some status =>
    by_cases hgone : status = .stopped
    · have hruntime := hstopped.mp (by rw [hlast, hgone])
      rw [if_neg (by rintro ⟨now, hnow, hne⟩; rw [hruntime] at hnow; cases hnow; exact hne rfl),
        hgone]
      rfl
    · obtain ⟨now, hnow⟩ := Option.ne_none_iff_exists'.mp fun hnone => by
        rw [hthere.mpr hnone] at hlast
        cases hlast
      have hne : now ≠ .stopped := by
        rintro rfl
        have hboth := hstopped.mpr hnow
        rw [hlast, Option.some_inj] at hboth
        exact hgone hboth
      rw [if_pos ⟨now, hnow, hne⟩]
      cases status <;> first | rfl | exact absurd rfl hgone

end TunnelKept

/-- **Both lists converge** in runs in which no listener fails to bind and lists are timely. -/
theorem lists_converge (proxies : ProxyWorld) (tunnels : TunnelWorld) :
    ((proxyLists.restrict ProxyInOrder).Reachable proxies → ProxiesConverge proxies) ∧
      ((tunnelLists.restrict TunnelInOrder).Reachable tunnels → TunnelsConverge tunnels) := by
  refine ⟨fun h => ?_, fun h => ?_⟩
  · have hkept : ProxyKept proxies :=
      h.induct (fun _ hinit => by cases hinit; exact .start)
        fun _ _ _ _ hkept hstep => hkept.next hstep.1 hstep.2
    exact hkept.converge
  · have hkept : TunnelKept tunnels :=
      h.induct (fun _ hinit => by cases hinit; exact .start)
        fun _ _ _ _ hkept hstep => hkept.next hstep.1 hstep.2
    exact hkept.converge

/-! ## Sample runs -/

/-- A proxy and a tunnel are opened while nothing else goes on. -/
theorem lists_converge_opened :
    (∃ w : ProxyWorld, ProxiesConverge w ∧ w.mirror.view ['p'] = some .running) ∧
      ∃ w : TunnelWorld, TunnelsConverge w ∧
        w.mirror.view (['s'], ['t']) = some SshTunnelStatus.running := by
  constructor
  · have hstart : (proxyLists.restrict ProxyInOrder).Reachable .start := .init rfl
    have hannounced := ((hstart.step ⟨show ProxyInOrder _ (.began ['p']) from trivial, rfl⟩).step
      ⟨show ProxyInOrder _ (.emitted ['p']) from trivial, rfl⟩).step
      ⟨show ProxyInOrder _ .delivered from trivial, rfl⟩
    have hrunning := ((hannounced.step ⟨show ProxyInOrder _ (.bound ['p']) from trivial, rfl⟩).step
      ⟨show ProxyInOrder _ (.emitted ['p']) from trivial, rfl⟩).step
      ⟨show ProxyInOrder _ .delivered from trivial, rfl⟩
    have hopened := hrunning.step ⟨show ProxyInOrder _ (.inserted ['p']) from trivial, rfl⟩
    exact ⟨_, (lists_converge _ .start).1 hopened, rfl⟩
  · have hstart : (tunnelLists.restrict TunnelInOrder).Reachable .start := .init rfl
    have hopened := (hstart.step
      ⟨show TunnelInOrder _ (.opened (['s'], ['t'])) from trivial, rfl⟩).step
      ⟨show TunnelInOrder _ .delivered from trivial, rfl⟩
    exact ⟨_, (lists_converge .start _).2 hopened, rfl⟩

def phantomProxy : List ProxyListEvent :=
  [.began ['p'], .emitted ['p'], .delivered, .bindFailed ['p']]

def lostTunnel : List TunnelEvent :=
  [.listBegun ['s'], .listAnswered 0, .opened (['s'], ['t']), .delivered, .received 0]

/-- The proxy stays in the list, and the tunnel gets lost. -/
theorem phantomProxy_shown : ¬((∀ w, proxyLists.Reachable w → ProxiesConverge w) ∨
    ∀ w, tunnelLists.Reachable w → TunnelsConverge w) := by
  rintro (h | h)
  · have hrun : ∃ w, Machine.exec ProxyWorld.next .start phantomProxy = some w ∧
        w.opening = [] ∧ w.readings = [] ∧ w.mirror.queue = [] ∧ w.mirror.answers = [] ∧
        (∀ id, w.runtimes id = none) ∧ w.mirror.view ['p'] = some .starting := by
      refine ⟨_, rfl, rfl, rfl, rfl, rfl, fun id => ?_, rfl⟩
      by_cases hid : id = ['p']
      · rw [hid]
        rfl
      · exact (Function.update_of_ne hid _ _).trans (Function.update_of_ne hid _ _)
    obtain ⟨w, hexec, hopening, hreadings, hqueue, hanswers, hnone, hview⟩ := hrun
    have hconverge := h w (Machine.reachable_exec hexec) hopening hreadings hqueue hanswers
      (fun id status hstatus => by rw [hnone] at hstatus; cases hstatus) ['p']
    rw [hview, if_neg (by rintro ⟨status, hstatus, -⟩; rw [hnone] at hstatus; cases hstatus)]
      at hconverge
    cases hconverge
  · have hrun : ∃ w, Machine.exec TunnelWorld.next .start lostTunnel = some w ∧
        w.readings = [] ∧ w.mirror.queue = [] ∧ w.mirror.answers = [] ∧
        w.runtimes (['s'], ['t']) = some .running ∧
        w.mirror.last (['s'], ['t']) = some .running ∧
        w.mirror.view (['s'], ['t']) = none := ⟨_, rfl, rfl, rfl, rfl, rfl, rfl, rfl⟩
    obtain ⟨w, hexec, hreadings, hqueue, hanswers, hruntime, hlast, hview⟩ := hrun
    have hconverge := h w (Machine.reachable_exec hexec) hreadings hqueue hanswers
      (['s'], ['t'])
    rw [hview, hlast, if_pos ⟨_, hruntime, by decide⟩] at hconverge
    cases hconverge

end FluxTerm.Proxy
