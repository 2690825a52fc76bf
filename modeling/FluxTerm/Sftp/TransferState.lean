import FluxTerm.Sftp.Progress

/-!
# FluxTerm — the running transfers of the user interface

`src/features/sftp/core/transferState.ts`: the transfers that are running, by session and transfer.
-/

namespace FluxTerm.Sftp

open FluxTerm.Lib

structure RunningSftpTransfer where
  progress : SftpProgress
  startedAt : ℕ
deriving DecidableEq

/-- `RunningSftpTransfers`. The key is the JSON text of the pair. -/
abbrev RunningSftpTransfers := Text × Text → Option RunningSftpTransfer

def getSftpTransferKey (sessionId transferId : Text) : Text × Text := (sessionId, transferId)

def SftpProgress.transferKey (progress : SftpProgress) : Text × Text :=
  getSftpTransferKey progress.sessionId progress.transferId

def SftpConnectionIdentity.transferKey (identity : SftpConnectionIdentity) : Text × Text :=
  getSftpTransferKey identity.sessionId identity.transferId

def syncRunningSftpTransfer (previous : RunningSftpTransfers) (progress : SftpProgress)
    (now : ℕ) : RunningSftpTransfers :=
  let transferKey := progress.transferKey
  if progress.status ≠ .running then Function.update previous transferKey none
  else
    let startedAt := ((previous transferKey).map RunningSftpTransfer.startedAt).getD now
    Function.update previous transferKey (some ⟨progress, startedAt⟩)

def syncAll (previous : RunningSftpTransfers) (trace : List (SftpProgress × ℕ)) :
    RunningSftpTransfers :=
  trace.foldl (fun transfers event => syncRunningSftpTransfer transfers event.1 event.2) previous

/-! ## Lemmas -/

variable {identity : SftpConnectionIdentity} {progress : SftpProgress}
  {previous : RunningSftpTransfers} {trace : List (SftpProgress × ℕ)}

instance (progress : SftpProgress) : Decidable (progress.IsOf identity) :=
  inferInstanceAs (Decidable (_ ∧ _))

theorem transferKey_eq_iff : progress.transferKey = identity.transferKey ↔
    progress.IsOf identity := Prod.mk_inj

theorem sync_of_not_isOf (h : ¬progress.IsOf identity) (now : ℕ) :
    syncRunningSftpTransfer previous progress now identity.transferKey =
      previous identity.transferKey := by
  have hne : identity.transferKey ≠ progress.transferKey :=
    fun hkey => h (transferKey_eq_iff.mp hkey.symm)
  unfold syncRunningSftpTransfer
  split <;> exact Function.update_of_ne hne _ _

theorem sync_of_isFinal (h : progress.IsOf identity) (hfinal : progress.status ≠ .running)
    (now : ℕ) : syncRunningSftpTransfer previous progress now identity.transferKey = none := by
  unfold syncRunningSftpTransfer
  rw [if_pos hfinal, ← transferKey_eq_iff.mpr h]
  exact Function.update_self ..

theorem syncAll_append (trace : List (SftpProgress × ℕ)) (event : SftpProgress × ℕ) :
    syncAll previous (trace ++ [event]) =
      syncRunningSftpTransfer (syncAll previous trace) event.1 event.2 := by
  unfold syncAll
  rw [List.foldl_append]
  rfl

def eventsOf (identity : SftpConnectionIdentity) (trace : List (SftpProgress × ℕ)) :
    List SftpProgress := (trace.map Prod.fst).filter fun progress => progress.IsOf identity

theorem syncAll_eq_none {reports : List SftpProgress} {last : SftpProgress}
    (htrace : eventsOf identity trace = reports ++ [last]) (hlast : last.status ≠ .running) :
    syncAll previous trace identity.transferKey = none := by
  induction trace using List.reverseRecOn with
  | nil => exact absurd htrace.symm (List.append_ne_nil_of_right_ne_nil _ (by simp))
  | append_singleton trace event ih =>
    rw [syncAll_append]
    unfold eventsOf at htrace ih
    rw [List.map_append, List.filter_append] at htrace
    by_cases hown : event.1.IsOf identity
    · -- it is the last event
      have hsingle : ([event].map Prod.fst).filter (fun progress => progress.IsOf identity) =
          [event.1] := List.filter_cons_of_pos (decide_eq_true hown)
      rw [hsingle] at htrace
      obtain ⟨-, hevent⟩ := List.append_inj' htrace rfl
      rw [← List.singleton_inj.mp hevent] at hlast
      exact sync_of_isFinal hown hlast event.2
    · have hsingle : ([event].map Prod.fst).filter (fun progress => progress.IsOf identity) =
          [] := List.filter_cons_of_neg (by simpa using hown)
      rw [hsingle, List.append_nil] at htrace
      rw [sync_of_not_isOf hown]
      exact ih htrace

/-! ## Settled transfers -/

/-- The transfer has ended in the user interface. -/
structure Settled (identity : SftpConnectionIdentity) (events : List SftpProgress) : Prop where
  closed : ∃ reports last, events = reports ++ [last] ∧
    (∀ e ∈ reports, e.status = .running) ∧ last.status ≠ .running
  own : ∀ e ∈ events, e.IsOf identity
  removed : ∀ previous trace, eventsOf identity trace = events →
    syncAll previous trace identity.transferKey = none

def EndsInUi (identity : SftpConnectionIdentity) (events : List SftpProgress) : Prop :=
  (∃ e ∈ events, e.status = .running) → Settled identity events

theorem Settled.of_closed {events reports : List SftpProgress} {last : SftpProgress}
    (hown : ∀ e ∈ events, e.IsOf identity) (hevents : events = reports ++ [last])
    (hreports : ∀ e ∈ reports, e.status = .running) (hlast : last.status ≠ .running) :
    Settled identity events where
  closed := ⟨reports, last, hevents, hreports, hlast⟩
  own := hown
  removed _ _ htrace := syncAll_eq_none (htrace.trans hevents) hlast

end FluxTerm.Sftp
