import FluxTerm.Lib.Machine

/-!
# Machines that report what they do

A machine with a log of events. It says nothing until it starts, reports while it is live, and
closes its log with one final event.
-/

namespace FluxTerm.Lib

variable {σ α ε : Type*}

inductive Phase where
  | quiet
  | live
  | ended
deriving DecidableEq

def Closed (final : ε → Bool) (log : List ε) : Prop :=
  ∃ before last, log = before ++ [last] ∧ (∀ e ∈ before, final e = false) ∧ final last = true

def Advance (final : ε → Bool) : Phase → Phase → List ε → Prop
  | .quiet, .live, new => new ≠ [] ∧ ∀ e ∈ new, final e = false
  | .live, .live, new => ∀ e ∈ new, final e = false
  | .live, .ended, new => Closed final new
  | .quiet, .quiet, new | .quiet, .ended, new | .ended, .ended, new => new = []
  | _, _, _ => False

def LogSpec (final : ε → Bool) : Phase → List ε → Prop
  | .quiet, log => log = []
  | .live, log => log ≠ [] ∧ ∀ e ∈ log, final e = false
  | .ended, log => log = [] ∨ ∃ reports last, reports ≠ [] ∧ log = reports ++ [last] ∧
      (∀ e ∈ reports, final e = false) ∧ final last = true

def Advances (own : ε → Prop) (final : ε → Bool) (p q : Phase) (old log : List ε) : Prop :=
  ∃ new, log = old ++ new ∧ Advance final p q new ∧ ∀ e ∈ new, own e

/-- Every step advances the log. -/
structure Reports (m : Machine σ α) (log : σ → List ε) (own : ε → Prop) (final : ε → Bool)
    (phase : σ → Phase) : Prop where
  init : ∀ s, m.init s → phase s ≠ .live ∧ log s = []
  step : ∀ s a t, m.Reachable s → m.step s a t →
    Advances own final (phase s) (phase t) (log s) (log t)

variable {m : Machine σ α} {log : σ → List ε} {own : ε → Prop} {final : ε → Bool}
  {phase : σ → Phase} {s : σ} {p q : Phase} {old new : List ε} {e : ε}

/-! ## Steps -/

theorem Advances.silent : Advances own final p p old old :=
  ⟨[], (List.append_nil old).symm, by cases p <;> first | rfl | nofun, nofun⟩

theorem Advances.giveUp : Advances own final .quiet .ended old old :=
  ⟨[], (List.append_nil old).symm, rfl, nofun⟩

theorem Advances.reports (hfinal : ∀ e ∈ new, final e = false) (hown : ∀ e ∈ new, own e) :
    Advances own final .live .live old (old ++ new) := ⟨new, rfl, hfinal, hown⟩

theorem Advances.report (hfinal : final e = false) (hown : own e) :
    Advances own final .live .live old (old ++ [e]) := by
  refine .reports (fun d hd => ?_) fun d hd => ?_ <;> rw [List.mem_singleton.mp hd] <;> assumption

theorem Advances.first (hfinal : final e = false) (hown : own e) :
    Advances own final .quiet .live old (old ++ [e]) := by
  refine ⟨[e], rfl, ⟨List.cons_ne_nil _ _, fun d hd => ?_⟩, fun d hd => ?_⟩ <;>
    rw [List.mem_singleton.mp hd] <;> assumption

theorem Advances.closeAfter (hreports : ∀ e ∈ new, final e = false) (hfinal : final e = true)
    (hownReports : ∀ e ∈ new, own e) (hown : own e) :
    Advances own final .live .ended old (old ++ (new ++ [e])) := by
  refine ⟨new ++ [e], rfl, ⟨new, e, rfl, hreports, hfinal⟩, fun d hd => ?_⟩
  rcases List.mem_append.mp hd with hd | hd
  · exact hownReports d hd
  · rw [List.mem_singleton.mp hd]
    exact hown

theorem Advances.close (hfinal : final e = true) (hown : own e) :
    Advances own final .live .ended old (old ++ [e]) := by
  have hreports : ∀ d ∈ ([] : List ε), final d = false := nofun
  have hownReports : ∀ d ∈ ([] : List ε), own d := nofun
  exact .closeAfter hreports hfinal hownReports hown

/-! ## Runs -/

theorem Advance.logSpec (hold : LogSpec final p old)
    (h : Advance final p q new) : LogSpec final q (old ++ new) := by
  cases p with
  | quiet =>
    rw [show old = [] from hold, List.nil_append]
    cases q with
    | quiet => exact h
    | live => exact h
    | ended => exact .inl h
  | live =>
    obtain ⟨hne, hlive⟩ := hold
    cases q with
    | quiet => exact h.elim
    | live =>
      refine ⟨List.append_ne_nil_of_left_ne_nil hne _, fun e he => ?_⟩
      rcases List.mem_append.mp he with he | he
      · exact hlive e he
      · exact h e he
    | ended =>
      obtain ⟨before, last, rfl, hbefore, hlast⟩ := h
      refine .inr ⟨old ++ before, last, List.append_ne_nil_of_left_ne_nil hne _,
        (List.append_assoc ..).symm, fun e he => ?_, hlast⟩
      rcases List.mem_append.mp he with he | he
      · exact hlive e he
      · exact hbefore e he
  | ended =>
    cases q with
    | quiet => exact h.elim
    | live => exact h.elim
    | ended =>
      rw [show new = [] from h, List.append_nil]
      exact hold

/-- **The log of a run.** It is empty before the start, has no final event while the run is live,
and ends with the only one. -/
theorem Reports.log_spec (h : Reports m log own final phase) (hs : m.Reachable s) :
    LogSpec final (phase s) (log s) := by
  refine Machine.Reachable.induct (I := fun s => LogSpec final (phase s) (log s)) ?_ ?_ hs
  · intro t ht
    obtain ⟨hphase, hlog⟩ := h.init t ht
    cases hp : phase t with
    | quiet => exact hlog
    | live => exact absurd hp hphase
    | ended => exact .inl hlog
  · intro t a u ht hspec hstep
    obtain ⟨new, hlog, hadvance, -⟩ := h.step t a u ht hstep
    rw [hlog]
    exact hadvance.logSpec hspec

theorem Reports.own_of_mem (h : Reports m log own final phase) (hs : m.Reachable s) :
    ∀ e ∈ log s, own e := by
  refine Machine.Reachable.induct (I := fun s => ∀ e ∈ log s, own e) ?_ ?_ hs
  · intro t ht e he
    rw [(h.init t ht).2] at he
    cases he
  · intro t a u ht hall hstep e he
    obtain ⟨new, hlog, -, hnew⟩ := h.step t a u ht hstep
    rw [hlog, List.mem_append] at he
    exact he.elim (hall e) (hnew e)

end FluxTerm.Lib
