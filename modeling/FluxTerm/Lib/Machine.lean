import Mathlib.Data.List.Basic

/-!
# Labelled transition machines

A small vocabulary for programs that are seen as a set of start states and a labelled step
relation: what a finite run is, which states a run can reach, when a property holds in all of
them, and how long a run can last.
-/

namespace FluxTerm.Lib

structure Machine (σ : Type*) (α : Type*) where
  init : σ → Prop
  step : σ → α → σ → Prop

namespace Machine

variable {σ : Type*} {α : Type*} {m : Machine σ α}

/-! ## Runs and reachable states -/

/-- A finite run of `m` from `s`, with the labels it takes in order. -/
inductive Run (m : Machine σ α) (s : σ) : List α → σ → Prop where
  | nil : Run m s [] s
  | snoc {as : List α} {t u : σ} {a : α}
      (hrun : Run m s as t) (hstep : m.step t a u) : Run m s (as ++ [a]) u

/-- The states some run reaches from a start state. -/
inductive Reachable (m : Machine σ α) : σ → Prop where
  | init {s : σ} (h : m.init s) : Reachable m s
  | step {s t : σ} {a : α} (h : Reachable m s) (hstep : m.step s a t) : Reachable m t

theorem Run.reachable {s t : σ} {as : List α} (hs : m.Reachable s) (hrun : m.Run s as t) :
    m.Reachable t := by
  induction hrun with
  | nil => exact hs
  | snoc _ hstep ih => exact .step ih hstep

theorem Run.cons {s t u : σ} {a : α} {as : List α} (hstep : m.step s a t) (hrun : m.Run t as u) :
    m.Run s (a :: as) u := by
  induction hrun with
  | nil => exact .snoc .nil hstep
  | snoc _ hlast ih => exact .snoc ih hlast

/-- **The run lemma.** What holds at the start and survives every step out of a reachable state
holds in every reachable state. -/
theorem Reachable.induct {I : σ → Prop} (hinit : ∀ s, m.init s → I s)
    (hstep : ∀ s a t, m.Reachable s → I s → m.step s a t → I t) {s : σ} (h : m.Reachable s) :
    I s := by
  induction h with
  | init h => exact hinit _ h
  | step h hst ih => exact hstep _ _ _ h ih hst

/-! ## Runs whose steps meet a condition -/

/-- `m` with only those steps whose source state and label meet `G`. -/
def restrict (m : Machine σ α) (G : σ → α → Prop) : Machine σ α where
  init := m.init
  step s a t := G s a ∧ m.step s a t

@[simp] theorem restrict_init (G : σ → α → Prop) : (m.restrict G).init = m.init := rfl

@[simp] theorem restrict_step (G : σ → α → Prop) (s t : σ) (a : α) :
    (m.restrict G).step s a t ↔ G s a ∧ m.step s a t := Iff.rfl

theorem Reachable.of_restrict {G : σ → α → Prop} {s : σ} (h : (m.restrict G).Reachable s) :
    m.Reachable s := by
  induction h with
  | init h => exact .init h
  | step _ hstep ih => exact .step ih hstep.2

theorem Reachable.restrict_mono {G H : σ → α → Prop} (hle : ∀ s a, G s a → H s a) {s : σ}
    (h : (m.restrict G).Reachable s) : (m.restrict H).Reachable s := by
  induction h with
  | init h => exact .init h
  | step _ hstep ih => exact .step ih ⟨hle _ _ hstep.1, hstep.2⟩

/-! ## Machines given by a step function -/

/-- The machine of a partial step function: `none` means that the label is not possible now. -/
def ofStep (start : σ) (next : σ → α → Option σ) : Machine σ α where
  init s := s = start
  step s a t := next s a = some t

@[simp] theorem ofStep_init (start s : σ) (next : σ → α → Option σ) :
    (ofStep start next).init s ↔ s = start := Iff.rfl

@[simp] theorem ofStep_step (start s t : σ) (next : σ → α → Option σ) (a : α) :
    (ofStep start next).step s a t ↔ next s a = some t := Iff.rfl

def exec (next : σ → α → Option σ) : σ → List α → Option σ
  | s, [] => some s
  | s, a :: as => (next s a).bind (exec next · as)

theorem run_of_exec {start : σ} {next : σ → α → Option σ} :
    ∀ (as : List α) (s t : σ), exec next s as = some t → (ofStep start next).Run s as t
  | [], s, t, h => by
      rw [exec, Option.some.injEq] at h
      exact h ▸ .nil
  | a :: as, s, t, h => by
      rw [exec, Option.bind_eq_some_iff] at h
      obtain ⟨u, hu, hrest⟩ := h
      exact .cons hu (run_of_exec as u t hrest)

theorem reachable_exec {start t : σ} {next : σ → α → Option σ} {as : List α}
    (h : exec next start as = some t) : (ofStep start next).Reachable t :=
  (run_of_exec as start t h).reachable (.init rfl)

theorem Reachable.exec {next : σ → α → Option σ}
    (hnext : ∀ s a t, next s a = some t → m.step s a t) :
    ∀ (as : List α) {s t : σ}, m.Reachable s → Machine.exec next s as = some t → m.Reachable t
  | [], s, t, hs, h => by
      rw [Machine.exec, Option.some.injEq] at h
      exact h ▸ hs
  | a :: as, s, t, hs, h => by
      rw [Machine.exec, Option.bind_eq_some_iff] at h
      obtain ⟨u, hu, hrest⟩ := h
      exact Reachable.exec hnext as (.step hs (hnext s a u hu)) hrest

theorem reachable_restrict {start t : σ} {next : σ → α → Option σ} {G : σ → α → Prop}
    [∀ s a, Decidable (G s a)]
    (h : (ofStep start fun s a => if G s a then next s a else none).Reachable t) :
    ((ofStep start next).restrict G).Reachable t := by
  induction h with
  | init h => exact .init h
  | step _ hstep ih =>
    rw [ofStep_step] at hstep
    split at hstep
    · rename_i hguard
      exact .step ih ⟨hguard, hstep⟩
    · cases hstep

theorem reachable_restrict_exec {start t : σ} {next : σ → α → Option σ} {G : σ → α → Prop}
    {as : List α} (hG : ∀ a ∈ as, ∀ s, G s a) (h : exec next start as = some t) :
    ((ofStep start next).restrict G).Reachable t := by
  have hrun : ∀ (bs : List α) {s : σ}, (∀ a ∈ bs, ∀ s, G s a) →
      ((ofStep start next).restrict G).Reachable s → exec next s bs = some t →
      ((ofStep start next).restrict G).Reachable t := by
    intro bs
    induction bs with
    | nil =>
      intro s _ hs h
      rw [exec, Option.some.injEq] at h
      exact h ▸ hs
    | cons a bs ih =>
      intro s hG hs h
      rw [exec, Option.bind_eq_some_iff] at h
      obtain ⟨u, hu, hrest⟩ := h
      exact ih (fun b hb => hG b (List.mem_cons_of_mem a hb))
        (hs.step ⟨hG a List.mem_cons_self s, hu⟩) hrest
  exact hrun as hG (.init rfl) h

/-! ## Bounded runs -/

theorem Run.length_add_rank_le (rank : σ → ℕ)
    (hrank : ∀ s a t, m.Reachable s → m.step s a t → rank t < rank s) {s t : σ} {as : List α}
    (hs : m.Reachable s) (hrun : m.Run s as t) : as.length + rank t ≤ rank s := by
  induction hrun with
  | nil => simp
  | snoc hrun hstep ih =>
    have hdec := hrank _ _ _ (hrun.reachable hs) hstep
    rw [List.length_append, List.length_singleton]
    omega

/-! ## Steps that commute -/

/-- Two steps out of one state are the same one, or each can still be taken after the other. -/
def Diamond (m : Machine σ α) : Prop :=
  ∀ s a t b u, m.step s a t → m.step s b u →
    (a = b ∧ t = u) ∨ ∃ v, m.step t b v ∧ m.step u a v

def Stuck (m : Machine σ α) (s : σ) : Prop := ∀ a t, ¬m.step s a t

theorem Run.eq_of_nil {s t : σ} (h : m.Run s [] t) : s = t := by
  generalize hlabels : ([] : List α) = labels at h
  cases h with
  | nil => rfl
  | snoc _ _ => exact absurd hlabels.symm (List.append_ne_nil_of_right_ne_nil _ (by simp))

theorem Run.exists_cons {s t : σ} {a : α} {as : List α} (h : m.Run s (a :: as) t) :
    ∃ u, m.step s a u ∧ m.Run u as t := by
  generalize hlabels : a :: as = labels at h
  induction h generalizing as with
  | nil => cases hlabels
  | @snoc before v w b hrun hstep ih =>
    cases before with
    | nil =>
      -- the step is the whole run
      obtain ⟨rfl, rfl⟩ := List.cons.inj hlabels
      rw [hrun.eq_of_nil]
      exact ⟨w, hstep, .nil⟩
    | cons c before =>
      rw [List.cons_append] at hlabels
      obtain ⟨rfl, rfl⟩ := List.cons.inj hlabels
      obtain ⟨u, hfirst, hrest⟩ := ih rfl
      exact ⟨u, hfirst, .snoc hrest hstep⟩

theorem Run.append {s t u : σ} {as bs : List α} (h : m.Run s as t) (h' : m.Run t bs u) :
    m.Run s (as ++ bs) u := by
  induction h' with
  | nil => rw [List.append_nil]; exact h
  | snoc _ hstep ih =>
    rw [← List.append_assoc]
    exact .snoc ih hstep

theorem Stuck.run_eq {s t : σ} {as : List α} (hs : m.Stuck s) (h : m.Run s as t) : s = t := by
  cases as with
  | nil => exact h.eq_of_nil
  | cons a as =>
    obtain ⟨u, hstep, -⟩ := h.exists_cons
    exact absurd hstep (hs a u)

theorem Diamond.descend_step (hm : m.Diamond) {t : σ} (ht : m.Stuck t) :
    ∀ {as : List α} {s u : σ} {b : α}, m.Run s as t → m.step s b u →
      ∃ bs, m.Run u bs t ∧ as.length = bs.length + 1
  | [], s, u, b, hrun, hstep => by
    rw [hrun.eq_of_nil] at hstep
    exact absurd hstep (ht b u)
  | a :: as, s, u, b, hrun, hstep => by
    obtain ⟨v, hfirst, hrest⟩ := hrun.exists_cons
    rcases hm s a v b u hfirst hstep with ⟨rfl, rfl⟩ | ⟨w, hvw, huw⟩
    · exact ⟨as, hrest, rfl⟩
    · -- both steps are taken, in either order
      obtain ⟨bs, hbs, hlen⟩ := hm.descend_step ht hrest hvw
      exact ⟨a :: bs, .cons huw hbs, by rw [List.length_cons, hlen, List.length_cons]⟩

/-- **Runs meet again.** If one run ends in a stuck state, every run can be continued to that
state, and all of them take as many steps. -/
theorem Diamond.descend (hm : m.Diamond) {s t u : σ} {as bs : List α} (ht : m.Stuck t)
    (h : m.Run s as t) (h' : m.Run s bs u) :
    ∃ cs, m.Run u cs t ∧ as.length = bs.length + cs.length := by
  induction h' with
  | nil => exact ⟨as, h, by simp⟩
  | snoc _ hstep ih =>
    obtain ⟨cs, hcs, hlen⟩ := ih
    obtain ⟨ds, hds, hlen'⟩ := hm.descend_step ht hcs hstep
    refine ⟨ds, hds, ?_⟩
    rw [List.length_append, List.length_singleton]
    omega

end Machine

end FluxTerm.Lib
