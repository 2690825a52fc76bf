import Mathlib.Data.List.Basic

/-!
# A view of events and snapshots

A source announces the states of its items one by one, in a queue; a view handles the events in
order, and besides takes over whole answers, each for the keys in its scope, that were put together
at any time before. A state may be one that is not shown.
-/

namespace FluxTerm.Lib

structure Answer (κ σ : Type*) where
  scope : κ → Bool
  contents : κ → Option σ

structure Mirror (κ σ : Type*) where
  last : κ → Option σ
  queue : List (κ × σ)
  answers : List (Answer κ σ)
  view : κ → Option σ

namespace Mirror

variable {κ σ : Type*} [DecidableEq κ]

def start : Mirror κ σ := ⟨fun _ => none, [], [], fun _ => none⟩

variable (gone : σ → Bool)

def shown (s : σ) : Option σ := if gone s then none else some s

def handle (view : κ → Option σ) (event : κ × σ) : κ → Option σ :=
  Function.update view event.1 (shown gone event.2)

def emit (m : Mirror κ σ) (k : κ) (s : σ) : Mirror κ σ :=
  { m with last := Function.update m.last k (some s), queue := m.queue ++ [(k, s)] }

def deliver (m : Mirror κ σ) : Option (Mirror κ σ) :=
  match m.queue with
  | [] => none
  | event :: queue => some { m with queue := queue, view := handle gone m.view event }

def send (m : Mirror κ σ) (answer : Answer κ σ) : Mirror κ σ :=
  { m with answers := m.answers ++ [answer] }

def receive (m : Mirror κ σ) (i : ℕ) : Option (Mirror κ σ) :=
  (m.answers[i]?).map fun answer =>
    { m with
      answers := m.answers.eraseIdx i
      view := fun k => if answer.scope k then answer.contents k else m.view k }

def eventual (m : Mirror κ σ) : κ → Option σ := m.queue.foldl (handle gone) m.view

def Queued (m : Mirror κ σ) (k : κ) : Prop := ∃ s, (k, s) ∈ m.queue

def Right (m : Mirror κ σ) (k : κ) : Prop := m.eventual gone k = (m.last k).bind (shown gone)

def Covered (m : Mirror κ σ) (k : κ) : Prop := ∃ answer ∈ m.answers, answer.scope k = true

/-- The answer agrees with the last announcement of each key at rest in its scope that no event is
under way for, or another answer will overrule it there. -/
def Timely (m : Mirror κ σ) (rest : κ → Prop) (i : ℕ) : Prop :=
  ∀ answer, m.answers[i]? = some answer → ∀ k, answer.scope k = true → rest k → ¬m.Queued k →
    (∃ other ∈ m.answers.eraseIdx i, other.scope k = true) ∨
      answer.contents k = (m.last k).bind (shown gone)

/-! ## What the queue comes to -/

variable {gone} {m m' : Mirror κ σ} {k : κ}

theorem foldl_handle_of_not_mem {queue : List (κ × σ)} (view : κ → Option σ)
    (h : ∀ s, (k, s) ∉ queue) : queue.foldl (handle gone) view k = view k := by
  induction queue generalizing view with
  | nil => rfl
  | cons event queue ih =>
    have hne : k ≠ event.1 := by
      rintro rfl
      exact h event.2 List.mem_cons_self
    rw [List.foldl_cons, ih _ fun s hs => h s (List.mem_cons_of_mem _ hs)]
    exact Function.update_of_ne hne _ _

theorem foldl_handle_of_mem {queue : List (κ × σ)} (view view' : κ → Option σ)
    (h : ∃ s, (k, s) ∈ queue) :
    queue.foldl (handle gone) view k = queue.foldl (handle gone) view' k := by
  induction queue generalizing view view' with
  | nil =>
    obtain ⟨s, hs⟩ := h
    exact absurd hs List.not_mem_nil
  | cons event queue ih =>
    rw [List.foldl_cons, List.foldl_cons]
    by_cases hlater : ∃ s, (k, s) ∈ queue
    · exact ih _ _ hlater
    · rw [not_exists] at hlater
      rw [foldl_handle_of_not_mem _ hlater, foldl_handle_of_not_mem _ hlater]
      obtain ⟨s, hs⟩ := h
      rcases List.mem_cons.mp hs with heq | hs
      · rw [← heq, handle, handle, Function.update_self, Function.update_self]
      · exact absurd hs (hlater s)

theorem eventual_of_not_queued (h : ¬m.Queued k) : m.eventual gone k = m.view k :=
  foldl_handle_of_not_mem m.view (not_exists.mp h)

theorem eventual_emit (k' : κ) (s : σ) :
    (m.emit k' s).eventual gone k =
      if k = k' then shown gone s else m.eventual gone k := by
  show (m.queue ++ [(k', s)]).foldl (handle gone) m.view k = _
  rw [List.foldl_append]
  exact Function.update_apply ..

theorem eventual_deliver (h : m.deliver gone = some m') :
    m'.eventual gone k = m.eventual gone k := by
  unfold deliver at h
  cases hqueue : m.queue with
  | nil =>
    rw [hqueue] at h
    cases h
  | cons event queue =>
    rw [hqueue] at h
    cases h
    rw [eventual, eventual, hqueue]
    rfl

theorem last_deliver (h : m.deliver gone = some m') : m'.last = m.last := by
  unfold deliver at h
  split at h
  · cases h
  · cases h
    rfl

omit [DecidableEq κ] in
theorem last_receive {i : ℕ} (h : m.receive i = some m') : m'.last = m.last := by
  obtain ⟨answer, -, rfl⟩ := Option.map_eq_some_iff.mp h
  rfl

/-! ## What is kept -/

/-- The events under way end in the last announcements, and so does what is shown of a key at rest,
if no answer is under way for it. -/
structure Kept (gone : σ → Bool) (rest : κ → Prop) (m : Mirror κ σ) : Prop where
  queued : ∀ k, m.Queued k → m.Right gone k
  right : ∀ k, rest k → m.Covered k ∨ m.Right gone k

namespace Kept

variable {rest rest' : κ → Prop}

theorem imp (h : Kept gone rest m) (hrest : ∀ k, rest' k → rest k) : Kept gone rest' m :=
  ⟨h.queued, fun k hk => h.right k (hrest k hk)⟩

theorem emit (h : Kept gone rest m) {k : κ} {s : σ} (hrest : ∀ k', k' ≠ k → rest' k' → rest k') :
    Kept gone rest' (m.emit k s) := by
  have hself : (m.emit k s).Right gone k := by
    rw [Right, eventual_emit, if_pos rfl]
    show _ = (Function.update m.last k (some s) k).bind (shown gone)
    rw [Function.update_self]
    rfl
  have hother : ∀ {k'}, k' ≠ k → m.Right gone k' → (m.emit k s).Right gone k' := by
    intro k' hk' hright
    rw [Right, eventual_emit, if_neg hk', hright]
    show _ = (Function.update m.last k (some s) k').bind (shown gone)
    rw [Function.update_of_ne hk']
  refine ⟨fun k' hqueued => ?_, fun k' hk' => ?_⟩
  · by_cases heq : k' = k
    · exact heq ▸ hself
    · obtain ⟨s', hs'⟩ := hqueued
      rcases List.mem_append.mp hs' with hold | hnew
      · exact hother heq (h.queued k' ⟨s', hold⟩)
      · exact absurd (congrArg Prod.fst (List.mem_singleton.mp hnew)) heq
  · by_cases heq : k' = k
    · exact .inr (heq ▸ hself)
    · exact (h.right k' (hrest k' heq hk')).imp_right (hother heq)

theorem deliver (h : Kept gone rest m) (hstep : m.deliver gone = some m') : Kept gone rest m' := by
  have hsame : m'.answers = m.answers ∧ m'.last = m.last ∧ ∀ e ∈ m'.queue, e ∈ m.queue := by
    unfold Mirror.deliver at hstep
    cases hqueue : m.queue with
    | nil =>
      rw [hqueue] at hstep
      cases hstep
    | cons event queue =>
      rw [hqueue] at hstep
      cases hstep
      exact ⟨rfl, rfl, fun e he => List.mem_cons_of_mem event he⟩
  obtain ⟨hanswers, hlast, hqueue⟩ := hsame
  have hright : ∀ {k}, m.Right gone k → m'.Right gone k := by
    intro k hk
    rw [Right, eventual_deliver hstep, hlast]
    exact hk
  refine ⟨fun k ⟨s, hs⟩ => hright (h.queued k ⟨s, hqueue _ hs⟩), fun k hk => ?_⟩
  refine (h.right k hk).imp (fun hcovered => ?_) hright
  rw [Covered, hanswers]
  exact hcovered

theorem send (h : Kept gone rest m) (answer : Answer κ σ) : Kept gone rest (m.send answer) := by
  refine ⟨h.queued, fun k hk => (h.right k hk).imp_left ?_⟩
  rintro ⟨other, hother, hscope⟩
  exact ⟨other, List.mem_append_left _ hother, hscope⟩

theorem receive (h : Kept gone rest m) {i : ℕ} (htimely : m.Timely gone rest i)
    (hstep : m.receive i = some m') : Kept gone rest m' := by
  obtain ⟨answer, hanswer, hm'⟩ := Option.map_eq_some_iff.mp hstep
  have hqueue : m'.queue = m.queue := by rw [← hm']
  have hlast : m'.last = m.last := by rw [← hm']
  have hanswers : m'.answers = m.answers.eraseIdx i := by rw [← hm']
  have hview : ∀ k, m'.view k = if answer.scope k then answer.contents k else m.view k := by
    intro k
    rw [← hm']
  have hright : ∀ {k}, m.Queued k → m.Right gone k → m'.Right gone k := by
    intro k hk hright
    rw [Right, eventual, hqueue, hlast]
    exact (foldl_handle_of_mem _ m.view hk).trans hright
  refine ⟨fun k hk => ?_, fun k hk => ?_⟩
  · rw [Queued, hqueue] at hk
    exact hright hk (h.queued k hk)
  by_cases hqueued : m.Queued k
  · exact .inr (hright hqueued (h.queued k hqueued))
  have hnot : ¬m'.Queued k := by
    rw [Queued, hqueue]
    exact hqueued
  by_cases hscope : answer.scope k = true
  · -- the answer settles what is shown of the key
    refine (htimely answer hanswer k hscope hk hqueued).imp (fun hcovered => ?_) fun hagrees => ?_
    · rw [Covered, hanswers]
      exact hcovered
    · rw [Right, eventual_of_not_queued hnot, hview, if_pos hscope, hlast]
      exact hagrees
  · refine (h.right k hk).imp (fun hcovered => ?_) fun hbefore => ?_
    · obtain ⟨other, hother, hcovers⟩ := hcovered
      obtain ⟨j, hj⟩ := List.mem_iff_getElem?.mp hother
      rw [Covered, hanswers]
      refine ⟨other, List.mem_eraseIdx_iff_getElem?.mpr ⟨j, ?_, hj⟩, hcovers⟩
      rintro rfl
      rw [hanswer] at hj
      cases hj
      exact hscope hcovers
    · rw [Right, eventual_of_not_queued hqueued] at hbefore
      rw [Right, eventual_of_not_queued hnot, hview, if_neg hscope, hlast]
      exact hbefore

theorem view_of_idle (h : Kept gone rest m) (hqueue : m.queue = []) (hanswers : m.answers = [])
    (hk : rest k) : m.view k = (m.last k).bind (shown gone) := by
  have hnot : ¬m.Queued k := by
    rintro ⟨s, hs⟩
    rw [hqueue] at hs
    cases hs
  rcases h.right k hk with ⟨answer, hanswer, -⟩ | hright
  · rw [hanswers] at hanswer
    cases hanswer
  · rw [← hright, eventual_of_not_queued hnot]

end Kept

end Mirror

end FluxTerm.Lib
