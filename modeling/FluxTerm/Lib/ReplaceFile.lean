import Mathlib.Tactic.Common

/-!
# A file that is replaced through a temporary one

A document is written to a temporary name, and that is renamed to the name of the document. A file
that is open stays the same file when it is renamed, so names and files are kept apart.
-/

namespace FluxTerm.Lib

structure TwoNames (β : Type*) where
  doc : Option ℕ
  tmp : Option ℕ
  data : ℕ → List β
  fresh : ℕ

namespace TwoNames

variable {β : Type*} (f : TwoNames β)

def read : Option (List β) := f.doc.map f.data

/-- The temporary file is opened and truncated. It is a new file if the name stands for none. -/
def create : TwoNames β × ℕ :=
  match f.tmp with
  | some file => ({ f with data := Function.update f.data file [] }, file)
  | none =>
    ({ f with
      tmp := some f.fresh
      data := Function.update f.data f.fresh []
      fresh := f.fresh + 1 }, f.fresh)

def write (file : ℕ) (content : List β) : TwoNames β :=
  { f with data := Function.update f.data file (content ++ (f.data file).drop content.length) }

def rename : Option (TwoNames β) := f.tmp.map fun file => { f with doc := some file, tmp := none }

def remove : TwoNames β := { f with doc := none }

/-- The names stand for different files. -/
structure Sound : Prop where
  doc : ∀ file, f.doc = some file → file < f.fresh
  tmp : ∀ file, f.tmp = some file → file < f.fresh ∧ f.doc ≠ some file

variable {f} {file : ℕ} {content : List β}

theorem read_update (h : f.doc ≠ some file) (content : List β) :
    { f with data := Function.update f.data file content }.read = f.read := by
  unfold read
  cases hdoc : f.doc with
  | none => rfl
  | some doc =>
    have hne : doc ≠ file := fun heq => h (heq ▸ hdoc)
    exact congrArg some (Function.update_of_ne hne _ _)

theorem create_spec (h : f.Sound) :
    f.create.1.Sound ∧ f.create.1.tmp = some f.create.2 ∧ f.create.1.data f.create.2 = [] ∧
      f.create.1.doc = f.doc ∧ f.create.1.read = f.read := by
  unfold create
  split
  · rename_i file htmp
    exact ⟨⟨h.doc, h.tmp⟩, htmp, Function.update_self _ _ _, rfl,
      read_update (h.tmp file htmp).2 []⟩
  · have hfresh : f.doc ≠ some f.fresh := fun hdoc => absurd (h.doc _ hdoc) (Nat.lt_irrefl _)
    refine ⟨⟨fun file hdoc => ?_, fun file htmp => ?_⟩, rfl, Function.update_self _ _ _, rfl, ?_⟩
    · exact Nat.lt_succ_of_lt (h.doc file hdoc)
    · cases htmp
      exact ⟨Nat.lt_succ_self _, hfresh⟩
    · exact read_update hfresh []

theorem write_spec (content : List β) (h : f.Sound) (htmp : f.tmp = some file) (hempty : f.data file = []) :
    (f.write file content).Sound ∧ (f.write file content).data file = content ∧
      (f.write file content).read = f.read := by
  refine ⟨⟨h.doc, h.tmp⟩, ?_, read_update (h.tmp file htmp).2 _⟩
  unfold write
  dsimp only
  rw [Function.update_self, hempty, List.drop_nil, List.append_nil]

theorem rename_spec (h : f.Sound) (htmp : f.tmp = some file) :
    ∃ f', f.rename = some f' ∧ f'.Sound ∧ f'.read = some (f.data file) := by
  unfold rename
  rw [htmp]
  refine ⟨_, rfl, ⟨fun doc hdoc => ?_, nofun⟩, rfl⟩
  cases hdoc
  exact (h.tmp file htmp).1

theorem remove_sound (h : f.Sound) : f.remove.Sound := by
  refine ⟨nofun, fun file htmp => ⟨(h.tmp file htmp).1, nofun⟩⟩

end TwoNames

end FluxTerm.Lib
