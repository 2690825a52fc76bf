import FluxTerm.Lib.JsNumber
import FluxTerm.Lib.Text

/-!
# JSON values

JSON values as a script sees them after parsing, and records that are written entry by entry and
read back.
-/

namespace FluxTerm.Lib

inductive Json where
  | null
  | bool (value : Bool)
  | num (value : JsNumber)
  | str (value : Text)
  | arr (elements : List Json)
  | obj (entries : List (Text × Json))

namespace Json

def truthy : Json → Bool
  | .null => false
  | .bool value => value
  | .num value => value ≠ .nan ∧ value ≠ .finite 0
  | .str value => value ≠ []
  | .arr _ => true
  | .obj _ => true

/-- `typeof value === "object"`, and not null. -/
def isObject : Json → Bool
  | .arr _ => true
  | .obj _ => true
  | _ => false

def entries : Json → List (Text × Json)
  | .obj entries => entries
  | _ => []

def get (key : Text) (value : Json) : Option Json := value.entries.lookup key

end Json

section Records

variable {Key Value Entry : Type} [DecidableEq Key]

/-- **A record is what its entries say.** -/
theorem foldl_entries {read : (Key → Option Value) → Entry → Key → Option Value}
    {write : Key → Value → Entry} {record : Key → Option Value} {keys : List Key}
    (hread : ∀ key ∈ keys, ∀ value, record key = some value →
      ∀ next, read next (write key value) = Function.update next key (some value))
    (start : Key → Option Value) :
    (keys.filterMap fun key => (record key).map (write key)).foldl read start =
      fun key => if key ∈ keys then (record key).or (start key) else start key := by
  induction keys generalizing start with
  | nil => rfl
  | cons key keys ih =>
    have hrest := ih fun key hkey => hread key (List.mem_cons_of_mem _ hkey)
    cases hvalue : record key with
    | none =>
      rw [List.filterMap_cons_none (by rw [hvalue]; rfl), hrest]
      funext other
      by_cases hother : other = key
      · rw [hother, if_pos List.mem_cons_self, hvalue, Option.none_or, ite_self]
      · simp only [List.mem_cons, hother, false_or]
    | some value =>
      rw [List.filterMap_cons_some (b := write key value) (by rw [hvalue]; rfl), List.foldl_cons,
        hread key List.mem_cons_self value hvalue, hrest]
      funext other
      by_cases hother : other = key
      · rw [hother, if_pos List.mem_cons_self, hvalue, Function.update_self]
        simp only [Option.some_or, ite_self]
      · simp only [List.mem_cons, hother, false_or, Function.update_of_ne hother]

end Records

end FluxTerm.Lib
