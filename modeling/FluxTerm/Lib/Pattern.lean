import Mathlib.Data.List.Basic
import Mathlib.Data.List.TakeWhile

/-!
# Patterns

Regular expressions that are matched by backtracking, with one group. A pattern gives all of its
matches at a place, in the order in which they are tried; the first one counts.
-/

namespace FluxTerm.Lib

variable {α : Type*}

/-- A pattern over the symbols `α`. Runs are greedy. -/
inductive Pattern (α : Type*) where
  | nothing
  | one (accepts : α → Bool)
  | seq (first second : Pattern α)
  | alt (left right : Pattern α)
  | star (body : Pattern α)
  | group (body : Pattern α)
  | atStart
  | atEnd

structure Matched (α : Type*) where
  fresh : Bool
  rest : List α
  held : Option (List α)

def triesStar (body : Matched α → List (Matched α)) : ℕ → Matched α → List (Matched α)
  | 0, m => [m]
  | n + 1, m =>
    ((body m).filter fun next => next.rest.length < m.rest.length).flatMap (triesStar body n) ++ [m]

namespace Pattern

/-- The matches at a place, in the order in which they are tried. -/
def tries : Pattern α → Matched α → List (Matched α)
  | .nothing, m => [m]
  | .one accepts, m =>
    match m.rest with
    | [] => []
    | a :: rest => if accepts a then [{ m with fresh := false, rest }] else []
  | .seq first second, m => (first.tries m).flatMap second.tries
  | .alt left right, m => left.tries m ++ right.tries m
  | .star body, m => triesStar body.tries m.rest.length m
  | .group body, m => (body.tries m).map fun next =>
      { next with held := some (m.rest.take (m.rest.length - next.rest.length)) }
  | .atStart, m => if m.fresh then [m] else []
  | .atEnd, m => if m.rest.isEmpty then [m] else []

/-- `e?`. -/
def opt (body : Pattern α) : Pattern α := .alt body .nothing

/-- `e+`. -/
def plus (body : Pattern α) : Pattern α := .seq body (.star body)

def searchFrom (p : Pattern α) (fresh : Bool) : List α → Option (Matched α)
  | [] => (p.tries { fresh, rest := [], held := none }).head?
  | a :: s =>
    match (p.tries { fresh, rest := a :: s, held := none }).head? with
    | some m => some m
    | none => p.searchFrom false s

def search (p : Pattern α) (s : List α) : Option (Matched α) := p.searchFrom true s

def test (p : Pattern α) (s : List α) : Bool := (p.search s).isSome

def capture (p : Pattern α) (s : List α) : Option (List α) := (p.search s).bind Matched.held

def lengthAt (p : Pattern α) (s : List α) : Option ℕ :=
  (p.tries { fresh := false, rest := s, held := none }).head?.map fun m =>
    s.length - m.rest.length

end Pattern

/-! ## First matches -/

end FluxTerm.Lib
