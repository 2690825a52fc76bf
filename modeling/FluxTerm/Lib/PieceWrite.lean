import Mathlib.Tactic.Common

/-!
# A file that is written piece by piece

The pieces of a content are sent in order and written in any order.
-/

namespace FluxTerm.Lib

variable {α : Type*}

/-- A write of a file. What is between its end and the offset becomes `fill`. -/
def writeAt (fill : α) (file : List α) (offset : ℕ) (part : List α) : List α :=
  file.take offset ++ List.replicate (offset - file.length) fill ++ part ++
    file.drop (offset + part.length)

variable {fill : α} {file content : List α} {offset n p : ℕ} {part : List α}

theorem length_writeAt_head (fill : α) (file : List α) (offset : ℕ) :
    (file.take offset ++ List.replicate (offset - file.length) fill).length = offset := by
  rw [List.length_append, List.length_take, List.length_replicate]
  omega

theorem length_writeAt :
    (writeAt fill file offset part).length = max file.length (offset + part.length) := by
  unfold writeAt
  rw [List.length_append, List.length_append, length_writeAt_head, List.length_drop]
  omega

theorem getElem?_writeAt_of_lt (hp : p < offset) (hfile : p < file.length) :
    (writeAt fill file offset part)[p]? = file[p]? := by
  unfold writeAt
  have hhead := length_writeAt_head fill file offset
  rw [List.getElem?_append_left (by rw [List.length_append]; omega),
    List.getElem?_append_left (by omega),
    List.getElem?_append_left (by rw [List.length_take]; omega), List.getElem?_take_of_lt hp]

theorem getElem?_writeAt_part (hp : offset ≤ p) (hpart : p < offset + part.length) :
    (writeAt fill file offset part)[p]? = part[p - offset]? := by
  unfold writeAt
  have hhead := length_writeAt_head fill file offset
  rw [List.getElem?_append_left (by rw [List.length_append]; omega),
    List.getElem?_append_right (by omega), hhead]

theorem getElem?_writeAt_of_ge (hp : offset + part.length ≤ p) :
    (writeAt fill file offset part)[p]? = file[p]? := by
  unfold writeAt
  have hhead := length_writeAt_head fill file offset
  rw [List.getElem?_append_right (by rw [List.length_append]; omega), List.getElem?_drop]
  congr 1
  rw [List.length_append]
  omega

/-! ## Pieces -/

/-- A piece that has been sent. `written` says that it is in the file. -/
structure Piece (α : Type*) where
  offset : ℕ
  part : List α
  written : Bool
deriving DecidableEq

def Piece.stop (piece : Piece α) : ℕ := piece.offset + piece.part.length

/-- The piece is from below `n` in the content. -/
structure Piece.IsPart (content : List α) (n : ℕ) (piece : Piece α) : Prop where
  stop_le : piece.stop ≤ n
  part : piece.part = (content.drop piece.offset).take piece.part.length

theorem Piece.IsPart.getElem? {piece : Piece α} (h : piece.IsPart content n)
    (hp : piece.offset ≤ p) (hstop : p < piece.stop) :
    piece.part[p - piece.offset]? = content[p]? := by
  unfold Piece.stop at hstop
  rw [h.part, List.getElem?_take_of_lt (by omega), List.getElem?_drop]
  congr 1
  omega

theorem Piece.IsPart.writeAt_eq {piece : Piece α} (h : piece.IsPart content content.length) :
    writeAt fill content piece.offset piece.part = content := by
  have hstop := h.stop_le
  unfold Piece.stop at hstop
  refine List.ext_getElem? fun p => ?_
  rcases Nat.lt_or_ge p piece.offset with hlt | hge
  · exact getElem?_writeAt_of_lt hlt (by omega)
  · rcases Nat.lt_or_ge p piece.stop with hlt | hge'
    · rw [getElem?_writeAt_part hge hlt]
      exact h.getElem? hge hlt
    · exact getElem?_writeAt_of_ge hge'

/-- Up to `n`, the file has the content, but for the pieces that are still to be written. -/
structure Fills (content file : List α) (n : ℕ) (pieces : List (Piece α)) : Prop where
  le_length : n ≤ content.length
  length_le : file.length ≤ n
  parts : ∀ piece ∈ pieces, piece.IsPart content n
  covered : ∀ p < n, file[p]? = content[p]? ∨
    ∃ piece ∈ pieces, piece.written = false ∧ piece.offset ≤ p ∧ p < piece.stop

variable {pieces : List (Piece α)} {piece : Piece α} {index : ℕ}

theorem Fills.begin (content : List α) : Fills content [] 0 [] where
  le_length := Nat.zero_le _
  length_le := Nat.le_refl _
  parts := nofun
  covered p hp := absurd hp (Nat.not_lt_zero p)

theorem Fills.restart (h : Fills content file 0 pieces) (content' : List α) :
    Fills content' file 0 pieces where
  le_length := Nat.zero_le _
  length_le := h.length_le
  parts piece hpiece := by
    have hstop := (h.parts piece hpiece).stop_le
    refine ⟨hstop, ?_⟩
    unfold Piece.stop at hstop
    have hnil : piece.part = [] := List.eq_nil_of_length_eq_zero (by omega)
    rw [hnil]
    rfl
  covered p hp := absurd hp (Nat.not_lt_zero p)

theorem Fills.send (h : Fills content file n pieces) {len : ℕ} (hlen : n + len ≤ content.length) :
    Fills content file (n + len) (pieces ++ [⟨n, (content.drop n).take len, false⟩]) := by
  have hpart : ((content.drop n).take len).length = len := by
    rw [List.length_take, List.length_drop]
    omega
  refine ⟨hlen, ?_, fun piece hpiece => ?_, fun p hp => ?_⟩
  · have := h.length_le
    omega
  · rcases List.mem_append.mp hpiece with hpiece | hpiece
    · have hstop := (h.parts piece hpiece).stop_le
      exact ⟨by omega, (h.parts piece hpiece).part⟩
    · rw [List.mem_singleton.mp hpiece]
      refine ⟨?_, ?_⟩
      · show n + _ ≤ _
        exact Nat.le_of_eq (by rw [hpart])
      · show _ = (content.drop n).take _
        rw [hpart]
  · rcases Nat.lt_or_ge p n with hlt | hge
    · exact (h.covered p hlt).imp_right fun ⟨piece, hpiece, hrest⟩ =>
        ⟨piece, List.mem_append_left _ hpiece, hrest⟩
    · refine .inr ⟨_, List.mem_append_right _ (List.mem_singleton_self _), rfl, hge, ?_⟩
      show p < n + _
      rwa [hpart]

theorem Fills.write (h : Fills content file n pieces) (hget : pieces[index]? = some piece) :
    Fills content (writeAt fill file piece.offset piece.part) n
      (pieces.set index { piece with written := true }) := by
  have hpart := h.parts piece (List.mem_of_getElem? hget)
  have hstop := hpart.stop_le
  refine ⟨h.le_length, ?_, fun other hother => ?_, fun p hp => ?_⟩
  · have := h.length_le
    unfold Piece.stop at hstop
    rw [length_writeAt]
    omega
  · rcases List.mem_or_eq_of_mem_set hother with hother | rfl
    · exact h.parts other hother
    · exact ⟨hstop, hpart.part⟩
  · by_cases hin : piece.offset ≤ p ∧ p < piece.stop
    · left
      rw [getElem?_writeAt_part hin.1 hin.2]
      exact hpart.getElem? hin.1 hin.2
    · rcases h.covered p hp with hsame | ⟨other, hother, hwritten, hle, hlt⟩
      · -- the write keeps what is right
        left
        have hlength : p < file.length := by
          have hcontent := List.getElem?_eq_getElem (Nat.lt_of_lt_of_le hp h.le_length)
          rw [hcontent] at hsame
          exact (List.getElem?_eq_some_iff.mp hsame).1
        rw [← hsame]
        rcases Nat.lt_or_ge p piece.offset with hlt | hge
        · exact getElem?_writeAt_of_lt hlt hlength
        · exact getElem?_writeAt_of_ge (Nat.not_lt.mp fun hlt => hin ⟨hge, hlt⟩)
      · -- another piece is still to be written there
        refine .inr ⟨other, ?_, hwritten, hle, hlt⟩
        obtain ⟨place, hat⟩ := List.getElem?_of_mem hother
        have hne : index ≠ place := by
          rintro rfl
          rw [hget, Option.some.injEq] at hat
          exact hin (hat ▸ ⟨hle, hlt⟩)
        refine List.mem_of_getElem? (i := place) ?_
        rw [List.getElem?_set_ne hne, hat]

theorem Fills.forget (h : Fills content file n pieces) (hget : pieces[index]? = some piece)
    (hwritten : piece.written = true) : Fills content file n (pieces.eraseIdx index) where
  le_length := h.le_length
  length_le := h.length_le
  parts other hother := h.parts other (List.mem_of_mem_eraseIdx hother)
  covered p hp := by
    refine (h.covered p hp).imp_right fun ⟨other, hother, hunwritten, hin⟩ => ?_
    obtain ⟨place, hat⟩ := List.getElem?_of_mem hother
    have hne : place ≠ index := by
      rintro rfl
      rw [hget, Option.some.injEq] at hat
      rw [hat, hunwritten] at hwritten
      cases hwritten
    exact ⟨other, List.mem_eraseIdx_iff_getElem?.mpr ⟨place, hne, hat⟩, hunwritten, hin⟩

/-- **All is written.** -/
theorem Fills.complete (h : Fills content file content.length []) : file = content := by
  refine List.ext_getElem? fun p => ?_
  rcases Nat.lt_or_ge p content.length with hlt | hge
  · rcases h.covered p hlt with hsame | ⟨piece, hpiece, -⟩
    · exact hsame
    · exact absurd hpiece (List.not_mem_nil)
  · have := h.length_le
    rw [List.getElem?_eq_none hge, List.getElem?_eq_none (by omega)]

end FluxTerm.Lib
