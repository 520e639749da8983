import TradeSignals.Proofs.Market.MissingNumbers

/-!
# Loops that write columns of numbers

A loop that computes an indicator begins with a column in which everything is missing, and writes
the numbers to their places one after the other. Once it has come to some place, those below are as
they will be in the end, and the others are still missing (`TradeSignals.Looped.written`). Places
that stay missing need not be written at all, and so a loop may begin after the gap
(`TradeSignals.Looped.foldlM_written`).

Where the number of a bar is made from that of the bar before, the loop has the last number in a
variable beside the column (`TradeSignals.Looped.foldlM_recurrence`).
-/

namespace TradeSignals.Looped

open Quantity

open Indexed (places write? mix)

variable {α β σ : Type} [Quantity α] {final : List α} {count size : ℕ} {x : α}

/-! ### A column that is written from its beginning -/

/-- **A column that is written up to a place:** the places from there on are missing. -/
def written (final : List α) (count : ℕ) : List α := mix count final (gaps final.length)

/-- In the end the whole column is written. -/
theorem written_all (h : final.length = size) : written final size = final :=
  Indexed.mix_of_le (Nat.le_of_eq h) (by rw [Indicator.length_gaps, h])

/-- In the beginning nothing is. -/
theorem written_zero (final : List α) : written final 0 = gaps final.length :=
  rfl

/-- **One more place is written.** -/
theorem write?_written (h : final[count]? = some x) :
    write? (written final count) count x = some (written final (count + 1)) :=
  Indexed.write?_mix (Indicator.length_gaps final.length).symm h

/-- A place that stays missing is not written. -/
theorem written_succ_of_missing (h : final[count]? = some missing) :
    written final (count + 1) = written final count := by
  obtain ⟨hcount, -⟩ := List.getElem?_eq_some_iff.1 h
  exact Indexed.mix_succ_of_eq (Indicator.length_gaps final.length).symm
    (h.trans (Indicator.getElem?_gaps hcount).symm)

/-- As long as all places stay missing, none is written. -/
theorem written_of_missing (h : ∀ i < count, final[i]? = some missing) :
    written final count = gaps final.length := by
  induction count with
  | zero => exact written_zero final
  | succ count ih =>
    rw [written_succ_of_missing (h count (Nat.lt_succ_self count)),
      ih fun i hi => h i (Nat.lt_succ_of_lt hi)]

/-! ### Loops -/

/-- A loop that writes a column from some place on begins with everything missing. -/
theorem written_min {first : ℕ} (hlength : final.length = size)
    (hgap : ∀ i < first, i < size → final[i]? = some missing) :
    written final (min first size) = gaps size := by
  subst hlength
  exact written_of_missing fun i hi => hgap i (lt_min_iff.1 hi).1 (lt_min_iff.1 hi).2

/-- **A loop that writes a column** from some place on, if the column is missing up to there. -/
theorem foldlM_written {first : ℕ} {step : List α → ℕ → Option (List α)}
    (hlength : final.length = size) (hgap : ∀ i < first, i < size → final[i]? = some missing)
    (hstep : ∀ i, first ≤ i → i < size → step (written final i) i = some (written final (i + 1))) :
    (places first size).foldlM step (gaps size) = some final := by
  rw [← written_min hlength hgap, Indexed.foldlM_places first size (written final) hstep,
    written_all hlength]

/-- **A loop that goes through a recurrence** and writes a column after a gap. The first number is
written before the loop begins. -/
theorem foldlM_recurrence {step : σ → β → σ} {s : σ} (value : σ → α) {inputs : List β}
    {gap first bound size : ℕ} {body : σ × List α → ℕ → Option (σ × List α)}
    (hsize : gap + 1 + inputs.length = size) (hbound : first + inputs.length = bound)
    (hbody : ∀ k x s out, inputs[k]? = some x → body (s, out) (first + k) =
      (write? out (gap + 1 + k) (value (step s x))).map (Prod.mk (step s x))) :
    ((write? (gaps size) gap (value s)).bind fun out =>
      ((places first bound).foldlM body (s, out)).map Prod.snd) =
        some (gaps gap ++ (Indicator.recurrence step s inputs).map value) := by
  subst hbound
  generalize hfinal : gaps gap ++ (Indicator.recurrence step s inputs).map value = final
  have hlength : final.length = size := by
    rw [← hfinal, List.length_append, Indicator.length_gaps, List.length_map,
      Indicator.length_recurrence, ← hsize]
    omega
  have hgap : ∀ i < gap, final[i]? = some missing := by
    rw [← hfinal]
    exact fun i hi => Indicator.getElem?_gaps_append _ hi
  have hnumber : ∀ k, final[gap + k]? = ((Indicator.recurrence step s inputs)[k]?).map value := by
    intro k
    rw [← hfinal, Indicator.getElem?_gaps_append_of_le _ (Nat.le_add_right gap k),
      Nat.add_sub_cancel_left, List.getElem?_map]
  have hfirst : write? (gaps size) gap (value s) = some (written final (gap + 1)) := by
    rw [← hlength, ← written_of_missing hgap]
    refine write?_written ?_
    rw [← Nat.add_zero gap, hnumber, Indicator.getElem?_recurrence_zero, Option.map_some]
  have hstep : ∀ i, first ≤ i → i < first + inputs.length →
      body ((Indicator.recurrence step s inputs)[i - first]?.getD s,
          written final (gap + 1 + (i - first))) i =
        some ((Indicator.recurrence step s inputs)[i + 1 - first]?.getD s,
          written final (gap + 1 + (i + 1 - first))) := by
    intro i hi hlt
    obtain ⟨k, rfl⟩ := Nat.exists_eq_add_of_le hi
    have hk : k < inputs.length := by omega
    rw [Nat.add_sub_cancel_left, Nat.add_assoc first k 1, Nat.add_sub_cancel_left]
    obtain ⟨a, ha⟩ := Indicator.exists_getElem?_recurrence step s (Nat.le_of_lt hk)
    have hnext : (Indicator.recurrence step s inputs)[k + 1]? = some (step a inputs[k]) := by
      rw [Indicator.getElem?_recurrence_succ step (List.getElem?_eq_getElem hk), ha,
        Option.map_some]
    rw [hbody k _ _ _ (List.getElem?_eq_getElem hk), ha, hnext, Option.getD_some, Option.getD_some,
      write?_written]
    · rfl
    · rw [Nat.add_assoc, Nat.add_comm 1 k, hnumber, hnext, Option.map_some]
  have hloop := Indexed.foldlM_places first (first + inputs.length)
    (fun i => ((Indicator.recurrence step s inputs)[i - first]?.getD s,
      written final (gap + 1 + (i - first)))) hstep
  rw [Nat.min_eq_left (Nat.le_add_right _ _), Nat.sub_self, Indicator.getElem?_recurrence_zero,
    Nat.add_sub_cancel_left, hsize, written_all hlength] at hloop
  rw [hfirst]
  exact congrArg (Option.map Prod.snd) hloop

end TradeSignals.Looped
