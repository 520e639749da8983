import Mathlib.Tactic.ByContra
import TradeSignals.Text.Blank

/-!
# Trimmed text

What is left of a text without the blanks at its ends has none there any more, so a text that was
trimmed can be trimmed again and stays the same (`TradeSignals.Text.trim_trim`).
-/

namespace TradeSignals.Text

variable {s t : List Char}

theorem skipBlanks_eq_self_iff : skipBlanks s = s ↔ ∀ c, s.head? = some c → isBlank c = false := by
  cases s with
  | nil => simp [skipBlanks]
  | cons c rest =>
    rw [List.head?_cons]
    constructor
    · rintro h _ ⟨⟩
      by_contra hc
      -- A blank in front would have been skipped.
      have hlength := congrArg List.length h
      rw [skipBlanks, List.dropWhile_cons_of_pos (by simpa using hc), List.length_cons] at hlength
      exact absurd (length_skipBlanks_le rest) (by rw [skipBlanks]; omega)
    · exact fun h => skipBlanks_cons_of_not_isBlank rest (h c rfl)

/-- What a text begins with does not depend on what is cut off its end. -/
theorem skipBlanks_of_isPrefix (h : t <+: s) (hs : skipBlanks s = s) : skipBlanks t = t := by
  obtain ⟨rest, rfl⟩ := h
  refine skipBlanks_eq_self_iff.2 fun c hc => skipBlanks_eq_self_iff.1 hs c ?_
  rw [List.head?_append, hc, Option.some_or]

theorem trimmed_isPrefix (s : List Char) : trimmed s <+: skipBlanks s := by
  rw [trimmed, ← List.reverse_suffix, List.reverse_reverse]
  exact List.dropWhile_suffix _

theorem trimmed_trimmed (s : List Char) : trimmed (trimmed s) = trimmed s := by
  have hfront : skipBlanks (trimmed s) = trimmed s :=
    skipBlanks_of_isPrefix (trimmed_isPrefix s) (skipBlanks_skipBlanks s)
  rw [trimmed, hfront, trimmed, List.reverse_reverse, skipBlanks_skipBlanks]

/-- **A trimmed text stays the same.** -/
theorem trim_trim (s : String) : trim (trim s) = trim s := by
  rw [trim, trim, String.toList_ofList, trimmed_trimmed]

theorem trim_of_forall {s : String} (h : ∀ c ∈ s.toList, isBlank c = false) : trim s = s := by
  have hfront : ∀ t : List Char, (∀ c ∈ t, isBlank c = false) → skipBlanks t = t := fun t ht =>
    skipBlanks_eq_self_iff.2 fun c hc => ht c (List.mem_of_mem_head? hc)
  have hback : skipBlanks s.toList.reverse = s.toList.reverse :=
    hfront _ fun c hc => h c (List.mem_reverse.1 hc)
  rw [trim, trimmed, hfront _ h, hback, List.reverse_reverse, String.ofList_toList]

end TradeSignals.Text
