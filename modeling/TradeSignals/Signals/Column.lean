/-!
# Columns

A column holds one value for each bar of a table. What a source answers need not have
the right size, so it is fitted to the table before it is used.
-/

namespace TradeSignals.Column

variable {α : Type}

/-- A column for so many bars: cut off, or filled up at the end. -/
def fit (size : Nat) (filler : α) (column : List α) : List α :=
  column.take size ++ List.replicate (size - column.length) filler

/-- A fitted column has the size it was fitted to. -/
@[simp] theorem length_fit (size : Nat) (filler : α) (column : List α) :
    (fit size filler column).length = size := by
  rw [fit, List.length_append, List.length_take, List.length_replicate]
  omega

/-- A column that has the right size is left as it is. -/
theorem fit_of_length {size : Nat} {filler : α} {column : List α}
    (h : column.length = size) : fit size filler column = column := by
  rw [fit, ← h, List.take_length, Nat.sub_self, List.replicate_zero, List.append_nil]

end TradeSignals.Column
