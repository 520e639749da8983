import Mathlib.Algebra.Group.Nat.Defs
import Mathlib.Data.Nat.Notation
import Mathlib.Tactic.Common

/-!
# Loops over places

What is computed bar by bar reads and writes columns at places, and places are words that are added
and subtracted. What can go wrong there is not seen in a definition over lists: a place that lies
outside its list, a part of a list that ends before it begins, a sum that is too large for a word,
and a difference that is less than zero. Here all of these give nothing
(`TradeSignals.Indexed.plus?`, `TradeSignals.Indexed.minus?`, `TradeSignals.Indexed.part?`,
`TradeSignals.Indexed.write?`), and a loop gives nothing if one of its steps does. So to say what a
loop gives is to say that nothing of the kind happens in it
(`TradeSignals.Indexed.foldlM_places`).

A loop that writes a column leaves behind it the places that it has written and before it those that
it has not (`TradeSignals.Indexed.mix`). This is what is carried from step to step, together with
what is known of the other variables of the loop.
-/

namespace TradeSignals.Indexed

variable {α β γ : Type}

/-! ### Words -/

/-- The sum of two words, unless it is no word. -/
def plus? (a b : ℕ) : Option ℕ := if a + b < 2 ^ 64 then some (a + b) else none

/-- The difference of two words, unless it is no word. -/
def minus? (a b : ℕ) : Option ℕ := if b ≤ a then some (a - b) else none

/-- The places from one up to another one, which is left out. -/
def places (first bound : ℕ) : List ℕ := List.range' first (bound - first)

/-- Writes to a place, if there is one. -/
def write? (xs : List α) (i : ℕ) (x : α) : Option (List α) :=
  if i < xs.length then some (xs.set i x) else none

/-- The part of a list from one place up to another one, which is left out. -/
def part? (xs : List α) (first bound : ℕ) : Option (List α) :=
  if first ≤ bound ∧ bound ≤ xs.length then some ((xs.take bound).drop first) else none

theorem plus?_of_lt {a b : ℕ} (h : a + b < 2 ^ 64) : plus? a b = some (a + b) :=
  if_pos h

/-- The place after one of a list. -/
theorem plus?_one {i size : ℕ} (hi : i < size) (hsize : size < 2 ^ 64) :
    plus? i 1 = some (i + 1) :=
  plus?_of_lt (Nat.lt_of_le_of_lt hi hsize)

theorem minus?_of_le {a b : ℕ} (h : b ≤ a) : minus? a b = some (a - b) :=
  if_pos h

theorem part?_of_le {xs : List α} {first bound : ℕ} (h : first ≤ bound) (h' : bound ≤ xs.length) :
    part? xs first bound = some ((xs.take bound).drop first) :=
  if_pos ⟨h, h'⟩

/-! ### Loops -/

/-- A loop that computes a column place by place. -/
theorem mapM_range' {g : ℕ → Option α} {xs : List α} {first : ℕ}
    (h : ∀ i x, xs[i]? = some x → g (first + i) = some x) :
    (List.range' first xs.length).mapM g = some xs := by
  induction xs generalizing first with
  | nil => rfl
  | cons x xs ih =>
    have hrest := @ih (first + 1) fun i y hy => by
      rw [Nat.add_assoc, Nat.add_comm 1 i]
      exact h (i + 1) y hy
    have hfirst : g first = some x := h 0 x rfl
    rw [List.length_cons, List.range'_succ, List.mapM_cons, hfirst, hrest]
    rfl

theorem mapM_places {g : ℕ → Option α} {xs : List α} {size : ℕ} (hsize : xs.length = size)
    (h : ∀ i x, xs[i]? = some x → g i = some x) : (places 0 size).mapM g = some xs := by
  subst hsize
  exact mapM_range' fun i x hx => by rw [Nat.zero_add, h i x hx]

/-- A loop that goes through one state for each place. -/
theorem foldlM_range' {step : β → ℕ → Option β} (state : ℕ → β) {first count : ℕ}
    (h : ∀ i, first ≤ i → i < first + count → step (state i) i = some (state (i + 1))) :
    (List.range' first count).foldlM step (state first) = some (state (first + count)) := by
  induction count generalizing first with
  | zero => rfl
  | succ count ih =>
    have hrest := @ih (first + 1) fun i hfirst hi => h i (by omega) (by omega)
    rw [List.range'_succ, List.foldlM_cons, h first (by omega) (by omega)]
    change (List.range' (first + 1) count).foldlM step (state (first + 1)) = _
    rw [hrest, Nat.add_assoc, Nat.add_comm 1 count]

/-- **What a loop gives:** if it is known what holds at each place, and each step goes on from there
to the next one. -/
theorem foldlM_places {step : β → ℕ → Option β} (first bound : ℕ) (state : ℕ → β)
    (h : ∀ i, first ≤ i → i < bound → step (state i) i = some (state (i + 1))) :
    (places first bound).foldlM step (state (min first bound)) = some (state bound) := by
  rcases Nat.le_total first bound with hle | hle
  · have hloop := @foldlM_range' β step state first (bound - first) fun i hi hlt =>
      h i hi (by omega)
    rw [Nat.add_sub_cancel' hle] at hloop
    rw [Nat.min_eq_left hle, places]
    exact hloop
  · rw [Nat.min_eq_right hle, places, Nat.sub_eq_zero_of_le hle]
    rfl

/-- A test of all elements that never fails. -/
theorem allM_eq_some {p : α → Option Bool} {q : α → Bool} {xs : List α}
    (h : ∀ x ∈ xs, p x = some (q x)) : xs.allM p = some (xs.all q) := by
  induction xs with
  | nil => rfl
  | cons x xs ih =>
    rw [List.allM, h x List.mem_cons_self, List.all_cons]
    cases q x with
    | false => rfl
    | true => exact ih fun y hy => h y (List.mem_cons_of_mem x hy)

/-! ### Columns that are being written -/

/-- A column that is written up to a place. -/
def mix (i : ℕ) (done start : List α) : List α := done.take i ++ start.drop i

section Mix

variable {done start : List α} {i : ℕ}

theorem length_mix (h : done.length = start.length) : (mix i done start).length = start.length := by
  rw [mix, List.length_append, List.length_take, List.length_drop]
  omega

/-- At its end a loop has written the whole column. -/
theorem mix_of_le (hdone : done.length ≤ i) (hstart : start.length ≤ i) :
    mix i done start = done := by
  rw [mix, List.take_of_length_le hdone, List.drop_of_length_le hstart, List.append_nil]

/-- The next place has not been written yet. -/
theorem getElem?_mix (h : i ≤ done.length) : (mix i done start)[i]? = start[i]? := by
  have hlength : (done.take i).length = i := by
    rw [List.length_take, Nat.min_eq_left h]
  rw [mix, List.getElem?_append_right (Nat.le_of_eq hlength), hlength, Nat.sub_self,
    List.getElem?_drop, Nat.add_zero]

theorem mix_succ {x : α} (hx : done[i]? = some x) :
    mix (i + 1) done start = done.take i ++ x :: start.drop (i + 1) := by
  obtain ⟨hi, rfl⟩ := List.getElem?_eq_some_iff.1 hx
  rw [mix, List.take_succ_eq_append_getElem hi, List.append_assoc]
  rfl

/-- Writing to the next place. -/
theorem write?_mix {x : α} (hsize : done.length = start.length) (hx : done[i]? = some x) :
    write? (mix i done start) i x = some (mix (i + 1) done start) := by
  obtain ⟨hi, -⟩ := List.getElem?_eq_some_iff.1 hx
  have hstart : i < start.length := hsize ▸ hi
  rw [write?, if_pos (by rw [length_mix hsize]; exact hstart), mix_succ hx, mix,
    List.drop_eq_getElem_cons hstart, List.set_append_right _ _ (by rw [List.length_take]; omega),
    List.length_take, Nat.min_eq_left (Nat.le_of_lt hi), Nat.sub_self, List.set_cons_zero]

/-- A place may be left alone if it is right already. -/
theorem mix_succ_of_eq (hsize : done.length = start.length) (h : done[i]? = start[i]?) :
    mix (i + 1) done start = mix i done start := by
  rcases Nat.lt_or_ge i start.length with hi | hi
  · rw [mix_succ (h.trans (List.getElem?_eq_getElem hi)), mix, ← List.drop_eq_getElem_cons hi]
  · rw [mix_of_le (by omega) (by omega), mix_of_le (by omega) hi]

end Mix

end TradeSignals.Indexed
