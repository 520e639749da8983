import Mathlib.Data.Nat.Notation
import TradeSignals.Expr.Parser

/-!
# Cursors

A reader may hold the whole text and the position of the next byte in it, look at the character
there and move on by the width of that character. Such a reader is exposed to faults that a
reader of lists of characters does not know: a position inside of a character or past the end,
where no text begins, and a loop that does not get any further.

Here these faults are outcomes of their own. A `TradeSignals.Cursor` goes through a text that it
holds, and has no outcome at all if

* it takes a piece of the text that does not begin and end between two characters,
* it sets its position, or reports an error, at a byte that is not between two characters,
* a loop goes into its next round at a position that is not greater than that of this round.

That a cursor follows a reader (`TradeSignals.Cursor.Follows`) says that none of this happens,
that both have the same outcome, and that it is one inside of the text. The rules below are all
that is needed to prove it, one for each thing that a cursor does.
-/

namespace TradeSignals

/-! ### Positions in a text -/

namespace Text

/-- The text from a byte on. There is none past the end, and none inside of a character. -/
def from? : List Char → ℕ → Option (List Char)
  | [], pos => if pos = 0 then some [] else none
  | c :: s, pos =>
    if pos = 0 then some (c :: s)
    else if c.utf8Size ≤ pos then from? s (pos - c.utf8Size) else none

/-- The text up to a byte. There is none past the end, and none inside of a character. -/
def upTo? : List Char → ℕ → Option (List Char)
  | [], pos => if pos = 0 then some [] else none
  | c :: s, pos =>
    if pos = 0 then some []
    else if c.utf8Size ≤ pos then (upTo? s (pos - c.utf8Size)).map (c :: ·) else none

theorem from?_zero (s : List Char) : from? s 0 = some s := by
  cases s <;> rfl

theorem from?_byteLength (before s : List Char) :
    from? (before ++ s) (byteLength before) = some s := by
  induction before with
  | nil => exact from?_zero s
  | cons c before ih =>
    have hwidth := c.utf8Size_pos
    rw [List.cons_append, from?, byteLength_cons, if_neg (by omega), if_pos (by omega),
      Nat.add_sub_cancel_left, ih]

theorem upTo?_byteLength (taken s : List Char) :
    upTo? (taken ++ s) (byteLength taken) = some taken := by
  induction taken with
  | nil => cases s <;> rfl
  | cons c taken ih =>
    have hwidth := c.utf8Size_pos
    rw [List.cons_append, upTo?, byteLength_cons, if_neg (by omega), if_pos (by omega),
      Nat.add_sub_cancel_left, ih, Option.map_some]

/-- **A text begins between two characters**: there are whole characters before it. -/
theorem from?_eq_some {s rest : List Char} {pos : ℕ} : from? s pos = some rest ↔
    ∃ before, s = before ++ rest ∧ pos = byteLength before := by
  constructor
  · intro h
    induction s generalizing pos with
    | nil =>
      rw [from?] at h
      split at h
      · next hpos =>
        cases h
        exact ⟨[], rfl, hpos⟩
      · cases h
    | cons c s ih =>
      rw [from?] at h
      split at h
      · next hpos =>
        cases h
        exact ⟨[], rfl, hpos⟩
      · split at h
        · obtain ⟨before, rfl, hpos⟩ := ih h
          refine ⟨c :: before, rfl, ?_⟩
          rw [byteLength_cons]
          omega
        · cases h
  · rintro ⟨before, rfl, rfl⟩
    exact from?_byteLength before rest

/-- The first character takes two bytes. -/
example : from? ['é', 'x'] 1 = none ∧ from? ['é', 'x'] 2 = some ['x'] := by decide

theorem byteLength_eq_utf8ByteSize (s : List Char) :
    byteLength s = (String.ofList s).utf8ByteSize := by
  induction s with
  | nil => rfl
  | cons c s ih => rw [String.ofList_cons, String.utf8ByteSize_append, byteLength_cons, ih]; simp

/-- Texts begin at the valid positions of a string, and nowhere else. -/
theorem isValid_iff {s : List Char} {pos : ℕ} :
    (⟨pos⟩ : String.Pos.Raw).IsValid (String.ofList s) ↔ ∃ rest, from? s pos = some rest := by
  rw [String.Pos.Raw.isValid_iff_exists_append]
  constructor
  · rintro ⟨front, back, hs, hpos⟩
    refine ⟨back.toList, from?_eq_some.2 ⟨front.toList, ?_, ?_⟩⟩
    · rw [← String.toList_append, ← hs, String.toList_ofList]
    · rw [byteLength_eq_utf8ByteSize, String.ofList_toList, ← String.byteIdx_rawEndPos, ← hpos]
  · rintro ⟨rest, h⟩
    obtain ⟨before, rfl, rfl⟩ := from?_eq_some.1 h
    refine ⟨String.ofList before, String.ofList rest, String.ofList_append, ?_⟩
    rw [String.Pos.Raw.ext_iff, String.byteIdx_rawEndPos, byteLength_eq_utf8ByteSize]

end Text

/-! ### What a cursor does -/

/-- **A cursor**: from a position in a text it comes to an outcome and a position, or to an
error, or to nothing. -/
abbrev Cursor (α : Type) := StateT ℕ (ExceptT ParseError Option) α

namespace Cursor

/-- What must not happen. -/
def stuck {α : Type} : Cursor α := fun _ => none

variable {α β σ : Type}

section Steps

variable (source : List Char)

/-- The position. -/
def position : Cursor ℕ := get

/-- Sets the position, which has to be between two characters. -/
def moveTo (pos : ℕ) : Cursor Unit := fun _ =>
  (Text.from? source pos).map fun _ => .ok ((), pos)

/-- Reports an error at a position, which has to be between two characters. -/
def faultAt (pos : ℕ) (fault : ParseFault) : Cursor α := fun _ =>
  (Text.from? source pos).map fun _ => .error ⟨pos, fault⟩

/-- Reports an error at the position of the cursor. -/
def fault (f : ParseFault) : Cursor α := do
  faultAt source (← position) f

/-- The text from the position on. -/
def remaining : Cursor (List Char) := fun pos =>
  (Text.from? source pos).map fun rest => .ok (rest, pos)

/-- The text between two positions. -/
def slice (start stop : ℕ) : Cursor (List Char) := fun pos => do
  let rest ← Text.from? source start
  if start ≤ stop then
    (Text.upTo? rest (stop - start)).map fun taken => .ok (taken, pos)
  else none

/-- The next character. -/
def peek : Cursor (Option Char) := do
  return (← remaining source).head?

/-- The character after the next. -/
def peekSecond : Cursor (Option Char) := do
  return (← remaining source).tail.head?

/-- Moves on by the width of the next character. -/
def advance : Cursor (Option Char) := do
  match ← peek source with
  | none => return none
  | some c =>
    moveTo source ((← position) + c.utf8Size)
    return some c

/-- **A loop**: a round comes to the state of the next round or to the outcome of the loop. The
next round has to begin further on in the text. -/
def loop (round : σ → Cursor (σ ⊕ α)) (state : σ) : Cursor α := fun pos =>
  match round state pos with
  | none => none
  | some (.error e) => some (.error e)
  | some (.ok (.inr a, after)) => some (.ok (a, after))
  | some (.ok (.inl next, after)) =>
    if pos < after ∧ after ≤ Text.byteLength source then loop round next after else none
termination_by pos => Text.byteLength source - pos

/-- Passes over a character if it is of a kind. -/
def passOne (kind : Char → Bool) (passed : List Char) : Cursor (List Char ⊕ List Char) := do
  match ← peek source with
  | none => return .inr passed
  | some c =>
    if kind c then
      let _ ← advance source
      return .inl (passed ++ [c])
    else return .inr passed

/-- Passes over the characters of a kind, one by one, and gives them. -/
def passWhile (kind : Char → Bool) : Cursor (List Char) :=
  loop source (passOne source kind) []

end Steps

/-! ### Cursors that follow a reader -/

section Follow

variable {source : List Char}

/-- Where a rest of the text begins. -/
def place (source s : List Char) : ℕ := Text.byteLength source - Text.byteLength s

/-- The outcome of a reader in terms of positions. -/
def report (source : List Char) : Parser.Step α → Except ParseError (α × ℕ)
  | .ok (a, rest) => .ok (a, place source rest)
  | .error halt => .error (halt.error source)

/-- What a reader leaves unread is a rest of the text. -/
def Inside (source : List Char) : Parser.Step α → Prop
  | .ok (_, rest) => rest <:+ source
  | .error halt => halt.unread <:+ source

/-- **A cursor follows a reader** from a rest of the text on: it comes to the same outcome, and
what is left unread is again a rest of the text. -/
structure Follows (source : List Char) (m : Cursor α) (s : List Char) (r : Parser.Step α) :
    Prop where
  /-- The outcome is the same. -/
  run_eq : m (place source s) = some (report source r)
  /-- Nothing but rests of the text are left. -/
  inside : Inside source r

/-- What stands before a rest ends where the rest begins. -/
theorem place_append (before s : List Char) : place (before ++ s) s = Text.byteLength before := by
  rw [place, Text.byteLength_append, Nat.add_sub_cancel_right]

theorem from?_place {s : List Char} (hs : s <:+ source) :
    Text.from? source (place source s) = some s := by
  obtain ⟨before, rfl⟩ := hs
  rw [place_append, Text.from?_byteLength]

theorem place_cons {c : Char} {s : List Char} (hs : c :: s <:+ source) :
    place source s = place source (c :: s) + c.utf8Size := by
  obtain ⟨before, rfl⟩ := hs
  rw [place_append, List.append_cons, place_append, Text.byteLength_append, Text.byteLength_cons,
    Text.byteLength_nil, Nat.add_zero]

theorem place_le (s : List Char) : place source s ≤ Text.byteLength source := Nat.sub_le _ _

/-- The shorter of two rests begins further on. -/
theorem place_lt {s rest : List Char} (hs : s <:+ source) (hrest : rest <:+ source)
    (hlt : rest.length < s.length) : place source s < place source rest := by
  obtain ⟨passed, rfl⟩ := List.suffix_of_suffix_length_le hrest hs (Nat.le_of_lt hlt)
  obtain ⟨before, rfl⟩ := hs
  rw [place_append, ← List.append_assoc, place_append, Text.byteLength_append]
  cases passed with
  | nil => simp at hlt
  | cons c passed =>
    have hwidth := c.utf8Size_pos
    rw [Text.byteLength_cons]
    omega

/-! #### Rules for the monad -/

theorem follows_pure (a : α) {s : List Char} (hs : s <:+ source) :
    Follows source (pure a) s (.ok (a, s)) :=
  ⟨rfl, hs⟩

/-- What comes after a success follows from where it was. -/
theorem Follows.bind {m : Cursor α} {k : α → Cursor β} {s rest : List Char} {a : α}
    {r : Parser.Step β} (hm : Follows source m s (.ok (a, rest)))
    (hk : Follows source (k a) rest r) : Follows source (m >>= k) s r := by
  refine ⟨?_, hk.inside⟩
  have hrun : (m >>= k) (place source s) = k a (place source rest) := by
    change (m (place source s)).bind _ = _
    rw [hm.run_eq]
    rfl
  rw [hrun, hk.run_eq]

/-- After a fault nothing comes. -/
theorem Follows.bind_error {m : Cursor α} {k : α → Cursor β} {s : List Char} {halt : Halt}
    (hm : Follows source m s (.error halt)) : Follows source (m >>= k) s (.error halt) := by
  refine ⟨?_, hm.inside⟩
  change (m (place source s)).bind _ = _
  rw [hm.run_eq]
  rfl

/-- **One reading after another**: what the second comes to is said for each outcome of the
first. -/
theorem Follows.bind_cases {m : Cursor α} {k : α → Cursor β} {s : List Char} {r : Parser.Step α}
    {r' : Parser.Step β} (hm : Follows source m s r)
    (hfault : ∀ halt, r = .error halt → r' = .error halt)
    (hread : ∀ a rest, r = .ok (a, rest) → rest <:+ source → Follows source (k a) rest r') :
    Follows source (m >>= k) s r' := by
  cases r with
  | error halt => exact hfault halt rfl ▸ hm.bind_error
  | ok read => exact hm.bind (hread read.1 read.2 rfl hm.inside)

/-- An outcome that is only put in another form. -/
theorem Follows.map {m : Cursor α} {s : List Char} {r : Parser.Step α} (f : α → β)
    (hm : Follows source m s r) : Follows source (do return f (← m)) s
      (r.map fun read => (f read.1, read.2)) := by
  refine hm.bind_cases (fun halt h => h ▸ rfl) fun a rest h hrest => ?_
  rw [h]
  exact follows_pure (f a) hrest

/-! #### Rules for the steps -/

variable {s : List Char}

theorem follows_position (hs : s <:+ source) :
    Follows source position s (.ok (place source s, s)) :=
  ⟨rfl, hs⟩

theorem follows_moveTo {rest : List Char} (hrest : rest <:+ source) :
    Follows source (moveTo source (place source rest)) s (.ok ((), rest)) := by
  refine ⟨?_, hrest⟩
  rw [moveTo, from?_place hrest]
  rfl

theorem follows_faultAt {start : List Char} (hstart : start <:+ source) (f : ParseFault) :
    Follows source (faultAt source (place source start) f : Cursor α) s (.error ⟨start, f⟩) := by
  refine ⟨?_, hstart⟩
  rw [faultAt, from?_place hstart]
  rfl

theorem follows_fault (hs : s <:+ source) (f : ParseFault) :
    Follows source (fault source f : Cursor α) s (.error ⟨s, f⟩) :=
  (follows_position hs).bind (follows_faultAt hs f)

theorem follows_remaining (hs : s <:+ source) :
    Follows source (remaining source) s (.ok (s, s)) := by
  refine ⟨?_, hs⟩
  rw [remaining, from?_place hs]
  rfl

theorem follows_peek (hs : s <:+ source) : Follows source (peek source) s (.ok (s.head?, s)) :=
  (follows_remaining hs).bind (follows_pure _ hs)

theorem follows_peekSecond (hs : s <:+ source) :
    Follows source (peekSecond source) s (.ok (s.tail.head?, s)) :=
  (follows_remaining hs).bind (follows_pure _ hs)

theorem follows_slice {taken : List Char} (hs : taken ++ s <:+ source) :
    Follows source (slice source (place source (taken ++ s)) (place source s)) s
      (.ok (taken, s)) := by
  have hrest : s <:+ source := (List.suffix_append taken s).trans hs
  refine ⟨?_, hrest⟩
  have hwidth : place source s = place source (taken ++ s) + Text.byteLength taken := by
    obtain ⟨before, rfl⟩ := hs
    rw [place_append, ← List.append_assoc, place_append, Text.byteLength_append]
  rw [slice, from?_place hs]
  change (if _ then _ else _) = _
  rw [if_pos (by omega), hwidth, Nat.add_sub_cancel_left, Text.upTo?_byteLength, ← hwidth]
  rfl

theorem follows_advance {c : Char} (hs : c :: s <:+ source) :
    Follows source (advance source) (c :: s) (.ok (some c, s)) := by
  have hrest : s <:+ source := (List.suffix_cons c s).trans hs
  have hmove := @follows_moveTo source (c :: s) s hrest
  rw [place_cons hs] at hmove
  exact (follows_peek hs).bind ((follows_position hs).bind (hmove.bind (follows_pure _ hrest)))

theorem follows_advance_nil : Follows source (advance source) [] (.ok (none, [])) :=
  (follows_peek (List.nil_suffix)).bind (follows_pure _ List.nil_suffix)

/-! #### Rules for loops -/

variable {round : σ → Cursor (σ ⊕ α)} {state : σ}

theorem Follows.loop_done {rest : List Char} {a : α}
    (h : Follows source (round state) s (.ok (.inr a, rest))) :
    Follows source (loop source round state) s (.ok (a, rest)) := by
  refine ⟨?_, h.inside⟩
  rw [loop, h.run_eq]
  rfl

theorem Follows.loop_error {halt : Halt}
    (h : Follows source (round state) s (.error halt)) :
    Follows source (loop source round state) s (.error halt) := by
  refine ⟨?_, h.inside⟩
  rw [loop, h.run_eq]
  rfl

/-- A round that consumes something is followed by the next round. -/
theorem Follows.loop_next {rest : List Char} {next : σ} {r : Parser.Step α} (hs : s <:+ source)
    (h : Follows source (round state) s (.ok (.inl next, rest))) (hlt : rest.length < s.length)
    (hnext : Follows source (loop source round next) rest r) :
    Follows source (loop source round state) s r := by
  refine ⟨?_, hnext.inside⟩
  rw [loop, h.run_eq]
  change (if _ then _ else _) = _
  rw [if_pos ⟨place_lt hs h.inside hlt, place_le rest⟩, hnext.run_eq]

theorem follows_passOne (kind : Char → Bool) (passed : List Char) (hs : s <:+ source) :
    Follows source (loop source (passOne source kind) passed) s
      (.ok (passed ++ s.takeWhile kind, s.dropWhile kind)) := by
  induction s generalizing passed with
  | nil =>
    rw [List.takeWhile_nil, List.append_nil, List.dropWhile_nil]
    exact .loop_done ((follows_peek hs).bind (follows_pure _ hs))
  | cons c s ih =>
    by_cases hc : kind c = true
    · have hrest : s <:+ source := (List.suffix_cons c s).trans hs
      have hnext := ih (passed ++ [c]) hrest
      rw [List.append_assoc, List.singleton_append] at hnext
      rw [List.takeWhile_cons_of_pos hc, List.dropWhile_cons_of_pos hc]
      refine .loop_next hs ((follows_peek hs).bind ?_) (Nat.lt_succ_self _) hnext
      dsimp only [List.head?_cons]
      rw [if_pos hc]
      exact (follows_advance hs).bind (follows_pure _ hrest)
    · rw [List.takeWhile_cons_of_neg hc, List.dropWhile_cons_of_neg hc, List.append_nil]
      refine .loop_done ((follows_peek hs).bind ?_)
      dsimp only [List.head?_cons]
      rw [if_neg hc]
      exact follows_pure _ hs

/-- Passing over characters takes them from the front of the text. -/
theorem follows_passWhile (kind : Char → Bool) (hs : s <:+ source) :
    Follows source (passWhile source kind) s (.ok (s.takeWhile kind, s.dropWhile kind)) :=
  follows_passOne kind [] hs

end Follow

end Cursor

end TradeSignals
