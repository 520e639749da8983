/-!
# Verdicts

Checking something ends with a value or with a fault, and on the way things are noted
that are worth telling in either case. A verdict holds both: the notes in the order in
which they were made, and the result. Notes are never read while checking goes on, so
a verdict does not depend on what was noted before it, and putting verdicts together
puts their notes together.
-/

namespace TradeSignals

/-- What a check came to: notes of type `ν`, and a value of type `α` or a fault of type
`ε`. -/
structure Verdict (ν ε α : Type) where
  /-- What was noted on the way. -/
  notes : List ν
  /-- What came of it. -/
  result : Except ε α

namespace Verdict

variable {ν ε α β : Type}

/-- Nothing noted and a value. -/
def ok (a : α) : Verdict ν ε α := ⟨[], .ok a⟩

/-- Nothing noted and a fault. -/
def fail (e : ε) : Verdict ν ε α := ⟨[], .error e⟩

/-- A note. -/
def note (n : ν) : Verdict ν ε Unit := ⟨[n], .ok ()⟩

/-- Several notes. -/
def noteAll (ns : List ν) : Verdict ν ε Unit := ⟨ns, .ok ()⟩

/-- A result without notes. -/
def ofResult (r : Except ε α) : Verdict ν ε α := ⟨[], r⟩

/-- A check followed by another one, which is not made after a fault. -/
def andThen (v : Verdict ν ε α) (f : α → Verdict ν ε β) : Verdict ν ε β :=
  match v.result with
  | .ok a => ⟨v.notes ++ (f a).notes, (f a).result⟩
  | .error e => ⟨v.notes, .error e⟩

instance : Monad (Verdict ν ε) where
  pure := ok
  bind := andThen

/-- The notes of a check, with its result as a value. -/
def attempt (v : Verdict ν ε α) : Verdict ν ε (Except ε α) := ⟨v.notes, .ok v.result⟩

/-- A verdict whose notes and faults are put into other words. -/
def translate {μ φ : Type} (onNote : ν → μ) (onFault : ε → φ) (v : Verdict ν ε α) :
    Verdict μ φ α :=
  ⟨v.notes.map onNote, v.result.mapError onFault⟩

/-- Going on after a value keeps the notes of both. -/
@[simp] theorem notes_bind_of_ok {v : Verdict ν ε α} {a : α} (h : v.result = .ok a)
    (f : α → Verdict ν ε β) : (v >>= f).notes = v.notes ++ (f a).notes := by
  simp [bind, andThen, h]

/-- Going on after a value gives the result of what follows. -/
@[simp] theorem result_bind_of_ok {v : Verdict ν ε α} {a : α} (h : v.result = .ok a)
    (f : α → Verdict ν ε β) : (v >>= f).result = (f a).result := by
  simp [bind, andThen, h]

/-- Nothing follows a fault. -/
theorem bind_of_error {v : Verdict ν ε α} {e : ε} (h : v.result = .error e)
    (f : α → Verdict ν ε β) : v >>= f = ⟨v.notes, .error e⟩ := by
  simp [bind, andThen, h]

/-- Checking and keeping the value is checking. -/
theorem map_id (v : Verdict ν ε α) : id <$> v = v := by
  obtain ⟨notes, result⟩ := v
  cases result <;> simp [Functor.map, andThen, ok]

/-- A check after a value that was there already. -/
theorem bind_ok (a : α) (f : α → Verdict ν ε β) : pure a >>= f = f a := by
  simp [bind, pure, andThen, ok]

/-- Of three checks in a row, the first two or the last two may be taken together. -/
theorem bind_bind {γ : Type} (v : Verdict ν ε α) (f : α → Verdict ν ε β)
    (g : β → Verdict ν ε γ) : v >>= f >>= g = v >>= fun a => f a >>= g := by
  obtain ⟨notes, result⟩ := v
  cases result with
  | error e => simp [bind, andThen]
  | ok a => cases h : (f a).result <;> simp [bind, andThen, h]

instance : LawfulMonad (Verdict ν ε) :=
  LawfulMonad.mk' (Verdict ν ε) map_id bind_ok bind_bind

end Verdict

end TradeSignals
