import TradeSignals.Validation.Fault

/-!
# Binding arguments to parameters

The positional arguments of a call go to the parameters of its constructor in order,
then each keyword argument goes to the parameter it names. The first value that a
parameter gets is the one it keeps, and an argument that goes nowhere is a problem.
Nothing is looked at but the keywords, so binding is the same for arguments of any
kind.
-/

namespace TradeSignals

/-- Arguments with the parameters they go to, and those that go nowhere. -/
structure Binding (α : Type) where
  /-- Parameters with their arguments, in the order in which the arguments stand. -/
  bound : List (Slot × α)
  /-- Arguments that are not used. -/
  problems : List (BindingProblem α)

namespace Binding

variable {α : Type}

/-- Does a parameter have an argument? -/
def binds (b : Binding α) (parameter : String) : Bool :=
  b.bound.any fun s => s.1.name == parameter

/-- The positional arguments with the parameters in order; `index` counts the arguments
before them. -/
def positional (index : Nat) : List Slot → List α → Binding α
  | _, [] => ⟨[], []⟩
  | [], a :: rest =>
    let b := positional (index + 1) [] rest
    ⟨b.bound, .surplus index a :: b.problems⟩
  | slot :: slots, a :: rest =>
    let b := positional (index + 1) slots rest
    ⟨(slot, a) :: b.bound, b.problems⟩

/-- One more keyword argument. -/
def keyword (c : Constructor) (b : Binding α) (argument : String × α) : Binding α :=
  match c.slot? argument.1 with
  | none => { b with problems := b.problems ++ [.unknown argument.1 c] }
  | some slot =>
    if b.binds slot.name then { b with problems := b.problems ++ [.repeated argument.1] }
    else { b with bound := b.bound ++ [(slot, argument.2)] }

/-- **The binding** of the arguments of a call. -/
def ofCall (c : Constructor) (args : List α) (keywords : List (String × α)) : Binding α :=
  keywords.foldl (keyword c) (positional 0 c.slots args)

/-- The parameters without an argument, in order. -/
def missing (c : Constructor) (b : Binding α) : List String :=
  (c.slots.map (·.name)).filter fun parameter => !b.binds parameter

end Binding

end TradeSignals
