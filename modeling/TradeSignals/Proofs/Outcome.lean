import Mathlib.Data.Option.Defs
import Mathlib.Tactic.Common

/-!
# Values and faults

What is known of steps that may fail from what they come to. Steps in a row come to a value if
each of them does (`TradeSignals.Except.bind_eq_ok`), and to a fault if one of them does and those
before it do not (`TradeSignals.Except.bind_eq_error`).
-/

namespace TradeSignals

/-! ### Steps that may fail -/

namespace Except

variable {ε ε' α β : Type}

theorem bind_eq_ok {x : Except ε α} {f : α → Except ε β} {b : β} :
    x >>= f = .ok b ↔ ∃ a, x = .ok a ∧ f a = .ok b := by
  cases x with
  | error fault => exact ⟨nofun, nofun⟩
  | ok a => exact ⟨fun h => ⟨a, rfl, h⟩, fun ⟨_, ha, h⟩ => Except.ok.inj ha ▸ h⟩

theorem bind_eq_error {x : Except ε α} {f : α → Except ε β} {fault : ε} :
    x >>= f = .error fault ↔ x = .error fault ∨ ∃ a, x = .ok a ∧ f a = .error fault := by
  cases x with
  | error e =>
    constructor
    · exact fun h => .inl (congrArg Except.error (Except.error.inj h))
    · rintro (h | ⟨a, ha, -⟩)
      · exact congrArg Except.error (Except.error.inj h)
      · cases ha
  | ok a =>
    constructor
    · exact fun h => .inr ⟨a, rfl, h⟩
    · rintro (h | ⟨_, ha, h⟩)
      · cases h
      · exact Except.ok.inj ha ▸ h

theorem map_eq_ok {x : Except ε α} {g : α → β} {b : β} :
    g <$> x = .ok b ↔ ∃ a, x = .ok a ∧ g a = b := by
  cases x with
  | error e =>
    constructor
    · exact fun h => nomatch h
    · rintro ⟨_, h, _⟩
      cases h
  | ok a =>
    constructor
    · exact fun h => ⟨a, rfl, Except.ok.inj h⟩
    · rintro ⟨_, ha, rfl⟩
      cases ha
      rfl

theorem mapError_eq_ok {x : Except ε α} {g : ε → ε'} {a : α} :
    x.mapError g = .ok a ↔ x = .ok a := by
  cases x with
  | error e => exact ⟨nofun, nofun⟩
  | ok b => exact ⟨fun h => congrArg Except.ok (Except.ok.inj h), fun h => h ▸ rfl⟩

/-- Something that may fail does so, or else comes to a value. -/
theorem isError_iff {x : Except ε α} : (∃ fault, x = .error fault) ↔ ¬∃ a, x = .ok a := by
  cases x with
  | error e => exact ⟨nofun, fun _ => ⟨e, rfl⟩⟩
  | ok a => exact ⟨nofun, fun h => absurd ⟨a, rfl⟩ h⟩

theorem toOption_eq_some_iff {x : Except ε α} {a : α} : x.toOption = some a ↔ x = .ok a := by
  cases x with
  | ok b =>
    exact ⟨fun h => congrArg Except.ok (Option.some.inj h),
      fun h => congrArg some (Except.ok.inj h)⟩
  | error e => exact ⟨nofun, nofun⟩

end Except

/-! ### What is found if something is there -/

namespace Option

variable {α β : Type} {R : α → β → Prop} {x : Option α}

/-- Something is found for what is there, if there is something to be found. -/
theorem exists_rel_iff : (∃ y, Option.Rel R x y) ↔ ∀ a, x = some a → ∃ b, R a b := by
  constructor
  · rintro ⟨_, h⟩ a rfl
    cases h with
    | some hab => exact ⟨_, hab⟩
  · intro h
    cases x with
    | none => exact ⟨none, .none⟩
    | some a =>
      obtain ⟨b, hab⟩ := h a rfl
      exact ⟨some b, .some hab⟩

/-- A condition on what is found may be a part of how it is found. -/
theorem rel_and_iff {P : β → Prop} {y : Option β} :
    Option.Rel (fun a b => R a b ∧ P b) x y ↔ Option.Rel R x y ∧ ∀ b, y = some b → P b := by
  constructor
  · intro h
    cases h with
    | none => exact ⟨.none, nofun⟩
    | some hab =>
      refine ⟨.some hab.1, ?_⟩
      rintro _ ⟨⟩
      exact hab.2
  · rintro ⟨h, hP⟩
    cases h with
    | none => exact .none
    | some hab => exact .some ⟨hab, hP _ rfl⟩

end Option

end TradeSignals
