import TradeSignals.Failure
import TradeSignals.Validation.Outcome

/-!
# Trusted text

A strategy is run only from text that says in full what is run: text that is a strategy
as it stands, with nothing to be changed.
-/

namespace TradeSignals

/-- **The strategy of a text** that needs no change, on the day `today`. -/
def Strategy.ofTrusted (text : String) (today : Date) : Except Failure Strategy :=
  let outcome := validate text .standard today
  match outcome.strategy with
  | none => .error (.rejected outcome.changes)
  | some strategy =>
    if outcome.changes.isEmpty then .ok strategy else .error (.untrusted outcome.changes.keys)

end TradeSignals
