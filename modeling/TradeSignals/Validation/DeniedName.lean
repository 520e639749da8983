import TradeSignals.Expr.Basic

/-!
# Denied names

Some names have no place in strategy text whatever they would stand for there: words
that reach outside of it in languages that people paste from, and everything that
begins with two underscores. The whole expression is searched before anything else is
looked at, and every name in it counts, each part of a dotted one on its own. Quoted
text is not a name.
-/

namespace TradeSignals.DeniedName

/-- The denied words. -/
def words : List String :=
  ["exec", "eval", "os", "sys", "import", "open", "__import__", "compile", "globals", "locals",
    "getattr", "setattr", "delattr", "vars", "input", "breakpoint", "subprocess", "builtins",
    "__builtins__", "lambda"]

/-- The parts of a dotted name: the texts before, between and after its dots. -/
def parts : List Char → List (List Char)
  | [] => [[]]
  | c :: rest =>
    if c = '.' then [] :: parts rest
    else match parts rest with
      | first :: more => (c :: first) :: more
      | [] => [[c]]

/-- A text without a dot is its own only part. -/
theorem parts_of_not_mem {s : List Char} (h : '.' ∉ s) : parts s = [s] := by
  induction s with
  | nil => rfl
  | cons c s ih =>
    rw [List.mem_cons, not_or] at h
    rw [parts, if_neg (Ne.symm h.1), ih h.2]

/-- What stands before the first dot is the first part. -/
theorem parts_append {s : List Char} (h : '.' ∉ s) (t : List Char) :
    parts (s ++ '.' :: t) = s :: parts t := by
  induction s with
  | nil => rfl
  | cons c s ih =>
    rw [List.mem_cons, not_or] at h
    rw [List.cons_append, parts, if_neg (Ne.symm h.1), ih h.2]

/-- **The parts between which dots were put** are the parts. -/
theorem parts_intercalate {ps : List (List Char)} (hne : ps ≠ []) (h : ∀ p ∈ ps, '.' ∉ p) :
    parts (['.'].intercalate ps) = ps := by
  induction ps with
  | nil => exact absurd rfl hne
  | cons p ps ih =>
    have hp := h p List.mem_cons_self
    cases ps with
    | nil => rw [List.intercalate_singleton, parts_of_not_mem hp]
    | cons q qs =>
      rw [List.intercalate_cons_cons, List.append_assoc, List.singleton_append, parts_append hp,
        ih (by simp) fun r hr => h r (List.mem_cons_of_mem _ hr)]

/-- Parts have no dots, and with dots between them they are the text again. -/
theorem parts_spec (s : List Char) :
    parts s ≠ [] ∧ (∀ p ∈ parts s, '.' ∉ p) ∧ ['.'].intercalate (parts s) = s := by
  induction s with
  | nil => simp [parts]
  | cons c s ih =>
    obtain ⟨hne, hdots, hs⟩ := ih
    obtain ⟨first, more, hparts⟩ := List.exists_cons_of_ne_nil hne
    rw [hparts] at hdots hs
    rw [parts, hparts]
    split
    · next hc =>
      subst hc
      refine ⟨by simp, List.forall_mem_cons.2 ⟨by simp, hdots⟩, ?_⟩
      rw [List.intercalate_cons_cons, hs]
      rfl
    · next hc =>
      obtain ⟨hfirst, hmore⟩ := List.forall_mem_cons.1 hdots
      refine ⟨by simp, List.forall_mem_cons.2 ⟨by simp [Ne.symm hc, hfirst], hmore⟩, ?_⟩
      rw [← hs]
      cases more with
      | nil => simp
      | cons d more => simp [List.intercalate_cons_cons]

/-- Is a part of a name denied? -/
def deniesPart (part : List Char) : Bool :=
  ['_', '_'].isPrefixOf part || words.contains (String.ofList part)

/-- Is a name denied? -/
def denies (name : String) : Bool :=
  (parts name.toList).any deniesPart

/-- The first denied name that an expression itself shows, its arguments left out. -/
def here? : Expr → Option String
  | .call callee _ keywords =>
    if denies callee then some callee else (keywords.map (·.1)).find? denies
  | .name word => if denies word then some word else none
  | .member kind item => if denies kind || denies item then some s!"{kind}.{item}" else none
  | .literal _ => none

/-- **The first denied name** anywhere in an expression. -/
def find? (e : Expr) : Option String :=
  e.subterms.findSome? here?

end TradeSignals.DeniedName
