import Mathlib.Data.Nat.Notation
import Mathlib.Tactic.Common
import TradeSignals.Proofs.Expr.Tree

/-!
# Places in expressions

A place in an expression is the list of the numbers of the children on the way down to it.
Written one below the other, places are in the order of their lists: a place comes before
those inside of it, and what is inside of one child comes before all that is inside of the
next. This is the order in which an expression is written, and it is also the order in which
its subterms are listed: searching through the list finds what stands at the first place that
has something to find (`TradeSignals.Expr.findSome?_subterms_eq_some`).

A place reaches every part of an expression, whatever reads the expression afterwards. So this
is where it is said what a search of *the whole* expression means.
-/

namespace TradeSignals

namespace Expr

/-! ### Places -/

/-- The arguments of a call in the order in which they are written, positional arguments
before keyword values. -/
def children : Expr → List Expr
  | .call _ positional keywords => positional ++ keywords.map (·.2)
  | _ => []

/-- The subterm at a place: the empty place is that of the whole expression, and the place
`i :: p` is the place `p` of its child `i`. -/
def subtermAt? (e : Expr) : List ℕ → Option Expr
  | [] => some e
  | i :: p => e.children[i]?.bind fun child => child.subtermAt? p

/-- The subterms are the expression and then those of its children. -/
theorem subterms_eq (e : Expr) : e.subterms = e :: e.children.flatMap subterms := by
  cases e with
  | call c ps ks =>
    rw [subterms, subtermsPositional_eq, subtermsKeywords_eq, children, List.flatMap_append,
      List.flatMap_map]
  | _ => rfl

/-- **Induction on expressions**: an expression follows its children. -/
@[elab_as_elim]
theorem inductChildren {P : Expr → Prop} (step : ∀ e, (∀ a ∈ e.children, P a) → P e) (e : Expr) :
    P e := by
  induction e using induct with
  | call c ps ks ihp ihk =>
    refine step _ fun a ha => ?_
    rcases List.mem_append.1 ha with ha | ha
    · exact ihp a ha
    · obtain ⟨ke, hke, rfl⟩ := List.mem_map.1 ha
      exact ihk ke hke
  | _ => exact step _ fun a ha => nomatch ha

section Search

variable {β : Type} {f : Expr → Option β}

/-- A search through the subterms looks at the expression and then into its children. -/
theorem findSome?_subterms_eq (f : Expr → Option β) (e : Expr) : e.subterms.findSome? f =
    (f e).or (e.children.findSome? fun a => a.subterms.findSome? f) := by
  have hflat : ∀ es : List Expr, (es.flatMap subterms).findSome? f =
      es.findSome? fun a => a.subterms.findSome? f := by
    intro es
    induction es with
    | nil => rfl
    | cons a es ih =>
      rw [List.flatMap_cons, List.findSome?_append, ih, List.findSome?_cons]
      cases a.subterms.findSome? f <;> rfl
  rw [subterms_eq, List.findSome?_cons, hflat]
  cases f e <;> rfl

theorem subtermAt?_cons {e a : Expr} {i : ℕ} (h : e.children[i]? = some a) (p : List ℕ) :
    e.subtermAt? (i :: p) = a.subtermAt? p := by
  rw [subtermAt?, h]
  rfl

/-- A search through the subterms finds nothing if and only if there is nothing at any
place. -/
theorem findSome?_subterms_eq_none {e : Expr} : e.subterms.findSome? f = none ↔
    ∀ p t, e.subtermAt? p = some t → f t = none := by
  induction e using inductChildren with
  | step e ih =>
    rw [findSome?_subterms_eq, Option.or_eq_none_iff, List.findSome?_eq_none_iff]
    constructor
    · rintro ⟨hhere, hchildren⟩ (_ | ⟨i, p⟩) t ht
      · cases ht
        exact hhere
      · obtain ⟨a, ha, ht⟩ := Option.bind_eq_some_iff.1 ht
        have hmem := List.mem_of_getElem? ha
        exact (ih a hmem).1 (hchildren a hmem) p t ht
    · refine fun h => ⟨h [] e rfl, fun a ha => (ih a ha).2 fun p t ht => ?_⟩
      obtain ⟨i, hi⟩ := List.getElem?_of_mem ha
      exact h (i :: p) t ((subtermAt?_cons hi p).trans ht)

/-- What holds of the places before a place inside a child: of the expression itself, of the
children before that one, and of the places before inside of it. -/
theorem forall_lt_cons {P : List ℕ → Prop} {i : ℕ} {p : List ℕ} : (∀ q < i :: p, P q) ↔
    P [] ∧ (∀ j < i, ∀ q, P (j :: q)) ∧ ∀ q < p, P (i :: q) := by
  constructor
  · exact fun h => ⟨h _ (List.nil_lt_cons i p),
      fun j hj q => h _ (List.cons_lt_cons_iff.2 (.inl hj)),
      fun q hq => h _ (List.cons_lt_cons_iff.2 (.inr ⟨rfl, hq⟩))⟩
  · rintro ⟨hnil, hbefore, hinside⟩ (_ | ⟨j, q⟩) hq
    · exact hnil
    · rcases List.cons_lt_cons_iff.1 hq with hj | ⟨rfl, hlt⟩
      · exact hbefore j hj q
      · exact hinside q hlt

/-- A search through a list finds something at the first number where there is anything. -/
theorem findSome?_eq_some_iff_getElem? {es : List Expr} {b : β} : es.findSome? f = some b ↔
    ∃ (i : ℕ) (a : Expr), es[i]? = some a ∧ f a = some b ∧
      ∀ j < i, ∀ d, es[j]? = some d → f d = none := by
  rw [List.findSome?_eq_some_iff]
  constructor
  · rintro ⟨before, a, after, rfl, ha, hbefore⟩
    refine ⟨before.length, a, ?_, ha, fun j hj d hd => ?_⟩
    · rw [List.getElem?_append_right (Nat.le_refl _), Nat.sub_self, List.getElem?_cons_zero]
    · rw [List.getElem?_append_left hj] at hd
      exact hbefore d (List.mem_of_getElem? hd)
  · rintro ⟨i, a, hget, ha, hbefore⟩
    obtain ⟨hi, rfl⟩ := List.getElem?_eq_some_iff.1 hget
    refine ⟨es.take i, es[i], es.drop (i + 1), ?_, ha, fun d hd => ?_⟩
    · rw [← List.drop_eq_getElem_cons hi, List.take_append_drop]
    · obtain ⟨j, hj, hget⟩ := List.mem_take_iff_getElem.1 hd
      exact hbefore j (by omega) d (List.getElem?_eq_some_iff.2 ⟨by omega, hget⟩)

/-- **A search through the subterms finds the first one**: places are in the order of
their numbers from left to right, and a place comes before those inside of it. -/
theorem findSome?_subterms_eq_some {e : Expr} {b : β} : e.subterms.findSome? f = some b ↔
    ∃ p t, e.subtermAt? p = some t ∧ f t = some b ∧
      ∀ q < p, ∀ u, e.subtermAt? q = some u → f u = none := by
  induction e using inductChildren with
  | step e ih =>
    rw [findSome?_subterms_eq]
    cases hhere : f e with
    | some c =>
      constructor
      · intro h
        exact ⟨[], e, rfl, hhere.trans h, fun q hq => absurd hq (List.not_lt_nil q)⟩
      · rintro ⟨_ | ⟨i, p⟩, t, ht, hb, hfirst⟩
        · cases ht
          exact hhere.symm.trans hb
        · rw [hfirst [] (List.nil_lt_cons i p) e rfl] at hhere
          cases hhere
    | none =>
      -- The first child in which anything is found, and the first place inside of it.
      rw [Option.none_or, findSome?_eq_some_iff_getElem?]
      constructor
      · rintro ⟨i, a, hget, ha, hbefore⟩
        obtain ⟨p, t, ht, hb, hfirst⟩ := (ih a (List.mem_of_getElem? hget)).1 ha
        refine ⟨i :: p, t, (subtermAt?_cons hget p).trans ht, hb, ?_⟩
        refine forall_lt_cons.2 ⟨?_, fun j hj q u hu => ?_, fun q hq u hu => ?_⟩
        · rintro u ⟨⟩
          exact hhere
        · obtain ⟨d, hd, hu⟩ := Option.bind_eq_some_iff.1 hu
          exact findSome?_subterms_eq_none.1 (hbefore j hj d hd) q u hu
        · exact hfirst q hq u ((subtermAt?_cons hget q).symm.trans hu)
      · rintro ⟨_ | ⟨i, p⟩, t, ht, hb, hfirst⟩
        · cases ht
          rw [hhere] at hb
          cases hb
        · obtain ⟨a, hget, ht⟩ := Option.bind_eq_some_iff.1 ht
          obtain ⟨-, hbefore, hinside⟩ := forall_lt_cons.1 hfirst
          refine ⟨i, a, hget, (ih a (List.mem_of_getElem? hget)).2 ⟨p, t, ht, hb, ?_⟩, ?_⟩
          · exact fun q hq u hu => hinside q hq u ((subtermAt?_cons hget q).trans hu)
          · exact fun j hj d hd => findSome?_subterms_eq_none.2 fun q u hu =>
              hbefore j hj q u ((subtermAt?_cons hd q).trans hu)

end Search

/-! ### Other literals -/

mutual

/-- The expression with other literals in the places of its own. -/
def mapLiterals (relabel : Literal → Literal) : Expr → Expr
  | .literal value => .literal (relabel value)
  | .member kind item => .member kind item
  | .name word => .name word
  | .call callee positional keywords =>
    .call callee (mapLiteralsPositional relabel positional) (mapLiteralsKeywords relabel keywords)

/-- Positional arguments with other literals. -/
def mapLiteralsPositional (relabel : Literal → Literal) : List Expr → List Expr
  | [] => []
  | e :: rest => e.mapLiterals relabel :: mapLiteralsPositional relabel rest

/-- Keyword arguments with other literals in their values. -/
def mapLiteralsKeywords (relabel : Literal → Literal) :
    List (String × Expr) → List (String × Expr)
  | [] => []
  | (key, e) :: rest => (key, e.mapLiterals relabel) :: mapLiteralsKeywords relabel rest

end

theorem mapLiterals_call (relabel : Literal → Literal) (c : String) (ps : List Expr)
    (ks : List (String × Expr)) : (call c ps ks).mapLiterals relabel =
      .call c (ps.map (mapLiterals relabel))
        (ks.map fun ke => (ke.1, ke.2.mapLiterals relabel)) := by
  have hps : mapLiteralsPositional relabel ps = ps.map (mapLiterals relabel) := by
    induction ps with
    | nil => rfl
    | cons e rest ih => rw [mapLiteralsPositional, ih, List.map_cons]
  have hks : mapLiteralsKeywords relabel ks =
      ks.map fun ke => (ke.1, ke.2.mapLiterals relabel) := by
    induction ks with
    | nil => rfl
    | cons ke rest ih => rw [mapLiteralsKeywords, ih, List.map_cons]
  rw [mapLiterals, hps, hks]

theorem children_mapLiterals (relabel : Literal → Literal) (e : Expr) :
    (e.mapLiterals relabel).children = e.children.map (mapLiterals relabel) := by
  cases e with
  | call c ps ks => simp [mapLiterals_call, children, Function.comp_def]
  | _ => rfl

end Expr

end TradeSignals
