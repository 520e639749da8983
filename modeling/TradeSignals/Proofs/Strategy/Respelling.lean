import Mathlib.Logic.Relation
import TradeSignals.Proofs.Strategy.CanonicalText
import TradeSignals.Proofs.Strategy.Restated
import TradeSignals.Proofs.Validation.DeniedNames

/-!
# The spelling of arguments

Some changes to strategy text have to do with how arguments are given, and with nothing else. The
keyword arguments of a call may stand in another order, and arguments that are given by position may
be given under the names of their parameters instead. One such change, somewhere in an expression,
is a step (`TradeSignals.Expr.Respelling`); one expression is *respelled* as another one if steps
lead from the one to the other, in whatever direction (`TradeSignals.Expr.Respelled`).

The conditions of a junction have no names, so they stay where they are, and so do the arguments of
the strategy itself. This is what the Boolean of a step is for: it tells whether the expression is
an argument of a call.

A step neither makes two keywords of a call the same nor tells two apart that were the same, and it
shows no denied name that was not there.
-/

namespace TradeSignals

namespace Constructor

/-- **Parameters that may be given by name**: the first `n` of a constructor that has so many, next
to keyword arguments with other keys. -/
structure Nameable (c : Constructor) (n : ℕ) (keys : List String) : Prop where
  /-- The number of parameters is fixed. -/
  variadic : c.variadic = false
  /-- There are so many. -/
  length : n ≤ c.parameters.length
  /-- None of them is given already. -/
  free : ∀ slot ∈ c.parameters.take n, slot.name ∉ keys

theorem nodup_parameters (c : Constructor) : (c.parameters.map (·.name)).Nodup := by
  cases c <;> decide

theorem denies_parameters (c : Constructor) :
    ∀ slot ∈ c.parameters, DeniedName.denies slot.name = false := by
  cases c <;> decide +kernel

/-- The keys of arguments that are all given by name. -/
theorem keys_named {α : Type} {c : Constructor} {args : List α} (ks : List (String × α))
    (h : args.length ≤ c.parameters.length) : (c.named args ks).map (·.1) =
      (c.parameters.take args.length).map (·.name) ++ ks.map (·.1) := by
  have hlength : args.length ≤ (c.parameters.map (·.name)).length := by rwa [List.length_map]
  rw [named, List.map_append, List.zip_eq_zip_take_min, Nat.min_eq_right hlength, List.take_length,
    List.map_fst_zip (List.length_take_of_le hlength).le, List.map_take]

end Constructor

namespace Expr

/-- **One change of spelling** in an expression that is the argument of a call, or is not. -/
inductive Respelling : Bool → Expr → Expr → Prop
  /-- The keyword arguments of a call are put into another order. -/
  | reordered {nested : Bool} {callee : String} {args : List Expr} {ks ks' : List (String × Expr)}
    (h : ks.Perm ks') : Respelling nested (.call callee args ks) (.call callee args ks')
  /-- The arguments of a call that are given by position are given by name. -/
  | named {c : Constructor} {args : List Expr} {ks : List (String × Expr)}
    (h : c.Nameable args.length (ks.map (·.1))) :
    Respelling true (.call c.name args ks) (.call c.name [] (c.named args ks))
  /-- The change is inside of an argument that is given by position. -/
  | positional {nested : Bool} {callee : String} {before after : List Expr} {e e' : Expr}
    {ks : List (String × Expr)} (h : Respelling true e e') :
    Respelling nested (.call callee (before ++ e :: after) ks)
      (.call callee (before ++ e' :: after) ks)
  /-- The change is inside of an argument that is given by name. -/
  | keyword {nested : Bool} {callee key : String} {args : List Expr}
    {before after : List (String × Expr)} {e e' : Expr} (h : Respelling true e e') :
    Respelling nested (.call callee args (before ++ (key, e) :: after))
      (.call callee args (before ++ (key, e') :: after))

/-- **One expression is respelled as another one**: steps lead from the one to the other. -/
def Respelled : Expr → Expr → Prop :=
  Relation.EqvGen (Respelling false)

/-! ### What a step keeps -/

/-- What holds of all subterms holds of the expression itself and of the subterms of its
children. -/
theorem forall_subterms_children {P : Expr → Prop} {e : Expr} :
    (∀ t ∈ e.subterms, P t) ↔ P e ∧ ∀ a ∈ e.children, ∀ t ∈ a.subterms, P t := by
  rw [subterms_eq, List.forall_mem_cons, List.forall_mem_flatMap]

/-- **A step keeps** what holds of all subterms, if it depends on the names of calls and their
keywords only and may be said of parameters. -/
theorem Respelling.forall_subterms_iff {P : Expr → Prop}
    (hkeys : ∀ callee args args' (ks ks' : List (String × Expr)),
      (ks.map (·.1)).Perm (ks'.map (·.1)) → (P (.call callee args ks) ↔ P (.call callee args' ks')))
    (hnamed : ∀ (c : Constructor) args (ks : List (String × Expr)),
      c.Nameable args.length (ks.map (·.1)) →
        (P (.call c.name args ks) ↔ P (.call c.name [] (c.named args ks))))
    {nested : Bool} {e e' : Expr} (h : Respelling nested e e') :
    (∀ t ∈ e.subterms, P t) ↔ ∀ t ∈ e'.subterms, P t := by
  induction h with
  | @reordered _ callee args ks ks' h =>
    have hchildren : ∀ a,
        a ∈ (call callee args ks).children ↔ a ∈ (call callee args ks').children :=
      fun a => ((h.map _).append_left args).mem_iff
    rw [forall_subterms_children, forall_subterms_children, hkeys _ _ _ _ _ (h.map _)]
    exact and_congr_right fun _ => forall_congr' fun a => imp_congr_left (hchildren a)
  | @named c args ks h =>
    rw [forall_subterms_children, forall_subterms_children, hnamed c args ks h]
    have hchildren : (call c.name args ks).children = (call c.name [] (c.named args ks)).children :=
      (map_snd_named h.length).symm
    rw [hchildren]
  | positional h ih =>
    rw [forall_subterms_call, forall_subterms_call, List.forall_mem_append, List.forall_mem_append,
      List.forall_mem_cons, List.forall_mem_cons, ih, hkeys _ _ _ _ _ (.refl _)]
  | keyword h ih =>
    rw [forall_subterms_call, forall_subterms_call, List.forall_mem_append, List.forall_mem_append,
      List.forall_mem_cons, List.forall_mem_cons, ih, hkeys]
    rw [List.map_append, List.map_append, List.map_cons, List.map_cons]

/-- **A step keeps keys distinct,** and those that are not. -/
theorem Respelling.keysDistinct_iff {nested : Bool} {e e' : Expr} (h : Respelling nested e e') :
    (∀ t ∈ e.subterms, t.KeysDistinct) ↔ ∀ t ∈ e'.subterms, t.KeysDistinct := by
  refine h.forall_subterms_iff (fun _ _ _ _ _ hperm => hperm.nodup_iff) fun c args ks h => ?_
  have hfirst : ((c.parameters.take args.length).map (·.name)).Nodup :=
    c.nodup_parameters.sublist ((List.take_sublist _ _).map _)
  rw [KeysDistinct, KeysDistinct, Constructor.keys_named ks h.length, List.nodup_append]
  refine ⟨fun hks => ⟨hfirst, hks, ?_⟩, fun hks => hks.2.1⟩
  rintro _ hmem key hkey rfl
  obtain ⟨slot, hslot, rfl⟩ := List.mem_map.1 hmem
  exact h.free slot hslot hkey

/-- **A step shows no denied name,** and hides none. -/
theorem Respelling.showsAnywhere_iff {nested : Bool} {e e' : Expr} (h : Respelling nested e e') :
    DeniedName.ShowsAnywhere e ↔ DeniedName.ShowsAnywhere e' := by
  have hcall : ∀ (callee : String) (args : List Expr) (ks : List (String × Expr)),
      DeniedName.here? (.call callee args ks) = none ↔
        ∀ key ∈ callee :: ks.map (·.1), DeniedName.denies key = false := by
    intro callee args ks
    simp only [DeniedName.here?_eq_none_iff, DeniedName.Shows, names, not_exists, not_and,
      DeniedName.denies_eq_false_iff]
  rw [← not_iff_not, ← DeniedName.find?_eq_none_iff, ← DeniedName.find?_eq_none_iff,
    DeniedName.find?, DeniedName.find?, List.findSome?_eq_none_iff, List.findSome?_eq_none_iff]
  refine h.forall_subterms_iff (fun _ _ _ _ _ hperm => ?_) fun c args ks h => ?_
  · rw [hcall, hcall, List.forall_mem_cons, List.forall_mem_cons]
    exact and_congr_right fun _ => forall_congr' fun key => imp_congr_left hperm.mem_iff
  · have hfirst : ∀ key ∈ (c.parameters.take args.length).map (·.name),
        DeniedName.denies key = false := by
      intro key hkey
      obtain ⟨slot, hslot, rfl⟩ := List.mem_map.1 hkey
      exact c.denies_parameters slot (List.mem_of_mem_take hslot)
    rw [hcall, hcall, Constructor.keys_named ks h.length, List.forall_mem_cons,
      List.forall_mem_cons, List.forall_mem_append]
    exact and_congr_right fun _ => (and_iff_right hfirst).symm

end Expr

end TradeSignals
