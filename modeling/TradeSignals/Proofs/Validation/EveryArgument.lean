import Mathlib.Data.List.Induction
import TradeSignals.Proofs.Validation.CallsAlike

/-!
# Every argument of a call

Binding the arguments of a call to the parameters of its constructor loses none of them, uses none
of them twice and lets none of them take the place of another (`TradeSignals.Binding.Exhaustive`,
`TradeSignals.Binding.exhaustive_ofCall`). Positional arguments come first and are bound side by
side with the parameters (`TradeSignals.Binding.positional_eq`). The keyword arguments are gone
through one after the other, with what has been bound so far at hand, so all that is said of them is
said by induction from the last one: each goes to one of two lists
(`TradeSignals.Binding.keyword_cases`), and a parameter is free for a keyword as long as none of
those before it has been of that name (`TradeSignals.Binding.mem_bound_iff_lookup`).

Nothing is said of the keys: they may be repeated, unknown, or those of parameters that have a
positional argument.
-/

namespace TradeSignals.Binding

variable {α : Type} {c : Constructor} {args : List α} {ks : List (String × α)}

/-! ### Positional arguments -/

/-- The arguments that are bound, under the names of their parameters. -/
def names (bound : List (Slot × α)) : List (String × α) := bound.map fun p => (p.1.name, p.2)

theorem names_zip (slots : List Slot) (args : List α) :
    names (slots.zip args) = (slots.map (·.name)).zip args := by
  rw [names, List.zip_map_left]
  rfl

/-- The problems with positional arguments for which there is no parameter. -/
def surplus (c : Constructor) (args : List α) : List (BindingProblem α) :=
  (args.drop c.slots.length).mapIdx fun i a => .surplus (c.slots.length + i) a

theorem bound_positional (c : Constructor) (args : List α) :
    (positional 0 c.slots args).bound = c.slots.zip args := by
  rw [positional_eq]

theorem problems_positional (c : Constructor) (args : List α) :
    (positional 0 c.slots args).problems = surplus c args := by
  rw [positional_eq, surplus, Nat.zero_add]

/-! ### Keyword arguments -/

/-- The problem with a keyword argument that is not bound. -/
def unbound (c : Constructor) (key : String) : BindingProblem α :=
  if (c.slot? key).isSome then .repeated key else .unknown key c

/-- **A keyword argument** is bound under its key, or it is reported, and never both. -/
theorem keyword_cases (c : Constructor) (b : Binding α) (k : String × α) :
    (∃ slot ∈ c.slots, slot.name = k.1 ∧ b.binds slot.name = false ∧
      keyword c b k = ⟨b.bound ++ [(slot, k.2)], b.problems⟩) ∨
    ((∀ slot ∈ c.slots, slot.name = k.1 → b.binds slot.name = true) ∧
      keyword c b k = ⟨b.bound, b.problems ++ [unbound c k.1]⟩) := by
  rw [keyword, unbound]
  rcases hslot : c.slot? k.1 with _ | slot
  · refine .inr ⟨fun slot hmem hname => ?_, rfl⟩
    rw [← hname, slot?_name c slot hmem] at hslot
    cases hslot
  · have hname := name_of_slot? hslot
    cases hbinds : b.binds slot.name with
    | false => exact .inl ⟨slot, List.mem_of_find?_eq_some hslot, hname, hbinds, by simp [hbinds]⟩
    | true =>
      refine .inr ⟨fun slot' _ hname' => ?_, by simp [hbinds]⟩
      rw [hname', ← hname, hbinds]

/-- The keyword arguments of a call in two parts: those that are bound and those that are not. -/
theorem exists_taken (c : Constructor) (args : List α) (ks : List (String × α)) :
    ∃ taken left : List (String × α), (taken ++ left).Perm ks ∧ taken.Sublist ks ∧
      left.Sublist ks ∧
      names (ofCall c args ks).bound = (c.slots.map (·.name)).zip args ++ taken ∧
      (ofCall c args ks).problems = surplus c args ++ left.map fun k => unbound c k.1 := by
  induction ks using List.reverseRecOn with
  | nil =>
    refine ⟨[], [], .refl _, .refl _, .refl _, ?_, ?_⟩
    · rw [List.append_nil, ← names_zip, ← bound_positional]
      rfl
    · rw [List.map_nil, List.append_nil, ← problems_positional]
      rfl
  | append_singleton ks k ih =>
    obtain ⟨taken, left, hperm, htaken, hleft, hbound, hproblems⟩ := ih
    rw [ofCall, List.foldl_concat]
    rw [ofCall] at hbound hproblems
    generalize ks.foldl (keyword c) (positional 0 c.slots args) = b at hbound hproblems
    rcases keyword_cases c b k with ⟨slot, -, hname, -, heq⟩ | ⟨-, heq⟩
    · refine ⟨taken ++ [k], left, ?_, htaken.append (.refl _), hleft.trans (by simp), ?_, ?_⟩
      · rw [List.append_assoc]
        exact (List.perm_append_comm.append_left taken).trans
          ((List.append_assoc taken left [k]) ▸ hperm.append_right [k])
      · rw [heq, names, List.map_append, ← List.append_assoc, ← hbound, List.map_singleton, hname]
        rfl
      · rw [heq, hproblems]
    · refine ⟨taken, left ++ [k], ?_, htaken.trans (by simp), hleft.append (.refl _), ?_, ?_⟩
      · rw [← List.append_assoc]
        exact hperm.append_right [k]
      · rw [heq, hbound]
      · rw [heq, hproblems, List.map_append, List.append_assoc]
        rfl

/-- Parameters are told apart by their names. -/
theorem slot_eq_of_name {slot slot' : Slot} (h : slot ∈ c.slots) (h' : slot' ∈ c.slots)
    (hname : slot.name = slot'.name) : slot = slot' :=
  List.inj_on_of_nodup_map (nodup_slots c) h h' hname

/-- A parameter has an argument if it is bound to one. -/
theorem binds_iff {b : Binding α} {slot : Slot} (hknown : ∀ p ∈ b.bound, p.1 ∈ c.slots)
    (h : slot ∈ c.slots) : b.binds slot.name = true ↔ ∃ a, (slot, a) ∈ b.bound := by
  rw [binds, List.any_eq_true]
  constructor
  · rintro ⟨⟨slot', a⟩, hmem, hname⟩
    obtain rfl := slot_eq_of_name (hknown _ hmem) h (beq_iff_eq.1 hname)
    exact ⟨a, hmem⟩
  · rintro ⟨a, hmem⟩
    exact ⟨_, hmem, beq_self_eq_true _⟩

/-- A parameter beyond the positional arguments has none of them. -/
theorem not_mem_zip {slot : Slot} (h : slot ∈ c.slots.drop args.length) (a : α) :
    (slot, a) ∉ c.slots.zip args := by
  intro hmem
  have htake : slot ∈ c.slots.take args.length := by
    rw [List.zip_eq_zip_take_min] at hmem
    exact List.take_subset_take_left _ (Nat.min_le_right _ _) (List.of_mem_zip hmem).1
  have hnodup := (nodup_slots c).of_map
  rw [← List.take_append_drop args.length c.slots] at hnodup
  exact (List.nodup_append.1 hnodup).2.2 slot htake slot h rfl

/-- One more keyword argument goes to a parameter if it is of its name and none before it was. -/
theorem mem_bound_keyword {b : Binding α} {slot : Slot} (hknown : ∀ p ∈ b.bound, p.1 ∈ c.slots)
    (hslot : slot ∈ c.slots) (h : ∀ a, (slot, a) ∈ b.bound ↔ ks.lookup slot.name = some a)
    (k : String × α) (a : α) :
    (slot, a) ∈ (keyword c b k).bound ↔ (ks ++ [k]).lookup slot.name = some a := by
  -- Whether the parameter is free is what the keywords before this one decide.
  have hfree : b.binds slot.name = (ks.lookup slot.name).isSome := by
    rw [Bool.eq_iff_iff, binds_iff hknown hslot, Option.isSome_iff_exists]
    exact exists_congr h
  rw [List.lookup_append, List.lookup_cons, List.lookup_nil]
  rcases keyword_cases c b k with ⟨slot', hslot', hname, hbinds, heq⟩ | ⟨hbinds, heq⟩
  · rw [heq, List.mem_append, h, List.mem_singleton, Prod.mk.injEq]
    by_cases hkey : slot.name = k.1
    · obtain rfl := slot_eq_of_name hslot hslot' (hkey.trans hname.symm)
      rw [hfree, Option.isSome_eq_false_iff, Option.isNone_iff_eq_none] at hbinds
      rw [hbinds, Option.none_or, beq_iff_eq.2 hkey]
      simp [eq_comm]
    · have hne : slot ≠ slot' := fun heq => hkey (heq ▸ hname)
      simp [hne, beq_eq_false_iff_ne.2 hkey]
  · rw [heq, h]
    by_cases hkey : slot.name = k.1
    · have hsome := hbinds slot hslot hkey
      rw [hfree, Option.isSome_iff_exists] at hsome
      obtain ⟨a', ha'⟩ := hsome
      rw [ha', Option.some_or]
    · rw [beq_eq_false_iff_ne.2 hkey, Option.or_none]

/-- **A parameter that no positional argument reaches** has the first keyword argument of its name,
and none if there is none. -/
theorem mem_bound_iff_lookup {slot : Slot} (h : slot ∈ c.slots.drop args.length) (a : α) :
    (slot, a) ∈ (ofCall c args ks).bound ↔ ks.lookup slot.name = some a := by
  induction ks using List.reverseRecOn generalizing a with
  | nil =>
    rw [ofCall, List.foldl_nil, bound_positional]
    exact iff_of_false (not_mem_zip h a) (by simp)
  | append_singleton ks k ih =>
    rw [ofCall, List.foldl_concat]
    exact mem_bound_keyword (bound_ofCall c args ks).2 (List.mem_of_mem_drop h) ih k a

/-! ### The whole -/

/-- **A binding that is exhaustive**: it accounts for each argument of a call. -/
structure Exhaustive (c : Constructor) (args : List α) (ks : List (String × α))
    (b : Binding α) : Prop where
  /-- Each argument is bound or reported, and not both. Of the positional ones, as many are bound as
  there are parameters; the keyword arguments fall into those that are bound and those that are
  reported, both in the order of the call. -/
  once : ∃ taken left : List (String × α), (taken ++ left).Perm ks ∧ taken.Sublist ks ∧
    left.Sublist ks ∧ names b.bound = (c.slots.map (·.name)).zip args ++ taken ∧
    b.problems = surplus c args ++ left.map fun k => unbound c k.1
  /-- There are as many arguments that are bound or reported as there are arguments. -/
  count : b.bound.length + b.problems.length = args.length + ks.length
  /-- No parameter is bound twice. -/
  distinct : (b.bound.map (·.1)).Nodup
  /-- What is bound is a parameter of the constructor. -/
  known : ∀ p ∈ b.bound, p.1 ∈ c.slots
  /-- A positional argument goes to the parameter at its place. -/
  positional : ∀ (i : ℕ) (slot : Slot) (a : α), c.slots[i]? = some slot → args[i]? = some a →
    b.bound[i]? = some (slot, a)
  /-- Any other parameter has the first keyword argument of its name. -/
  keyword : ∀ slot ∈ c.slots.drop args.length, ∀ a,
    (slot, a) ∈ b.bound ↔ ks.lookup slot.name = some a
  /-- What is missing are the parameters without an argument, in order. -/
  missing : b.missing c = (c.slots.filter fun slot => slot ∉ b.bound.map (·.1)).map (·.name)

/-- The parameters without an argument, told by the parameters instead of their names. -/
theorem missing_eq {b : Binding α} (hknown : ∀ p ∈ b.bound, p.1 ∈ c.slots) :
    b.missing c = (c.slots.filter fun slot => slot ∉ b.bound.map (·.1)).map (·.name) := by
  rw [missing, List.filter_map]
  refine congrArg (List.map _) (List.filter_congr fun slot hslot => ?_)
  have hbinds := binds_iff hknown hslot
  rw [Function.comp_apply, Bool.eq_iff_iff, Bool.not_eq_true', ← Bool.not_eq_true, hbinds,
    decide_eq_true_iff, List.mem_map]
  refine not_congr ⟨?_, ?_⟩
  · rintro ⟨a, ha⟩
    exact ⟨_, ha, rfl⟩
  · rintro ⟨p, hp, rfl⟩
    exact ⟨p.2, hp⟩

theorem length_surplus (c : Constructor) (args : List α) :
    (surplus c args).length = args.length - c.slots.length := by
  rw [surplus, List.length_mapIdx, List.length_drop]

/-- **Binding accounts for every argument** of a call: none is lost, none is used twice, and none
takes the place of another. -/
theorem exhaustive_ofCall (c : Constructor) (args : List α) (ks : List (String × α)) :
    Exhaustive c args ks (ofCall c args ks) := by
  obtain ⟨hnodup, hknown⟩ := bound_ofCall c args ks
  obtain ⟨taken, left, hperm, htaken, hleft, hbound, hproblems⟩ := exists_taken c args ks
  refine ⟨⟨taken, left, hperm, htaken, hleft, hbound, hproblems⟩, ?_, ?_, hknown, ?_,
    fun slot hslot a => mem_bound_iff_lookup hslot a, missing_eq hknown⟩
  · have hsize := congrArg List.length hbound
    rw [names, List.length_map, List.length_append, List.length_zip, List.length_map] at hsize
    have hsplit := hperm.length_eq
    rw [List.length_append] at hsplit
    rw [hproblems, List.length_append, List.length_map, length_surplus]
    omega
  · exact .of_map (·.name) (by rwa [List.map_map])
  · intro i slot a hslot ha
    have hname : ((c.slots.map (·.name)).zip args ++ taken)[i]? = some (slot.name, a) := by
      have hzip : ((c.slots.map (·.name)).zip args)[i]? = some (slot.name, a) :=
        List.getElem?_zip_eq_some.2 ⟨by rw [List.getElem?_map, hslot]; rfl, ha⟩
      obtain ⟨hi, -⟩ := List.getElem?_eq_some_iff.1 hzip
      rw [List.getElem?_append_left hi, hzip]
    rw [← hbound, names, List.getElem?_map] at hname
    obtain ⟨⟨slot', a'⟩, hp, heq⟩ := Option.map_eq_some_iff.1 hname
    obtain ⟨hsame, rfl⟩ := Prod.mk.inj heq
    obtain rfl := slot_eq_of_name (hknown _ (List.mem_of_getElem? hp))
      (List.mem_of_getElem? hslot) hsame
    exact hp

/-- A keyword argument takes no place from a positional one, nor from a keyword before it. -/
example : names (ofCall .macd [12] [("slow_length", 26), ("fast_length", 5),
    ("slow_length", 30)]).bound = [("fast_length", 12), ("slow_length", 26)] := by decide

end TradeSignals.Binding
