import TradeSignals.Proofs.Validation.Alike
import TradeSignals.Proofs.Validation.Exact

/-!
# Calls that are read alike

Two calls of a constructor are read alike if their arguments are, and if keyword arguments with the
same keys are given in whatever order: both come to the same condition, series or setting, or
neither comes to any, and what is noted about them is noted about the same parameters
(`TradeSignals.Reading.ofCall_alike`, `TradeSignals.Expr.CallAlike.readAlike`). What a fault or a
note says about an argument may differ, since the argument itself is shown there.

Keyword arguments whose keys are distinct are bound each on its own
(`TradeSignals.Binding.foldl_keyword_eq`), and what is built is built from values that are found by
the names of their parameters. So the order of keywords is one of notes and values, and of nothing
else.
-/

namespace TradeSignals

/-! ### Values -/

/-- Values of parameters among which the same ones are found. -/
def Values.Same (vs vs' : Values) : Prop := ∀ key, vs.lookup key = vs'.lookup key

namespace Values

variable {vs vs' : Values}

/-- The same values are found in any order. -/
theorem Same.of_matched (hkeys : (vs.map (·.1)).Nodup) (hkeys' : (vs'.map (·.1)).Nodup)
    (h : List.Matched Eq vs vs') : vs.Same vs' := by
  refine fun key => Option.ext fun v => ?_
  rw [Dictionary.lookup_eq_some_iff_mem hkeys, Dictionary.lookup_eq_some_iff_mem hkeys']
  constructor
  · intro hmem
    obtain ⟨_, hmem', rfl⟩ := h.left _ hmem
    exact hmem'
  · intro hmem
    obtain ⟨_, hmem', rfl⟩ := h.right _ hmem
    exact hmem'

/-- **What is found for a parameter** is the same for each kind of value. -/
theorem Same.found (h : vs.Same vs') (key : String) :
    vs.int? key = vs'.int? key ∧ vs.float? key = vs'.float? key ∧
      vs.length? key = vs'.length? key ∧ vs.priceField? key = vs'.priceField? key ∧
      vs.stopKind? key = vs'.stopKind? key ∧ vs.retracement? key = vs'.retracement? key ∧
      vs.series? key = vs'.series? key ∧ vs.condition? key = vs'.condition? key := by
  simp only [int?, float?, length?, priceField?, stopKind?, retracement?, series?, condition?,
    h key, and_self]

end Values

/-! ### Binding -/

theorem BindingProblem.place_map {α β : Type} (f : α → β) (p : BindingProblem α) :
    (p.map f).place = p.place := by
  cases p <;> rfl

namespace Binding

variable {α β : Type} {R : α → β → Prop} {c : Constructor} {b : Binding α} {k : String × α}
  {args : List α} {args' : List β} {ks : List (String × α)} {ks' : List (String × β)}

/-- A keyword argument as it is bound, if it is. -/
def kept? (c : Constructor) (b : Binding α) (k : String × α) : Option (Slot × α) :=
  match c.slot? k.1 with
  | none => none
  | some slot => if b.binds slot.name then none else some (slot, k.2)

/-- The problem with a keyword argument, if there is one. -/
def unkept? (c : Constructor) (b : Binding α) (k : String × α) : Option (BindingProblem α) :=
  match c.slot? k.1 with
  | none => some (.unknown k.1 c)
  | some slot => if b.binds slot.name then some (.repeated k.1) else none

theorem keyword_eq (c : Constructor) (b : Binding α) (k : String × α) :
    keyword c b k = ⟨b.bound ++ (b.kept? c k).toList, b.problems ++ (b.unkept? c k).toList⟩ := by
  rw [keyword, kept?, unkept?]
  rcases c.slot? k.1 with _ | slot
  · simp
  · dsimp only
    split <;> simp

theorem name_of_slot? {key : String} {slot : Slot} (h : c.slot? key = some slot) :
    slot.name = key := by
  simpa using List.find?_some h

/-- What is bound by keyword is bound to a parameter without an argument. -/
theorem of_kept? {p : Slot × α} (h : b.kept? c k = some p) :
    p.1 ∈ c.slots ∧ p.1.name ∉ b.bound.map (·.1.name) := by
  unfold kept? at h
  split at h
  · cases h
  · next slot hslot =>
    split at h
    · cases h
    · next hbinds =>
      cases h
      refine ⟨List.mem_of_find?_eq_some hslot, fun hmem => hbinds ?_⟩
      obtain ⟨p, hp, hname⟩ := List.mem_map.1 hmem
      exact List.any_eq_true.2 ⟨p, hp, beq_iff_eq.2 hname⟩

/-- A keyword argument takes no parameter but its own. -/
theorem binds_keyword {name : String} (h : k.1 ≠ name) :
    (keyword c b k).binds name = b.binds name := by
  rw [keyword_eq, binds, binds, List.any_append, kept?]
  split
  · exact Bool.or_false _
  · next slot hslot =>
    split
    · exact Bool.or_false _
    · have hne : ¬slot.name = name := fun heq => h ((name_of_slot? hslot).symm.trans heq)
      rw [Option.toList_some, List.any_cons, List.any_nil, beq_eq_false_iff_ne.2 hne]
      exact Bool.or_false _

/-- **Keyword arguments with distinct keys** are bound each on its own. -/
theorem foldl_keyword_eq (hkeys : (ks.map (·.1)).Nodup) : ks.foldl (keyword c) b =
    ⟨b.bound ++ ks.filterMap (b.kept? c), b.problems ++ ks.filterMap (b.unkept? c)⟩ := by
  induction ks generalizing b with
  | nil => rw [List.filterMap_nil, List.filterMap_nil, List.append_nil, List.append_nil]; rfl
  | cons k ks ih =>
    rw [List.map_cons, List.nodup_cons] at hkeys
    have hbinds : ∀ k' ∈ ks, ∀ slot, c.slot? k'.1 = some slot →
        (keyword c b k).binds slot.name = b.binds slot.name := by
      intro k' hk' slot hslot
      refine binds_keyword fun heq => hkeys.1 ?_
      rw [heq, name_of_slot? hslot]
      exact List.mem_map_of_mem hk'
    have hkept : ks.filterMap ((keyword c b k).kept? c) = ks.filterMap (b.kept? c) := by
      refine List.filterMap_congr fun k' hk' => ?_
      unfold kept?
      split
      · rfl
      · next slot hslot => rw [hbinds k' hk' slot hslot]
    have hunkept : ks.filterMap ((keyword c b k).unkept? c) = ks.filterMap (b.unkept? c) := by
      refine List.filterMap_congr fun k' hk' => ?_
      unfold unkept?
      split
      · rfl
      · next slot hslot => rw [hbinds k' hk' slot hslot]
    have hcons : ∀ {δ : Type} (f : String × α → Option δ),
        (k :: ks).filterMap f = (f k).toList ++ ks.filterMap f := fun f => by
      rw [List.filterMap_cons]
      cases f k <;> rfl
    rw [List.foldl_cons, ih hkeys.2, hkept, hunkept, keyword_eq, hcons, hcons, List.append_assoc,
      List.append_assoc]

theorem positional_forall₂ (h : List.Forall₂ R args args') (n : ℕ) (slots : List Slot) :
    List.Forall₂ (fun p q => p.1 = q.1 ∧ R p.2 q.2) (positional n slots args).bound
      (positional n slots args').bound ∧
    List.Forall₂ (fun p q => p.place = q.place) (positional n slots args).problems
      (positional n slots args').problems := by
  induction h generalizing n slots with
  | nil => cases slots <;> exact ⟨.nil, .nil⟩
  | cons hab _ ih =>
    cases slots with
    | nil => exact ⟨(ih (n + 1) []).1, .cons rfl (ih (n + 1) []).2⟩
    | cons slot slots => exact ⟨.cons ⟨rfl, hab⟩ (ih (n + 1) slots).1, (ih (n + 1) slots).2⟩

/-- The same parameters have arguments. -/
theorem binds_congr {b : Binding α} {b' : Binding β}
    (h : List.Matched (fun p q => p.1 = q.1 ∧ R p.2 q.2) b.bound b'.bound) (name : String) :
    b.binds name = b'.binds name := by
  rw [Bool.eq_iff_iff, binds, binds, List.any_eq_true, List.any_eq_true]
  constructor
  · rintro ⟨p, hp, hname⟩
    obtain ⟨q, hq, heq, -⟩ := h.left p hp
    exact ⟨q, hq, heq ▸ hname⟩
  · rintro ⟨q, hq, hname⟩
    obtain ⟨p, hp, heq, -⟩ := h.right q hq
    exact ⟨p, hp, heq ▸ hname⟩

/-- **Arguments that match are bound alike**: positional arguments one by one, and keyword arguments
by their keys, which are distinct. -/
theorem ofCall_matched (hargs : List.Forall₂ R args args') (hkeys : (ks.map (·.1)).Nodup)
    (hkeys' : (ks'.map (·.1)).Nodup)
    (hks : List.Matched (fun k k' => k.1 = k'.1 ∧ R k.2 k'.2) ks ks') (c : Constructor) :
    List.Matched (fun p q => p.1 = q.1 ∧ R p.2 q.2) (ofCall c args ks).bound
      (ofCall c args' ks').bound ∧
    List.Matched (fun p q => p.place = q.place) (ofCall c args ks).problems
      (ofCall c args' ks').problems := by
  obtain ⟨hbound, hproblems⟩ := positional_forall₂ hargs 0 c.slots
  have hbinds := binds_congr (.of_forall₂ hbound)
  rw [ofCall, ofCall, foldl_keyword_eq hkeys, foldl_keyword_eq hkeys']
  refine ⟨(List.Matched.of_forall₂ hbound).append (hks.filterMap ?_),
    (List.Matched.of_forall₂ hproblems).append (hks.filterMap ?_)⟩
  · rintro ⟨key, a⟩ ⟨_, a'⟩ ⟨rfl, ha⟩
    rw [kept?, kept?]
    dsimp only
    split
    · exact .none
    · rw [hbinds]
      split
      · exact .none
      · exact .some ⟨rfl, ha⟩
  · rintro ⟨key, a⟩ ⟨_, a'⟩ ⟨rfl, ha⟩
    rw [unkept?, unkept?]
    dsimp only
    split
    · exact .some rfl
    · rw [hbinds]
      split
      · exact .some rfl
      · exact .none

/-- **What is bound** is bound to parameters of the constructor, to each one argument at most. -/
theorem bound_ofCall (c : Constructor) (args : List α) (ks : List (String × α)) :
    ((ofCall c args ks).bound.map (·.1.name)).Nodup ∧
      ∀ p ∈ (ofCall c args ks).bound, p.1 ∈ c.slots := by
  induction ks using List.reverseRecOn with
  | nil =>
    refine ⟨?_, fun p hp => (mem_bound_positional p hp).1⟩
    have hnodup := ((sublist_positional 0 c.slots args).map (·.name)).nodup (nodup_slots c)
    rwa [List.map_map] at hnodup
  | append_singleton ks k ih =>
    rw [ofCall, List.foldl_concat]
    rw [ofCall] at ih
    generalize ks.foldl (keyword c) (positional 0 c.slots args) = b at ih
    rw [keyword_eq]
    dsimp only
    rcases hkept : b.kept? c k with _ | p
    · rwa [Option.toList_none, List.append_nil]
    · obtain ⟨hslot, hfree⟩ := of_kept? hkept
      rw [Option.toList_some, List.map_append, List.map_singleton]
      exact ⟨ih.1.append (List.nodup_singleton _) (List.disjoint_singleton.2 hfree),
        List.forall_mem_append.2 ⟨ih.2, List.forall_mem_singleton.2 hslot⟩⟩

end Binding

/-! ### Arguments -/

/-- Is an expression a call? -/
def Expr.IsCall (e : Expr) : Prop := ∃ callee args ks, e = .call callee args ks

/-- **Two readings are alike**: they come to the same things, with notes about the same places. The
expressions that were read may be different calls. -/
structure Reading.Alike (r r' : Reading) : Prop where
  /-- The expressions are the same, or calls. -/
  expr : r.expr = r'.expr ∨ r.expr.IsCall ∧ r'.expr.IsCall
  /-- As a condition. -/
  condition : Check.Alike Eq r.condition r'.condition
  /-- As a series. -/
  series : Check.Alike Eq r.series r'.series
  /-- As an order size. -/
  orderSize : Check.Alike Eq r.orderSize r'.orderSize
  /-- As a commission or none. -/
  commission : Check.Alike Eq r.commission r'.commission
  /-- As a stop loss or none. -/
  stopLoss : Check.Alike Eq r.stopLoss r'.stopLoss
  /-- As a take profit or none. -/
  takeProfit : Check.Alike Eq r.takeProfit r'.takeProfit

namespace Reading

variable {cx : Context} {c : Constructor} {r r' : Reading} {vs vs' : Values}

theorem Alike.refl (r : Reading) : r.Alike r :=
  ⟨.inl rfl, .refl _, .refl _, .refl _, .refl _, .refl _, .refl _⟩

/-- A call is no ticker. -/
theorem Alike.ticker (h : r.Alike r') :
    Except.Alike Eq (Plain.ticker r.expr) (Plain.ticker r'.expr) := by
  rcases h.expr with heq | ⟨⟨_, _, _, hr⟩, ⟨_, _, _, hr'⟩⟩
  · rw [heq]
    exact .refl _
  · rw [hr, hr']
    exact .error _ _

/-- **A parameter makes the same** of readings that are alike. -/
theorem Alike.value (h : r.Alike r') (cx : Context) (tag : Tag) :
    Check.Alike Eq (r.value cx tag) (r'.value cx tag) := by
  have hmap : ∀ {α : Type} {v w : Check α} (toValue : α → Value), Check.Alike Eq v w →
      Check.Alike Eq (toValue <$> v) (toValue <$> w) :=
    fun toValue hvw => hvw.map fun _ _ hab => congrArg toValue hab
  have hplain : ∀ read : Expr → Except Fault Value,
      (∀ callee args ks, ∃ fault, read (.call callee args ks) = .error fault) →
        Check.Alike Eq (.ofResult (read r.expr)) (.ofResult (read r'.expr)) := by
    intro read hcall
    rcases h.expr with heq | ⟨⟨_, _, _, hr⟩, ⟨_, _, _, hr'⟩⟩
    · rw [heq]
      exact .refl _
    · obtain ⟨fault, hfault⟩ := hcall _ _ _
      obtain ⟨fault', hfault'⟩ := hcall _ _ _
      rw [hr, hr', hfault, hfault']
      exact .fail fault fault'
  cases tag with
  | condition => exact hmap _ h.condition
  | series => exact hmap _ h.series
  | orderSize => exact hmap _ h.orderSize
  | commission => exact hmap _ h.commission
  | stopLoss => exact hmap _ h.stopLoss
  | takeProfit => exact hmap _ h.takeProfit
  | int => exact hplain (fun e => Value.int <$> Plain.int e) fun _ _ _ => ⟨_, rfl⟩
  | float => exact hplain (fun e => Value.float <$> Plain.float e) fun _ _ _ => ⟨_, rfl⟩
  | bool => exact hplain (fun e => Value.bool <$> Plain.bool e) fun _ _ _ => ⟨_, rfl⟩
  | ticker => exact hplain (fun e => Value.ticker <$> Plain.ticker e) fun _ _ _ => ⟨_, rfl⟩
  | date => exact hplain (fun e => Value.date <$> Plain.date cx.today e) fun _ _ _ => ⟨_, rfl⟩
  | retracement =>
    exact hplain (fun e => Value.retracement <$> Plain.retracement e) fun _ _ _ => ⟨_, rfl⟩
  | choice kind =>
    exact hplain (Plain.choiceValue kind) fun _ _ _ => by cases kind <;> exact ⟨_, rfl⟩

theorem Alike.parameter (h : r.Alike r') (cx : Context) (owner : Option Constructor) (slot : Slot) :
    Check.Alike Eq (r.parameter cx owner slot) (r'.parameter cx owner slot) := by
  refine (h.value cx slot.tag).bind ?_
  rintro v _ rfl
  exact .refl _

/-- Two arguments are for the same parameter, and alike. -/
def ArgumentAlike (p q : Slot × Reading) : Prop := p.1 = q.1 ∧ p.2.Alike q.2

/-- The value of an argument, if it has one. -/
def found? (cx : Context) (c : Constructor) (p : Slot × Reading) : Option (String × Value) :=
  (p.2.parameter cx (some c) p.1).result.toOption.map (p.1.name, ·)

theorem found?_alike {p q : Slot × Reading} (h : ArgumentAlike p q) (cx : Context)
    (c : Constructor) : found? cx c p = found? cx c q := by
  obtain ⟨slot, r⟩ := p
  obtain ⟨_, r'⟩ := q
  obtain ⟨rfl, hr⟩ := h
  rw [found?, found?, (hr.parameter cx (some c) slot).result.toOption_eq]

/-- **The values of arguments** are those that are found, and what is noted about each argument is
noted. -/
theorem usableValues_eq (cx : Context) (c : Constructor) (bound : List (Slot × Reading)) :
    usableValues cx c bound = ⟨bound.flatMap fun p => (usableValues cx c [p]).notes,
      .ok (bound.filterMap (found? cx c))⟩ := by
  induction bound with
  | nil => rfl
  | cons p bound ih =>
    rw [List.flatMap_cons, List.filterMap_cons, usableValues, usableValues, ih, found?]
    generalize p.2.parameter cx (some c) p.1 = check
    obtain ⟨notes, fault | v⟩ := check
    · refine congrArg₂ Verdict.mk ?_ rfl
      show notes ++ ([_] ++ _) = (notes ++ ([_] ++ [])) ++ _
      rw [List.append_nil, List.append_assoc]
    · refine congrArg₂ Verdict.mk ?_ rfl
      show notes ++ (_ ++ []) = (notes ++ ([] ++ [])) ++ _
      rw [List.append_nil, List.append_nil, List.append_nil]

/-- Values are found for the parameters of the arguments. -/
theorem keys_found_sublist (cx : Context) (c : Constructor) (bound : List (Slot × Reading)) :
    ((bound.filterMap (found? cx c)).map (·.1)).Sublist (bound.map (·.1.name)) := by
  induction bound with
  | nil => exact .refl _
  | cons p bound ih =>
    rw [List.filterMap_cons, List.map_cons, found?]
    cases (p.2.parameter cx (some c) p.1).result with
    | error fault => exact ih.cons _
    | ok v => exact ih.cons_cons _

/-- The same values are found among arguments that match, each for a parameter of its own. -/
theorem same_found {bound bound' : List (Slot × Reading)}
    (hnames : (bound.map (·.1.name)).Nodup) (hnames' : (bound'.map (·.1.name)).Nodup)
    (h : List.Matched ArgumentAlike bound bound') (cx : Context) (c : Constructor) :
    Values.Same (bound.filterMap (found? cx c)) (bound'.filterMap (found? cx c)) := by
  refine .of_matched ((keys_found_sublist cx c bound).nodup hnames)
    ((keys_found_sublist cx c bound').nodup hnames') (h.filterMap fun p q hpq => ?_)
  rw [found?_alike hpq cx c]
  cases found? cx c q with
  | none => exact .none
  | some v => exact .some rfl

/-- **Arguments of conditions and series** that match come to the same values. -/
theorem usableValues_alike {bound bound' : List (Slot × Reading)}
    (hnames : (bound.map (·.1.name)).Nodup) (hnames' : (bound'.map (·.1.name)).Nodup)
    (h : List.Matched ArgumentAlike bound bound') (cx : Context) (c : Constructor) :
    Check.Alike Values.Same (usableValues cx c bound) (usableValues cx c bound') := by
  rw [usableValues_eq, usableValues_eq cx c bound']
  refine ⟨h.flatMap ?_, .ok (same_found hnames hnames' h cx c)⟩
  rintro ⟨slot, r⟩ ⟨_, r'⟩ ⟨rfl, hr⟩
  have hone : Check.Alike Eq (usableValues cx c [(slot, r)]) (usableValues cx c [(slot, r')]) := by
    refine (hr.parameter cx (some c) slot).attempt.bind fun x y hxy => ?_
    cases hxy with
    | ok hv =>
      cases hv
      exact .refl _
    | error fault fault' => exact .note_bind (.refl _) rfl
  exact hone.notes

/-- The values of the arguments of a setting are those that are found, if all of them are. -/
theorem result_allValues_eq_ok {bound : List (Slot × Reading)} {vs : Values} :
    (allValues cx c bound).result = .ok vs ↔
      (∀ p ∈ bound, (found? cx c p).isSome = true) ∧ vs = bound.filterMap (found? cx c) := by
  induction bound generalizing vs with
  | nil =>
    exact ⟨fun h => ⟨List.forall_mem_nil _, (Except.ok.inj h).symm⟩,
      fun h => congrArg Except.ok h.2.symm⟩
  | cons p bound ih =>
    obtain ⟨slot, r⟩ := p
    rw [List.forall_mem_cons, List.filterMap_cons, found?, allValues]
    generalize r.parameter cx (some c) slot = check
    obtain ⟨notes, fault | v⟩ := check
    · refine ⟨fun h => ?_, fun h => absurd h.1.1 Bool.false_ne_true⟩
      obtain ⟨_, ⟨⟩, -⟩ := Verdict.result_bind_eq_ok.1 h
    · constructor
      · intro h
        obtain ⟨_, ⟨⟩, h⟩ := Verdict.result_bind_eq_ok.1 h
        obtain ⟨rest, hrest, ⟨⟩⟩ := Verdict.result_bind_eq_ok.1 h
        obtain ⟨hall, rfl⟩ := ih.1 hrest
        exact ⟨⟨rfl, hall⟩, rfl⟩
      · rintro ⟨⟨-, hall⟩, rfl⟩
        exact Verdict.result_bind_eq_ok.2
          ⟨v, rfl, Verdict.result_bind_eq_ok.2 ⟨_, ih.2 ⟨hall, rfl⟩, rfl⟩⟩

/-- A tag for something that is read without notes. -/
def IsPlain (tag : Tag) : Prop := tag = .int ∨ tag = .float ∨ ∃ kind, tag = .choice kind

theorem notes_parameter {slot : Slot} (h : IsPlain slot.tag) (cx : Context)
    (owner : Option Constructor) (r : Reading) : (r.parameter cx owner slot).notes = [] := by
  have hread : ∃ x, r.value cx slot.tag = .ofResult x := by
    rcases h with h | h | ⟨kind, h⟩ <;> rw [h] <;> exact ⟨_, rfl⟩
  obtain ⟨x, hx⟩ := hread
  rw [parameter, hx]
  refine Verdict.notes_bind_eq_nil rfl fun v => ?_
  split <;> rfl

theorem notes_allValues {bound : List (Slot × Reading)} (h : ∀ p ∈ bound, IsPlain p.1.tag) :
    (allValues cx c bound).notes = [] := by
  induction bound with
  | nil => rfl
  | cons p bound ih =>
    obtain ⟨hp, hbound⟩ := List.forall_mem_cons.1 h
    refine Verdict.notes_bind_eq_nil ?_ fun v => Verdict.notes_bind_eq_nil (ih hbound) fun _ => rfl
    show (p.2.parameter cx (some c) p.1).notes.map id = []
    rw [notes_parameter hp]
    rfl

/-- **Arguments of settings** that match come to the same values. -/
theorem allValues_alike {bound bound' : List (Slot × Reading)}
    (hplain : ∀ p ∈ bound, IsPlain p.1.tag) (hplain' : ∀ p ∈ bound', IsPlain p.1.tag)
    (hnames : (bound.map (·.1.name)).Nodup) (hnames' : (bound'.map (·.1.name)).Nodup)
    (h : List.Matched ArgumentAlike bound bound') (cx : Context) (c : Constructor) :
    Check.Alike Values.Same (allValues cx c bound) (allValues cx c bound') := by
  have hfound : (∀ p ∈ bound, (found? cx c p).isSome = true) ↔
      ∀ q ∈ bound', (found? cx c q).isSome = true := by
    constructor
    · intro hall q hq
      obtain ⟨p, hp, hpq⟩ := h.right q hq
      exact found?_alike hpq cx c ▸ hall p hp
    · intro hall p hp
      obtain ⟨q, hq, hpq⟩ := h.left p hp
      exact (found?_alike hpq cx c).symm ▸ hall q hq
  refine ⟨?_, .of_ok ?_ fun vs vs' hvs hvs' => ?_⟩
  · rw [notes_allValues hplain, notes_allValues hplain']
    exact .nil
  · simp only [result_allValues_eq_ok, exists_and_left, exists_eq, and_true, hfound]
  · rw [(result_allValues_eq_ok.1 hvs).2, (result_allValues_eq_ok.1 hvs').2]
    exact same_found hnames hnames' h cx c

/-! ### Calls -/

/-- **The arguments of two calls are alike**: positional arguments one by one, and keyword arguments
by their keys, which are distinct. -/
structure ArgumentsAlike (args : List Reading) (ks : List (String × Reading)) (args' : List Reading)
    (ks' : List (String × Reading)) : Prop where
  /-- The positional arguments are alike. -/
  positional : List.Forall₂ Alike args args'
  /-- The keys of the first call are distinct. -/
  nodup : (ks.map (·.1)).Nodup
  /-- The keys of the second call are distinct. -/
  nodup' : (ks'.map (·.1)).Nodup
  /-- The keyword arguments are alike. -/
  keywords : List.Matched (fun k k' => k.1 = k'.1 ∧ k.2.Alike k'.2) ks ks'

theorem built_alike {α : Type} (c : Constructor) (vs vs' : Values) (x : Option α) :
    Check.Alike Eq (built c vs x) (built c vs' x) := by
  cases x with
  | none => exact .fail _ _
  | some a => exact .pure rfl

theorem condition?_same (h : vs.Same vs') (c : Constructor) :
    condition? c vs = condition? c vs' := by
  cases c <;> simp only [condition?, comparison?, trend?, h.found]

theorem series?_same (h : vs.Same vs') (c : Constructor) (ticker : String) :
    series? c ticker vs = series? c ticker vs' := by
  cases c <;> simp only [series?, windowed?, band?, h.found]

section Calls

variable {args args' : List Reading} {ks ks' : List (String × Reading)}

theorem callValues_alike (h : ArgumentsAlike args ks args' ks') (cx : Context) (c : Constructor) :
    Check.Alike Values.Same (callValues cx c args ks) (callValues cx c args' ks') := by
  obtain ⟨hbound, hproblems⟩ :=
    Binding.ofCall_matched h.positional h.nodup h.nodup' h.keywords c
  refine (Verdict.Alike.noteAll (hproblems.map fun p q hpq => ?_)).bind fun _ _ _ =>
    usableValues_alike (Binding.bound_ofCall c args ks).1 (Binding.bound_ofCall c args' ks').1
      hbound cx c
  show (c, (p.map Reading.expr).place) = (c, (q.map Reading.expr).place)
  rw [BindingProblem.place_map, BindingProblem.place_map, hpq]

/-! ### Conditions -/

theorem usableConditions_alike (h : List.Forall₂ Alike args args') (c : Constructor) (n : ℕ) :
    Check.Alike Eq (usableConditions c n args) (usableConditions c n args') := by
  induction h generalizing n with
  | nil => exact .refl _
  | cons hr _ ih =>
    refine hr.condition.attempt.bind fun x y hxy => ?_
    cases hxy with
    | ok hc =>
      cases hc
      exact (ih (n + 1)).bind fun _ _ hcs => hcs ▸ .refl _
    | error fault fault' => exact .note_bind (ih (n + 1)) rfl

theorem conditionOfCall_alike (h : ArgumentsAlike args ks args' ks') (cx : Context)
    (callee : String) : Check.Alike Eq (conditionOfCall cx callee args ks)
      (conditionOfCall cx callee args' ks') := by
  refine (Verdict.Alike.refl (resolve .condition callee)).bind ?_
  rintro c _ rfl
  split
  · refine (Verdict.Alike.noteAll (h.keywords.map fun k k' hk => ?_)).bind fun _ _ _ =>
      (usableConditions_alike h.positional c 0).bind ?_
    · exact congrArg (Prod.mk c) hk.1
    · rintro cs _ rfl
      exact .refl _
  · refine (callValues_alike h cx c).bind fun vs vs' hvs => ?_
    rw [condition?_same hvs]
    exact built_alike c vs vs' _

/-! ### Series -/

theorem seriesTicker_alike {given given' : List Reading} (h : List.Forall₂ Alike given given')
    (cx : Context) (c : Constructor) :
    Check.Alike Eq (seriesTicker cx c given) (seriesTicker cx c given') := by
  cases h with
  | nil => exact .refl _
  | cons hr hrest =>
    refine (Verdict.Alike.noteAll ((List.Matched.of_forall₂ hrest).map fun _ _ _ => rfl)).bind
      fun _ _ _ => ?_
    dsimp only
    have hticker := hr.ticker
    generalize Plain.ticker _ = x at hticker ⊢
    generalize Plain.ticker _ = y at hticker ⊢
    cases hticker with
    | ok h =>
      cases h
      exact .refl _
    | error fault fault' => exact .note_bind (.refl _) rfl

theorem tickerArguments_alike (h : ArgumentsAlike args ks args' ks') :
    List.Forall₂ Alike (tickerArguments args ks) (tickerArguments args' ks') := by
  have hlength : ∀ {ks : List (String × Reading)}, (ks.map (·.1)).Nodup →
      (ks.filter isTickerKey).length ≤ 1 := by
    intro ks hkeys
    have hall : ∀ key ∈ (ks.filter isTickerKey).map (·.1), key = "ticker" := by
      intro key hkey
      obtain ⟨k, hk, rfl⟩ := List.mem_map.1 hkey
      exact beq_iff_eq.1 (List.mem_filter.1 hk).2
    have hnodup : ((ks.filter isTickerKey).map (·.1)).Nodup :=
      (List.filter_sublist.map _).nodup hkeys
    rw [List.eq_replicate_of_mem hall, List.nodup_replicate, List.length_map] at hnodup
    exact hnodup
  have hks : List.Forall₂ (fun k k' => k.1 = k'.1 ∧ k.2.Alike k'.2) (ks.filter isTickerKey)
      (ks'.filter isTickerKey) :=
    (h.keywords.filter fun k k' hk => by rw [isTickerKey, isTickerKey, hk.1]).forall₂
      (hlength h.nodup) (hlength h.nodup')
  refine List.rel_append (List.forall₂_take 1 h.positional) ?_
  rw [List.forall₂_map_left_iff, List.forall₂_map_right_iff]
  exact hks.imp fun _ _ => And.right

theorem seriesOfCall_alike (h : ArgumentsAlike args ks args' ks') (cx : Context)
    (callee : String) : Check.Alike Eq (seriesOfCall cx callee args ks)
      (seriesOfCall cx callee args' ks') := by
  refine (Verdict.Alike.refl (resolve .series callee)).bind ?_
  rintro c _ rfl
  split
  · have hrest : ArgumentsAlike (args.drop 1) (ks.filter fun k => !isTickerKey k) (args'.drop 1)
        (ks'.filter fun k => !isTickerKey k) :=
      { positional := List.forall₂_drop 1 h.positional
        nodup := (List.filter_sublist.map _).nodup h.nodup
        nodup' := (List.filter_sublist.map _).nodup h.nodup'
        keywords := h.keywords.filter fun k k' hk => by rw [isTickerKey, isTickerKey, hk.1] }
    refine (seriesTicker_alike (tickerArguments_alike h) cx c).bind ?_
    rintro ticker _ rfl
    refine (callValues_alike hrest cx c).bind fun vs vs' hvs => ?_
    rw [series?_same hvs]
    exact built_alike c vs vs' _
  · refine (callValues_alike h cx c).bind fun vs vs' hvs => ?_
    rw [(hvs.found "value").1]
    exact built_alike c vs vs' _

/-! ### Settings -/

theorem isPlain_slots (h : c.category ∈ [.orderSize, .commission, .stopLoss, .takeProfit]) :
    ∀ slot ∈ c.slots, IsPlain slot.tag := by
  cases c <;> simp_all [Constructor.category, Constructor.slots, IsPlain]

/-- **A call is read as the same setting** if the setting is built from what is found among its
values. -/
theorem settingOfCall_alike {α : Type} {category : Category}
    {build? : Constructor → Values → Option α}
    (hcategory : category ∈ [.orderSize, .commission, .stopLoss, .takeProfit])
    (hbuild : ∀ c vs vs', Values.Same vs vs' → build? c vs = build? c vs')
    (h : ArgumentsAlike args ks args' ks') (cx : Context) (callee : String) :
    Check.Alike Eq (settingOfCall cx category build? callee args ks)
      (settingOfCall cx category build? callee args' ks') := by
  rw [settingOfCall, settingOfCall]
  split
  · exact .refl _
  · next c hc =>
    dsimp only
    obtain ⟨hbound, hproblems⟩ :=
      Binding.ofCall_matched h.positional h.nodup h.nodup' h.keywords c
    obtain ⟨hnames, hslots⟩ := Binding.bound_ofCall c args ks
    obtain ⟨hnames', hslots'⟩ := Binding.bound_ofCall c args' ks'
    generalize Binding.ofCall c args ks = binding at *
    generalize Binding.ofCall c args' ks' = binding' at *
    obtain ⟨bound, problems⟩ := binding
    obtain ⟨bound', problems'⟩ := binding'
    rw [Constructor.ofNameIn?, Option.filter_eq_some_iff] at hc
    have hplain := isPlain_slots ((of_decide_eq_true hc.2).symm ▸ hcategory)
    have hbinds : ∀ name, Binding.binds ⟨bound, []⟩ name = Binding.binds ⟨bound', []⟩ name :=
      fun name => Binding.binds_congr hbound name
    have hmissing : Binding.missing c ⟨bound, []⟩ = Binding.missing c ⟨bound', []⟩ := by
      simp only [Binding.missing, hbinds]
    dsimp only at hbound hproblems hnames hslots hnames' hslots' ⊢
    rcases problems with _ | ⟨problem, problems⟩
    · rw [hproblems.eq_nil_iff.1 rfl]
      dsimp only
      rw [hmissing]
      split
      · exact .refl _
      · refine (allValues_alike (fun p hp => hplain _ (hslots p hp))
          (fun p hp => hplain _ (hslots' p hp)) hnames hnames' hbound cx c).bind
          fun vs vs' hvs => ?_
        rw [hbuild c vs vs' hvs]
        split
        · exact .refl _
        · exact .fail _ _
    · rcases problems' with _ | ⟨problem', problems'⟩
      · exact absurd (hproblems.eq_nil_iff.2 rfl) (List.cons_ne_nil _ _)
      · exact .fail _ _

/-- **Calls of a constructor are read alike** if their arguments are. -/
theorem ofCall_alike (h : ArgumentsAlike args ks args' ks') (cx : Context) {e e' : Expr}
    (he : e.IsCall) (he' : e'.IsCall) (callee : String) :
    (ofCall cx e callee args ks).Alike (ofCall cx e' callee args' ks') where
  expr := .inr ⟨he, he'⟩
  condition := conditionOfCall_alike h cx callee
  series := seriesOfCall_alike h cx callee
  orderSize := settingOfCall_alike (by decide)
    (fun c vs vs' hvs => by simp only [orderSize?, hvs.found]) h cx callee
  commission := settingOfCall_alike (by decide)
    (fun c vs vs' hvs => by simp only [commission?, hvs.found]) h cx callee
  stopLoss := settingOfCall_alike (by decide)
    (fun c vs vs' hvs => by simp only [stopLoss?, hvs.found]) h cx callee
  takeProfit := settingOfCall_alike (by decide)
    (fun c vs vs' hvs => by simp only [takeProfit?, hvs.found]) h cx callee

end Calls

end Reading

/-! ### Expressions -/

namespace Expr

/-- **Two expressions are read alike**, whatever they are read against. -/
def ReadAlike (e e' : Expr) : Prop := ∀ cx, (Reading.of cx e).Alike (Reading.of cx e')

theorem ReadAlike.refl (e : Expr) : e.ReadAlike e := fun _ => .refl _

/-- **The arguments of two calls are read alike**: positional arguments one by one, and keyword
arguments by their keys, which are distinct. -/
structure CallAlike (args : List Expr) (ks : List (String × Expr)) (args' : List Expr)
    (ks' : List (String × Expr)) : Prop where
  /-- The positional arguments are read alike. -/
  positional : List.Forall₂ ReadAlike args args'
  /-- The keys of the first call are distinct. -/
  nodup : (ks.map (·.1)).Nodup
  /-- The keys of the second call are distinct. -/
  nodup' : (ks'.map (·.1)).Nodup
  /-- The keyword arguments are read alike. -/
  keywords : List.Matched (fun k k' => k.1 = k'.1 ∧ k.2.ReadAlike k'.2) ks ks'

namespace CallAlike

variable {args args' : List Expr} {ks ks' : List (String × Expr)} {e e' : Expr}

theorem of_perm (hkeys : (ks.map (·.1)).Nodup) (h : ks.Perm ks') : CallAlike args ks args ks' where
  positional := List.forall₂_same.2 fun e _ => .refl e
  nodup := hkeys
  nodup' := (h.map _).nodup_iff.1 hkeys
  keywords := .of_perm (fun k => ⟨rfl, .refl k.2⟩) h

theorem of_positional {before after : List Expr} (hkeys : (ks.map (·.1)).Nodup)
    (h : e.ReadAlike e') : CallAlike (before ++ e :: after) ks (before ++ e' :: after) ks where
  positional := List.rel_append (List.forall₂_same.2 fun e _ => .refl e)
    (.cons h (List.forall₂_same.2 fun e _ => .refl e))
  nodup := hkeys
  nodup' := hkeys
  keywords := .refl (fun k => ⟨rfl, .refl k.2⟩) ks

theorem of_keyword {key : String} {before after : List (String × Expr)}
    (hkeys : ((before ++ (key, e) :: after).map (·.1)).Nodup) (h : e.ReadAlike e') :
    CallAlike args (before ++ (key, e) :: after) args (before ++ (key, e') :: after) where
  positional := List.forall₂_same.2 fun e _ => .refl e
  nodup := hkeys
  nodup' := by
    rw [List.map_append, List.map_cons] at hkeys ⊢
    exact hkeys
  keywords := .of_forall₂ (List.rel_append (List.forall₂_same.2 fun k _ => ⟨rfl, .refl k.2⟩)
    (.cons ⟨rfl, h⟩ (List.forall₂_same.2 fun k _ => ⟨rfl, .refl k.2⟩)))

theorem readAlike (h : CallAlike args ks args' ks') (callee : String) :
    (call callee args ks).ReadAlike (call callee args' ks') := by
  intro cx
  rw [Reading.of_call, Reading.of_call]
  refine Reading.ofCall_alike ⟨?_, ?_, ?_, ?_⟩ cx ⟨_, _, _, rfl⟩ ⟨_, _, _, rfl⟩ callee
  · rw [List.forall₂_map_left_iff, List.forall₂_map_right_iff]
    exact h.positional.imp fun _ _ he => he cx
  · rw [List.map_map]
    exact h.nodup
  · rw [List.map_map]
    exact h.nodup'
  · exact h.keywords.map fun k k' hk => ⟨hk.1, hk.2 cx⟩

end CallAlike

end Expr

end TradeSignals
