import Mathlib.Data.List.Forall2
import TradeSignals.Proofs.Validation.Sound

/-!
# Checks that are alike

Two checks are alike if both come to values that are related, or both are faults, and what is noted
by the one is noted by the other about the same places (`TradeSignals.Verdict.Alike`). Which fault
it is and what a note says may differ, since both show what was written. The relation goes through
all ways of putting checks together.

Notes come in the order in which things are written, and this order does not matter here. So lists
are compared by their members (`TradeSignals.List.Matched`).
-/

namespace TradeSignals

/-! ### Lists that match -/

/-- **Two lists match** if each member of one of them has a counterpart in the other one, wherever
it stands there. -/
structure List.Matched {α β : Type} (R : α → β → Prop) (as : List α) (bs : List β) : Prop where
  /-- Each member of the first list has a counterpart in the second one. -/
  left : ∀ a ∈ as, ∃ b ∈ bs, R a b
  /-- Each member of the second list has a counterpart in the first one. -/
  right : ∀ b ∈ bs, ∃ a ∈ as, R a b

namespace List.Matched

variable {α β γ δ κ : Type} {R : α → β → Prop} {S : γ → δ → Prop} {as as' : List α}
  {bs bs' : List β}

theorem nil : Matched R [] [] := ⟨nofun, nofun⟩

theorem of_forall₂ (h : List.Forall₂ R as bs) : Matched R as bs := by
  induction h with
  | nil => exact nil
  | cons hab _ ih =>
    refine ⟨List.forall_mem_cons.2 ⟨⟨_, List.mem_cons_self, hab⟩, fun a ha => ?_⟩,
      List.forall_mem_cons.2 ⟨⟨_, List.mem_cons_self, hab⟩, fun b hb => ?_⟩⟩
    · obtain ⟨b, hb, hab⟩ := ih.left a ha
      exact ⟨b, List.mem_cons_of_mem _ hb, hab⟩
    · obtain ⟨a, ha, hab⟩ := ih.right b hb
      exact ⟨a, List.mem_cons_of_mem _ ha, hab⟩

/-- Order does not matter. -/
theorem of_perm {R : α → α → Prop} (hR : ∀ a, R a a) (h : as.Perm as') : Matched R as as' :=
  ⟨fun a ha => ⟨a, h.mem_iff.1 ha, hR a⟩, fun a ha => ⟨a, h.mem_iff.2 ha, hR a⟩⟩

theorem refl {R : α → α → Prop} (hR : ∀ a, R a a) (as : List α) : Matched R as as :=
  of_perm hR (.refl as)

theorem append (h : Matched R as bs) (h' : Matched R as' bs') :
    Matched R (as ++ as') (bs ++ bs') := by
  constructor
  · refine List.forall_mem_append.2 ⟨fun a ha => ?_, fun a ha => ?_⟩
    · obtain ⟨b, hb, hab⟩ := h.left a ha
      exact ⟨b, List.mem_append_left _ hb, hab⟩
    · obtain ⟨b, hb, hab⟩ := h'.left a ha
      exact ⟨b, List.mem_append_right _ hb, hab⟩
  · refine List.forall_mem_append.2 ⟨fun b hb => ?_, fun b hb => ?_⟩
    · obtain ⟨a, ha, hab⟩ := h.right b hb
      exact ⟨a, List.mem_append_left _ ha, hab⟩
    · obtain ⟨a, ha, hab⟩ := h'.right b hb
      exact ⟨a, List.mem_append_right _ ha, hab⟩

/-- What comes of matching lists matches. -/
theorem flatMap {f : α → List γ} {g : β → List δ} (h : Matched R as bs)
    (hfg : ∀ a b, R a b → Matched S (f a) (g b)) : Matched S (as.flatMap f) (bs.flatMap g) := by
  constructor
  · intro c hc
    obtain ⟨a, ha, hc⟩ := List.mem_flatMap.1 hc
    obtain ⟨b, hb, hab⟩ := h.left a ha
    obtain ⟨d, hd, hcd⟩ := (hfg a b hab).left c hc
    exact ⟨d, List.mem_flatMap.2 ⟨b, hb, hd⟩, hcd⟩
  · intro d hd
    obtain ⟨b, hb, hd⟩ := List.mem_flatMap.1 hd
    obtain ⟨a, ha, hab⟩ := h.right b hb
    obtain ⟨c, hc, hcd⟩ := (hfg a b hab).right d hd
    exact ⟨c, List.mem_flatMap.2 ⟨a, ha, hc⟩, hcd⟩

theorem map {f : α → γ} {g : β → δ} (h : Matched R as bs) (hfg : ∀ a b, R a b → S (f a) (g b)) :
    Matched S (as.map f) (bs.map g) := by
  rw [List.map_eq_flatMap, List.map_eq_flatMap]
  exact h.flatMap fun a b hab => of_forall₂ (.cons (hfg a b hab) .nil)

theorem filterMap {f : α → Option γ} {g : β → Option δ} (h : Matched R as bs)
    (hfg : ∀ a b, R a b → Option.Rel S (f a) (g b)) :
    Matched S (as.filterMap f) (bs.filterMap g) := by
  rw [List.filterMap_eq_flatMap_toList, List.filterMap_eq_flatMap_toList]
  refine h.flatMap fun a b hab => ?_
  have hrel := hfg a b hab
  generalize f a = x at hrel ⊢
  generalize g b = y at hrel ⊢
  cases hrel with
  | none => exact nil
  | some hcd => exact of_forall₂ (.cons hcd .nil)

theorem filter {p : α → Bool} {q : β → Bool} (h : Matched R as bs)
    (hpq : ∀ a b, R a b → p a = q b) : Matched R (as.filter p) (bs.filter q) := by
  constructor
  · intro a ha
    obtain ⟨ha, hp⟩ := List.mem_filter.1 ha
    obtain ⟨b, hb, hab⟩ := h.left a ha
    exact ⟨b, List.mem_filter.2 ⟨hb, (hpq a b hab).symm.trans hp⟩, hab⟩
  · intro b hb
    obtain ⟨hb, hq⟩ := List.mem_filter.1 hb
    obtain ⟨a, ha, hab⟩ := h.right b hb
    exact ⟨a, List.mem_filter.2 ⟨ha, (hpq a b hab).trans hq⟩, hab⟩

theorem eq_nil_iff (h : Matched R as bs) : as = [] ↔ bs = [] := by
  rw [List.eq_nil_iff_forall_not_mem, List.eq_nil_iff_forall_not_mem]
  constructor
  · intro hnot b hb
    obtain ⟨a, ha, -⟩ := h.right b hb
    exact hnot a ha
  · intro hnot a ha
    obtain ⟨b, hb, -⟩ := h.left a ha
    exact hnot b hb

/-- Lists with one member at most match in their order. -/
theorem forall₂ (h : Matched R as bs) (has : as.length ≤ 1) (hbs : bs.length ≤ 1) :
    List.Forall₂ R as bs := by
  rcases as with _ | ⟨a, as⟩
  · rw [h.eq_nil_iff.1 rfl]
    exact .nil
  · obtain rfl := List.eq_nil_of_length_eq_zero (Nat.le_zero.1 (Nat.le_of_succ_le_succ has))
    obtain ⟨b, hb, hab⟩ := h.left a List.mem_cons_self
    rcases bs with _ | ⟨b', bs⟩
    · cases hb
    · obtain rfl := List.eq_nil_of_length_eq_zero (Nat.le_zero.1 (Nat.le_of_succ_le_succ hbs))
      obtain rfl := List.mem_singleton.1 hb
      exact .cons hab .nil

/-- The same is said of lists that match in what is said. -/
theorem mem_map_iff {f : α → κ} {g : β → κ} (h : Matched (fun a b => f a = g b) as bs) {x : κ} :
    x ∈ as.map f ↔ x ∈ bs.map g := by
  rw [List.mem_map, List.mem_map]
  constructor
  · rintro ⟨a, ha, rfl⟩
    obtain ⟨b, hb, hab⟩ := h.left a ha
    exact ⟨b, hb, hab.symm⟩
  · rintro ⟨b, hb, rfl⟩
    obtain ⟨a, ha, hab⟩ := h.right b hb
    exact ⟨a, ha, hab⟩

end List.Matched

/-! ### Results that are alike -/

/-- **Two results are alike**: they are values that are related, or both of them are faults. -/
inductive Except.Alike {ε α β : Type} (R : α → β → Prop) : Except ε α → Except ε β → Prop where
  /-- Values that are related. -/
  | ok {a : α} {b : β} (h : R a b) : Except.Alike R (.ok a) (.ok b)
  /-- Two faults. -/
  | error (e e' : ε) : Except.Alike R (.error e) (.error e')

namespace Except.Alike

variable {ε α β : Type} {R : α → β → Prop}

theorem refl (x : Except ε α) : Except.Alike Eq x x := by
  cases x with
  | ok a => exact .ok rfl
  | error e => exact .error e e

/-- Two results are alike if both of them are values or none is, and values are related. -/
theorem of_ok {x : Except ε α} {y : Except ε β} (hiff : (∃ a, x = .ok a) ↔ ∃ b, y = .ok b)
    (h : ∀ a b, x = .ok a → y = .ok b → R a b) : Except.Alike R x y := by
  cases x with
  | ok a =>
    obtain ⟨b, rfl⟩ := hiff.1 ⟨a, rfl⟩
    exact .ok (h a b rfl rfl)
  | error e =>
    cases y with
    | ok b =>
      obtain ⟨a, ha⟩ := hiff.2 ⟨b, rfl⟩
      cases ha
    | error e' => exact .error e e'

theorem isOk_iff {x : Except ε α} {y : Except ε β} (h : Except.Alike R x y) :
    (∃ a, x = .ok a) ↔ ∃ b, y = .ok b := by
  cases h with
  | ok h => exact ⟨fun _ => ⟨_, rfl⟩, fun _ => ⟨_, rfl⟩⟩
  | error e e' => exact ⟨fun ⟨_, ha⟩ => (nomatch ha), fun ⟨_, hb⟩ => (nomatch hb)⟩

theorem eq_ok_iff {x y : Except ε α} (h : Except.Alike Eq x y) {a : α} : x = .ok a ↔ y = .ok a := by
  cases h with
  | ok h => rw [h]
  | error => exact ⟨nofun, nofun⟩

theorem toOption_eq {x y : Except ε α} (h : Except.Alike Eq x y) : x.toOption = y.toOption := by
  cases h with
  | ok h => exact congrArg some h
  | error => rfl

end Except.Alike

/-! ### Checks that are alike -/

/-- **Two checks are alike**: their results are, and what is noted is noted about the same
places. -/
structure Verdict.Alike {ν ε α β π : Type} (place : ν → π) (R : α → β → Prop) (v : Verdict ν ε α)
    (w : Verdict ν ε β) : Prop where
  /-- The places of the notes. -/
  notes : List.Matched (fun n m => place n = place m) v.notes w.notes
  /-- The results. -/
  result : Except.Alike R v.result w.result

namespace Verdict.Alike

variable {ν μ ε φ π ρ α β γ δ : Type} {place : ν → π} {R : α → β → Prop} {S : γ → δ → Prop}

theorem refl (v : Verdict ν ε α) : v.Alike place Eq v :=
  ⟨List.Matched.refl (R := fun n m => place n = place m) (fun _ => rfl) _, .refl _⟩

theorem of_eq {v w : Verdict ν ε α} (h : v = w) : v.Alike place Eq w :=
  h ▸ refl v

theorem pure {a : α} {b : β} (h : R a b) :
    Verdict.Alike place R (pure a : Verdict ν ε α) (pure b) :=
  ⟨.nil, .ok h⟩

theorem fail (e e' : ε) :
    Verdict.Alike place R (Verdict.fail e : Verdict ν ε α) (Verdict.fail e' : Verdict ν ε β) :=
  ⟨.nil, .error e e'⟩

theorem noteAll {ns ms : List ν} (h : List.Matched (fun n m => place n = place m) ns ms) :
    Verdict.Alike place Eq (Verdict.noteAll ns : Verdict ν ε Unit) (.noteAll ms) :=
  ⟨h, .ok rfl⟩

/-- Checks in two parts are alike if both parts are. -/
theorem bind {v : Verdict ν ε α} {w : Verdict ν ε β} {f : α → Verdict ν ε γ} {g : β → Verdict ν ε δ}
    (h : v.Alike place R w) (hfg : ∀ a b, R a b → (f a).Alike place S (g b)) :
    (v >>= f).Alike place S (w >>= g) := by
  obtain ⟨vnotes, vresult⟩ := v
  obtain ⟨wnotes, wresult⟩ := w
  obtain ⟨hnotes, hresult⟩ := h
  cases hresult with
  | ok hab => exact ⟨hnotes.append (hfg _ _ hab).notes, (hfg _ _ hab).result⟩
  | error e e' => exact ⟨hnotes, .error e e'⟩

theorem note_bind {n m : ν} {f : Unit → Verdict ν ε γ} {g : Unit → Verdict ν ε δ}
    (hfg : (f ()).Alike place S (g ())) (h : place n = place m) :
    ((Verdict.note n : Verdict ν ε Unit) >>= f).Alike place S
      ((Verdict.note m : Verdict ν ε Unit) >>= g) :=
  ⟨(List.Matched.of_forall₂ (.cons h .nil) : List.Matched _ [n] [m]).append hfg.notes, hfg.result⟩

theorem map {v : Verdict ν ε α} {w : Verdict ν ε β} {f : α → γ} {g : β → δ}
    (h : v.Alike place R w) (hfg : ∀ a b, R a b → S (f a) (g b)) :
    (f <$> v).Alike place S (g <$> w) := by
  rw [← bind_pure_comp, ← bind_pure_comp]
  exact h.bind fun a b hab => pure (hfg a b hab)

theorem attempt {v : Verdict ν ε α} {w : Verdict ν ε β} (h : v.Alike place R w) :
    v.attempt.Alike place (Except.Alike R) w.attempt :=
  ⟨h.notes, .ok h.result⟩

theorem translate {v : Verdict ν ε α} {w : Verdict ν ε β} (h : v.Alike place R w) {place' : μ → ρ}
    {onNote : ν → μ} (onFault : ε → φ)
    (hplace : ∀ n m, place n = place m → place' (onNote n) = place' (onNote m)) :
    (v.translate onNote onFault).Alike place' R (w.translate onNote onFault) := by
  obtain ⟨vnotes, vresult⟩ := v
  obtain ⟨wnotes, wresult⟩ := w
  obtain ⟨hnotes, hresult⟩ := h
  refine ⟨hnotes.map hplace, ?_⟩
  cases hresult with
  | ok hab => exact .ok hab
  | error e e' => exact .error _ _

end Verdict.Alike

theorem Verdict.notes_bind_eq_nil {ν ε α β : Type} {v : Verdict ν ε α} {f : α → Verdict ν ε β}
    (hv : v.notes = []) (hf : ∀ a, (f a).notes = []) : (v >>= f).notes = [] := by
  rcases hresult : v.result with e | a
  · rw [bind_of_error hresult]
    exact hv
  · rw [notes_bind_of_ok hresult, hv, hf]
    rfl

/-- What a note is about: a parameter of a constructor. -/
def Note.place (n : Note) : Constructor × String := (n.constructor, n.parameter)

/-- Two checks of a part of a strategy are alike. -/
abbrev Check.Alike {α β : Type} (R : α → β → Prop) (v : Check α) (w : Check β) : Prop :=
  Verdict.Alike Note.place R v w

end TradeSignals
