import Mathlib.Data.List.Nodup
import Mathlib.Data.Nat.Notation
import Mathlib.Order.Nat
import TradeSignals.Expr.Parser

/-!
# The shape of expressions

Expressions are trees whose nodes have two lists of children each, so what holds of all
expressions is proved for a call from what holds of its arguments
(`TradeSignals.Expr.induct`). The depth of an expression is the number of calls around its
innermost part. No expression that has been read is deeper than the reader allows
(`TradeSignals.Expr.depth_le_of_parse`), and no call in it has a key twice
(`TradeSignals.Expr.keysDistinct_of_parse`).
-/

namespace TradeSignals

namespace Expr

/-! ### Induction -/

section Induct

variable {P : Expr → Prop} (literal : ∀ l, P (.literal l)) (member : ∀ k m, P (.member k m))
  (name : ∀ w, P (.name w))
  (call : ∀ c ps ks, (∀ e ∈ ps, P e) → (∀ ke ∈ ks, P ke.2) → P (.call c ps ks))

include literal member name call

/-- **Induction on expressions**: a call follows its arguments. -/
@[elab_as_elim]
theorem induct (e : Expr) : P e := by
  refine @Expr.rec P (fun es => ∀ e ∈ es, P e) (fun kes => ∀ ke ∈ kes, P ke.2) (fun ke => P ke.2)
    literal member name (fun c ps ks hps hks => call c ps ks hps hks) ?_ ?_ ?_ ?_ ?_ e
  · exact fun e he => nomatch he
  · exact fun e es he hes => List.forall_mem_cons.2 ⟨he, hes⟩
  · exact fun ke hke => nomatch hke
  · exact fun ke kes hke hkes => List.forall_mem_cons.2 ⟨hke, hkes⟩
  · exact fun k e he => he

end Induct

/-! ### Subterms -/

/-- What holds of all subterms of a call holds of the call and of the subterms of its
arguments. -/
theorem forall_subterms_call {P : Expr → Prop} {c : String} {ps : List Expr}
    {ks : List (String × Expr)} : (∀ t ∈ (call c ps ks).subterms, P t) ↔ P (call c ps ks) ∧
      (∀ e ∈ ps, ∀ t ∈ e.subterms, P t) ∧ ∀ ke ∈ ks, ∀ t ∈ ke.2.subterms, P t := by
  simp only [subterms, subtermsPositional_eq, subtermsKeywords_eq, List.forall_mem_cons,
    List.mem_append, List.mem_flatMap]
  constructor
  · rintro ⟨hhere, h⟩
    exact ⟨hhere, fun e he t ht => h t (.inl ⟨e, he, ht⟩),
      fun ke hke t ht => h t (.inr ⟨ke, hke, ht⟩)⟩
  · rintro ⟨hhere, hps, hks⟩
    refine ⟨hhere, ?_⟩
    rintro t (⟨e, he, ht⟩ | ⟨ke, hke, ht⟩)
    · exact hps e he t ht
    · exact hks ke hke t ht

/-! ### Depth -/

mutual

/-- How many calls lie inside each other. -/
def depth : Expr → ℕ
  | .call _ positional keywords => max (depthPositional positional) (depthKeywords keywords) + 1
  | _ => 0

/-- The depth of positional arguments. -/
def depthPositional : List Expr → ℕ
  | [] => 0
  | e :: rest => max e.depth (depthPositional rest)

/-- The depth of keyword values. -/
def depthKeywords : List (String × Expr) → ℕ
  | [] => 0
  | (_, e) :: rest => max e.depth (depthKeywords rest)

end

theorem depthPositional_le {es : List Expr} {n : ℕ} :
    depthPositional es ≤ n ↔ ∀ e ∈ es, e.depth ≤ n := by
  induction es with
  | nil => simp [depthPositional]
  | cons e rest ih => rw [depthPositional, Nat.max_le, ih, List.forall_mem_cons]

theorem depthKeywords_le {kes : List (String × Expr)} {n : ℕ} :
    depthKeywords kes ≤ n ↔ ∀ ke ∈ kes, ke.2.depth ≤ n := by
  induction kes with
  | nil => simp [depthKeywords]
  | cons ke rest ih => rw [depthKeywords, Nat.max_le, ih, List.forall_mem_cons]

/-- A call is one deeper than its arguments. -/
theorem depth_call_le {c : String} {ps : List Expr} {ks : List (String × Expr)} {n : ℕ} :
    (call c ps ks).depth ≤ n + 1 ↔ (∀ e ∈ ps, e.depth ≤ n) ∧ ∀ ke ∈ ks, ke.2.depth ≤ n := by
  rw [depth, Nat.succ_le_succ_iff, Nat.max_le, depthPositional_le, depthKeywords_le]

/-! ### Keys -/

/-- Are the keys of the keyword arguments distinct, if there are any? -/
def KeysDistinct : Expr → Prop
  | .call _ _ keywords => (keywords.map (·.1)).Nodup
  | _ => True

/-- What holds of an expression without calls holds of all of its subterms. -/
theorem forall_subterms_of_flat {P : Expr → Prop} {e : Expr} (hflat : e.depth = 0) (h : P e) :
    ∀ t ∈ e.subterms, P t := by
  cases e with
  | call callee ps ks => cases hflat
  | _ => exact List.forall_mem_singleton.2 h

theorem keysDistinct_of_flat {e : Expr} (h : e.depth = 0) :
    ∀ t ∈ e.subterms, t.KeysDistinct := by
  refine forall_subterms_of_flat h ?_
  cases e with
  | call callee ps ks => cases h
  | _ => trivial

end Expr

/-! ### What is read -/

namespace Parser

/-- What is read as a value is a call, or it is not deep at all. -/
theorem value_cases {call : CallReader} {s rest : List Char} {e : Expr}
    (h : value call s = .ok (e, rest)) :
    e.depth = 0 ∨ ∃ callee t, call callee t = .ok (e, rest) := by
  have hwords : ∀ ws, (wordsValue ws).depth = 0 := by
    intro ws
    unfold wordsValue
    split <;> rfl
  -- The first character decides what is read; only a name followed by a parenthesis is a call.
  unfold value at h
  split at h
  · cases h
  · next c t _ =>
    dsimp only at h
    split at h
    · unfold number at h
      dsimp only at h
      split at h
      · cases h
      · split at h
        · cases h
        · split at h
          · cases h
          · split at h <;> cases h
            exact .inl rfl
    · split at h
      · split at h <;> cases h
        exact .inl rfl
      · split at h
        · unfold nameOrCall at h
          split at h
          · cases h
          · split at h
            · exact .inr ⟨_, _, h⟩
            · cases h
              exact .inl (hwords _)
        · cases h

/-- An argument is a value, and its key is a new one that has been read as such. -/
theorem argument_cases {value : Reader} {keys : List String} {s rest : List Char}
    {a : Option String × Expr} (h : argument value keys s = .ok (a, rest)) :
    (∃ t, value.run t = .ok (a.2, rest)) ∧
      ∀ key ∈ a.1, key ∉ keys ∧ ∃ t, key? s = some (key, t) := by
  unfold argument at h
  split at h
  · next hkey =>
    split at h
    · cases h
    · next hnew =>
      split at h
      · cases h
      · next hv =>
        cases h
        refine ⟨⟨_, hv⟩, ?_⟩
        rintro _ ⟨⟩
        exact ⟨fun hmem => hnew (List.contains_iff_mem.2 hmem), _, hkey⟩
  · split at h
    · cases h
    · split at h
      · cases h
      · next hv =>
        cases h
        exact ⟨⟨_, hv⟩, fun _ hkey => nomatch hkey⟩

/-- The arguments of a call are values, its keywords have keys, and no two of them have the same
one. -/
theorem arguments_cases {value : Reader} {P : Expr → Prop} {K : String → Prop}
    (hvalue : ∀ {s e rest}, value.run s = .ok (e, rest) → P e)
    (hkey : ∀ {s key rest}, key? s = some (key, rest) → K key) {callee : String}
    {ps : List Expr} {ks : List (String × Expr)} {s rest : List Char} {e : Expr}
    (hps : ∀ e ∈ ps, P e) (hks : ∀ ke ∈ ks, K ke.1 ∧ P ke.2) (hkeys : (ks.map (·.1)).Nodup)
    (h : arguments value callee ps ks s = .ok (e, rest)) : ∃ ps' ks', e = .call callee ps' ks' ∧
      (∀ e ∈ ps', P e) ∧ (∀ ke ∈ ks', K ke.1 ∧ P ke.2) ∧ (ks'.map (·.1)).Nodup := by
  -- One more argument keeps all of this, whichever list it is added to.
  have hadd : ∀ {ps : List Expr} {ks : List (String × Expr)} {s rest : List Char}
      {key : Option String} {a : Expr}, (∀ e ∈ ps, P e) → (∀ ke ∈ ks, K ke.1 ∧ P ke.2) →
      (ks.map (·.1)).Nodup → argument value (ks.map (·.1)) s = .ok ((key, a), rest) →
      (∀ e ∈ key.elim (ps ++ [a]) fun _ => ps, P e) ∧
        (∀ ke ∈ ks ++ (key.map (·, a)).toList, K ke.1 ∧ P ke.2) ∧
        ((ks ++ (key.map (·, a)).toList).map (·.1)).Nodup := by
    intro ps ks s rest key a hps hks hkeys ha
    obtain ⟨⟨t, ht⟩, hnew⟩ := argument_cases ha
    cases key with
    | none =>
      rw [Option.map_none, Option.toList_none, List.append_nil]
      exact ⟨List.forall_mem_append.2 ⟨hps, List.forall_mem_singleton.2 (hvalue ht)⟩, hks, hkeys⟩
    | some k =>
      obtain ⟨hfresh, t', hk⟩ := hnew k rfl
      rw [Option.map_some, Option.toList_some, List.map_append, List.map_singleton]
      exact ⟨hps,
        List.forall_mem_append.2 ⟨hks, List.forall_mem_singleton.2 ⟨hkey hk, hvalue ht⟩⟩,
        hkeys.append (List.nodup_singleton k) (List.disjoint_singleton.2 hfresh)⟩
  -- Along the recursion of the reader, with the arguments read so far as the invariant.
  fun_induction arguments value callee ps ks s generalizing e rest with
  | case1 =>
    cases h
    exact ⟨_, _, rfl, hps, hks, hkeys⟩
  | case2 => cases h
  | case3 =>
    rename_i ha
    cases h
    exact ⟨_, _, rfl, hadd hps hks hkeys ha⟩
  | case4 =>
    rename_i ha _ ih
    obtain ⟨hps', hks', hkeys'⟩ := hadd hps hks hkeys ha
    exact ih hps' hks' hkeys' h
  | case5 => cases h

/-- The reader for a depth reads nothing deeper. -/
theorem depth_reader_le {limit n : ℕ} {s rest : List Char} {e : Expr}
    (h : (reader limit n).run s = .ok (e, rest)) : e.depth ≤ n := by
  induction n generalizing s rest e with
  -- A reader for no depth refuses every call.
  | zero =>
    rcases value_cases h with hflat | ⟨callee, t, hcall⟩
    · exact hflat.le
    · cases hcall
  | succ n ih =>
    rcases value_cases h with hflat | ⟨callee, t, hcall⟩
    · exact hflat.le.trans (Nat.zero_le _)
    · obtain ⟨ps, ks, rfl, hps, hks, -⟩ :=
        arguments_cases (K := fun _ => True) ih (fun _ => trivial) (by simp) (by simp) (by simp)
          hcall
      exact Expr.depth_call_le.2 ⟨hps, fun ke hke => (hks ke hke).2⟩

/-- No reader reads a call that has a key twice. -/
theorem keysDistinct_reader {limit n : ℕ} {s rest : List Char} {e : Expr}
    (h : (reader limit n).run s = .ok (e, rest)) : ∀ t ∈ e.subterms, t.KeysDistinct := by
  induction n generalizing s rest e with
  | zero =>
    rcases value_cases h with hflat | ⟨callee, t, hcall⟩
    · exact Expr.keysDistinct_of_flat hflat
    · cases hcall
  | succ n ih =>
    rcases value_cases h with hflat | ⟨callee, t, hcall⟩
    · exact Expr.keysDistinct_of_flat hflat
    · obtain ⟨ps, ks, rfl, hps, hks, hkeys⟩ :=
        arguments_cases (K := fun _ => True) ih (fun _ => trivial) (by simp) (by simp) (by simp)
          hcall
      exact Expr.forall_subterms_call.2 ⟨hkeys, hps, fun ke hke => (hks ke hke).2⟩

end Parser

/-- **No expression that is read is deeper than the limit.** -/
theorem Expr.depth_le_of_parse {source : String} {e : Expr} (h : parse source = .ok e) :
    e.depth ≤ depthLimit := by
  unfold parse parseChars at h
  split at h
  · cases h
  · next hrun =>
    split at h <;> cases h
    exact Parser.depth_reader_le hrun

/-- **In an expression that is read, no call has a key twice.** -/
theorem Expr.keysDistinct_of_parse {source : String} {e : Expr} (h : parse source = .ok e) :
    ∀ t ∈ e.subterms, t.KeysDistinct := by
  unfold parse parseChars at h
  split at h
  · cases h
  · next hrun =>
    split at h <;> cases h
    exact Parser.keysDistinct_reader hrun

end TradeSignals
