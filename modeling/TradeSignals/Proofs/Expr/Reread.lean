import TradeSignals.Proofs.Decimal.NotANumber
import TradeSignals.Proofs.Decimal.ReadBack
import TradeSignals.Proofs.Expr.ReadBack

/-!
# What has been read is read again

A text that is read may look quite different from the canonical text of what it is read as: it may
have blanks around every sign, underscores among digits, a plus before a number, a comma after
the last argument. What is read is of one form all the same (`TradeSignals.Expr.AcceptedHere`):
its names are made of words, no bare name is one of the three that stand for constants, no call has
a key twice, and every double is a number. The parts of the reader are gone through one by one,
words first, and calls by induction on the depth that the reader has left
(`TradeSignals.Parser.accepted_reader`).

An accepted expression falls short of a well formed one by one thing: a literal may be too large for
a double and be read as an infinity, whose text is a name. If there is none, the canonical text is
read as the same expression again (`TradeSignals.Expr.parse_reread`).
-/

namespace TradeSignals

namespace Expr

/-- **The form of a node that has been read**: that of a node of a well formed expression, but for
doubles, which may be infinite. -/
def AcceptedHere : Expr → Prop
  | .literal (.float value) => value.isNaN = false
  | e => e.WellFormedHere

end Expr

/-! ### Numbers are numbers -/

/-- No decimal is read as the missing number. -/
theorem Decimal.isNaN_toFloat (d : Decimal) : d.toFloat.isNaN = false := by
  obtain ⟨n, e⟩ := d
  by_cases h : n = 0
  · subst h
    rw [toFloat_zero]
    rfl
  · rw [toFloat_eq_nearest h]
    refine NotANumber.isNaN_pack ?_
    -- What is rounded is a zero or finite, before it is stored.
    dsimp only [Rounding.nearest, Rounding.carry]
    split <;> rfl

/-- No literal is read as the missing number. -/
theorem Numeral.isNaN_toFloat (n : Numeral) : n.toFloat.isNaN = false := by
  have hsize := Decimal.isNaN_toFloat
    ⟨digitsValue (n.whole ++ n.fraction), n.exponent - n.fraction.length⟩
  unfold toFloat
  dsimp only
  split
  · exact NotANumber.isNaN_neg hsize
  · exact hsize

namespace Parser

open TradeSignals.Expr

/-- What is read as a number is a constant, and none is the missing number. -/
theorem accepted_number {s rest : List Char} {e : Expr} (h : number s = .ok (e, rest)) :
    ∃ value, e = .literal value ∧ e.AcceptedHere := by
  have hvalue : ∀ {neg kept power value}, numberValue? neg kept power = some value →
      AcceptedHere (.literal value) := by
    intro neg kept power value h
    unfold numberValue? at h
    split at h
    · obtain ⟨v, -, rfl⟩ := Option.map_eq_some_iff.1 h
      trivial
    · cases h
      exact Numeral.isNaN_toFloat _
  unfold number at h
  dsimp only at h
  split at h
  · cases h
  · split at h
    · cases h
    · split at h
      · cases h
      · split at h
        · next hv =>
          cases h
          exact ⟨_, rfl, hvalue hv⟩
        · cases h

/-! ### Names are made of words -/

theorem isWord_word {s rest : List Char} {w : String} (h : word s = .ok (w, rest)) :
    Text.isWord w = true := by
  unfold word at h
  split at h
  · cases h
  · next c t _ =>
    split at h <;> cases h
    next hc =>
    refine Text.isWord_iff.2 ⟨c, _, String.toList_ofList, hc, fun d hd => ?_⟩
    exact List.mem_takeWhile_imp hd

/-- What is read as a dotted name is one. -/
theorem words_dotted {s rest : List Char} {ws : List String} (h : dotted s = .ok (ws, rest)) :
    Words (".".intercalate ws) ws := by
  suffices hws : ws ≠ [] ∧ ∀ w ∈ ws, Text.isWord w = true from ⟨hws.1, hws.2, rfl⟩
  fun_induction dotted s generalizing ws rest with
  | case1 => cases h
  | case2 => cases h
  | case3 s w r hw more hr _ ws' after hd ih =>
    cases h
    exact ⟨List.cons_ne_nil _ _, List.forall_mem_cons.2 ⟨isWord_word hw, (ih hd).2⟩⟩
  | case4 s w r hw _ =>
    cases h
    exact ⟨List.cons_ne_nil _ _, List.forall_mem_singleton.2 (isWord_word hw)⟩

/-- What is read as the key of an argument is a word. -/
theorem isWord_key? {s rest : List Char} {key : String} (h : key? s = some (key, rest)) :
    Text.isWord key = true := by
  unfold key? at h
  split at h
  · cases h
  · split at h
    · split at h
      · cases h
      · next hw =>
        split at h <;> cases h
        exact isWord_word hw
    · cases h

/-- A dotted name that is not called is a constant, a bare name or a member. -/
theorem accepted_wordsValue {ws : List String} (h : Words (".".intercalate ws) ws) :
    (wordsValue ws).depth = 0 ∧ (wordsValue ws).AcceptedHere := by
  unfold wordsValue
  split
  · exact ⟨rfl, trivial⟩
  · exact ⟨rfl, trivial⟩
  · exact ⟨rfl, trivial⟩
  · next w htrue hfalse hnone =>
    refine ⟨rfl, h.isWord w List.mem_cons_self, ?_⟩
    simp only [List.mem_cons, List.not_mem_nil, or_false, not_or]
    exact ⟨htrue, hfalse, hnone⟩
  · next hsingle =>
    refine ⟨rfl, ⟨ws.dropLast, ?_, fun w hw => h.isWord w (List.mem_of_mem_dropLast hw), rfl⟩, ?_⟩
    · intro hnil
      obtain ⟨w, rfl⟩ : ∃ w, ws = [w] := by
        rcases List.eq_nil_or_concat ws with rfl | ⟨init, w, rfl⟩
        · exact absurd rfl h.ne_nil
        · rw [List.concat_eq_append, List.dropLast_concat] at hnil
          exact ⟨w, by rw [hnil, List.concat_eq_append, List.nil_append]⟩
      exact hsingle w rfl
    · rw [List.getLast?_eq_some_getLast h.ne_nil]
      exact h.isWord _ (List.getLast_mem h.ne_nil)

/-! ### Values and calls -/

/-- **What is read as a value** is accepted and without calls, or it is a call of a dotted
name. -/
theorem accepted_value {call : CallReader} {s rest : List Char} {e : Expr}
    (h : value call s = .ok (e, rest)) : e.depth = 0 ∧ e.AcceptedHere ∨
      ∃ callee t, (∃ ws, Words callee ws) ∧ call callee t = .ok (e, rest) := by
  -- The first character decides what is read, as for the depth.
  unfold value at h
  split at h
  · cases h
  · next c t _ =>
    dsimp only at h
    split at h
    · obtain ⟨value, rfl, haccepted⟩ := accepted_number h
      exact .inl ⟨rfl, haccepted⟩
    · split at h
      · split at h <;> cases h
        exact .inl ⟨rfl, trivial⟩
      · split at h
        · unfold nameOrCall at h
          split at h
          · cases h
          · next hws =>
            split at h
            · exact .inr ⟨_, _, ⟨_, words_dotted hws⟩, h⟩
            · cases h
              exact .inl (accepted_wordsValue (words_dotted hws))
        · cases h

/-- **Whatever is read is accepted**, at each of its nodes. -/
theorem accepted_reader {limit n : ℕ} {s rest : List Char} {e : Expr}
    (h : (reader limit n).run s = .ok (e, rest)) : ∀ t ∈ e.subterms, t.AcceptedHere := by
  -- Induction on the depth that is left: the arguments of a call are read with one less.
  induction n generalizing s rest e with
  | zero =>
    rcases accepted_value h with ⟨hflat, haccepted⟩ | ⟨callee, t, -, hcall⟩
    · exact forall_subterms_of_flat hflat haccepted
    · cases hcall
  | succ n ih =>
    rcases accepted_value h with ⟨hflat, haccepted⟩ | ⟨callee, t, hcallee, hcall⟩
    · exact forall_subterms_of_flat hflat haccepted
    · obtain ⟨ps, ks, rfl, hps, hks, hkeys⟩ :=
        arguments_cases ih isWord_key? (by simp) (by simp) (by simp) hcall
      exact forall_subterms_call.2
        ⟨⟨hcallee, fun ke hke => (hks ke hke).1, hkeys⟩, hps, fun ke hke => (hks ke hke).2⟩

end Parser

/-! ### The whole -/

namespace Expr

/-- An accepted node without an infinite double is one of a well formed expression. -/
theorem AcceptedHere.wellFormedHere {e : Expr} (h : e.AcceptedHere)
    (hfinite : ∀ x, e = .float x → x.isInf = false) : e.WellFormedHere := by
  cases e with
  | literal value =>
    cases value with
    | float x =>
      have hinf := hfinite x rfl
      rcases isFinite_or_eq_infinity h with hx | rfl | rfl
      · exact hx
      · cases hinf
      · cases hinf
    | _ => trivial
  | _ => exact h

/-- **What has been read is of a fixed form, and it survives being written.** Its nodes are
accepted, its calls lie no deeper inside each other than the limit, and unless one of its doubles is
infinite, its canonical text is read as the same expression, and is the canonical text of what it
is read as. -/
theorem parse_reread {source : String} {e : Expr} (h : parse source = .ok e) :
    (∀ t ∈ e.subterms, t.AcceptedHere) ∧ e.depth ≤ depthLimit ∧
      ((∀ x, .float x ∈ e.subterms → x.isInf = false) →
        parse e.text = .ok e ∧ (parse e.text).map text = .ok e.text) := by
  have haccepted : ∀ t ∈ e.subterms, t.AcceptedHere := by
    unfold parse parseChars at h
    split at h
    · cases h
    · next hrun =>
      split at h <;> cases h
      exact Parser.accepted_reader hrun
  have hdepth := depth_le_of_parse h
  refine ⟨haccepted, hdepth, fun hfinite => ?_⟩
  have hw : e.WellFormed := fun t ht =>
    (haccepted t ht).wellFormedHere fun x hx => hfinite x (hx ▸ ht)
  have hread := parse_text hdepth hw
  exact ⟨hread, by rw [hread]; rfl⟩

/-- A text with blanks, underscores, a plus, dotted names and a comma at the end; its canonical
text is another one. -/
theorem parse_reread_sample :
    parse "A . f( +1_0.50 ,k =B .c,)" =
        .ok (.call "A.f" [.float 10.5] [("k", .member "B" "c")]) ∧
      parse "A.f(10.5, k=B.c)" = .ok (.call "A.f" [.float 10.5] [("k", .member "B" "c")]) := by
  have h : parse "A . f( +1_0.50 ,k =B .c,)" =
      .ok (.call "A.f" [.float 10.5] [("k", .member "B" "c")]) := by
    decide +kernel
  refine ⟨h, ?_⟩
  have htext : (call "A.f" [float 10.5] [("k", .member "B" "c")]).text = "A.f(10.5, k=B.c)" := by
    decide +kernel
  rw [← htext]
  refine ((parse_reread h).2.2 fun x hx => ?_).1
  have hx : x = 10.5 := by simpa [subterms, subtermsPositional, subtermsKeywords] using hx
  subst hx
  decide +kernel

-- A literal that is too large is read as an infinity, and the text of an infinity is a name.
example : ((parse "1e999").map text).map parse = .ok (.ok (.name "inf")) := by decide +kernel

end Expr

end TradeSignals
