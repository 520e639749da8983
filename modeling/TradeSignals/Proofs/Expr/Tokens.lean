import TradeSignals.Proofs.Expr.Spelling
import TradeSignals.Validation.DeniedName

/-!
# The tokens of the canonical text

Every expression has its tokens, `TradeSignals.Expr.tokens`, and its canonical text is these
tokens one after the other with a blank after each comma (`TradeSignals.Expr.chars_eq`). A
comma more may stand where the arguments of a call end (`TradeSignals.CommasAdded`), and
nothing else may be put among the tokens.

This is said of lists of tokens alone, without looking at the calls that they belong to: the
parenthesis that closes a call without arguments is the one that comes directly after the one
that opens it. For well formed expressions it comes to the same as spelling the expression
(`TradeSignals.Expr.spells_of_commasAdded`).
-/

namespace TradeSignals

/-! ### The tokens of the canonical text -/

/-- The characters of a token as the canonical text has them: a blank follows each comma. -/
def Token.printed : Token → List Char
  | .comma => [',', ' ']
  | t => t.chars

/-- The tokens of a name: the words between its dots. -/
def nameTokens (name : String) : List Token :=
  dottedTokens ((DeniedName.parts name.toList).map String.ofList)

namespace Expr

mutual

/-- **The tokens of the canonical text** of an expression. -/
def tokens : Expr → List Token
  | .literal (.bool value) => [.word (truthText value)]
  | .literal .none => [.word "None"]
  | .literal value => [.constant value]
  | .name word => [.word word]
  | .member kind item => nameTokens kind ++ [.point, .word item]
  | .call callee positional keywords => nameTokens callee ++ .opening ::
    ([Token.comma].intercalate (tokensPositional positional ++ tokensKeywords keywords) ++
      [.closing])

/-- The tokens of positional arguments. -/
def tokensPositional : List Expr → List (List Token)
  | [] => []
  | e :: rest => e.tokens :: tokensPositional rest

/-- The tokens of keyword arguments. -/
def tokensKeywords : List (String × Expr) → List (List Token)
  | [] => []
  | (key, e) :: rest => (.word key :: .equals :: e.tokens) :: tokensKeywords rest

end

end Expr

/-- The tokens of an argument: those of its value, after its key if it has one. -/
def argumentTokens (a : Option String × Expr) : List Token :=
  keyTokens a.1 ++ a.2.tokens

theorem Expr.tokens_call (c : String) (ps : List Expr) (ks : List (String × Expr)) :
    (call c ps ks).tokens = nameTokens c ++ .opening ::
      ([Token.comma].intercalate ((argumentsOf ps ks).map argumentTokens) ++ [.closing]) := by
  have hps : tokensPositional ps = ps.map fun e => argumentTokens (none, e) := by
    induction ps with
    | nil => rfl
    | cons e rest ih =>
      rw [tokensPositional, ih]
      rfl
  have hks : tokensKeywords ks = ks.map fun ke => argumentTokens (some ke.1, ke.2) := by
    induction ks with
    | nil => rfl
    | cons ke rest ih =>
      rw [tokensKeywords, ih]
      rfl
  rw [tokens, hps, hks, argumentsOf, List.map_append, List.map_map, List.map_map]
  rfl

/-- Between the dots of a name stand its words. -/
theorem nameTokens_of_words {name : String} {ws : List String} (h : Words name ws) :
    nameTokens name = dottedTokens ws := by
  have hdot : ∀ p ∈ ws.map String.toList, '.' ∉ p := by
    refine List.forall_mem_map.2 fun w hw hmem => ?_
    obtain ⟨c, cs, hlist, hc, hcs⟩ := Text.isWord_iff.1 (h.isWord w hw)
    have hall : ∀ d ∈ w.toList, Text.continuesWord d = true := by
      rw [hlist]
      exact List.forall_mem_cons.2 ⟨Text.continuesWord_of_beginsWord hc, hcs⟩
    exact absurd (hall '.' hmem) (by decide)
  have hname : name.toList = ['.'].intercalate (ws.map String.toList) := by
    rw [← h.name_eq, String.toList_intercalate]
    rfl
  rw [nameTokens, hname, DeniedName.parts_intercalate (by simpa using h.ne_nil) hdot, List.map_map]
  simp [Function.comp_def, String.ofList_toList]

/-! ### Commas after the last argument -/

/-- **Tokens with commas added**: before some of the parentheses that close a call stands one
comma more, but not where the call has no arguments. -/
inductive CommasAdded : List Token → List Token → Prop where
  /-- There is no token. -/
  | nil : CommasAdded [] []
  /-- A token without a comma after it. -/
  | keep (t : Token) {ts us : List Token} (h : CommasAdded ts us) : CommasAdded (t :: ts) (t :: us)
  /-- A comma after the last token of the arguments of a call. -/
  | comma {t : Token} {ts us : List Token} (ht : t ≠ .opening)
      (h : CommasAdded (.closing :: ts) us) :
      CommasAdded (t :: .closing :: ts) (t :: .comma :: us)

namespace CommasAdded

theorem refl (ts : List Token) : CommasAdded ts ts := by
  induction ts with
  | nil => exact .nil
  | cons t ts ih => exact .keep t ih

/-- Directly after the parenthesis that opens a call no comma is added. -/
theorem of_opening {ts us : List Token} (h : CommasAdded (.opening :: ts) us) :
    ∃ vs, us = .opening :: vs ∧ CommasAdded ts vs := by
  cases h with
  | keep _ h => exact ⟨_, rfl, h⟩
  | comma ht => exact absurd rfl ht

theorem eq_nil {us : List Token} (h : CommasAdded [] us) : us = [] := by
  cases h
  rfl

/-- Commas that are added to a text in two parts are added to either part, or between them
before a parenthesis that closes a call. -/
theorem of_append {ts ts' us : List Token} (h : CommasAdded (ts ++ ts') us) :
    ∃ vs vs', CommasAdded ts vs ∧ CommasAdded ts' vs' ∧
      (us = vs ++ vs' ∨ us = vs ++ .comma :: vs' ∧ ts'.head? = some .closing) := by
  induction ts generalizing us with
  | nil => exact ⟨[], us, .nil, h, .inl rfl⟩
  | cons t ts ih =>
    rw [List.cons_append] at h
    generalize hrest : ts ++ ts' = rest at h
    cases h with
    | keep _ h =>
      subst hrest
      obtain ⟨vs, vs', hvs, hvs', rfl | ⟨rfl, hhead⟩⟩ := ih h
      · exact ⟨t :: vs, vs', .keep t hvs, hvs', .inl rfl⟩
      · exact ⟨t :: vs, vs', .keep t hvs, hvs', .inr ⟨rfl, hhead⟩⟩
    | @comma _ rest us ht h =>
      cases ts with
      | nil =>
        cases hrest
        exact ⟨[t], us, .refl _, h, .inr ⟨rfl, rfl⟩⟩
      | cons t' ts =>
        cases hrest
        obtain ⟨vs, vs', hvs, hvs', rfl | ⟨rfl, hhead⟩⟩ := ih h
        · exact ⟨t :: .comma :: vs, vs', .comma ht hvs, hvs', .inl rfl⟩
        · exact ⟨t :: .comma :: vs, vs', .comma ht hvs, hvs', .inr ⟨rfl, hhead⟩⟩

/-- No comma is added where no call is closed. -/
theorem eq_of_not_mem {ts us : List Token} (hts : .closing ∉ ts) (h : CommasAdded ts us) :
    us = ts := by
  induction h with
  | nil => rfl
  | keep t _ ih => rw [ih fun hmem => hts (List.mem_cons_of_mem _ hmem)]
  | comma => exact absurd (List.mem_cons_of_mem _ List.mem_cons_self) hts

/-- Before tokens that close no call, everything stays as it is. -/
theorem of_append_left {ts ts' us : List Token} (hts : .closing ∉ ts)
    (hhead : ts'.head? ≠ some .closing) (h : CommasAdded (ts ++ ts') us) :
    ∃ vs, us = ts ++ vs ∧ CommasAdded ts' vs := by
  obtain ⟨vs, vs', hvs, hvs', rfl | ⟨-, h⟩⟩ := h.of_append
  · exact ⟨vs', by rw [hvs.eq_of_not_mem hts], hvs'⟩
  · exact absurd h hhead

end CommasAdded

theorem closing_not_mem_dottedTokens (ws : List String) : Token.closing ∉ dottedTokens ws := by
  induction ws with
  | nil => simp [dottedTokens]
  | cons w ws ih => cases ws <;> simp_all [dottedTokens]

theorem closing_not_mem_keyTokens (key : Option String) : Token.closing ∉ keyTokens key := by
  cases key <;> simp [keyTokens]

theorem head?_dottedTokens {ws : List String} (h : ws ≠ []) (us : List Token) :
    ∃ w, (dottedTokens ws ++ us).head? = some (.word w) := by
  obtain ⟨w, ws, rfl⟩ := List.exists_cons_of_ne_nil h
  cases ws <;> exact ⟨w, rfl⟩

/-- The first token of an expression closes no call. -/
theorem Expr.head?_tokens (e : Expr) (us : List Token) :
    (e.tokens ++ us).head? ≠ some .closing := by
  have hname : ∀ (name : String) (us : List Token), (nameTokens name ++ us).head? ≠
      some .closing := by
    intro name us
    have hne : (DeniedName.parts name.toList).map String.ofList ≠ [] := by
      simpa using (DeniedName.parts_spec name.toList).1
    obtain ⟨w, hw⟩ := head?_dottedTokens hne us
    rw [nameTokens, hw]
    simp
  cases e with
  | literal l => cases l <;> simp [tokens]
  | name w => simp [tokens]
  | member kind item =>
    rw [tokens, List.append_assoc]
    exact hname kind _
  | call c ps ks =>
    rw [tokens, List.append_assoc]
    exact hname c _

theorem head?_argumentTokens (a : Option String × Expr) (us : List Token) :
    (argumentTokens a ++ us).head? ≠ some .closing := by
  obtain ⟨_ | key, e⟩ := a
  · exact e.head?_tokens us
  · simp [argumentTokens, keyTokens]

theorem dottedTokens_concat {ws : List String} (h : ws ≠ []) (item : String) :
    dottedTokens (ws ++ [item]) = dottedTokens ws ++ [.point, .word item] := by
  induction ws with
  | nil => exact absurd rfl h
  | cons w ws ih =>
    cases ws with
    | nil => rfl
    | cons v ws =>
      change _ :: _ :: dottedTokens (v :: ws ++ [item]) = _
      rw [ih (by simp)]
      rfl

/-- The tokens of an argument with commas added are its key and tokens of its value with
commas added, and a comma may follow them. -/
theorem CommasAdded.of_argument {key : Option String} {e : Expr} {ts us : List Token}
    (h : CommasAdded (argumentTokens (key, e) ++ ts) us) : ∃ vs vs', CommasAdded e.tokens vs ∧
      CommasAdded ts vs' ∧ (us = keyTokens key ++ (vs ++ vs') ∨
        us = keyTokens key ++ (vs ++ .comma :: vs') ∧ ts.head? = some .closing) := by
  rw [argumentTokens, List.append_assoc] at h
  obtain ⟨us, rfl, hrest⟩ := h.of_append_left (closing_not_mem_keyTokens key) (e.head?_tokens ts)
  obtain ⟨vs, vs', hvs, hvs', rfl | ⟨rfl, hhead⟩⟩ := hrest.of_append
  · exact ⟨vs, vs', hvs, hvs', .inl rfl⟩
  · exact ⟨vs, vs', hvs, hvs', .inr ⟨rfl, hhead⟩⟩

/-- If the values of arguments are spelled by their tokens with commas added, then so are the
arguments together with the parenthesis that closes them. -/
theorem listed_of_commasAdded {args : List (Option String × Expr)} {us : List Token}
    (hspells : ∀ a ∈ args, ∀ ts, CommasAdded a.2.tokens ts → Spells a.2 ts)
    (h : CommasAdded ([Token.comma].intercalate (args.map argumentTokens) ++ [.closing]) us) :
    Listed Spells args us := by
  have hclosing : ∀ {vs}, CommasAdded [.closing] vs → vs = [.closing] := by
    rintro vs (_ | ⟨_, h⟩)
    rw [h.eq_nil]
  -- The separator stands between two arguments only, so the last one is a case of its own.
  induction args generalizing us with
  | nil =>
    rw [hclosing h]
    exact .none
  | cons a rest ih =>
    obtain ⟨key, e⟩ := a
    cases rest with
    | nil =>
      rw [List.map_singleton, List.intercalate_singleton] at h
      obtain ⟨vs, vs', hvs, hvs', hus⟩ := h.of_argument
      obtain rfl := hclosing hvs'
      have he := hspells _ List.mem_cons_self vs hvs
      rcases hus with rfl | ⟨rfl, -⟩
      · exact .last he
      · exact .more he .none
    | cons b rest =>
      rw [List.map_cons, List.map_cons, List.intercalate_cons_cons, List.append_assoc,
        List.append_assoc, List.singleton_append] at h
      obtain ⟨vs, vs', hvs, hvs', hus⟩ := h.of_argument
      have he := hspells _ List.mem_cons_self vs hvs
      have hhead : ∀ us : List Token, ([Token.comma].intercalate
          ((b :: rest).map argumentTokens) ++ us).head? ≠ some .closing := by
        intro us
        cases rest with
        | nil =>
          rw [List.map_singleton, List.intercalate_singleton]
          exact head?_argumentTokens b us
        | cons c rest =>
          rw [List.map_cons, List.map_cons, List.intercalate_cons_cons, List.append_assoc,
            List.append_assoc]
          exact head?_argumentTokens b _
      obtain ⟨us, rfl, hrest⟩ := @CommasAdded.of_append_left [.comma] _ _ (by simp)
        (hhead [.closing]) hvs'
      have hlisted := ih (fun a ha => hspells a (List.mem_cons_of_mem _ ha)) hrest
      rcases hus with rfl | ⟨-, hcomma⟩
      · exact .more he hlisted
      · cases hcomma

/-- **The tokens of an expression spell it**, also with commas added. -/
theorem Expr.spells_of_commasAdded {e : Expr} (hw : e.WellFormed) {ts : List Token}
    (h : CommasAdded e.tokens ts) : Spells e ts := by
  have hplain : ∀ {us : List Token}, .closing ∉ us → Spells e us → CommasAdded us ts →
      Spells e ts := by
    intro us hus hspells h
    rwa [h.eq_of_not_mem hus]
  induction e using induct generalizing ts with
  | literal l =>
    cases l with
    | int value => exact hplain (by simp) (.int value) h
    | float value => exact hplain (by simp) (.float value) h
    | text value => exact hplain (by simp) (.quoted value) h
    | bool value => exact hplain (by simp) (.truth value) h
    | none => exact hplain (by simp) .absent h
  | name w => exact hplain (by simp) (.name w) h
  | member kind item =>
    obtain ⟨⟨ws, hws⟩, -⟩ := hw.here
    rw [tokens, nameTokens_of_words hws, ← dottedTokens_concat hws.ne_nil] at h
    exact hplain (closing_not_mem_dottedTokens _) (.member hws) h
  | call callee ps ks ihp ihk =>
    obtain ⟨⟨⟨ws, hws⟩, -⟩, hps, hks⟩ := wellFormed_call.1 hw
    rw [tokens_call, nameTokens_of_words hws] at h
    obtain ⟨us, rfl, hargs⟩ := h.of_append_left (closing_not_mem_dottedTokens ws) (by simp)
    obtain ⟨us, rfl, hlist⟩ := hargs.of_opening
    refine .call hws (listed_of_commasAdded (fun a ha ts hts => ?_) hlist)
    rcases List.mem_append.1 ha with ha | ha
    · obtain ⟨e, he, rfl⟩ := List.mem_map.1 ha
      exact ihp e he (hps e he) hts fun hus hspells h => h.eq_of_not_mem hus ▸ hspells
    · obtain ⟨ke, hke, rfl⟩ := List.mem_map.1 ha
      exact ihk ke hke (hks ke hke) hts fun hus hspells h => h.eq_of_not_mem hus ▸ hspells

/-! ### The canonical text -/

theorem flatMap_printed_dottedTokens (ws : List String) :
    (dottedTokens ws).flatMap Token.printed = ['.'].intercalate (ws.map String.toList) := by
  induction ws with
  | nil => rfl
  | cons w ws ih =>
    cases ws with
    | nil => simp [dottedTokens, Token.printed, Token.chars]
    | cons v ws =>
      rw [dottedTokens, List.flatMap_cons, List.flatMap_cons, ih, ← List.append_assoc]
      · exact (List.intercalate_cons_cons ..).symm
      · simp

theorem flatMap_printed_nameTokens (name : String) :
    (nameTokens name).flatMap Token.printed = name.toList := by
  rw [nameTokens, flatMap_printed_dottedTokens, List.map_map]
  simpa [Function.comp_def, String.toList_ofList] using (DeniedName.parts_spec name.toList).2.2

theorem flatMap_printed_intercalate (tss : List (List Token)) :
    ([Token.comma].intercalate tss).flatMap Token.printed =
      Expr.separator.intercalate (tss.map fun ts => ts.flatMap Token.printed) := by
  induction tss with
  | nil => rfl
  | cons ts tss ih =>
    cases tss with
    | nil => simp
    | cons us tss =>
      rw [List.intercalate_cons_cons, List.flatMap_append, List.flatMap_append, ih]
      exact (List.intercalate_cons_cons ..).symm

/-- **The canonical text is made of the tokens**, with a blank after each comma. -/
theorem Expr.chars_eq (e : Expr) : e.chars = e.tokens.flatMap Token.printed := by
  induction e using induct with
  | literal l => cases l <;> simp [chars, tokens, Token.printed, Token.chars, Literal.chars]
  | name w => simp [chars, tokens, Token.printed, Token.chars]
  | member kind item =>
    rw [chars, tokens, List.flatMap_append, flatMap_printed_nameTokens]
    simp [Token.printed, Token.chars, Token.sign?]
  | call c ps ks ihp ihk =>
    have hargs : ps.map chars ++ ks.map (fun ke => ke.1.toList ++ '=' :: ke.2.chars) =
        ((argumentsOf ps ks).map argumentTokens).map fun ts => ts.flatMap Token.printed := by
      rw [argumentsOf, List.map_append, List.map_append, List.map_map, List.map_map, List.map_map,
        List.map_map]
      congr 1
      · exact List.map_congr_left ihp
      · refine List.map_congr_left fun ke hke => ?_
        rw [ihk ke hke]
        simp [argumentTokens, keyTokens, Token.printed, Token.chars, Token.sign?]
    rw [chars_call, tokens_call, List.flatMap_append, flatMap_printed_nameTokens, List.flatMap_cons,
      List.flatMap_append, flatMap_printed_intercalate, hargs]
    rfl

/-- The tokens of an expression are spread over its canonical text. -/
theorem Expr.spread_tokens (e : Expr) : Spread e.tokens e.chars := by
  rw [chars_eq]
  induction e.tokens with
  | nil => exact .nil (by simp)
  | cons t ts ih =>
    have hblank : ∀ c ∈ [' '], Text.isBlank c = true := by
      rintro c hc
      rw [List.mem_singleton.mp hc]
      rfl
    cases t with
    | comma => exact .cons_token .comma (ih.append_blanks hblank)
    | _ => exact .cons_token _ ih

end TradeSignals
