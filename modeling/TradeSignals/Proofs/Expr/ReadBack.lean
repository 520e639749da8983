import TradeSignals.Proofs.Expr.NumberText
import TradeSignals.Proofs.Expr.Tokens

/-!
# Spellings are read back

Every spelling of a well formed expression is read as that expression
(`TradeSignals.Expr.parseChars_of_spread`). So is its canonical text
(`TradeSignals.Expr.parse_text`), whatever blanks are put around the tokens of it and whatever
commas are added where the arguments of a call end (`TradeSignals.Expr.parse_layout`).

A reader has to stop where the tokens of its part end, and what stops it is the token after
them. A word is stopped by any sign, `TradeSignals.Parser.Stops`; a whole value, which could
go on as a dotted name or as a call, only by a comma or a closing parenthesis,
`TradeSignals.Parser.Ends`. The end of the text stops both.
-/

namespace TradeSignals

namespace Parser

/-! ### What stops a reader -/

/-- The next token, if there is one, is a sign. -/
def Stops (us : List Token) : Prop :=
  ∀ u, us.head? = some u → u.sign?.isSome = true

/-- The next token, if there is one, is a comma or a closing parenthesis. -/
def Ends (us : List Token) : Prop :=
  us.head? = none ∨ us.head? = some .comma ∨ us.head? = some .closing

theorem Ends.stops {us : List Token} (h : Ends us) : Stops us := by
  intro u hu
  rcases h with h | h | h <;> rw [h] at hu <;> cases hu <;> rfl

/-- After blanks the sign of the next token stands first. -/
theorem head?_skipBlanks_of_spread {us : List Token} {s : List Char} (h : Spread us s)
    (hus : Stops us) : (Text.skipBlanks s).head? = us.head?.bind Token.sign? := by
  cases h with
  | nil hb =>
    rw [← List.append_nil s, Text.skipBlanks_append [] hb]
    rfl
  | cons hb hs =>
    obtain ⟨c, hc⟩ := Option.isSome_iff_exists.1 (hus _ rfl)
    rw [Text.skipBlanks_append _ hb, Token.chars_of_sign? hc, List.singleton_append,
      Text.skipBlanks_cons_of_not_isBlank _ (Token.plain_of_sign? hc).1]
    simp [hc]

/-- A token that does not begin with a blank is read off a text. -/
theorem skipBlanks_of_spread {t : Token} {us : List Token} {s : List Char}
    (ht : ∃ c cs, t.chars = c :: cs ∧ Text.isBlank c = false) (h : Spread (t :: us) s) :
    ∃ s', Text.skipBlanks s = t.chars ++ s' ∧ Spread us s' := by
  obtain ⟨c, cs, hchars, hc⟩ := ht
  cases h with
  | cons hb hs =>
    refine ⟨_, ?_, hs⟩
    rw [Text.skipBlanks_append _ hb, hchars, List.cons_append,
      Text.skipBlanks_cons_of_not_isBlank _ hc]

/-- A sign is read off a text. -/
theorem skipBlanks_of_sign {t : Token} {c : Char} {us : List Token} {s : List Char}
    (hc : t.sign? = some c) (h : Spread (t :: us) s) :
    ∃ s', Text.skipBlanks s = c :: s' ∧ Spread us s' := by
  have hchars := Token.chars_of_sign? hc
  obtain ⟨s', hs', hspread⟩ := skipBlanks_of_spread ⟨c, [], hchars, (Token.plain_of_sign? hc).1⟩ h
  rw [hchars] at hs'
  exact ⟨s', hs', hspread⟩

/-- Blanks in front may be left out. -/
theorem spread_skipBlanks {us : List Token} {s : List Char} (hus : Stops us) (h : Spread us s) :
    Spread us (Text.skipBlanks s) := by
  cases h with
  | nil hb =>
    rw [← List.append_nil s, Text.skipBlanks_append [] hb]
    exact .nil (by simp [Text.skipBlanks])
  | @cons blanks s t us hb hs =>
    obtain ⟨c, hc⟩ := Option.isSome_iff_exists.1 (hus t rfl)
    obtain ⟨s', hskip, hspread⟩ := skipBlanks_of_sign hc (.cons hb hs)
    have h := Spread.cons_token t hspread
    rwa [Token.chars_of_sign? hc, List.singleton_append, ← hskip] at h

/-- What stops a word does not continue it. -/
theorem continuesWord_of_stops {us : List Token} {s : List Char} (hus : Stops us)
    (h : Spread us s) : ∀ c, s.head? = some c → Text.continuesWord c = false := by
  intro c hc
  cases h with
  | nil hb => exact Text.continuesWord_of_isBlank (hb c (List.mem_of_mem_head? hc))
  | @cons blanks s t ts hb hs =>
    cases blanks with
    | nil =>
      obtain ⟨d, hd⟩ := Option.isSome_iff_exists.1 (hus _ rfl)
      rw [Token.chars_of_sign? hd] at hc
      cases hc
      exact (Token.plain_of_sign? hd).2
    | cons b blanks =>
      cases hc
      exact Text.continuesWord_of_isBlank (hb c List.mem_cons_self)

/-- What ends a value is apart from a number. -/
theorem apart_of_ends {us : List Token} {s : List Char} (hus : Ends us) (h : Spread us s) :
    Apart s := by
  intro c hc
  refine ⟨continuesWord_of_stops hus.stops h c hc, ?_⟩
  rintro rfl
  -- A point would be the sign of the next token, and that is none of these.
  have hskip : (Text.skipBlanks s).head? = some '.' := by
    cases s with
    | nil => cases hc
    | cons c s =>
      cases hc
      rfl
  rw [head?_skipBlanks_of_spread h hus.stops] at hskip
  rcases hus with h | h | h <;> rw [h] at hskip <;> cases hskip

/-! ### Words -/

theorem word_of_spread {w : String} {us : List Token} {s : List Char} (hw : Text.isWord w = true)
    (hus : Stops us) (h : Spread (.word w :: us) s) :
    ∃ s', word s = .ok (w, s') ∧ Spread us s' := by
  obtain ⟨c, cs, hlist, hc, hcs⟩ := Text.isWord_iff.1 hw
  cases h with
  | @cons blanks s' _ _ hb hs =>
    -- What comes next does not continue the word, so exactly the word is taken.
    have hstop : s'.takeWhile Text.continuesWord = [] ∧ s'.dropWhile Text.continuesWord = s' := by
      have hhead := continuesWord_of_stops hus hs
      cases s' with
      | nil => exact ⟨rfl, rfl⟩
      | cons d s' => simp [hhead d rfl]
    have hskip : Text.skipBlanks (blanks ++ ((Token.word w).chars ++ s')) = c :: (cs ++ s') := by
      rw [Text.skipBlanks_append _ hb, Token.chars, hlist, List.cons_append,
        Text.skipBlanks_cons_of_not_isBlank _ (Text.isBlank_of_beginsWord hc)]
    refine ⟨s', ?_, hs⟩
    rw [word, hskip]
    dsimp only
    rw [if_pos hc, List.takeWhile_append_of_pos hcs, List.dropWhile_append_of_pos hcs, hstop.1,
      hstop.2, List.append_nil, ← hlist, String.ofList_toList]

theorem dotted_of_point {s r more after : List Char} {w : String} {ws : List String}
    (hw : word s = .ok (w, r)) (hr : Text.skipBlanks r = '.' :: more)
    (hmore : dotted more = .ok (ws, after)) : dotted s = .ok (w :: ws, after) := by
  rw [dotted]
  split
  · next h => rw [hw] at h; cases h
  · next h =>
    rw [hw] at h
    cases h
    split
    · next h =>
      rw [hr] at h
      cases h
      rw [hmore]
    · next h => exact absurd hr (h _)

theorem dotted_of_end {s r : List Char} {w : String} (hw : word s = .ok (w, r))
    (hr : (Text.skipBlanks r).head? ≠ some '.') : dotted s = .ok ([w], Text.skipBlanks r) := by
  rw [dotted]
  split
  · next h => rw [hw] at h; cases h
  · next h =>
    rw [hw] at h
    cases h
    split
    · next h => rw [h] at hr; exact absurd rfl hr
    · rfl

theorem stops_cons {t : Token} {us : List Token} (h : t.sign?.isSome = true) :
    Stops (t :: us) := by
  intro u hu
  cases hu
  exact h

/-- **A dotted name is read back.** -/
theorem dotted_of_spread {ws : List String} {us : List Token} {s : List Char} (hne : ws ≠ [])
    (hws : ∀ w ∈ ws, Text.isWord w = true) (hus : Stops us) (hpoint : us.head? ≠ some .point)
    (h : Spread (dottedTokens ws ++ us) s) :
    ∃ s', dotted s = .ok (ws, Text.skipBlanks s') ∧ Spread us s' := by
  -- A point after a word is what makes the reader go on, so the last word is treated apart.
  induction ws generalizing s with
  | nil => exact absurd rfl hne
  | cons w ws ih =>
    have hw := hws w List.mem_cons_self
    cases ws with
    | nil =>
      obtain ⟨r, hr, hspread⟩ := word_of_spread hw hus h
      refine ⟨r, dotted_of_end hr ?_, hspread⟩
      rw [head?_skipBlanks_of_spread hspread hus]
      cases us with
      | nil => simp
      | cons u us => cases u <;> simp_all [Token.sign?]
    | cons v ws =>
      obtain ⟨r, hr, hspread⟩ := word_of_spread hw (stops_cons rfl) h
      obtain ⟨more, hmore, hspread⟩ := skipBlanks_of_sign (c := '.') rfl hspread
      obtain ⟨s', hs', hspread⟩ := ih (by simp) (fun u hu => hws u (List.mem_cons_of_mem _ hu))
        hspread
      exact ⟨s', dotted_of_point hr hmore hs', hspread⟩

/-! ### Quoted texts -/

/-- A quoted text is read up to its closing quote. -/
theorem quotedRest_encode (start cs s : List Char) :
    quotedRest start '\x27' (Quote.encode cs ++ '\x27' :: s) = .ok (cs, s) := by
  induction cs with
  | nil =>
    rw [quotedRest.eq_def]
    rfl
  | cons c cs ih =>
    have hsplit : Quote.encode (c :: cs) ++ '\x27' :: s =
        Quote.encodeChar c ++ (Quote.encode cs ++ '\x27' :: s) := by
      rw [← List.append_assoc]
      rfl
    -- A character is written either as a backslash and a sign or as itself.
    rw [hsplit, Quote.encodeChar]
    split
    · next sign hsign =>
      have hback := Quote.unescape?_of_escape? hsign
      rw [List.cons_append, List.singleton_append, quotedRest.eq_def]
      dsimp only
      rw [if_pos rfl, hback]
      dsimp only
      rw [ih]
    · next hnone =>
      have hplain : c ≠ '\x5c' ∧ c ≠ '\x27' ∧ c ≠ '\n' := by
        refine ⟨?_, ?_, ?_⟩ <;> rintro rfl <;> revert hnone <;> decide
      rw [List.singleton_append, quotedRest.eq_def]
      dsimp only
      rw [if_neg hplain.1, if_neg hplain.2.1, if_neg hplain.2.2, ih]

/-! ### Where values begin -/

/-- What a value may begin with. -/
def Opens (c : Char) : Prop :=
  Text.beginsWord c = true ∨ c.isDigit = true ∨ c = '-' ∨ c = '\x27'

theorem Opens.plain {c : Char} (h : Opens c) :
    Text.isBlank c = false ∧ c ≠ '=' ∧ c ≠ ')' := by
  rcases h with h | h | rfl | rfl
  · refine ⟨Text.isBlank_of_beginsWord h, ?_, ?_⟩ <;> rintro rfl <;> revert h <;> decide
  · refine ⟨Text.isBlank_of_isDigit h, ?_, ?_⟩ <;> rintro rfl <;> revert h <;> decide
  · decide
  · decide

theorem opens_word {w : String} (h : Text.isWord w = true) :
    ∃ c cs, (Token.word w).chars = c :: cs ∧ Opens c := by
  obtain ⟨c, cs, hlist, hc, -⟩ := Text.isWord_iff.1 h
  exact ⟨c, cs, hlist, .inl hc⟩

theorem opens_number {value : Literal} (h : BeginsNumber value.chars) :
    ∃ c cs, (Token.constant value).chars = c :: cs ∧ Opens c := by
  obtain ⟨c, cs, hlist, hc⟩ := h
  exact ⟨c, cs, hlist, .inr (hc.imp id .inl)⟩

theorem isWord_truthText (b : Bool) : Text.isWord (truthText b) = true := by
  cases b <;> decide

/-- A dotted name begins with a word, and either that is all of it or a point comes next. -/
theorem exists_word_of_dotted {ws : List String} (hne : ws ≠ []) (us : List Token) :
    ∃ w vs, w ∈ ws ∧ dottedTokens ws ++ us = .word w :: vs ∧
      (vs = us ∨ vs.head? = some .point) := by
  obtain ⟨w, ws, rfl⟩ := List.exists_cons_of_ne_nil hne
  cases ws with
  | nil => exact ⟨w, us, List.mem_cons_self, rfl, .inl rfl⟩
  | cons v ws => exact ⟨w, _, List.mem_cons_self, rfl, .inr rfl⟩

/-- The tokens of a well formed expression begin where a value may begin. -/
theorem opens_spells {e : Expr} {ts : List Token} (hw : e.WellFormed) (h : Spells e ts) :
    ∃ t ts', ts = t :: ts' ∧ ∃ c cs, t.chars = c :: cs ∧ Opens c := by
  have hdotted : ∀ {ws : List String} (us : List Token), ws ≠ [] →
      (∀ w ∈ ws, Text.isWord w = true) →
      ∃ t ts', dottedTokens ws ++ us = t :: ts' ∧ ∃ c cs, t.chars = c :: cs ∧ Opens c := by
    intro ws us hne hws
    obtain ⟨w, vs, hw, hts, -⟩ := exists_word_of_dotted hne us
    exact ⟨_, vs, hts, opens_word (hws w hw)⟩
  cases h with
  | int value => exact ⟨_, _, rfl, opens_number (beginsNumber_int value)⟩
  | float value => exact ⟨_, _, rfl, opens_number (beginsNumber_float hw.here)⟩
  | quoted value => exact ⟨_, _, rfl, '\x27', _, rfl, .inr (.inr (.inr rfl))⟩
  | truth value => exact ⟨_, _, rfl, opens_word (isWord_truthText value)⟩
  | absent => exact ⟨_, _, rfl, opens_word (by decide)⟩
  | name w => exact ⟨_, _, rfl, opens_word hw.here.1⟩
  | member hws =>
    have h := hdotted [] (List.append_ne_nil_of_left_ne_nil hws.ne_nil _)
      (List.forall_mem_append.2 ⟨hws.isWord, List.forall_mem_singleton.2 hw.here.2⟩)
    rwa [List.append_nil] at h
  | call hws _ => exact hdotted _ hws.ne_nil hws.isWord

/-! ### Values -/

/-- A word in front makes a value a name or a call. -/
theorem value_of_word {call : CallReader} {w : String} {us : List Token} {s : List Char}
    (hw : Text.isWord w = true) (h : Spread (.word w :: us) s) :
    value call s = nameOrCall call (Text.skipBlanks s) := by
  obtain ⟨c, cs, hlist, hc, -⟩ := Text.isWord_iff.1 hw
  have hchars : (Token.word w).chars = c :: cs := hlist
  obtain ⟨s', hskip, -⟩ :=
    skipBlanks_of_spread ⟨c, cs, hchars, Text.isBlank_of_beginsWord hc⟩ h
  rw [hchars, List.cons_append] at hskip
  -- The reader looks for numbers and quotes first, and a word begins like neither.
  have hplain : c.isDigit = false ∧ c ≠ '.' ∧ c ≠ '-' ∧ c ≠ '+' ∧ c ≠ '\x27' ∧ c ≠ '\x22' := by
    refine ⟨?_, ?_, ?_, ?_, ?_, ?_⟩
    · cases hd : c.isDigit with
      | false => rfl
      | true =>
        rw [Text.beginsWord_of_isDigit hd] at hc
        cases hc
    all_goals
      rintro rfl
      revert hc
      decide
  rw [value, hskip]
  dsimp only
  rw [hplain.1]
  simp only [beq_eq_false_iff_ne.2 hplain.2.1, beq_eq_false_iff_ne.2 hplain.2.2.1,
    beq_eq_false_iff_ne.2 hplain.2.2.2.1, beq_eq_false_iff_ne.2 hplain.2.2.2.2.1,
    beq_eq_false_iff_ne.2 hplain.2.2.2.2.2, Bool.false_and, Bool.or_false, Bool.false_eq_true,
    if_false, if_pos hc]

theorem spread_skipBlanks_of_word {w : String} {us : List Token} {s : List Char}
    (hw : Text.isWord w = true) (h : Spread (.word w :: us) s) :
    Spread (.word w :: us) (Text.skipBlanks s) := by
  obtain ⟨c, cs, hlist, hc, -⟩ := Text.isWord_iff.1 hw
  have hchars : (Token.word w).chars = c :: cs := hlist
  obtain ⟨s', hskip, hspread⟩ :=
    skipBlanks_of_spread ⟨c, cs, hchars, Text.isBlank_of_beginsWord hc⟩ h
  rw [hskip]
  exact .cons_token _ hspread

/-- A quote in front makes a value a quoted text. -/
theorem value_quoted {call : CallReader} (t : String) (s : List Char) :
    value call ((Literal.text t).chars ++ s) = .ok (.quoted t, s) := by
  have hchars : (Literal.text t).chars ++ s = '\x27' :: (Quote.encode t.toList ++ '\x27' :: s) := by
    rw [Literal.chars, Quote.quote, List.cons_append, List.append_assoc]
    rfl
  have hvalue : ∀ r cs after, quotedRest ('\x27' :: r) '\x27' r = .ok (cs, after) →
      value call ('\x27' :: r) = .ok (.quoted (String.ofList cs), after) := by
    intro r cs after h
    -- A quote begins no number.
    have hnumber : ∀ pointFirst : Bool, ¬('\x27'.isDigit || '\x27' == '.' && pointFirst ||
        '\x27' == '-' || '\x27' == '+') = true := by decide
    rw [value, Text.skipBlanks_cons_of_not_isBlank _ (by decide)]
    dsimp only
    rw [if_neg (hnumber _), if_pos (by decide), h]
  rw [hchars, hvalue _ _ _ (quotedRest_encode _ _ _), String.ofList_toList]

/-- A dotted name in front of what ends a value is read as the value of its words. -/
theorem nameOrCall_of_ends {call : CallReader} {ws : List String} {us : List Token}
    {s : List Char} (hne : ws ≠ []) (hws : ∀ w ∈ ws, Text.isWord w = true) (hus : Ends us)
    (h : Spread (dottedTokens ws ++ us) s) :
    ∃ rest, nameOrCall call s = .ok (wordsValue ws, rest) ∧ Spread us rest := by
  have hpoint : us.head? ≠ some .point := by
    rcases hus with h | h | h <;> rw [h] <;> simp
  obtain ⟨s', hs', hspread⟩ := dotted_of_spread hne hws hus.stops hpoint h
  -- No parenthesis follows, so this is no call.
  have hhead : (Text.skipBlanks s').head? ≠ some '(' := by
    rw [head?_skipBlanks_of_spread hspread hus.stops]
    rcases hus with h | h | h <;> rw [h] <;> simp [Token.sign?]
  refine ⟨Text.skipBlanks s', ?_, spread_skipBlanks hus.stops hspread⟩
  rw [nameOrCall, hs']
  dsimp only
  rw [if_neg hhead]

/-- A dotted name in front of a parenthesis is called. -/
theorem nameOrCall_of_opening {call : CallReader} {ws : List String} {us : List Token}
    {s : List Char} (hne : ws ≠ []) (hws : ∀ w ∈ ws, Text.isWord w = true)
    (h : Spread (dottedTokens ws ++ .opening :: us) s) :
    ∃ s', nameOrCall call s = call (".".intercalate ws) ('(' :: s') ∧ Spread us s' := by
  obtain ⟨r, hr, hspread⟩ := dotted_of_spread hne hws (stops_cons rfl) (by simp) h
  obtain ⟨s', hskip, hspread⟩ := skipBlanks_of_sign (c := '(') rfl hspread
  refine ⟨s', ?_, hspread⟩
  rw [nameOrCall, hr, hskip]
  rfl

theorem wordsValue_name {w : String} (h : w ∉ ["True", "False", "None"]) :
    wordsValue [w] = .name w := by
  simp only [List.mem_cons, List.not_mem_nil, or_false, not_or] at h
  unfold wordsValue
  split <;> simp_all

theorem wordsValue_member {ws : List String} (hne : ws ≠ []) (item : String) :
    wordsValue (ws ++ [item]) = .member (".".intercalate ws) item := by
  have hlong : ∀ a b r, wordsValue (a :: b :: r) =
      .member (".".intercalate (a :: b :: r).dropLast) ((a :: b :: r).getLast?.getD "") :=
    fun _ _ _ => by rw [wordsValue] <;> simp
  obtain ⟨a, ws, rfl⟩ := List.exists_cons_of_ne_nil hne
  obtain ⟨b, r, hr⟩ := List.exists_cons_of_ne_nil (List.append_ne_nil_of_right_ne_nil ws
    (List.cons_ne_nil item []))
  rw [List.cons_append, hr, hlong, ← hr, ← List.cons_append, List.dropLast_concat,
    List.getLast?_concat, Option.getD_some]

/-- A dotted name in front makes a value a name or a call. -/
theorem value_of_dotted {call : CallReader} {ws : List String} {us : List Token} {s : List Char}
    (hne : ws ≠ []) (hws : ∀ w ∈ ws, Text.isWord w = true)
    (h : Spread (dottedTokens ws ++ us) s) :
    value call s = nameOrCall call (Text.skipBlanks s) ∧
      Spread (dottedTokens ws ++ us) (Text.skipBlanks s) := by
  obtain ⟨w, vs, hw, hts, -⟩ := exists_word_of_dotted hne us
  rw [hts] at h ⊢
  exact ⟨value_of_word (hws w hw) h, spread_skipBlanks_of_word (hws w hw) h⟩

/-- A dotted name that is a whole value is read as the value of its words. -/
theorem value_of_words {call : CallReader} {ws : List String} {us : List Token} {s : List Char}
    (hne : ws ≠ []) (hws : ∀ w ∈ ws, Text.isWord w = true) (hus : Ends us)
    (h : Spread (dottedTokens ws ++ us) s) :
    ∃ rest, value call s = .ok (wordsValue ws, rest) ∧ Spread us rest := by
  have hvalue := @value_of_dotted call ws us s hne hws h
  rw [hvalue.1]
  exact nameOrCall_of_ends hne hws hus hvalue.2

/-- A constant stands at the beginning of a text, after blanks. -/
theorem value_of_constant {l : Literal} {us : List Token} {s : List Char}
    (hl : ∃ c cs, l.chars = c :: cs ∧ Opens c) (hs : Spread (.constant l :: us) s) :
    ∃ s', Spread us s' ∧ ∀ call : CallReader, value call s = value call (l.chars ++ s') := by
  obtain ⟨c, cs, hchars, hc⟩ := hl
  obtain ⟨s', hskip, hspread⟩ := @skipBlanks_of_spread (.constant l) us s
    ⟨c, cs, hchars, hc.plain.1⟩ hs
  have hskip : Text.skipBlanks s = l.chars ++ s' := hskip
  refine ⟨s', hspread, fun call => ?_⟩
  rw [value, value, ← hskip, Text.skipBlanks_skipBlanks]

/-- **A value is read back** from its spelling, if calls are. -/
theorem value_of_spread {call : CallReader} {e : Expr} {ts us : List Token} {s : List Char}
    (hw : e.WellFormed) (h : Spells e ts) (hus : Ends us) (hs : Spread (ts ++ us) s)
    (hcall : ∀ callee ps ks args s', e = .call callee ps ks →
      Listed Spells (argumentsOf ps ks) args → Spread (args ++ us) s' →
        ∃ rest, call callee ('(' :: s') = .ok (e, rest) ∧ Spread us rest) :
    ∃ rest, value call s = .ok (e, rest) ∧ Spread us rest := by
  -- One case for each spelling; only the last one needs the reader of calls.
  cases h with
  | int v =>
    obtain ⟨s', hspread, hvalue⟩ := @value_of_constant (.int v) us s
      (@opens_number (.int v) (beginsNumber_int v)) hs
    exact ⟨s', (hvalue call).trans (value_int v (apart_of_ends hus hspread)), hspread⟩
  | float x =>
    obtain ⟨s', hspread, hvalue⟩ := @value_of_constant (.float x) us s
      (@opens_number (.float x) (beginsNumber_float hw.here)) hs
    exact ⟨s', (hvalue call).trans (value_float hw.here (apart_of_ends hus hspread)), hspread⟩
  | quoted t =>
    obtain ⟨s', hspread, hvalue⟩ := @value_of_constant (.text t) us s
      ⟨'\x27', _, rfl, .inr (.inr (.inr rfl))⟩ hs
    exact ⟨s', (hvalue call).trans (value_quoted t s'), hspread⟩
  | truth b =>
    obtain ⟨rest, hrest⟩ := @value_of_words call [truthText b] us s (by simp)
      (List.forall_mem_singleton.2 (isWord_truthText b)) hus hs
    cases b <;> exact ⟨rest, hrest⟩
  | absent =>
    exact @value_of_words call ["None"] us s (by simp)
      (List.forall_mem_singleton.2 (by decide)) hus hs
  | name w =>
    obtain ⟨hword, hname⟩ := hw.here
    have h := @value_of_words call [w] us s (by simp) (List.forall_mem_singleton.2 hword) hus hs
    rwa [wordsValue_name hname] at h
  | @member kind item ws hws =>
    have h := @value_of_words call (ws ++ [item]) us s (by simp)
      (List.forall_mem_append.2 ⟨hws.isWord, List.forall_mem_singleton.2 hw.here.2⟩) hus hs
    rwa [wordsValue_member hws.ne_nil, hws.name_eq] at h
  | @call callee ws ps ks args hws hargs =>
    rw [List.append_assoc, List.cons_append] at hs
    have hvalue := @value_of_dotted call ws _ s hws.ne_nil hws.isWord hs
    obtain ⟨s', hname, hspread⟩ := nameOrCall_of_opening hws.ne_nil hws.isWord hvalue.2
    rw [hvalue.1, hname, hws.name_eq]
    exact hcall callee ps ks args s' rfl hargs hspread

/-! ### Keywords -/

theorem key?_of_word {w : String} {s r : List Char} (hs : ∃ c cs, s = c :: cs ∧
    Text.beginsWord c = true) (hw : word s = .ok (w, r)) :
    key? s = match Text.skipBlanks r with
      | '=' :: '=' :: _ => none
      | '=' :: after => some (w, after)
      | _ => none := by
  obtain ⟨c, cs, rfl, hc⟩ := hs
  rewrite [key?, if_pos hc, hw]
  rfl

/-- The first token of a text without blanks in front, and the text after it. -/
theorem word_skipBlanks {w : String} {us : List Token} {s : List Char}
    (hw : Text.isWord w = true) (hus : Stops us) (h : Spread (.word w :: us) s) :
    (∃ c cs, Text.skipBlanks s = c :: cs ∧ Text.beginsWord c = true) ∧
      ∃ r, word (Text.skipBlanks s) = .ok (w, r) ∧ Spread us r := by
  obtain ⟨c, cs, hlist, hc, -⟩ := Text.isWord_iff.1 hw
  have hchars : (Token.word w).chars = c :: cs := hlist
  obtain ⟨s', hskip, -⟩ := skipBlanks_of_spread ⟨c, cs, hchars, Text.isBlank_of_beginsWord hc⟩ h
  rw [hchars] at hskip
  exact ⟨⟨c, _, hskip, hc⟩, word_of_spread hw hus (spread_skipBlanks_of_word hw h)⟩

/-- A word that no equals sign follows is no keyword. -/
theorem key?_eq_none_of_word {w : String} {us : List Token} {s : List Char}
    (hw : Text.isWord w = true) (hus : Stops us) (hequals : us.head? ≠ some .equals)
    (h : Spread (.word w :: us) s) : key? (Text.skipBlanks s) = none := by
  obtain ⟨hs, r, hr, hspread⟩ := word_skipBlanks hw hus h
  have hhead : (Text.skipBlanks r).head? ≠ some '=' := by
    rw [head?_skipBlanks_of_spread hspread hus]
    cases us with
    | nil => simp
    | cons u us => cases u <;> simp_all [Token.sign?]
  rw [key?_of_word hs hr]
  split
  · rfl
  · next h => exact absurd (congrArg List.head? h) hhead
  · rfl

/-- A dotted name that no equals sign follows is no keyword. -/
theorem key?_eq_none_of_dotted {ws : List String} {us : List Token} {s : List Char}
    (hne : ws ≠ []) (hws : ∀ w ∈ ws, Text.isWord w = true) (hus : Stops us)
    (hequals : us.head? ≠ some .equals) (h : Spread (dottedTokens ws ++ us) s) :
    key? (Text.skipBlanks s) = none := by
  obtain ⟨w, vs, hw, hts, hvs⟩ := exists_word_of_dotted hne us
  rw [hts] at h
  rcases hvs with rfl | hpoint
  · exact key?_eq_none_of_word (hws w hw) hus hequals h
  · refine key?_eq_none_of_word (hws w hw) ?_ (by rw [hpoint]; simp) h
    intro u hu
    rw [hpoint] at hu
    cases hu
    rfl

/-- A constant that does not begin like a word is no keyword. -/
theorem key?_eq_none_of_constant {l : Literal} {us : List Token} {s : List Char}
    (hl : ∃ c cs, l.chars = c :: cs ∧ Text.isBlank c = false ∧ Text.beginsWord c = false)
    (hs : Spread (.constant l :: us) s) : key? (Text.skipBlanks s) = none := by
  obtain ⟨c, cs, hchars, hblank, hc⟩ := hl
  obtain ⟨s', hskip, -⟩ := @skipBlanks_of_spread (.constant l) us s ⟨c, cs, hchars, hblank⟩ hs
  have hskip : Text.skipBlanks s = l.chars ++ s' := hskip
  rw [hskip, hchars, List.cons_append, key?, if_neg (by simp [hc])]

theorem key?_eq_none_of_number {l : Literal} {us : List Token} {s : List Char}
    (hl : BeginsNumber l.chars) (hs : Spread (.constant l :: us) s) :
    key? (Text.skipBlanks s) = none := by
  obtain ⟨c, cs, hchars, hc⟩ := hl
  refine key?_eq_none_of_constant ⟨c, cs, hchars, ?_⟩ hs
  rcases hc with hc | rfl
  · exact ⟨Text.isBlank_of_isDigit hc, Text.beginsWord_of_isDigit hc⟩
  · decide

/-- A value is not taken for a keyword. -/
theorem key?_of_value {e : Expr} {ts us : List Token} {s : List Char} (hw : e.WellFormed)
    (h : Spells e ts) (hus : Ends us) (hs : Spread (ts ++ us) s) :
    key? (Text.skipBlanks s) = none := by
  have hequals : us.head? ≠ some .equals := by
    rcases hus with h | h | h <;> rw [h] <;> simp
  -- Constants do not begin like a word, and after a name no equals sign follows.
  cases h with
  | int v => exact @key?_eq_none_of_number (.int v) us s (beginsNumber_int v) hs
  | float x => exact @key?_eq_none_of_number (.float x) us s (beginsNumber_float hw.here) hs
  | quoted t => exact @key?_eq_none_of_constant (.text t) us s ⟨'\x27', _, rfl, by decide⟩ hs
  | truth b =>
    exact @key?_eq_none_of_dotted [truthText b] us s (by simp)
      (List.forall_mem_singleton.2 (isWord_truthText b)) hus.stops hequals hs
  | absent =>
    exact @key?_eq_none_of_dotted ["None"] us s (by simp)
      (List.forall_mem_singleton.2 (by decide)) hus.stops hequals hs
  | name w =>
    exact @key?_eq_none_of_dotted [w] us s (by simp)
      (List.forall_mem_singleton.2 hw.here.1) hus.stops hequals hs
  | member hws =>
    exact key?_eq_none_of_dotted (by simp)
      (List.forall_mem_append.2 ⟨hws.isWord, List.forall_mem_singleton.2 hw.here.2⟩) hus.stops
      hequals hs
  | call hws _ =>
    rw [List.append_assoc, List.cons_append] at hs
    exact key?_eq_none_of_dotted hws.ne_nil hws.isWord (stops_cons rfl) (by simp) hs

/-- A keyword before a value is read. -/
theorem key?_of_key {key : String} {e : Expr} {ts us : List Token} {s : List Char}
    (hkey : Text.isWord key = true) (hw : e.WellFormed) (h : Spells e ts)
    (hs : Spread (.word key :: .equals :: (ts ++ us)) s) :
    ∃ s', key? (Text.skipBlanks s) = some (key, s') ∧ Spread (ts ++ us) s' := by
  obtain ⟨hhead, r, hr, hspread⟩ := word_skipBlanks hkey (stops_cons rfl) hs
  obtain ⟨s', hskip, hspread⟩ := skipBlanks_of_sign (c := '=') rfl hspread
  obtain ⟨t, ts', rfl, c, cs, hchars, hc⟩ := opens_spells hw h
  -- What follows the sign is a blank or the beginning of a value, so the sign is single.
  have hsingle : ∀ after, s' ≠ '=' :: after := by
    rintro after rfl
    obtain ⟨s'', hskip', -⟩ := skipBlanks_of_spread ⟨c, cs, hchars, hc.plain.1⟩ hspread
    have hplain : Text.skipBlanks ('=' :: after) = '=' :: after := rfl
    rw [hplain, hchars, List.cons_append] at hskip'
    exact hc.plain.2.1 (List.cons.inj hskip').1.symm
  refine ⟨s', ?_, hspread⟩
  rw [key?_of_word hhead hr, hskip]
  split
  · next h => exact absurd (List.cons.inj h).2 (hsingle _)
  · next h => rw [(List.cons.inj h).2]
  · next h => exact absurd rfl (h _)

/-! ### Arguments -/

/-- Do arguments come in an order that is read, after arguments with the given keys? -/
def Legal : List String → List (Option String × Expr) → Prop
  | _, [] => True
  | keys, (none, _) :: rest => keys = [] ∧ Legal keys rest
  | keys, (some key, _) :: rest =>
    key ∉ keys ∧ Text.isWord key = true ∧ Legal (keys ++ [key]) rest

theorem legal_keywords {keys : List String} {ks : List (String × Expr)}
    (hnodup : (keys ++ ks.map (·.1)).Nodup) (hws : ∀ ke ∈ ks, Text.isWord ke.1 = true) :
    Legal keys (ks.map fun ke => (some ke.1, ke.2)) := by
  induction ks generalizing keys with
  | nil => trivial
  | cons ke ks ih =>
    have hnot : ke.1 ∉ keys := fun hmem =>
      (List.nodup_append.1 hnodup).2.2 _ hmem _ List.mem_cons_self rfl
    refine ⟨hnot, hws ke List.mem_cons_self, ih ?_ fun k hk => hws k (List.mem_cons_of_mem _ hk)⟩
    rwa [List.map_cons, List.append_cons] at hnodup

/-- The arguments of a well formed call come in an order that is read. -/
theorem legal_argumentsOf {ps : List Expr} {ks : List (String × Expr)}
    (hnodup : (ks.map (·.1)).Nodup) (hws : ∀ ke ∈ ks, Text.isWord ke.1 = true) :
    Legal [] (argumentsOf ps ks) := by
  induction ps with
  | nil => exact legal_keywords hnodup hws
  | cons e ps ih => exact ⟨rfl, ih⟩

/-- **An argument is read back**, if its value is. -/
theorem argument_of_spread {value : Reader} {keys : List String} {key : Option String} {e : Expr}
    {rest : List (Option String × Expr)} {ts us : List Token} {s : List Char} (hw : e.WellFormed)
    (h : Spells e ts) (hus : Ends us) (hlegal : Legal keys ((key, e) :: rest))
    (hvalue : ∀ s, Spread (ts ++ us) s → ∃ r, value.run s = .ok (e, r) ∧ Spread us r)
    (hs : Spread (keyTokens key ++ (ts ++ us)) s) :
    ∃ r, argument value keys (Text.skipBlanks s) = .ok ((key, e), r) ∧ Spread us r := by
  cases key with
  | none =>
    obtain ⟨t, ts', rfl, c, cs, hchars, hc⟩ := opens_spells hw h
    have hskip : Spread (t :: ts' ++ us) (Text.skipBlanks s) := by
      obtain ⟨s', hskip, hspread⟩ := skipBlanks_of_spread ⟨c, cs, hchars, hc.plain.1⟩ hs
      rw [hskip]
      exact .cons_token t hspread
    obtain ⟨r, hr, hspread⟩ := hvalue _ hskip
    refine ⟨r, ?_, hspread⟩
    rw [argument, key?_of_value hw h hus hs]
    dsimp only
    rw [if_neg (not_not.2 hlegal.1), hr]
  | some key =>
    obtain ⟨hnew, hkey, -⟩ := hlegal
    obtain ⟨s', hs', hspread⟩ := key?_of_key hkey hw h hs
    obtain ⟨r, hr, hspread⟩ := hvalue _ hspread
    refine ⟨r, ?_, hspread⟩
    rw [argument, hs']
    dsimp only
    rw [if_neg (by simpa using hnew), hr]

section Arguments

variable {value : Reader} {callee : String} {ps : List Expr} {ks : List (String × Expr)}
  {s r after : List Char} {key : Option String} {e : Expr}

theorem arguments_close (hs : Text.skipBlanks s = ')' :: r) :
    arguments value callee ps ks s = .ok (.call callee ps ks, r) := by
  rw [arguments]
  split
  · next h =>
    rw [hs] at h
    cases h
    rfl
  · next h => exact absurd hs (h _)

theorem arguments_last (hs : ∀ r, Text.skipBlanks s ≠ ')' :: r)
    (ha : argument value (ks.map (·.1)) (Text.skipBlanks s) = .ok ((key, e), r))
    (hr : Text.skipBlanks r = ')' :: after) :
    arguments value callee ps ks s = .ok (.call callee (key.elim (ps ++ [e]) fun _ => ps)
      (ks ++ (key.map (·, e)).toList), after) := by
  rw [arguments]
  split
  · next h => exact absurd h (hs _)
  · split
    · next h => rw [ha] at h; cases h
    · next h =>
      rw [ha] at h
      cases h
      dsimp only
      split
      · next h =>
        rw [hr] at h
        cases h
        rfl
      · next h => rw [hr] at h; cases h
      · next h _ => exact absurd hr (h _)

theorem arguments_more (hs : ∀ r, Text.skipBlanks s ≠ ')' :: r)
    (ha : argument value (ks.map (·.1)) (Text.skipBlanks s) = .ok ((key, e), r))
    (hr : Text.skipBlanks r = ',' :: after) :
    arguments value callee ps ks s = arguments value callee (key.elim (ps ++ [e]) fun _ => ps)
      (ks ++ (key.map (·, e)).toList) after := by
  rw [arguments]
  split
  · next h => exact absurd h (hs _)
  · split
    · next h => rw [ha] at h; cases h
    · next h =>
      rw [ha] at h
      cases h
      dsimp only
      split
      · next h => rw [hr] at h; cases h
      · next h =>
        rw [hr] at h
        cases h
        rfl
      · next h => exact absurd hr (h _)

end Arguments

/-- An argument of a list, and what it leaves for the rest of the list. -/
theorem argument_of_listed {value : Reader} {keys : List String} {key : Option String} {e : Expr}
    {rest : List (Option String × Expr)} {t : Token} {ts us : List Token} {s : List Char}
    (hw : e.WellFormed) (h : Spells e ts) (ht : t = .comma ∨ t = .closing)
    (hlegal : Legal keys ((key, e) :: rest))
    (hvalue : ∀ us s, Ends us → Spread (ts ++ us) s →
      ∃ r, value.run s = .ok (e, r) ∧ Spread us r)
    (hs : Spread (keyTokens key ++ (ts ++ t :: us)) s) :
    (∀ r, Text.skipBlanks s ≠ ')' :: r) ∧ ∃ r,
      argument value keys (Text.skipBlanks s) = .ok ((key, e), r) ∧ Spread (t :: us) r := by
  have hends : Ends (t :: us) := by
    rcases ht with rfl | rfl
    · exact .inr (.inl rfl)
    · exact .inr (.inr rfl)
  refine ⟨fun r hr => ?_, argument_of_spread hw h hends hlegal (fun s => hvalue _ s hends) hs⟩
  -- The argument begins with a key or with its value, and neither is a parenthesis.
  obtain ⟨u, vs, hts, c, cs, hchars, hc⟩ :
      ∃ u vs, keyTokens key ++ (ts ++ t :: us) = u :: vs ∧
        ∃ c cs, u.chars = c :: cs ∧ Opens c := by
    cases key with
    | none =>
      obtain ⟨u, vs, rfl, hu⟩ := opens_spells hw h
      exact ⟨u, _, rfl, hu⟩
    | some key => exact ⟨_, _, rfl, opens_word hlegal.2.1⟩
  rw [hts] at hs
  obtain ⟨s', hskip, -⟩ := skipBlanks_of_spread ⟨c, cs, hchars, hc.plain.1⟩ hs
  rw [hr, hchars] at hskip
  exact hc.plain.2.2 (List.cons.inj hskip).1.symm

/-- **The arguments of a call are read back**, if their values are. -/
theorem arguments_of_listed {value : Reader} {callee : String} {ps : List Expr}
    {ks : List (String × Expr)} {args : List (Option String × Expr)} {ts us : List Token}
    {s : List Char} (h : Listed Spells args ts) (hw : ∀ a ∈ args, a.2.WellFormed)
    (hlegal : Legal (ks.map (·.1)) args)
    (hvalue : ∀ a ∈ args, ∀ ts us s, Spells a.2 ts → Ends us → Spread (ts ++ us) s →
      ∃ r, value.run s = .ok (a.2, r) ∧ Spread us r)
    (hs : Spread (ts ++ us) s) :
    ∃ r, arguments value callee ps ks s = .ok (.call callee
      (ps ++ args.filterMap fun a => if a.1.isNone then some a.2 else none)
      (ks ++ args.filterMap fun a => a.1.map (·, a.2)), r) ∧ Spread us r := by
  -- Along the list of tokens; the arguments read so far are what the reader has in hand.
  induction h generalizing ps ks s with
  | none =>
    obtain ⟨r, hr, hspread⟩ := skipBlanks_of_sign (c := ')') rfl hs
    refine ⟨r, ?_, hspread⟩
    rw [arguments_close hr]
    simp
  | @last key e ts h =>
    have hmem : (key, e) ∈ [(key, e)] := List.mem_cons_self
    rw [List.append_assoc, List.append_assoc] at hs
    obtain ⟨hfirst, r, hr, hspread⟩ := argument_of_listed (hw _ hmem) h (.inr rfl) hlegal
      (fun us s => hvalue _ hmem ts us s h) hs
    obtain ⟨after, hafter, hspread⟩ := skipBlanks_of_sign (c := ')') rfl hspread
    refine ⟨after, ?_, hspread⟩
    rw [arguments_last hfirst hr hafter]
    cases key <;> simp
  | @more key e ts us' rest h _ ih =>
    have hmem : (key, e) ∈ (key, e) :: rest := List.mem_cons_self
    rw [List.append_assoc, List.append_assoc, List.cons_append] at hs
    obtain ⟨hfirst, r, hr, hspread⟩ := argument_of_listed (hw _ hmem) h (.inl rfl) hlegal
      (fun us s => hvalue _ hmem ts us s h) hs
    obtain ⟨after, hafter, hspread⟩ := skipBlanks_of_sign (c := ',') rfl hspread
    have hrest : Legal ((ks ++ (key.map (·, e)).toList).map (·.1)) rest := by
      cases key with
      | none => simpa using hlegal.2
      | some key => simpa using hlegal.2.2
    obtain ⟨r', hr', hspread⟩ := @ih (key.elim (ps ++ [e]) fun _ => ps)
      (ks ++ (key.map (·, e)).toList) after (fun a ha => hw a (List.mem_cons_of_mem _ ha)) hrest
      (fun a ha => hvalue a (List.mem_cons_of_mem _ ha)) hspread
    refine ⟨r', ?_, hspread⟩
    rw [arguments_more hfirst hr hafter, hr']
    cases key <;> simp

theorem filterMap_argumentsOf (ps : List Expr) (ks : List (String × Expr)) :
    (argumentsOf ps ks).filterMap (fun a => if a.1.isNone then some a.2 else none) = ps ∧
      (argumentsOf ps ks).filterMap (fun a => a.1.map (·, a.2)) = ks := by
  simp [argumentsOf, List.filterMap_map]

/-- **A reader reads what is spelled**, if it is not deeper than the reader allows. -/
theorem run_of_spread {limit n : ℕ} {e : Expr} {ts us : List Token} {s : List Char}
    (hdepth : e.depth ≤ n) (hw : e.WellFormed) (h : Spells e ts) (hus : Ends us)
    (hs : Spread (ts ++ us) s) :
    ∃ rest, (reader limit n).run s = .ok (e, rest) ∧ Spread us rest := by
  -- Induction on the depth that is left: the arguments of a call are read with one less.
  induction n generalizing e ts us s with
  | zero =>
    refine value_of_spread hw h hus hs ?_
    rintro callee ps ks args s' rfl
    cases hdepth
  | succ n ih =>
    refine value_of_spread hw h hus hs ?_
    rintro callee ps ks args s' rfl hargs hspread
    obtain ⟨hps, hks⟩ := Expr.depth_call_le.1 hdepth
    obtain ⟨⟨-, hkeys, hnodup⟩, hwps, hwks⟩ := Expr.wellFormed_call.1 hw
    have hmem : ∀ a ∈ argumentsOf ps ks, a.2.depth ≤ n ∧ a.2.WellFormed := by
      intro a ha
      rcases List.mem_append.1 ha with ha | ha
      · obtain ⟨e, he, rfl⟩ := List.mem_map.1 ha
        exact ⟨hps e he, hwps e he⟩
      · obtain ⟨ke, hke, rfl⟩ := List.mem_map.1 ha
        exact ⟨hks ke hke, hwks ke hke⟩
    obtain ⟨r, hr, hspread⟩ := @arguments_of_listed (reader limit n) callee [] [] _ _ _ _ hargs
      (fun a ha => (hmem a ha).2) (legal_argumentsOf hnodup hkeys)
      (fun a ha ts us s hts hus => ih (hmem a ha).1 (hmem a ha).2 hts hus) hspread
    rw [(filterMap_argumentsOf ps ks).1, (filterMap_argumentsOf ps ks).2] at hr
    exact ⟨r, hr, hspread⟩

end Parser

namespace Expr

/-- **Every spelling is read back.** -/
theorem parseChars_of_spread {e : Expr} {ts : List Token} {s : List Char}
    (hdepth : e.depth ≤ depthLimit) (hw : e.WellFormed) (h : Spells e ts) (hs : Spread ts s) :
    parseChars s = .ok e := by
  rw [← List.append_nil ts] at hs
  obtain ⟨rest, hrun, hspread⟩ := Parser.run_of_spread hdepth hw h (.inl rfl) hs
  have hrest : Text.skipBlanks rest = [] := by
    cases hspread with
    | nil hb =>
      rw [← List.append_nil rest, Text.skipBlanks_append [] hb]
      rfl
  rw [parseChars, hrun]
  dsimp only
  rw [hrest]

/-- **The canonical text is read back.** -/
theorem parse_text {e : Expr} (hdepth : e.depth ≤ depthLimit) (hw : e.WellFormed) :
    parse e.text = .ok e := by
  rw [parse, text, String.toList_ofList]
  exact parseChars_of_spread hdepth hw (spells_of_commasAdded hw (.refl _)) (spread_tokens e)

/-- **Reading undoes writing in every layout.** The canonical text of a well formed expression
is made of its tokens, with a blank after each comma. Whatever the blanks around each of the
tokens are, and with a comma more at the end of the arguments of any call that has some, it is
the expression that is read. -/
theorem parse_layout {e : Expr} (hw : e.WellFormed) (hdepth : e.depth ≤ depthLimit) :
    e.text.toList = e.tokens.flatMap Token.printed ∧
      ∀ (ts : List Token) (source : String), CommasAdded e.tokens ts → Spread ts source.toList →
        parse source = .ok e := by
  refine ⟨?_, fun ts source hts hs => ?_⟩
  · rw [text, String.toList_ofList, chars_eq]
  · exact parseChars_of_spread hdepth hw (spells_of_commasAdded hw hts) hs

/-- A call with a dotted name, a member, a call without arguments and a negative number. -/
def sample : Expr :=
  .call "A.f" [.member "B" "c", .call "g" [] []] [("k", .int (-1))]

/-- It is read from a text with a line break, a wide blank and a comma at the end. -/
theorem parse_layout_sample : sample.WellFormed ∧ sample.depth ≤ depthLimit ∧
    parse "\nA . f(B.c,g ( )\u3000, k= -1,\t)" = .ok sample := by
  have hone : ∀ w, Text.isWord w = true → ∃ ws, Words w ws := fun w hw =>
    ⟨[w], by simp, List.forall_mem_singleton.2 hw, String.intercalate_singleton⟩
  have hcallee : Words "A.f" ["A", "f"] := ⟨by simp, by decide, rfl⟩
  have hmember : (member "B" "c").WellFormed := by
    intro t ht
    obtain rfl := List.mem_singleton.1 ht
    exact ⟨hone "B" (by decide), by decide⟩
  have hcall : (call "g" [] []).WellFormed :=
    wellFormed_call.2 ⟨⟨hone "g" (by decide), by simp, by simp⟩, by simp, by simp⟩
  have hnumber : (int (-1)).WellFormed := by
    intro t ht
    obtain rfl := List.mem_singleton.1 ht
    trivial
  have hw : sample.WellFormed := wellFormed_call.2 ⟨⟨⟨_, hcallee⟩, by decide, by decide⟩,
    List.forall_mem_cons.2 ⟨hmember, List.forall_mem_singleton.2 hcall⟩,
    List.forall_mem_singleton.2 hnumber⟩
  -- The tokens with the blanks before each of them.
  let spaced : List (List Char × Token) :=
    [(['\n'], .word "A"), ([' '], .point), ([' '], .word "f"), ([], .opening), ([], .word "B"),
      ([], .point), ([], .word "c"), ([], .comma), ([], .word "g"), ([' '], .opening),
      ([' '], .closing), (['\u3000'], .comma), ([' '], .word "k"), ([], .equals),
      ([' '], .constant (.int (-1))), ([], .comma), (['\t'], .closing)]
  have hspread : Spread (spaced.map (·.2)) "\nA . f(B.c,g ( )\u3000, k= -1,\t)".toList :=
    Spread.of_blanks spaced (by decide)
  refine ⟨hw, by decide, (parse_layout hw (by decide)).2 _ _ ?_ hspread⟩
  iterate 14 refine .keep _ ?_
  exact .comma (by simp) (.refl _)

end Expr

end TradeSignals
