import TradeSignals.Proofs.Expr.ReadBack

/-!
# Canonical texts are unambiguous

The text of an expression may stand for the expression: two expressions with the same
canonical text are the same (`TradeSignals.Expr.text_inj`). For well formed expressions this
is so because the text is read back. But a number may be infinite or missing, and what is
written then is not read as a number; still nothing else is written in that way. Only a name
that stands alone could be, so the expressions here have none
(`TradeSignals.Expr.Named`).

Five signs give a text its shape, here called *marks*. Up to its first mark an expression is
plain, and that beginning and the mark say what it is: an opening parenthesis belongs to a
call, a quote to a quoted text, and anything else is a plain value that has come to its end
(`TradeSignals.Expr.opening`). So two texts with the same beginning are taken apart side by
side, and the arguments of calls by induction.
-/

namespace TradeSignals

/-! ### Numbers that are not read back -/

namespace NumberLayout

open Float.Model in
/-- There are three doubles that are not finite. -/
theorem cases_of_not_finite {x : Float} (hx : x.isFinite = false) :
    x = 0 / 0 ∨ x = 1 / 0 ∨ x = -1 / 0 := by
  rw [← Decimal.ofModel_pack_unpack x]
  change x.toModel.unpack.isFinite = false at hx
  rcases hu : x.toModel.unpack with sign | _ | sign | ⟨sign, mantissa, exponent, hpos⟩
  · cases sign with
    | positive => exact .inr (.inl (by decide +kernel))
    | negative => exact .inr (.inr (by decide +kernel))
  · exact .inl (by decide +kernel)
  · rw [hu] at hx
    cases hx
  · rw [hu] at hx
    cases hx

end NumberLayout

/-! ### Marks -/

/-- A sign that gives a text its shape. -/
def isMark (c : Char) : Bool :=
  c == ',' || c == '(' || c == ')' || c == '\x27' || c == '='

/-- A mark that stands after a value. -/
def IsStop (c : Char) : Prop := c = ',' ∨ c = ')'

theorem IsStop.isMark {c : Char} (h : IsStop c) : isMark c = true := by
  rcases h with rfl | rfl <;> rfl

theorem isMark_of_continuesWord {c : Char} (h : Text.continuesWord c = true) :
    isMark c = false := by
  rw [← Bool.not_eq_true]
  intro hc
  simp only [isMark, Bool.or_eq_true, beq_iff_eq] at hc
  rcases hc with (((rfl | rfl) | rfl) | rfl) | rfl <;> revert h <;> decide

/-- No mark stands in a text. -/
def Unmarked (s : List Char) : Prop := ∀ c ∈ s, isMark c = false

theorem unmarked_nil : Unmarked [] := fun _ hc => nomatch hc

theorem unmarked_cons {c : Char} {s : List Char} :
    Unmarked (c :: s) ↔ isMark c = false ∧ Unmarked s :=
  List.forall_mem_cons

theorem unmarked_append {s t : List Char} : Unmarked (s ++ t) ↔ Unmarked s ∧ Unmarked t :=
  List.forall_mem_append

theorem unmarked_of_all {s : List Char} (h : s.all (!isMark ·) = true) : Unmarked s := by
  intro c hc
  simpa using List.all_eq_true.1 h c hc

theorem unmarked_of_isDigit {s : List Char} (h : ∀ c ∈ s, c.isDigit = true) : Unmarked s :=
  fun c hc => isMark_of_continuesWord (Parser.continuesWord_of_isDigit (h c hc))

theorem unmarked_sign (neg : Bool) : Unmarked (if neg then ['-'] else []) := by
  cases neg
  · exact unmarked_nil
  · exact unmarked_cons.2 ⟨rfl, unmarked_nil⟩

theorem unmarked_int (p : ℤ) : Unmarked (toString p).toList := by
  rw [toList_toString_int]
  refine unmarked_append.2 ⟨?_, unmarked_of_isDigit fun c hc => isDigit_toDigits hc⟩
  simpa using unmarked_sign (decide (p < 0))

theorem unmarked_word {w : String} (h : Text.isWord w = true) : Unmarked w.toList := by
  obtain ⟨c, cs, hlist, hc, hcs⟩ := Text.isWord_iff.1 h
  rw [hlist]
  exact unmarked_cons.2 ⟨isMark_of_continuesWord (Text.continuesWord_of_beginsWord hc),
    fun d hd => isMark_of_continuesWord (hcs d hd)⟩

theorem unmarked_words {name : String} {ws : List String} (h : Words name ws) :
    Unmarked name.toList := by
  have hjoin : ∀ ws : List String, (∀ w ∈ ws, Text.isWord w = true) →
      Unmarked (".".toList.intercalate (ws.map String.toList)) := by
    intro ws hws
    induction ws with
    | nil => exact unmarked_nil
    | cons w ws ih =>
      have hw := unmarked_word (hws w List.mem_cons_self)
      have hrest := ih fun v hv => hws v (List.mem_cons_of_mem w hv)
      rcases ws with _ | ⟨v, ws⟩
      · simpa using hw
      · rw [List.map_cons, List.map_cons, List.intercalate_cons_cons]
        exact unmarked_append.2 ⟨unmarked_append.2 ⟨hw, unmarked_of_all rfl⟩, hrest⟩
  rw [← h.name_eq, String.toList_intercalate]
  exact hjoin ws h.isWord

/-- The text of a number has no marks. -/
theorem unmarked_number (x : Float) : Unmarked (NumberLayout.canonical.text x).toList := by
  cases hx : x.isFinite with
  | true =>
    obtain ⟨neg, d, htext, -⟩ := @NumberLayout.exists_decimal .canonical rfl x hx
    obtain ⟨whole, fraction, power, hdecimal, hparts⟩ := NumberLayout.exists_parts d
    have hfraction : Unmarked (fractionChars fraction) := by
      rw [fractionChars]
      split
      · exact unmarked_nil
      · exact unmarked_cons.2 ⟨rfl, unmarked_of_isDigit hparts.fraction_digits⟩
    have hpower : Unmarked (powerChars power) := by
      rcases power with _ | p
      · exact unmarked_nil
      · exact unmarked_cons.2 ⟨rfl, unmarked_int p⟩
    rw [htext, hdecimal]
    exact unmarked_append.2 ⟨unmarked_sign neg, unmarked_append.2
      ⟨unmarked_append.2 ⟨unmarked_of_isDigit hparts.whole_digits, hfraction⟩, hpower⟩⟩
  | false =>
    refine unmarked_of_all ?_
    rcases NumberLayout.cases_of_not_finite hx with rfl | rfl | rfl <;> decide +kernel

/-- A text is taken apart at its first mark in one way only. -/
theorem append_mark_inj {xs xs' ys ys' : List Char} {c c' : Char} (hxs : Unmarked xs)
    (hxs' : Unmarked xs') (hc : isMark c = true) (hc' : isMark c' = true)
    (h : xs ++ c :: ys = xs' ++ c' :: ys') : xs = xs' ∧ c = c' ∧ ys = ys' := by
  induction xs generalizing xs' with
  | nil =>
    rcases xs' with _ | ⟨x', xs'⟩
    · exact ⟨rfl, List.cons_eq_cons.mp h⟩
    · obtain ⟨rfl, -⟩ := List.cons_eq_cons.mp h
      rw [(unmarked_cons.1 hxs').1] at hc
      cases hc
  | cons x xs ih =>
    rcases xs' with _ | ⟨x', xs'⟩
    · obtain ⟨rfl, -⟩ := List.cons_eq_cons.mp h
      rw [(unmarked_cons.1 hxs).1] at hc'
      cases hc'
    · obtain ⟨rfl, hrest⟩ := List.cons_eq_cons.mp h
      obtain ⟨rfl, hmark⟩ := ih (unmarked_cons.1 hxs).2 (unmarked_cons.1 hxs').2 hrest
      exact ⟨rfl, hmark⟩

/-- A quoted text ends at its closing quote. -/
theorem quote_inj {s s' : List Char} {ys ys' : List Char}
    (h : Quote.encode s ++ '\x27' :: ys = Quote.encode s' ++ '\x27' :: ys') :
    s = s' ∧ ys = ys' := by
  have hread := Parser.quotedRest_encode [] s ys
  rw [h, Parser.quotedRest_encode] at hread
  obtain ⟨rfl, rfl⟩ := Prod.mk.inj (Except.ok.inj hread)
  exact ⟨rfl, rfl⟩

namespace Expr

/-! ### Expressions without bare names -/

/-- Is a node named by words, and no bare name itself? -/
def NamedHere : Expr → Prop
  | .literal _ => True
  | .member kind item => (∃ ws, Words kind ws) ∧ Text.isWord item = true
  | .name _ => False
  | .call callee _ keywords => (∃ ws, Words callee ws) ∧ ∀ ke ∈ keywords, Text.isWord ke.1 = true

/-- **An expression without bare names**, whatever its numbers and its keywords are. -/
def Named (e : Expr) : Prop :=
  ∀ t ∈ e.subterms, t.NamedHere

theorem named_call {c : String} {ps : List Expr} {ks : List (String × Expr)} :
    (call c ps ks).Named ↔ (call c ps ks).NamedHere ∧ (∀ e ∈ ps, e.Named) ∧
      ∀ ke ∈ ks, ke.2.Named :=
  forall_subterms_call

theorem Named.here {e : Expr} (h : e.Named) : e.NamedHere :=
  h e (by cases e <;> simp [subterms])

/-- A node that is no call has no bare name in it if it is none. -/
theorem named_of_here {e : Expr} (hcall : ∀ c ps ks, e ≠ .call c ps ks) (h : e.NamedHere) :
    e.Named := by
  intro t ht
  cases e with
  | call c ps ks => exact absurd rfl (hcall c ps ks)
  | _ =>
    obtain rfl := List.mem_singleton.1 ht
    exact h

/-- A plain value: a constant that is not quoted, or a member of an enumeration. -/
def IsPlain : Expr → Prop
  | .literal (.text _) => False
  | .literal _ | .member _ _ => True
  | _ => False

/-- Without bare names an expression is quoted, or a call, or plain. -/
theorem NamedHere.kinds {e : Expr} (h : e.NamedHere) :
    (∃ s, e = quoted s) ∨ (∃ c ps ks, e = .call c ps ks) ∨ e.IsPlain := by
  cases e with
  | literal l =>
    cases l with
    | text s => exact .inl ⟨s, rfl⟩
    | _ => exact .inr (.inr trivial)
  | member => exact .inr (.inr trivial)
  | name => exact h.elim
  | call c ps ks => exact .inr (.inl ⟨c, ps, ks, rfl⟩)

/-! ### Plain values -/

/-- A plain value is well formed, or it is a number that is not finite. -/
theorem IsPlain.wellFormed_or {e : Expr} (h : e.IsPlain) (hnamed : e.NamedHere) :
    (e.WellFormed ∧ e.depth = 0) ∨ e = .float (0 / 0) ∨ e = .float (1 / 0) ∨
      e = .float (-1 / 0) := by
  have hsingle : ∀ {e : Expr}, e.subterms = [e] → e.WellFormedHere → e.WellFormed := by
    intro e hsub hhere t ht
    rw [hsub] at ht
    obtain rfl := List.mem_singleton.1 ht
    exact hhere
  cases e with
  | literal l =>
    cases l with
    | float x =>
      cases hx : x.isFinite with
      | true => exact .inl ⟨hsingle rfl hx, rfl⟩
      | false =>
        rcases NumberLayout.cases_of_not_finite hx with rfl | rfl | rfl
        · exact .inr (.inl rfl)
        · exact .inr (.inr (.inl rfl))
        · exact .inr (.inr (.inr rfl))
    | text => exact h.elim
    | _ => exact .inl ⟨hsingle rfl trivial, rfl⟩
  | member => exact .inl ⟨hsingle rfl hnamed, rfl⟩
  | _ => exact h.elim

/-- What is read from the text of a plain value is the value, or else no expression without
bare names. -/
theorem IsPlain.parse_text {e : Expr} (h : e.IsPlain) (hnamed : e.NamedHere) :
    parse e.text = .ok e ∨
      (e = .float (0 / 0) ∨ e = .float (1 / 0) ∨ e = .float (-1 / 0)) ∧
        ∀ e', parse e.text = .ok e' → ¬e'.NamedHere := by
  rcases h.wellFormed_or hnamed with ⟨hwell, hdepth⟩ | rfl | rfl | rfl
  · exact .inl (Expr.parse_text (hdepth ▸ Nat.zero_le _) hwell)
  · refine .inr ⟨.inl rfl, fun e' he' hnamed' => ?_⟩
    have hname : parse (float (0 / 0)).text = .ok (.name "NaN") := by decide +kernel
    rw [hname] at he'
    cases he'
    exact hnamed'
  · refine .inr ⟨.inr (.inl rfl), fun e' he' hnamed' => ?_⟩
    have hname : parse (float (1 / 0)).text = .ok (.name "inf") := by decide +kernel
    rw [hname] at he'
    cases he'
    exact hnamed'
  · refine .inr ⟨.inr (.inr rfl), fun e' he' => ?_⟩
    have herror : (parse (float (-1 / 0)).text).isOk = false := by decide +kernel
    rw [he'] at herror
    cases herror

/-- **Plain values with the same text are the same.** -/
theorem IsPlain.inj {e e' : Expr} (h : e.IsPlain) (h' : e'.IsPlain) (hnamed : e.NamedHere)
    (hnamed' : e'.NamedHere) (heq : e.chars = e'.chars) : e = e' := by
  have htext : e.text = e'.text := congrArg String.ofList heq
  -- If one of the two is read back, it is what is read from the text of the other.
  rcases h.parse_text hnamed with hread | ⟨he, hnone⟩
  · rcases h'.parse_text hnamed' with hread' | ⟨-, hnone'⟩
    · rw [htext, hread'] at hread
      exact (Except.ok.inj hread).symm
    · exact absurd hnamed (hnone' e (htext ▸ hread))
  · rcases h'.parse_text hnamed' with hread' | ⟨he', -⟩
    · exact absurd hnamed' (hnone e' (htext.symm ▸ hread'))
    · rcases he with rfl | rfl | rfl <;> rcases he' with rfl | rfl | rfl <;>
        first | rfl | exact absurd heq (by decide +kernel)

theorem IsPlain.chars_ne_nil {e : Expr} (h : e.IsPlain) (hnamed : e.NamedHere) :
    e.chars ≠ [] := by
  intro hnil
  have hempty : e.text = "" := congrArg String.ofList hnil
  rcases h.parse_text hnamed with hread | ⟨he, -⟩
  · have herror : (parse "").isOk = false := by decide +kernel
    rw [hempty] at hread
    rw [hread] at herror
    cases herror
  · rcases he with rfl | rfl | rfl <;> exact absurd hnil (by decide +kernel)

/-- A plain value has no marks in its text. -/
theorem IsPlain.unmarked {e : Expr} (h : e.IsPlain) (hnamed : e.NamedHere) :
    Unmarked e.chars := by
  cases e with
  | literal l =>
    cases l with
    | int v => exact unmarked_int v.toInt
    | float x => exact unmarked_number x
    | bool b => cases b <;> exact unmarked_of_all rfl
    | text => exact h.elim
    | none => exact unmarked_of_all rfl
  | member kind item =>
    obtain ⟨⟨ws, hws⟩, hitem⟩ := hnamed
    exact unmarked_append.2 ⟨unmarked_words hws, unmarked_cons.2 ⟨rfl, unmarked_word hitem⟩⟩
  | _ => exact h.elim

/-! ### The first mark -/

/-- The text of an argument. -/
def argumentChars : Option String × Expr → List Char
  | (none, e) => e.chars
  | (some key, e) => key.toList ++ '=' :: e.chars

/-- The text of arguments. -/
def argumentsChars (args : List (Option String × Expr)) : List Char :=
  separator.intercalate (args.map argumentChars)

theorem chars_call_argumentsOf (c : String) (ps : List Expr) (ks : List (String × Expr)) :
    (call c ps ks).chars = c.toList ++ '(' :: (argumentsChars (argumentsOf ps ks) ++ [')']) := by
  rw [chars_call, argumentsChars, argumentsOf, List.map_append, List.map_map, List.map_map]
  rfl

/-- An expression and what follows it, taken apart at the first mark. -/
def opening (e : Expr) (c : Char) (u : List Char) : List Char × Char × List Char :=
  match e with
  | .literal (.text s) => ([], '\x27', Quote.encode s.toList ++ '\x27' :: c :: u)
  | .call callee ps ks =>
    (callee.toList, '(', argumentsChars (argumentsOf ps ks) ++ ')' :: c :: u)
  | e => (e.chars, c, u)

theorem IsPlain.opening_eq {e : Expr} (h : e.IsPlain) (c : Char) (u : List Char) :
    e.opening c u = (e.chars, c, u) := by
  cases e with
  | literal l =>
    cases l with
    | text => exact h.elim
    | _ => rfl
  | call => exact h.elim
  | _ => rfl

/-- The first mark takes a text apart. -/
theorem opening_spec {e : Expr} (hnamed : e.NamedHere) {c : Char} (hc : IsStop c)
    (u : List Char) : e.chars ++ c :: u = (e.opening c u).1 ++ (e.opening c u).2.1 ::
      (e.opening c u).2.2 ∧ Unmarked (e.opening c u).1 ∧ isMark (e.opening c u).2.1 = true := by
  rcases hnamed.kinds with ⟨s, rfl⟩ | ⟨callee, ps, ks, rfl⟩ | hplain
  · refine ⟨?_, unmarked_nil, rfl⟩
    simp [opening, chars, Literal.chars, Quote.quote]
  · obtain ⟨⟨ws, hws⟩, -⟩ := hnamed
    refine ⟨?_, unmarked_words hws, rfl⟩
    simp [opening, chars_call_argumentsOf]
  · rw [hplain.opening_eq]
    exact ⟨rfl, hplain.unmarked hnamed, hc.isMark⟩

/-- **Two expressions with the same text**, whatever follows them, **open alike**. -/
theorem opening_congr {e e' : Expr} (hnamed : e.NamedHere) (hnamed' : e'.NamedHere)
    {c c' : Char} (hc : IsStop c) (hc' : IsStop c') {u u' : List Char}
    (h : e.chars ++ c :: u = e'.chars ++ c' :: u') : e.opening c u = e'.opening c' u' := by
  obtain ⟨hsplit, hxs, hmark⟩ := opening_spec hnamed hc u
  obtain ⟨hsplit', hxs', hmark'⟩ := opening_spec hnamed' hc' u'
  rw [hsplit, hsplit'] at h
  obtain ⟨hfirst, hsecond, hrest⟩ := append_mark_inj hxs hxs' hmark hmark' h
  exact Prod.ext hfirst (Prod.ext hsecond hrest)

/-- A value does not begin with the mark that ends one. -/
theorem opening_ne {e : Expr} (hnamed : e.NamedHere) {c : Char} (u : List Char) {x : Char}
    (hx : IsStop x) (w : List Char) : e.opening c u ≠ ([], x, w) := by
  intro h
  rcases hnamed.kinds with ⟨s, rfl⟩ | ⟨callee, ps, ks, rfl⟩ | hplain
  · rcases hx with rfl | rfl <;> simp [opening] at h
  · rcases hx with rfl | rfl <;> simp [opening] at h
  · rw [hplain.opening_eq] at h
    exact hplain.chars_ne_nil hnamed (Prod.mk.inj h).1

/-- No value has an equals sign for its first mark. -/
theorem opening_ne_equals {e : Expr} (hnamed : e.NamedHere) {c : Char} (hc : IsStop c)
    (u : List Char) : (e.opening c u).2.1 ≠ '=' := by
  rcases hnamed.kinds with ⟨s, rfl⟩ | ⟨callee, ps, ks, rfl⟩ | hplain
  · simp [opening]
  · simp [opening]
  · rw [hplain.opening_eq]
    rintro rfl
    rcases hc with hc | hc <;> cases hc

/-! ### Arguments -/

/-- What stands before a comma or a closing parenthesis stands for one expression only. -/
def Separable (e : Expr) : Prop :=
  ∀ e' : Expr, e'.Named → ∀ c c' u u', IsStop c → IsStop c' →
    e.chars ++ c :: u = e'.chars ++ c' :: u' → e = e' ∧ c = c' ∧ u = u'

/-- An argument without bare names. -/
def NamedArgument (a : Option String × Expr) : Prop :=
  (∀ key ∈ a.1, Text.isWord key = true) ∧ a.2.Named

/-- An argument taken apart at the equals sign after its key. -/
theorem argument_inj {a a' : Option String × Expr} (ha : NamedArgument a)
    (ha' : NamedArgument a') (hsep : a.2.Separable) {c c' : Char} (hc : IsStop c)
    (hc' : IsStop c') {u u' : List Char}
    (h : argumentChars a ++ c :: u = argumentChars a' ++ c' :: u') :
    a = a' ∧ c = c' ∧ u = u' := by
  -- A key and a value without a key differ in their first mark.
  have hkeyed : ∀ {key : String} {e e' : Expr} {c c' : Char} {u u' : List Char},
      Text.isWord key = true → e'.NamedHere → IsStop c' →
      key.toList ++ '=' :: e.chars ++ c :: u ≠ e'.chars ++ c' :: u' := by
    intro key e e' c c' u u' hkey hnamed hc' h
    obtain ⟨hsplit, hxs, hmark⟩ := opening_spec hnamed hc' u'
    rw [hsplit, List.append_assoc, List.cons_append] at h
    obtain ⟨-, hequals, -⟩ := append_mark_inj (unmarked_word hkey) hxs rfl hmark h
    exact opening_ne_equals hnamed hc' u' hequals.symm
  obtain ⟨key, e⟩ := a
  obtain ⟨key', e'⟩ := a'
  rcases key with _ | key <;> rcases key' with _ | key'
  · obtain ⟨rfl, hrest⟩ := hsep e' ha'.2 c c' u u' hc hc' h
    exact ⟨rfl, hrest⟩
  · exact absurd h.symm (hkeyed (ha'.1 key' rfl) ha.2.here hc)
  · exact absurd h (hkeyed (ha.1 key rfl) ha'.2.here hc')
  · simp only [argumentChars, List.append_assoc, List.cons_append] at h
    obtain ⟨hkey, -, hvalue⟩ := append_mark_inj (unmarked_word (ha.1 key rfl))
      (unmarked_word (ha'.1 key' rfl)) rfl rfl h
    obtain ⟨rfl, hrest⟩ := hsep e' ha'.2 c c' u u' hc hc' hvalue
    rw [String.toList_inj.1 hkey]
    exact ⟨rfl, hrest⟩

/-- An argument is more than the mark that ends the arguments. -/
theorem argumentChars_append_ne {a : Option String × Expr} (ha : NamedArgument a) {c : Char}
    (hc : IsStop c) (u w : List Char) : argumentChars a ++ c :: u ≠ ')' :: w := by
  intro h
  obtain ⟨key, e⟩ := a
  rcases key with _ | key
  · obtain ⟨hsplit, hxs, hmark⟩ := opening_spec ha.2.here hc u
    change e.chars ++ c :: u = [] ++ ')' :: w at h
    rw [hsplit] at h
    obtain ⟨hfirst, hsecond, hrest⟩ := append_mark_inj hxs unmarked_nil hmark rfl h
    exact opening_ne ha.2.here u (.inr rfl) w (Prod.ext hfirst (Prod.ext hsecond hrest))
  · change key.toList ++ '=' :: e.chars ++ c :: u = [] ++ ')' :: w at h
    rw [List.append_assoc, List.cons_append] at h
    obtain ⟨-, hmark, -⟩ := append_mark_inj (unmarked_word (ha.1 key rfl)) unmarked_nil rfl rfl h
    cases hmark

/-- What follows the first of some arguments. -/
theorem argumentsChars_cons (a : Option String × Expr) (args : List (Option String × Expr))
    (u : List Char) : ∃ c t, IsStop c ∧
      argumentsChars (a :: args) ++ ')' :: u = argumentChars a ++ c :: t ∧
      (args = [] ∧ c = ')' ∧ t = u ∨
        args ≠ [] ∧ c = ',' ∧ t = ' ' :: (argumentsChars args ++ ')' :: u)) := by
  rcases args with _ | ⟨b, args⟩
  · refine ⟨')', u, .inr rfl, ?_, .inl ⟨rfl, rfl, rfl⟩⟩
    simp [argumentsChars]
  · refine ⟨',', _, .inl rfl, ?_, .inr ⟨by simp, rfl, rfl⟩⟩
    simp [argumentsChars, List.intercalate_cons_cons, separator]

/-- **Arguments are told apart** by their text up to the parenthesis that closes them. -/
theorem arguments_inj {args args' : List (Option String × Expr)}
    (hargs : ∀ a ∈ args, NamedArgument a) (hargs' : ∀ a ∈ args', NamedArgument a)
    (hsep : ∀ a ∈ args, a.2.Separable) {u u' : List Char}
    (h : argumentsChars args ++ ')' :: u = argumentsChars args' ++ ')' :: u') :
    args = args' ∧ u = u' := by
  induction args generalizing args' with
  | nil =>
    rcases args' with _ | ⟨a', args'⟩
    · exact ⟨rfl, (List.cons_eq_cons.1 h).2⟩
    · obtain ⟨c, t, hc, htext, -⟩ := argumentsChars_cons a' args' u'
      rw [htext] at h
      exact absurd h.symm (argumentChars_append_ne (hargs' a' List.mem_cons_self) hc t u)
  | cons a args ih =>
    obtain ⟨c, t, hc, htext, hnext⟩ := argumentsChars_cons a args u
    rcases args' with _ | ⟨a', args'⟩
    · rw [htext] at h
      exact absurd h (argumentChars_append_ne (hargs a List.mem_cons_self) hc t u')
    · obtain ⟨c', t', hc', htext', hnext'⟩ := argumentsChars_cons a' args' u'
      rw [htext, htext'] at h
      obtain ⟨rfl, rfl, rfl⟩ := argument_inj (hargs a List.mem_cons_self)
        (hargs' a' List.mem_cons_self) (hsep a List.mem_cons_self) hc hc' h
      -- The mark after the argument says whether another one follows.
      rcases hnext with ⟨rfl, rfl, rfl⟩ | ⟨-, rfl, rfl⟩
      · rcases hnext' with ⟨rfl, -, rfl⟩ | ⟨-, hmark, -⟩
        · exact ⟨rfl, rfl⟩
        · cases hmark
      · rcases hnext' with ⟨-, hmark, -⟩ | ⟨-, -, hrest⟩
        · cases hmark
        · obtain ⟨rfl, rfl⟩ := ih (fun b hb => hargs b (List.mem_cons_of_mem a hb))
            (fun b hb => hargs' b (List.mem_cons_of_mem a hb))
            (fun b hb => hsep b (List.mem_cons_of_mem a hb)) (List.cons_eq_cons.1 hrest).2
          exact ⟨rfl, rfl⟩

theorem Named.namedArgument {c : String} {ps : List Expr} {ks : List (String × Expr)}
    (h : (call c ps ks).Named) : ∀ a ∈ argumentsOf ps ks, NamedArgument a := by
  obtain ⟨⟨-, hkeys⟩, hps, hks⟩ := named_call.1 h
  refine List.forall_mem_append.2 ⟨List.forall_mem_map.2 fun e he => ⟨nofun, hps e he⟩,
    List.forall_mem_map.2 fun ke hke => ⟨?_, hks ke hke⟩⟩
  rintro key ⟨⟩
  exact hkeys ke hke

/-! ### Expressions -/

/-- A value that is no call is told apart from all others. -/
theorem separable_of_not_call {e : Expr} (h : e.NamedHere)
    (hcall : ∀ callee ps ks, e ≠ .call callee ps ks) : e.Separable := by
  intro e' h' c c' u u' hc hc' heq
  have hopen := opening_congr h h'.here hc hc' heq
  rcases h.kinds with ⟨s, rfl⟩ | ⟨callee, ps, ks, rfl⟩ | hplain
  · rcases h'.here.kinds with ⟨s', rfl⟩ | ⟨callee', ps', ks', rfl⟩ | hplain'
    · obtain ⟨hs, hrest⟩ := quote_inj (Prod.mk.inj (Prod.mk.inj hopen).2).2
      rw [String.toList_inj.1 hs]
      exact ⟨rfl, List.cons_eq_cons.1 hrest⟩
    · simp [opening] at hopen
    · rw [hplain'.opening_eq] at hopen
      obtain ⟨-, hmark⟩ := Prod.mk.inj hopen
      rcases hc' with rfl | rfl <;> cases (Prod.mk.inj hmark).1
  · exact absurd rfl (hcall callee ps ks)
  · rw [hplain.opening_eq] at hopen
    rcases h'.here.kinds with ⟨s', rfl⟩ | ⟨callee', ps', ks', rfl⟩ | hplain'
    · obtain ⟨-, hmark⟩ := Prod.mk.inj hopen
      rcases hc with rfl | rfl <;> cases (Prod.mk.inj hmark).1
    · obtain ⟨-, hmark⟩ := Prod.mk.inj hopen
      rcases hc with rfl | rfl <;> cases (Prod.mk.inj hmark).1
    · rw [hplain'.opening_eq] at hopen
      obtain ⟨hchars, hrest⟩ := Prod.mk.inj hopen
      exact ⟨hplain.inj hplain' h h'.here hchars, Prod.mk.inj hrest⟩

/-- A call is told apart from all others if its arguments are. -/
theorem separable_call {callee : String} {ps : List Expr} {ks : List (String × Expr)}
    (h : (call callee ps ks).Named) (hsep : ∀ a ∈ argumentsOf ps ks, a.2.Separable) :
    (call callee ps ks).Separable := by
  intro e' h' c c' u u' hc hc' heq
  have hopen := opening_congr h.here h'.here hc hc' heq
  rcases h'.here.kinds with ⟨s', rfl⟩ | ⟨callee', ps', ks', rfl⟩ | hplain'
  · simp [opening] at hopen
  · obtain ⟨hcallee, hrest⟩ := Prod.mk.inj hopen
    obtain ⟨hargs, hrest⟩ := arguments_inj h.namedArgument h'.namedArgument hsep
      (Prod.mk.inj hrest).2
    have hps := (Parser.filterMap_argumentsOf ps ks).1
    have hks := (Parser.filterMap_argumentsOf ps ks).2
    rw [hargs, (Parser.filterMap_argumentsOf ps' ks').1] at hps
    rw [hargs, (Parser.filterMap_argumentsOf ps' ks').2] at hks
    rw [String.toList_inj.1 hcallee, hps, hks]
    exact ⟨rfl, List.cons_eq_cons.1 hrest⟩
  · rw [hplain'.opening_eq] at hopen
    obtain ⟨-, hmark⟩ := Prod.mk.inj hopen
    rcases hc' with rfl | rfl <;> cases (Prod.mk.inj hmark).1

/-- **Expressions without bare names are told apart** by their text and the mark after it. -/
theorem Named.separable {e : Expr} (h : e.Named) : e.Separable := by
  induction e using induct with
  | literal l => exact separable_of_not_call h.here nofun
  | member kind item => exact separable_of_not_call h.here nofun
  | name w => exact h.here.elim
  | call callee ps ks hps hks =>
    obtain ⟨-, hnamedPs, hnamedKs⟩ := named_call.1 h
    refine separable_call h (List.forall_mem_append.2 ⟨?_, ?_⟩)
    · exact List.forall_mem_map.2 fun e he => hps e he (hnamedPs e he)
    · exact List.forall_mem_map.2 fun ke hke => hks ke hke (hnamedKs ke hke)

/-- **Expressions with the same canonical text are the same**, if they have no bare names. -/
theorem text_inj {e e' : Expr} (h : e.Named) (h' : e'.Named) (htext : e.text = e'.text) :
    e = e' :=
  (h.separable e' h' ')' ')' [] [] (.inr rfl) (.inr rfl)
    (congrArg (· ++ [')']) (String.ofList_injective htext))).1

end Expr

end TradeSignals
