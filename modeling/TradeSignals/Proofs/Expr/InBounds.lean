import TradeSignals.Proofs.Expr.CursorReader
import TradeSignals.Proofs.Expr.Spelling

/-!
# Reading stays between the characters

The cursor that reads strategy text follows the reader of lists of characters, part by part and
so as a whole (`TradeSignals.Cursor.follows_expr`). A loop is followed by induction on what the
recursion of the reader goes through, with what was collected in earlier rounds in front of
what is still to be read.

A cursor that follows a reader has an outcome, so the reading never takes a piece of the text
that begins or ends inside of a character, and every round of its loops begins further on than
the round before; and its errors are at positions of the text
(`TradeSignals.Cursor.parse_inBounds`). Bytes and characters part ways with the first letter or
blank that is no ASCII character, and both may have such.
-/

namespace TradeSignals

namespace Parser

/-- A dotted name begins with a word. -/
theorem dotted_of_error {s : List Char} {halt : Halt} (h : word s = .error halt) :
    dotted s = .error halt := by
  rw [dotted]
  split
  · next h' =>
    rw [h] at h'
    cases h'
    rfl
  · next h' =>
    rw [h] at h'
    cases h'

/-- A letter in front is the beginning of a word. -/
theorem exists_word {c : Char} (s : List Char) (hc : Text.beginsWord c = true) :
    ∃ w rest, word (c :: s) = .ok (w, rest) := by
  rw [word, Text.skipBlanks_cons_of_not_isBlank s (Text.isBlank_of_beginsWord hc)]
  exact ⟨_, _, if_pos hc⟩

/-- A word is a key if one equals sign comes next. -/
theorem key?_eq {c : Char} {s rest : List Char} {w : String} (hc : Text.beginsWord c = true)
    (hw : word (c :: s) = .ok (w, rest)) : key? (c :: s) =
      if (Text.skipBlanks rest).head? = some '=' ∧ (Text.skipBlanks rest).tail.head? ≠ some '='
      then some (w, (Text.skipBlanks rest).tail) else none := by
  rw [key?, if_pos hc, hw]
  dsimp only
  split
  · next more h =>
    rw [h, if_neg (by simp)]
  · next after hafter h =>
    rw [h, if_pos]
    · rfl
    · refine ⟨rfl, fun hhead => ?_⟩
      obtain ⟨more, rfl⟩ := List.head?_eq_some_iff.1 hhead
      exact hafter more rfl
  · next hnone =>
    rw [if_neg]
    rintro ⟨hhead, -⟩
    obtain ⟨after, h⟩ := List.head?_eq_some_iff.1 hhead
    exact hnone after h

/-- No blanks come after a dotted name. -/
theorem skipBlanks_of_dotted {s rest : List Char} {ws : List String}
    (h : dotted s = .ok (ws, rest)) : Text.skipBlanks rest = rest := by
  fun_induction dotted s generalizing ws rest with
  | case1 => cases h
  | case2 => cases h
  | case3 s w r hw more hr _ ws' after hd ih =>
    cases h
    exact ih hd
  | case4 s w r hw _ =>
    cases h
    exact Text.skipBlanks_skipBlanks r

end Parser

namespace Cursor

section Agreement

variable {source s : List Char}

/-! ### Words -/

theorem follows_skipBlanks (hs : s <:+ source) :
    Follows source (skipBlanks source) s (.ok ((), Text.skipBlanks s)) :=
  (follows_passWhile Text.isBlank hs).bind
    (follows_pure _ ((List.dropWhile_suffix _).trans hs))

theorem skipBlanks_suffix (s : List Char) : Text.skipBlanks s <:+ s := List.dropWhile_suffix _

theorem follows_word (hs : s <:+ source) :
    Follows source (word source) s (Parser.word s) := by
  have hskip := (skipBlanks_suffix s).trans hs
  refine (follows_skipBlanks hs).bind ((follows_position hskip).bind ((follows_peek hskip).bind ?_))
  rw [Parser.word]
  cases hfront : Text.skipBlanks s with
  | nil => exact follows_fault List.nil_suffix _
  | cons c rest =>
    rw [hfront] at hskip
    dsimp only [List.head?_cons]
    by_cases hc : Text.beginsWord c = true
    · have hrest : rest <:+ source := (List.suffix_cons c rest).trans hskip
      have hafter : rest.dropWhile Text.continuesWord <:+ source :=
        (List.dropWhile_suffix _).trans hrest
      have hsplit : c :: rest = (c :: rest.takeWhile Text.continuesWord) ++
          rest.dropWhile Text.continuesWord := by
        rw [List.cons_append, List.takeWhile_append_dropWhile]
      rw [if_pos hc, if_pos hc]
      refine (follows_advance hskip).bind ((follows_passWhile _ hrest).bind
        ((follows_position hafter).bind ?_))
      rw [hsplit] at hskip ⊢
      exact (follows_slice hskip).bind (follows_pure _ hafter)
    · rw [if_neg hc, if_neg hc]
      exact follows_fault hskip _

/-- Before a point, a round reads the word after it. -/
theorem follows_oneWord {words : List String} {more : List Char} (hs : s <:+ source)
    (hpoint : Text.skipBlanks s = '.' :: more) :
    Follows source (oneWord source words) s
      ((Parser.word more).map fun read => (.inl (words ++ [read.1]), read.2)) := by
  have hskip := (skipBlanks_suffix s).trans hs
  rw [hpoint] at hskip
  have hmore : more <:+ source := (List.suffix_cons '.' more).trans hskip
  have hword := follows_word hmore
  have hblanks := follows_skipBlanks hs
  rw [hpoint] at hblanks
  refine hblanks.bind ((follows_peek hskip).bind ?_)
  rw [List.head?_cons, if_pos rfl]
  exact (follows_advance hskip).bind (hword.map fun w => Sum.inl (words ++ [w]))

/-- Before anything else there are no more words. -/
theorem follows_oneWord_done {words : List String} (hs : s <:+ source)
    (hpoint : ∀ more, Text.skipBlanks s ≠ '.' :: more) :
    Follows source (oneWord source words) s (.ok (.inr words, Text.skipBlanks s)) := by
  have hskip := (skipBlanks_suffix s).trans hs
  refine (follows_skipBlanks hs).bind ((follows_peek hskip).bind ?_)
  rw [if_neg]
  · exact follows_pure _ hskip
  · intro hhead
    obtain ⟨more, hmore⟩ := List.head?_eq_some_iff.1 hhead
    exact hpoint more hmore

/-- A loop that begins with nothing has nothing to put in front. -/
theorem map_nil_append {β : Type} (r : Parser.Step (List β)) :
    (r.map fun read => ([] ++ read.1, read.2)) = r := by
  cases r <;> rfl

/-- A point makes the loop go on with the word after it. -/
theorem follows_words_of_point {words : List String} {more : List Char}
    {r : Parser.Step (List String)} (hs : s <:+ source) (hpoint : Text.skipBlanks s = '.' :: more)
    (hfault : ∀ halt, Parser.word more = .error halt → r = .error halt)
    (hword : ∀ w rest, Parser.word more = .ok (w, rest) → rest <:+ source →
      Follows source (loop source (oneWord source) (words ++ [w])) rest r) :
    Follows source (loop source (oneWord source) words) s r := by
  have hround := @follows_oneWord source s words more hs hpoint
  cases hread : Parser.word more with
  | error halt =>
    rw [hread] at hround
    rw [hfault halt hread]
    exact hround.loop_error
  | ok read =>
    obtain ⟨w, rest⟩ := read
    rw [hread] at hround
    refine hround.loop_next hs ?_ (hword w rest hread hround.inside)
    have h1 : rest.length < more.length := Parser.length_word_lt hread
    have h2 := Text.length_skipBlanks_le s
    rw [hpoint, List.length_cons] at h2
    exact Nat.lt_trans h1 h2

/-- After a word, the loop reads the words of the dotted name that begins with it. -/
theorem follows_words (words : List String) {w : String} {r : List Char} (hr : r <:+ source)
    (hw : Parser.word s = .ok (w, r)) :
    Follows source (loop source (oneWord source) (words ++ [w])) r
      ((Parser.dotted s).map fun read => (words ++ read.1, read.2)) := by
  -- The words that are read in the rounds before are in front of those that are read now.
  fun_induction Parser.dotted s generalizing words w r with
  | case1 s halt h => cases hw.symm.trans h
  | case2 s v t h more hpoint _ halt hdotted ih =>
    cases hw.symm.trans h
    refine follows_words_of_point hr hpoint (fun halt hread => ?_) fun u rest hread hrest => ?_
    · rw [Parser.dotted_of_error hread] at hdotted
      cases hdotted
      rfl
    · have hnext := ih (words ++ [v]) hrest hread
      rwa [hdotted] at hnext
  | case3 s v t h more hpoint _ ws after hdotted ih =>
    cases hw.symm.trans h
    refine follows_words_of_point hr hpoint (fun halt hread => ?_) fun u rest hread hrest => ?_
    · rw [Parser.dotted_of_error hread] at hdotted
      cases hdotted
    · have hnext := ih (words ++ [v]) hrest hread
      rw [hdotted, Except.map, List.append_assoc words [v] ws] at hnext
      exact hnext
  | case4 s v t h hpoint =>
    cases hw.symm.trans h
    exact (follows_oneWord_done hr hpoint).loop_done

theorem follows_dotted (hs : s <:+ source) :
    Follows source (dotted source) s (Parser.dotted s) := by
  refine (follows_word hs).bind_cases (fun _ => Parser.dotted_of_error) fun w rest hread hrest => ?_
  have hwords := follows_words [] hrest hread
  rwa [map_nil_append] at hwords

/-- A keyword is taken together with its equals sign, and where there is none the cursor is back
where it was. -/
theorem follows_tryKeyword (hs : s <:+ source) : Follows source (tryKeyword source) s
    (.ok ((Parser.key? s).elim (none, s) fun read => (some read.1, read.2))) := by
  refine (follows_position hs).bind ((follows_peek hs).bind ?_)
  cases s with
  | nil => exact follows_pure _ hs
  | cons c t =>
    dsimp only [List.head?_cons]
    by_cases hc : Text.beginsWord c = true
    · rw [if_pos hc]
      obtain ⟨w, rest, hread⟩ := Parser.exists_word t hc
      have hword := follows_word hs
      rw [hread] at hword
      have hskip := (skipBlanks_suffix rest).trans hword.inside
      rw [Parser.key?_eq hc hread]
      refine hword.bind ((follows_skipBlanks hword.inside).bind ((follows_peek hskip).bind
        ((follows_peekSecond hskip).bind ?_)))
      by_cases hequals : (Text.skipBlanks rest).head? = some '=' ∧
          (Text.skipBlanks rest).tail.head? ≠ some '='
      · obtain ⟨after, hafter⟩ := List.head?_eq_some_iff.1 hequals.1
        rw [if_pos hequals, if_pos hequals]
        rw [hafter] at hskip ⊢
        exact (follows_advance hskip).bind
          (follows_pure _ ((List.suffix_cons '=' after).trans hskip))
      · rw [if_neg hequals, if_neg hequals]
        exact (follows_moveTo hs).bind (follows_pure _ hs)
    · rw [if_neg hc, Parser.key?, if_neg hc]
      exact follows_pure _ hs

/-! ### Numbers -/

/-- The sign that a text begins with, if it does. -/
def leadingSign (s : List Char) : Option Char :=
  s.head?.filter fun c => c = '-' ∨ c = '+'

theorem leadingSign_cases (s : List Char) :
    (leadingSign s = none ∧ splitSign s = (false, s)) ∨
      ∃ c rest, (c = '-' ∨ c = '+') ∧ s = c :: rest ∧ leadingSign s = some c ∧
        splitSign s = (c == '-', rest) := by
  unfold splitSign
  split
  · next rest => exact .inr ⟨'-', rest, .inl rfl, rfl, rfl, rfl⟩
  · next rest => exact .inr ⟨'+', rest, .inr rfl, rfl, rfl, rfl⟩
  · next hminus hplus =>
    refine .inl ⟨?_, rfl⟩
    cases s with
    | nil => rfl
    | cons c rest =>
      have hc : ¬(c = '-' ∨ c = '+') := by
        rintro (rfl | rfl)
        · exact hminus rest rfl
        · exact hplus rest rfl
      simpa [leadingSign] using hc

theorem follows_sign (hs : s <:+ source) : Follows source (sign source) s
    (.ok (leadingSign s, (splitSign s).2)) := by
  refine (follows_peek hs).bind ?_
  obtain ⟨hnone, hsplit⟩ | ⟨c, rest, hc, rfl, hsome, hsplit⟩ := leadingSign_cases s
  · rw [hnone, hsplit]
    cases s with
    | nil => exact follows_pure _ hs
    | cons c rest =>
      have hc : ¬(c = '-' ∨ c = '+') := by
        simpa [leadingSign] using hnone
      dsimp only [List.head?_cons]
      rw [if_neg hc]
      exact follows_pure _ hs
  · rw [hsome, hsplit]
    dsimp only [List.head?_cons]
    rw [if_pos hc]
    exact follows_advance hs

/-- Blanks follow a sign only; without a sign there are none. -/
theorem follows_signWithBlanks (hs : s <:+ source) (hblanks : Text.skipBlanks s = s) :
    Follows source (signWithBlanks source) s
      (.ok (leadingSign s, Text.skipBlanks (splitSign s).2)) := by
  have hsign := follows_sign hs
  obtain ⟨hnone, hsplit⟩ | ⟨c, rest, -, rfl, hsome, hsplit⟩ := leadingSign_cases s
  · rw [hnone, hsplit] at hsign ⊢
    rw [hblanks]
    exact hsign.bind (follows_pure _ hs)
  · rw [hsome, hsplit] at hsign ⊢
    exact hsign.bind ((follows_skipBlanks hsign.inside).bind
      (follows_pure _ ((skipBlanks_suffix rest).trans hsign.inside)))

/-- What was gathered of a number after some more characters were kept. -/
def Gathered.keep (g : Gathered) (more : List Char) : Gathered :=
  ⟨g.kept ++ more, g.digits + more.countP Char.isDigit, g.point || more.contains '.'⟩

theorem Gathered.keep_nil (g : Gathered) : g.keep [] = g := by
  simp [keep]

theorem Gathered.keep_append (g : Gathered) (a b : List Char) :
    g.keep (a ++ b) = (g.keep a).keep b := by
  simp [keep, Nat.add_assoc, Bool.or_assoc]

theorem Gathered.keep_digit (g : Gathered) {c : Char} (hc : c.isDigit = true) :
    g.keep [c] = ⟨g.kept ++ [c], g.digits + 1, g.point⟩ := by
  have hpoint : c ≠ '.' := by
    rintro rfl
    revert hc
    decide
  simp [keep, hc, hpoint.symm]

theorem Gathered.keep_point (g : Gathered) :
    g.keep ['.'] = ⟨g.kept ++ ['.'], g.digits, true⟩ := by
  simp [keep]

/-- The loop over the digits of a number keeps what the reader keeps. -/
theorem follows_digits {seen : Bool} {g : Gathered} (hs : s <:+ source)
    (hseen : seen = true ↔ 0 < g.digits) : Follows source (loop source (oneDigit source) g) s
      (.ok (g.keep (Parser.mantissa seen g.point s).1, (Parser.mantissa seen g.point s).2)) := by
  induction s generalizing g seen with
  | nil =>
    rw [Parser.mantissa, Gathered.keep_nil]
    exact .loop_done ((follows_peek hs).bind (follows_pure _ hs))
  | cons c s ih =>
    have hrest : s <:+ source := (List.suffix_cons c s).trans hs
    have hlt : s.length < (c :: s).length := Nat.lt_succ_self _
    -- The branches of a round are those of the reader, in the same order.
    rw [Parser.mantissa]
    by_cases hdigit : c.isDigit = true
    · have hnext := @ih true ⟨g.kept ++ [c], g.digits + 1, g.point⟩ hrest (by simp)
      rw [← g.keep_digit hdigit, ← Gathered.keep_append, g.keep_digit hdigit] at hnext
      rw [if_pos hdigit]
      refine .loop_next hs ((follows_peek hs).bind ?_) hlt hnext
      dsimp only [List.head?_cons]
      rw [if_pos hdigit]
      exact (follows_advance hs).bind (follows_pure _ hrest)
    · rw [if_neg hdigit]
      by_cases hline : c = '_' ∧ seen = true
      · rw [if_pos hline]
        refine .loop_next hs ((follows_peek hs).bind ?_) hlt (ih hrest hseen)
        dsimp only [List.head?_cons]
        rw [if_neg hdigit, if_pos (hline.imp_right hseen.1)]
        exact (follows_advance hs).bind (follows_pure _ hrest)
      · have hline' : ¬(c = '_' ∧ 0 < g.digits) := fun h => hline (h.imp_right hseen.2)
        rw [if_neg hline]
        by_cases hpoint : c = '.' ∧ (!g.point) = true
        · obtain ⟨rfl, hfirst⟩ := hpoint
          have hnext := @ih seen ⟨g.kept ++ ['.'], g.digits, true⟩ hrest hseen
          rw [← g.keep_point, ← Gathered.keep_append, g.keep_point] at hnext
          rw [if_pos ⟨rfl, hfirst⟩]
          refine .loop_next hs ((follows_peek hs).bind ?_) hlt hnext
          dsimp only [List.head?_cons]
          rw [if_neg hdigit, if_neg hline', if_pos ⟨rfl, hfirst⟩]
          exact (follows_advance hs).bind (follows_pure _ hrest)
        · rw [if_neg hpoint, Gathered.keep_nil]
          refine .loop_done ((follows_peek hs).bind ?_)
          dsimp only [List.head?_cons]
          rw [if_neg hdigit, if_neg hline', if_neg hpoint]
          exact follows_pure _ hs

theorem splitSign_eq (s : List Char) :
    splitSign s = (leadingSign s == some '-', (splitSign s).2) := by
  obtain ⟨hnone, hsplit⟩ | ⟨c, rest, -, -, hsome, hsplit⟩ := leadingSign_cases s
  · rw [hnone, hsplit]
    rfl
  · rw [hsome, hsplit]
    rfl

theorem follows_exponent (hs : s <:+ source) :
    Follows source (exponent source) s (Parser.exponent s) := by
  refine (follows_peek hs).bind ?_
  cases s with
  | nil => exact follows_pure _ hs
  | cons c rest =>
    rw [Parser.exponent]
    dsimp only [List.head?_cons]
    by_cases hc : c = 'e' ∨ c = 'E'
    · have hsign := follows_sign ((List.suffix_cons c rest).trans hs)
      have hdigits := follows_passWhile Char.isDigit hsign.inside
      rw [if_pos hc, if_pos hc, splitSign_eq]
      refine (follows_advance hs).bind (hsign.bind (hdigits.bind ?_))
      dsimp only
      by_cases hnone : (splitSign rest).2.takeWhile Char.isDigit = []
      · rw [if_pos hnone, if_pos hnone]
        exact follows_fault hdigits.inside _
      · rw [if_neg hnone, if_neg hnone]
        simp only [beq_iff_eq]
        exact follows_pure _ hdigits.inside
    · rw [if_neg hc, if_neg hc]
      exact follows_pure _ hs

/-- **A number is read** where the text does not begin with a blank. -/
theorem follows_number (hs : s <:+ source) (hblanks : Text.skipBlanks s = s) :
    Follows source (number source) s (Parser.number s) := by
  have hsign := follows_signWithBlanks hs hblanks
  have hdigits := @follows_digits source _ false ⟨[], 0, false⟩ hsign.inside (by simp)
  rw [Parser.number, splitSign_eq]
  refine (follows_position hs).bind (hsign.bind (hdigits.bind ?_))
  dsimp only
  generalize Parser.mantissa false false (Text.skipBlanks (splitSign s).2) = read at hdigits
  obtain ⟨kept, rest⟩ := read
  have hcount : (Gathered.keep ⟨[], 0, false⟩ kept).digits = 0 ↔
      (!kept.any Char.isDigit) = true := by
    simp [Gathered.keep]
  have hkept : (Gathered.keep ⟨[], 0, false⟩ kept).kept = kept := List.nil_append kept
  dsimp only
  by_cases hnone : (!kept.any Char.isDigit) = true
  · rw [if_pos hnone, if_pos (hcount.2 hnone)]
    exact follows_faultAt hs _
  · rw [if_neg hnone, if_neg (fun h => hnone (hcount.1 h)), hkept]
    refine (follows_exponent hdigits.inside).bind_cases (fun halt hread => ?_)
      fun power after hread hafter => (follows_peek hafter).bind ?_
    · rw [hread]
    · rw [hread]
      dsimp only
      by_cases hnext : (after.head?.map Text.continuesWord).getD false = true
      · rw [if_pos hnext, if_pos hnext]
        exact follows_fault hafter _
      · rw [if_neg hnext, if_neg hnext]
        cases Parser.numberValue? (leadingSign s == some '-') kept power with
        | some value => exact follows_pure _ hafter
        | none => exact follows_faultAt hs _

/-! ### Quoted texts -/

section Quoted

variable {start : List Char} {delimiter : Char}

/-- After a backslash, a round reads one character more. -/
theorem follows_escape {passed rest : List Char} {sign d : Char}
    (hd : Quote.unescape? sign = some d) (hs : '\x5c' :: sign :: rest <:+ source) :
    Follows source (oneQuoted source (place source start) delimiter passed)
      ('\x5c' :: sign :: rest) (.ok (.inl (passed ++ [d]), rest)) := by
  have hsign : sign :: rest <:+ source := (List.suffix_cons _ _).trans hs
  refine (follows_advance hs).bind ?_
  dsimp only
  rw [if_pos rfl]
  refine (follows_advance hsign).bind ?_
  dsimp only
  rw [hd]
  exact follows_pure _ ((List.suffix_cons _ _).trans hsign)

/-- Any other character that may stand in a quoted text stands for itself. -/
theorem follows_plain {passed rest : List Char} {c : Char} (hescape : c ≠ '\x5c')
    (hquote : c ≠ delimiter) (hbreak : c ≠ '\n') (hs : c :: rest <:+ source) :
    Follows source (oneQuoted source (place source start) delimiter passed) (c :: rest)
      (.ok (.inl (passed ++ [c]), rest)) := by
  refine (follows_advance hs).bind ?_
  dsimp only
  rw [if_neg hescape, if_neg hquote, if_neg hbreak]
  exact follows_pure _ ((List.suffix_cons c rest).trans hs)

/-- After its opening quote, the loop reads the rest of a quoted text. -/
theorem follows_quotedRest (passed : List Char) (hstart : start <:+ source) (hs : s <:+ source) :
    Follows source (loop source (oneQuoted source (place source start) delimiter) passed) s
      ((Parser.quotedRest start delimiter s).map fun read => (passed ++ read.1, read.2)) := by
  fun_induction Parser.quotedRest start delimiter s generalizing passed with
  | case1 => exact .loop_error (follows_advance_nil.bind (follows_faultAt hstart _))
  | case2 =>
    exact .loop_error ((follows_advance hs).bind
      (follows_advance_nil.bind (follows_faultAt hstart _)))
  | case3 sign rest hnone =>
    have hsign : sign :: rest <:+ source := (List.suffix_cons _ _).trans hs
    refine .loop_error ((follows_advance hs).bind ?_)
    dsimp only
    rw [if_pos rfl]
    refine (follows_advance hsign).bind ?_
    dsimp only
    rw [hnone]
    exact follows_fault ((List.suffix_cons _ _).trans hsign) _
  | case4 sign rest d hd halt hread ih =>
    have hround := @follows_escape source start delimiter passed rest sign d hd hs
    have hnext := ih (passed ++ [d]) hround.inside
    rw [hread] at hnext
    exact hround.loop_next hs (by simp only [List.length_cons]; omega) hnext
  | case5 sign rest d hd ds after hread ih =>
    have hround := @follows_escape source start delimiter passed rest sign d hd hs
    have hnext := ih (passed ++ [d]) hround.inside
    rw [hread, Except.map, List.append_assoc] at hnext
    exact hround.loop_next hs (by simp only [List.length_cons]; omega) hnext
  | case6 rest hescape =>
    refine .loop_done ((follows_advance hs).bind ?_)
    dsimp only
    rw [if_neg hescape, if_pos rfl, List.append_nil]
    exact follows_pure _ ((List.suffix_cons _ _).trans hs)
  | case7 rest hescape hquote =>
    refine .loop_error ((follows_advance hs).bind ?_)
    dsimp only
    rw [if_neg hescape, if_neg hquote, if_pos rfl]
    exact follows_faultAt hstart _
  | case8 c rest hescape hquote hbreak halt hread ih =>
    have hround := @follows_plain source start delimiter passed rest c hescape hquote hbreak hs
    have hnext := ih (passed ++ [c]) hround.inside
    rw [hread] at hnext
    exact hround.loop_next hs (by simp) hnext
  | case9 c rest hescape hquote hbreak ds after hread ih =>
    have hround := @follows_plain source start delimiter passed rest c hescape hquote hbreak hs
    have hnext := ih (passed ++ [c]) hround.inside
    rw [hread, Except.map, List.append_assoc] at hnext
    exact hround.loop_next hs (by simp) hnext

end Quoted

theorem follows_quoted {c : Char} {rest : List Char} (hc : c = '\x27' ∨ c = '\x22')
    (hs : c :: rest <:+ source) : Follows source (quoted source) (c :: rest)
      ((Parser.quotedRest (c :: rest) c rest).map fun read =>
        (.quoted (String.ofList read.1), read.2)) := by
  have hread := @follows_quotedRest source rest (c :: rest) c [] hs
    ((List.suffix_cons c rest).trans hs)
  refine (follows_position hs).bind ((follows_advance hs).bind ?_)
  dsimp only
  rw [if_pos hc]
  rw [map_nil_append] at hread
  exact hread.map fun cs => Expr.quoted (String.ofList cs)

/-! ### Values -/

section Values

variable {call : String → Cursor Expr} {reader : Parser.CallReader}

/-- **Calls are read alike**, each from its opening parenthesis on. -/
def FollowsCalls (source : List Char) (call : String → Cursor Expr) (reader : Parser.CallReader) :
    Prop :=
  ∀ (callee : String) (inner : List Char), '(' :: inner <:+ source →
    Follows source (call callee) ('(' :: inner) (reader callee ('(' :: inner))

theorem follows_nameOrCall (hcall : FollowsCalls source call reader) (hs : s <:+ source) :
    Follows source (nameOrCall source call) s (Parser.nameOrCall reader s) := by
  rw [Parser.nameOrCall]
  refine (follows_dotted hs).bind_cases (fun halt hread => ?_) fun ws rest hread hrest => ?_
  · rw [hread]
  · -- The reader of dotted names has already passed over these blanks.
    have hblanks := follows_skipBlanks hrest
    rw [Parser.skipBlanks_of_dotted hread] at hblanks
    refine hblanks.bind ((follows_peek hrest).bind ?_)
    rw [hread]
    dsimp only
    by_cases hopen : rest.head? = some '('
    · obtain ⟨inner, rfl⟩ := List.head?_eq_some_iff.1 hopen
      rw [if_pos hopen, if_pos hopen]
      exact hcall _ inner hrest
    · rw [if_neg hopen, if_neg hopen]
      exact follows_pure _ hrest

theorem follows_value (hcall : FollowsCalls source call reader) (hs : s <:+ source) :
    Follows source (value source call) s (Parser.value reader s) := by
  have hskip := (skipBlanks_suffix s).trans hs
  have hblanks := Text.skipBlanks_skipBlanks s
  rw [Parser.value]
  refine (follows_skipBlanks hs).bind ((follows_peek hskip).bind ?_)
  generalize Text.skipBlanks s = front at hskip hblanks
  cases front with
  | nil => exact follows_fault hskip _
  | cons c rest =>
    refine (follows_peekSecond hskip).bind ?_
    dsimp only [List.tail_cons]
    split
    · exact follows_number hskip hblanks
    · split
      · next hquote =>
        have hread := follows_quoted (by simpa using hquote) hskip
        cases hrest : Parser.quotedRest (c :: rest) c rest with
        | error halt =>
          rw [hrest] at hread
          exact hread
        | ok read =>
          rw [hrest] at hread
          exact hread
      · split
        · exact follows_nameOrCall hcall hskip
        · exact follows_fault hskip _

end Values

/-! ### Calls -/

section Calls

variable {value : Cursor Expr} {reader : Parser.Reader}

/-- **Values are read alike**, from wherever in the text. -/
def FollowsValues (source : List Char) (value : Cursor Expr) (reader : Parser.Reader) : Prop :=
  ∀ s : List Char, s <:+ source → Follows source value s (reader.run s)

theorem follows_argument (hvalue : FollowsValues source value reader) (keys : List String)
    (hs : s <:+ source) :
    Follows source (argument source value keys) s (Parser.argument reader keys s) := by
  have hkey := follows_tryKeyword hs
  rw [Parser.argument]
  refine (follows_position hs).bind (hkey.bind ?_)
  cases hread : Parser.key? s with
  | none =>
    rw [hread] at hkey
    dsimp only [Option.elim]
    by_cases hlate : keys ≠ []
    · rw [if_pos hlate, if_pos hlate]
      exact follows_faultAt hs _
    · rw [if_neg hlate, if_neg hlate]
      refine (hvalue s hs).bind_cases (fun halt hrun => ?_) fun e rest hrun hrest => ?_
      · rw [hrun]
      · rw [hrun]
        exact follows_pure _ hrest
  | some read =>
    obtain ⟨key, rest⟩ := read
    rw [hread] at hkey
    dsimp only [Option.elim]
    by_cases hrepeated : keys.contains key = true
    · rw [if_pos hrepeated, if_pos hrepeated]
      exact follows_faultAt hs _
    · rw [if_neg hrepeated, if_neg hrepeated]
      refine (hvalue rest hkey.inside).bind_cases (fun halt hrun => ?_)
        fun e after hrun hafter => ?_
      · rw [hrun]
      · rw [hrun]
        exact follows_pure _ hafter

section Rounds

variable {callee : String} {state : List Expr × List (String × Expr)} {rest : List Char}

theorem follows_separator_comma (hs : s <:+ source) (hcomma : Text.skipBlanks s = ',' :: rest) :
    Follows source (separator source callee state) s (.ok (.inl state, rest)) := by
  have hblanks := follows_skipBlanks hs
  rw [hcomma] at hblanks
  have hrest : rest <:+ source := (List.suffix_cons _ _).trans hblanks.inside
  exact hblanks.bind ((follows_peek hblanks.inside).bind
    ((follows_advance hblanks.inside).bind (follows_pure _ hrest)))

theorem follows_separator_close (hs : s <:+ source) (hclose : Text.skipBlanks s = ')' :: rest) :
    Follows source (separator source callee state) s
      (.ok (.inr (.call callee state.1 state.2), rest)) := by
  have hblanks := follows_skipBlanks hs
  rw [hclose] at hblanks
  have hrest : rest <:+ source := (List.suffix_cons _ _).trans hblanks.inside
  exact hblanks.bind ((follows_peek hblanks.inside).bind
    ((follows_advance hblanks.inside).bind (follows_pure _ hrest)))

theorem follows_separator_error (hs : s <:+ source)
    (hclose : ∀ rest, Text.skipBlanks s ≠ ')' :: rest)
    (hcomma : ∀ rest, Text.skipBlanks s ≠ ',' :: rest) :
    Follows source (separator source callee state) s
      (.error ⟨Text.skipBlanks s, .expectedSeparator (Text.skipBlanks s).head?⟩) := by
  have hskip := (skipBlanks_suffix s).trans hs
  refine (follows_skipBlanks hs).bind ((follows_peek hskip).bind ?_)
  split
  · next hhead =>
    obtain ⟨rest, hrest⟩ := List.head?_eq_some_iff.1 hhead
    exact absurd hrest (hcomma rest)
  · next hhead =>
    obtain ⟨rest, hrest⟩ := List.head?_eq_some_iff.1 hhead
    exact absurd hrest (hclose rest)
  · exact follows_fault hskip _

theorem follows_oneArgument_close (hs : s <:+ source) (hclose : Text.skipBlanks s = ')' :: rest) :
    Follows source (oneArgument source value callee state) s
      (.ok (.inr (.call callee state.1 state.2), rest)) := by
  have hblanks := follows_skipBlanks hs
  rw [hclose] at hblanks
  have hrest : rest <:+ source := (List.suffix_cons _ _).trans hblanks.inside
  refine hblanks.bind ((follows_peek hblanks.inside).bind ?_)
  rw [List.head?_cons, if_pos rfl]
  exact (follows_advance hblanks.inside).bind (follows_pure _ hrest)

/-- Where the call is not closed, an argument has to come. -/
theorem follows_oneArgument {r : Parser.Step ((List Expr × List (String × Expr)) ⊕ Expr)}
    (hs : s <:+ source) (hopen : ∀ rest, Text.skipBlanks s ≠ ')' :: rest)
    (h : Follows source (argument source value (state.2.map (·.1)) >>= fun a =>
      separator source callee (addArgument state a)) (Text.skipBlanks s) r) :
    Follows source (oneArgument source value callee state) s r := by
  have hskip := (skipBlanks_suffix s).trans hs
  refine (follows_skipBlanks hs).bind ((follows_peek hskip).bind ?_)
  rw [if_neg]
  · exact h
  · intro hhead
    obtain ⟨rest, hrest⟩ := List.head?_eq_some_iff.1 hhead
    exact hopen rest hrest

end Rounds

/-- The loop over the arguments of a call reads what is left of them. -/
theorem follows_arguments (hvalue : FollowsValues source value reader) (callee : String)
    (positional : List Expr) (keywords : List (String × Expr)) (hs : s <:+ source) :
    Follows source (loop source (oneArgument source value callee) (positional, keywords)) s
      (Parser.arguments reader callee positional keywords s) := by
  fun_induction Parser.arguments reader callee positional keywords s with
  | case1 positional keywords s rest hclose => exact (follows_oneArgument_close hs hclose).loop_done
  | case2 positional keywords s halt hopen hread =>
    have hargument := follows_argument hvalue (keywords.map (·.1)) ((skipBlanks_suffix s).trans hs)
    rw [hread] at hargument
    refine .loop_error (follows_oneArgument hs hopen ?_)
    exact hargument.bind_error
  | case3 positional keywords s key e rest _ _ after hclose hopen hread =>
    have hargument := follows_argument hvalue (keywords.map (·.1)) ((skipBlanks_suffix s).trans hs)
    rw [hread] at hargument
    refine .loop_done (follows_oneArgument hs hopen ?_)
    exact hargument.bind (follows_separator_close hargument.inside hclose)
  | case4 positional keywords s key e rest _ _ more hcomma hopen hread hlt ih =>
    have hargument := follows_argument hvalue (keywords.map (·.1)) ((skipBlanks_suffix s).trans hs)
    rw [hread] at hargument
    have hmore : more <:+ source :=
      (List.suffix_cons ',' more).trans (hcomma ▸ (skipBlanks_suffix rest).trans hargument.inside)
    refine .loop_next hs (follows_oneArgument hs hopen ?_) hlt (ih hmore)
    exact hargument.bind (follows_separator_comma hargument.inside hcomma)
  | case5 positional keywords s key e rest hopen hread hclose hcomma =>
    have hargument := follows_argument hvalue (keywords.map (·.1)) ((skipBlanks_suffix s).trans hs)
    rw [hread] at hargument
    refine .loop_error (follows_oneArgument hs hopen ?_)
    exact hargument.bind (follows_separator_error hargument.inside hclose hcomma)

/-- A call is read from its opening parenthesis on. -/
theorem follows_call (hvalue : FollowsValues source value reader) :
    FollowsCalls source (call source value) fun callee s =>
      Parser.arguments reader callee [] [] s.tail := by
  intro callee inner hs
  have hblanks := follows_skipBlanks hs
  rw [Text.skipBlanks_cons_of_not_isBlank inner (by decide)] at hblanks
  have hinner : inner <:+ source := (List.suffix_cons '(' inner).trans hs
  refine hblanks.bind ((follows_peek hs).bind ?_)
  rw [List.head?_cons, if_pos rfl]
  exact (follows_advance hs).bind (follows_arguments hvalue callee [] [] hinner)

/-- **Values are read alike to every depth.** -/
theorem follows_expr (limit depth : ℕ) :
    FollowsValues source (expr source limit depth) (Parser.reader limit depth) := by
  induction depth with
  | zero =>
    intro s hs
    exact follows_value (fun _ _ hinner => follows_fault hinner _) hs
  | succ depth ih =>
    intro s hs
    exact follows_value (follows_call ih) hs

end Calls

/-! ### The whole text -/

theorem follows_ending_nil (e : Expr) : Follows source (ending source e) [] (.ok (e, [])) := by
  have hend : ¬place source [] < Text.byteLength source := Nat.lt_irrefl _
  refine (follows_position List.nil_suffix).bind ?_
  rw [if_neg hend]
  exact follows_pure e List.nil_suffix

theorem follows_ending_cons (e : Expr) {c : Char} (hs : c :: s <:+ source) :
    Follows source (ending source e) (c :: s)
      (.error ⟨c :: s, .trailing (String.ofList (c :: s))⟩) := by
  have hunread : place source (c :: s) < Text.byteLength source :=
    place_lt hs List.nil_suffix (Nat.succ_pos _)
  refine (follows_position hs).bind ?_
  rw [if_pos hunread]
  exact (follows_remaining hs).bind (follows_fault hs _)

/-- The whole text is read alike. -/
theorem follows_whole (source : List Char) : ∃ r, Follows source (whole source) source r ∧
    (report source r).map (·.1) = Expr.parseChars source := by
  have hvalue := follows_expr Expr.depthLimit Expr.depthLimit source (List.suffix_refl source)
  rw [Expr.parseChars]
  cases hread : (Parser.reader Expr.depthLimit Expr.depthLimit).run source with
  | error halt =>
    rw [hread] at hvalue
    exact ⟨.error halt, hvalue.bind_error, rfl⟩
  | ok read =>
    obtain ⟨e, rest⟩ := read
    rw [hread] at hvalue
    have hblanks := follows_skipBlanks hvalue.inside
    dsimp only
    cases hunread : Text.skipBlanks rest with
    | nil =>
      rw [hunread] at hblanks
      exact ⟨_, hvalue.bind (hblanks.bind (follows_ending_nil e)), rfl⟩
    | cons c unread =>
      rw [hunread] at hblanks
      exact ⟨_, hvalue.bind (hblanks.bind (follows_ending_cons e hblanks.inside)), rfl⟩

/-- **Reading with a cursor comes to what reading comes to.** -/
theorem parse_eq (source : List Char) : parse source = some (Expr.parseChars source) := by
  obtain ⟨r, hfollows, hr⟩ := follows_whole source
  have hrun := hfollows.run_eq
  rw [place, Nat.sub_self] at hrun
  rw [← hr]
  change (whole source 0).bind _ = _
  rw [hrun]
  cases r <;> rfl

/-- An error is reported between two characters of the text. -/
theorem exists_from?_of_error {e : ParseError} (h : Expr.parseChars source = .error e) :
    ∃ rest, Text.from? source e.position = some rest := by
  obtain ⟨r, hfollows, hr⟩ := follows_whole source
  rw [h] at hr
  cases r with
  | ok read => cases hr
  | error halt =>
    cases hr
    exact ⟨halt.unread, from?_place hfollows.inside⟩

/-- **Parse errors point into the text, and reading never slices badly.** Reading with a cursor
has an outcome for every text, and it is that of reading the text: no piece is taken and no
position is set or reported but between two characters, and no loop goes on without having
moved. So errors are at valid positions of the text, and where no keyword is found the cursor is
left where it was. -/
theorem parse_inBounds (source : String) :
    parse source.toList = some (Expr.parse source) ∧
    (∀ e, Expr.parse source = .error e →
      e.position ≤ source.utf8ByteSize ∧ (⟨e.position⟩ : String.Pos.Raw).IsValid source) ∧
    ∀ pos, (⟨pos⟩ : String.Pos.Raw).IsValid source → ∃ key after,
      tryKeyword source.toList pos = some (.ok (key, after)) ∧
        (⟨after⟩ : String.Pos.Raw).IsValid source ∧ (key = none → after = pos) := by
  have hvalid : ∀ pos, (⟨pos⟩ : String.Pos.Raw).IsValid source ↔
      ∃ rest, Text.from? source.toList pos = some rest := by
    intro pos
    rw [← Text.isValid_iff, String.ofList_toList]
  refine ⟨parse_eq source.toList, fun e he => ?_, fun pos hpos => ?_⟩
  · have hposition := (hvalid e.position).2 (exists_from?_of_error he)
    exact ⟨hposition.le_rawEndPos, hposition⟩
  · obtain ⟨s, hs⟩ := (hvalid pos).1 hpos
    obtain ⟨before, hsource, rfl⟩ := Text.from?_eq_some.1 hs
    have hsuffix : s <:+ source.toList := ⟨before, hsource.symm⟩
    have hplace : place source.toList s = Text.byteLength before := by
      rw [hsource, place_append]
    have hfollows := follows_tryKeyword hsuffix
    have hrun := hfollows.run_eq
    rw [hplace] at hrun
    refine ⟨_, _, hrun, (hvalid _).2 ⟨_, from?_place hfollows.inside⟩, fun hkey => ?_⟩
    cases hread : Parser.key? s with
    | none => exact hplace
    | some read =>
      rw [hread] at hkey
      cases hkey

end Agreement

end Cursor

end TradeSignals
