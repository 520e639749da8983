import TradeSignals.Proofs.Validation.Changelog
import TradeSignals.Validation.Report

/-!
# The changes of a report, read again

In a report the changes are a JSON object with one member for each. What somebody who reads the
report finds there is what was recorded: the keys in the order in which they first came up, none of
them twice, and the last message of each (`TradeSignals.Changelog.insertionOrdered_ofMessages`).

To say so, objects of texts are read back (`TradeSignals.Report.members?`). The reader follows the
grammar of JSON and not the writer: blanks may stand between any two tokens, each escape that is a
character by itself is read, and anything that is no object of texts is refused. It goes over the
characters once, for tokens (`TradeSignals.Report.tokens?`), and over the tokens once, for members.
What is written in one layout or the other then differs in blanks only
(`TradeSignals.Report.ReadsAs.object`).
-/

namespace TradeSignals

namespace Report

/-! ### Reading an object of texts -/

/-- What an object of texts is written with. -/
inductive Token where
  /-- The brace in front of the members. -/
  | opening
  /-- The brace after the members. -/
  | closing
  /-- Between the key of a member and its value. -/
  | colon
  /-- Between two members. -/
  | comma
  /-- A text in quotes. -/
  | text (text : String)
deriving DecidableEq

/-- Does a character only divide tokens? -/
def isBlank (c : Char) : Bool := c = ' ' || c = '\n' || c = '\r' || c = '\t'

/-- The token that is one character. -/
def mark? : Char → Option Token
  | '\x7b' => some .opening
  | '\x7d' => some .closing
  | ':' => some .colon
  | ',' => some .comma
  | _ => none

/-- What a digit of base sixteen is worth, whatever its case. -/
def hexValue? (c : Char) : Option Nat :=
  if '0' ≤ c ∧ c ≤ '9' then some (c.toNat - '0'.toNat)
  else if 'a' ≤ c ∧ c ≤ 'f' then some (c.toNat - 'a'.toNat + 10)
  else if 'A' ≤ c ∧ c ≤ 'F' then some (c.toNat - 'A'.toNat + 10)
  else none

/-- The character with a number of four digits of base sixteen. The halves of a surrogate pair are
none. -/
def numbered? (a b c d : Char) : Option Char := do
  let number := 16 * (16 * (16 * (← hexValue? a) + (← hexValue? b)) + (← hexValue? c)) +
    (← hexValue? d)
  if number.isValidChar then some (.ofNat number) else none

/-- The character that a character after a backslash stands for. -/
def escaped? : Char → Option Char
  | '\x22' => some '\x22'
  | '\x5c' => some '\x5c'
  | '/' => some '/'
  | 'b' => some '\x08'
  | 'f' => some '\x0c'
  | 'n' => some '\n'
  | 'r' => some '\r'
  | 't' => some '\t'
  | _ => none

mutual

/-- The tokens of a text. -/
def tokens? : List Char → Option (List Token)
  | [] => some []
  | '\x22' :: rest => (quotedTokens? rest).map fun p => .text (String.ofList p.1) :: p.2
  | c :: rest =>
    if isBlank c then tokens? rest
    else (mark? c).bind fun t => (tokens? rest).map (t :: ·)

/-- What stands before a closing quote, and the tokens after it. -/
def quotedTokens? : List Char → Option (List Char × List Token)
  | [] => none
  | '\x22' :: rest => (tokens? rest).map ([], ·)
  | '\x5c' :: 'u' :: a :: b :: c :: d :: rest =>
    (numbered? a b c d).bind fun e => (quotedTokens? rest).map fun p => (e :: p.1, p.2)
  | '\x5c' :: c :: rest =>
    (escaped? c).bind fun e => (quotedTokens? rest).map fun p => (e :: p.1, p.2)
  | c :: rest =>
    if c.toNat < 0x20 then none else (quotedTokens? rest).map fun p => (c :: p.1, p.2)

end

/-- Members, one or more of them, with a comma between any two and the closing brace at the end. -/
def someMembers? : List Token → Option (List (String × String))
  | [.text key, .colon, .text value, .closing] => some [(key, value)]
  | .text key :: .colon :: .text value :: .comma :: rest =>
    (someMembers? rest).map ((key, value) :: ·)
  | _ => none

/-- The members of an object. -/
def object? : List Token → Option (List (String × String))
  | [.opening, .closing] => some []
  | .opening :: rest => someMembers? rest
  | _ => none

/-- **The members of an object of texts**, in their order, if a JSON text is such an object. -/
def members? (text : String) : Option (List (String × String)) :=
  (tokens? text.toList).bind object?

/-! ### Quoted texts -/

theorem hexValue?_hexDigit : ∀ n < 16, hexValue? (hexDigit n) = some n := by decide

/-- A control character is the one with the number that it is written with. -/
theorem numbered?_hexDigit {c : Char} (h : c.toNat < 0x20) :
    numbered? '0' '0' (hexDigit (c.toNat / 16)) (hexDigit (c.toNat % 16)) = some c := by
  have hzero : hexValue? '0' = some 0 := rfl
  have hnumber : 16 * (16 * (16 * 0 + 0) + c.toNat / 16) + c.toNat % 16 = c.toNat := by omega
  have hvalid : c.toNat.isValidChar := c.valid
  rw [numbered?, hzero, hexValue?_hexDigit _ (by omega), hexValue?_hexDigit _ (by omega)]
  simp only [Option.bind_eq_bind, Option.bind_some, hnumber, if_pos hvalid, Char.ofNat_toNat]

/-- However a character is written between quotes, it is read. -/
theorem quotedTokens?_escape (c : Char) (rest : List Char) :
    quotedTokens? (escape c ++ rest) = (quotedTokens? rest).map fun p => (c :: p.1, p.2) := by
  unfold escape
  split
  case h_8 hquote hbackslash _ _ _ _ _ =>
    split
    · next hcontrol =>
      change ((numbered? '0' '0' _ _).bind fun e =>
        (quotedTokens? rest).map fun p => (e :: p.1, p.2)) = _
      rw [numbered?_hexDigit hcontrol, Option.bind_some]
    · next hplain =>
      rw [List.singleton_append, quotedTokens?, if_neg hplain]
      · exact hquote
      · exact fun _ _ _ _ _ h _ => hbackslash h
      · exact fun _ _ h _ => hbackslash h
  -- Each of the other characters has a letter of its own, and the reader the same one.
  all_goals rfl

theorem quotedTokens?_escaped (cs rest : List Char) :
    quotedTokens? (cs.flatMap escape ++ '\x22' :: rest) = (tokens? rest).map (cs, ·) := by
  induction cs with
  | nil => rfl
  | cons c cs ih =>
    rw [List.flatMap_cons, List.append_assoc, quotedTokens?_escape, ih, Option.map_map]
    rfl

/-! ### Texts and their tokens -/

/-- **A part of a text reads as tokens**, whatever comes after it. -/
def ReadsAs (cs : List Char) (ts : List Token) : Prop :=
  ∀ rest, tokens? (cs ++ rest) = (tokens? rest).map (ts ++ ·)

/-- The tokens of a member. -/
def memberTokens (m : String × String) : List Token := [.text m.1, .colon, .text m.2]

/-- The tokens of an object. -/
def objectTokens (ms : List (String × String)) : List Token :=
  .opening :: ([.comma].intercalate (ms.map memberTokens) ++ [.closing])

namespace ReadsAs

variable {cs ds : List Char} {ts us : List Token}

theorem nil : ReadsAs [] [] := by
  intro rest
  simp only [List.nil_append, Option.map_id']

theorem append (h : ReadsAs cs ts) (h' : ReadsAs ds us) : ReadsAs (cs ++ ds) (ts ++ us) := by
  intro rest
  simp only [List.append_assoc, h _, h' _, Option.map_map, Function.comp_def]

theorem mark {c : Char} {t : Token} (hquote : c ≠ '\x22') (hblank : isBlank c = false)
    (h : mark? c = some t) : ReadsAs [c] [t] := by
  intro rest
  rw [List.singleton_append, tokens?, hblank, h]
  · rfl
  · exact hquote

theorem blanks (h : ∀ c ∈ cs, isBlank c = true) : ReadsAs cs [] := by
  induction cs with
  | nil => exact nil
  | cons c cs ih =>
    obtain ⟨hc, hcs⟩ := List.forall_mem_cons.1 h
    intro rest
    rw [List.cons_append, tokens?, if_pos hc, ih hcs]
    rintro rfl
    cases hc

theorem quoted (text : String) : ReadsAs (quoted text).toList [.text text] := by
  intro rest
  rw [Report.quoted, String.toList_ofList, List.cons_append, List.append_assoc,
    List.singleton_append, tokens?, quotedTokens?_escaped, Option.map_map]
  simp only [Function.comp_def, String.ofList_toList, List.singleton_append]

theorem intercalate {α : Type} {f : α → List Char} {g : α → List Token} (hbetween : ReadsAs cs ts)
    (h : ∀ a, ReadsAs (f a) (g a)) (as : List α) :
    ReadsAs (cs.intercalate (as.map f)) (ts.intercalate (as.map g)) := by
  induction as with
  | nil => exact nil
  | cons a as ih =>
    cases as with
    | nil => simpa only [List.map_singleton, List.intercalate_singleton] using h a
    | cons b as =>
      simp only [List.map_cons, List.intercalate_cons_cons] at ih ⊢
      exact ((h a).append hbetween).append ih

/-- **An object in any layout**: blanks aside, it is made of its members. -/
theorem object {opening divider between closing : List Char}
    (hopening : ReadsAs opening [.opening]) (hdivider : ReadsAs divider [.colon])
    (hbetween : ReadsAs between [.comma]) (hclosing : ReadsAs closing [.closing])
    (ms : List (String × String)) :
    ReadsAs (opening ++ between.intercalate (ms.map fun m =>
      (Report.quoted m.1).toList ++ divider ++ (Report.quoted m.2).toList) ++ closing)
      (objectTokens ms) :=
  have hmember (m : String × String) :
      ReadsAs ((Report.quoted m.1).toList ++ divider ++ (Report.quoted m.2).toList)
        (memberTokens m) :=
    ((quoted m.1).append hdivider).append (quoted m.2)
  (hopening.append (hbetween.intercalate hmember ms)).append hclosing

end ReadsAs

/-! ### What is read back -/

theorem someMembers?_tokens (m : String × String) (ms : List (String × String)) :
    someMembers? ([.comma].intercalate ((m :: ms).map memberTokens) ++ [.closing]) =
      some (m :: ms) := by
  induction ms generalizing m with
  | nil => rfl
  | cons m' ms ih =>
    rw [List.map_cons, List.map_cons, List.intercalate_cons_cons, ← List.map_cons,
      List.append_assoc]
    change (someMembers? ([.comma].intercalate ((m' :: ms).map memberTokens) ++ [.closing])).map
      (m :: ·) = _
    rw [ih, Option.map_some]

theorem object?_objectTokens (ms : List (String × String)) :
    object? (objectTokens ms) = some ms := by
  cases ms with
  | nil => rfl
  | cons m ms =>
    have hsome := someMembers?_tokens m ms
    rw [objectTokens, object?, hsome]
    -- A closing brace alone would be read as no members at all.
    intro hclosing
    rw [hclosing] at hsome
    cases hsome

/-- The blanks in front of a line. -/
theorem readsAs_lineBreak (n : Nat) : ReadsAs ('\n' :: List.replicate n ' ') [] := by
  refine .blanks (List.forall_mem_cons.2 ⟨rfl, fun c hc => ?_⟩)
  rw [List.eq_of_mem_replicate hc]
  rfl

theorem readsAs_object (layout : Layout) (level : Nat) (ms : List (String × String)) :
    ReadsAs (object layout level (ms.map fun m => (m.1, quoted m.2))).toList (objectTokens ms) := by
  have hopening : ReadsAs ['\x7b'] [.opening] := .mark (by decide) rfl rfl
  have hcolon : ReadsAs [':'] [.colon] := .mark (by decide) rfl rfl
  have hcomma : ReadsAs [','] [.comma] := .mark (by decide) rfl rfl
  have hclosing : ReadsAs ['\x7d'] [.closing] := .mark (by decide) rfl rfl
  cases layout with
  | compact =>
    have h := ReadsAs.object hopening hcolon hcomma hclosing ms
    simpa only [object, String.toList_append, String.toList_intercalate, String.reduceToList,
      List.map_map, Function.comp_def] using h
  | indented =>
    have hspace : ReadsAs [' '] [] := .blanks (List.forall_mem_singleton.2 rfl)
    have hinner := readsAs_lineBreak (2 * (level + 1))
    have houter := readsAs_lineBreak (2 * level)
    have h := ReadsAs.object (hopening.append hinner) (hcolon.append hspace)
      (hcomma.append hinner) (houter.append hclosing) ms
    by_cases hms : ms = []
    · subst hms
      have hbraces : (object .indented level []).toList = ['\x7b', '\x7d'] := by
        rw [object, if_pos List.isEmpty_nil]
        rfl
      rw [List.map_nil, hbraces]
      exact hopening.append hclosing
    · rw [object, List.isEmpty_map, if_neg (mt List.isEmpty_iff.1 hms)]
      simpa only [String.toList_append, String.toList_intercalate, String.reduceToList,
        String.toList_ofList, List.map_map, Function.comp_def, List.append_assoc,
        List.cons_append, List.nil_append] using h

/-- **An object of texts is read back** as the members that it was written from. -/
theorem members?_object (layout : Layout) (level : Nat) (ms : List (String × String)) :
    members? (object layout level (ms.map fun m => (m.1, quoted m.2))) = some ms := by
  have htokens := readsAs_object layout level ms []
  rw [List.append_nil, tokens?, Option.map_some, List.append_nil] at htokens
  rw [members?, htokens, Option.bind_some, object?_objectTokens]

end Report

namespace Changelog

/-! ### Changelogs, as they are kept and as they are written -/

/-- **A changelog of messages is a map in the order of insertion**, and it is written as one. -/
structure InsertionOrdered (log : Changelog) (messages : List (String × String)) : Prop
    extends Holds log messages where
  /-- A key is in it where it stands for a message, and so where one was recorded under it. -/
  contains : ∀ key, (log.contains key = true ↔ ∃ message, log.get? key = some message) ∧
    (log.contains key = true ↔ key ∈ messages.map (·.1))
  /-- There are as many entries as there are different keys. -/
  size : log.size = (messages.map (·.1)).toFinset.card
  /-- There is none only if nothing was recorded. -/
  isEmpty : log.isEmpty = true ↔ messages = []
  /-- In either layout what is written is an object: its keys are those of the messages in the
  order in which they first came up, none of them twice, each with its last message. -/
  written : ∀ layout level, ∃ members,
    Report.members? (Report.ofChangelog layout level log) = some members ∧
      (members.map (·.1)).Nodup ∧ members.map (·.1) = (messages.map (·.1)).eraseDups ∧
      ∀ key message, (key, message) ∈ members ↔ lastMessage? messages key = some message

/-- What is written reads as the entries. -/
theorem members?_ofChangelog (layout : Report.Layout) (level : Nat) (log : Changelog) :
    Report.members? (Report.ofChangelog layout level log) = some log.entries :=
  Report.members?_object layout level log.entries

/-- **However often and in whatever order keys come up** among the messages that are recorded, the
changelog is a map in the order in which they first did, and its text reads as that map. -/
theorem insertionOrdered_ofMessages (messages : List (String × String)) :
    (ofMessages messages).InsertionOrdered messages where
  toHolds := holds_ofMessages messages
  contains _ := ⟨Option.isSome_iff_exists, (holds_ofMessages messages).contains_iff⟩
  size := (holds_ofMessages messages).size_eq
  isEmpty := (holds_ofMessages messages).isEmpty_iff
  written layout level := by
    have h := holds_ofMessages messages
    refine ⟨(ofMessages messages).entries, members?_ofChangelog layout level _, ?_, ?_, ?_⟩
    · exact h.nodup
    · exact h.keys
    · exact fun _ _ => h.mem_entries

/-- A key that comes up again keeps its place and has its new message. -/
example : (ofMessages [("a", "first"), ("b", "second"), ("a", "third")]).entries =
    [("a", "third"), ("b", "second")] := by decide

end Changelog

end TradeSignals
