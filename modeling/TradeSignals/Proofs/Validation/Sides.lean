import TradeSignals.Proofs.Validation.Changelog
import TradeSignals.Validation.Repair

/-!
# The sides of a changelog

The key of a note that is made inside a parameter of a strategy begins with the name of that
parameter, its *side*, and a colon; other keys have no colon. So what is recorded for one side and
what is recorded for another one, or for the strategy itself, are kept apart in the one changelog:
recording messages and then looking only at some of the keys is recording the messages with such a
key (`TradeSignals.Changelog.restrict_recordAll`), and messages for one side leave everything else
as it was (`TradeSignals.Changelog.extends_recordAll`).
-/

namespace TradeSignals

/-! ### Some of the entries -/

namespace Dictionary

variable {α : Type} {p : String → Bool}

/-- The entries with such a key. -/
def restrict (p : String → Bool) (d : Dictionary α) : Dictionary α :=
  ⟨d.entries.filter fun e => p e.1⟩

theorem filter_putEntry (key : String) (value : α) (entries : List (String × α)) :
    (putEntry key value entries).filter (fun e => p e.1) =
      if p key then putEntry key value (entries.filter fun e => p e.1)
      else entries.filter fun e => p e.1 := by
  induction entries with
  | nil =>
    rw [putEntry, List.filter_cons]
    rfl
  | cons e rest ih =>
    obtain ⟨k, v⟩ := e
    by_cases hk : key = k
    · subst hk
      rw [putEntry, if_pos rfl, List.filter_cons, List.filter_cons]
      dsimp only
      split
      · rw [putEntry, if_pos rfl]
      · rfl
    · rw [putEntry, if_neg hk, List.filter_cons, List.filter_cons, ih]
      dsimp only
      split
      · split
        · rw [putEntry, if_neg hk]
        · rfl
      · rfl

/-- Putting an entry in shows where its key is one of those that are looked at. -/
theorem restrict_put (d : Dictionary α) (key : String) (value : α) :
    (d.put key value).restrict p =
      if p key then (d.restrict p).put key value else d.restrict p := by
  rw [put, restrict, filter_putEntry]
  split <;> rfl

end Dictionary

namespace Changelog

/-! ### Keys -/

/-- Is a key one of a side? -/
def isOf (side key : String) : Bool := (side ++ ":").toList.isPrefixOf key.toList

/-- Is a key one of the strategy itself? -/
def isTop (key : String) : Bool := decide (':' ∉ key.toList)

theorem isOf_iff {side key : String} :
    isOf side key = true ↔ ∃ rest, key = side ++ ":" ++ rest := by
  rw [isOf, List.isPrefixOf_iff_prefix]
  constructor
  · rintro ⟨rest, h⟩
    refine ⟨String.ofList rest, String.toList_inj.1 ?_⟩
    rw [String.toList_append, String.toList_ofList, h]
  · rintro ⟨rest, rfl⟩
    exact ⟨rest.toList, (String.toList_append).symm⟩

/-- Notes are recorded for the side inside which they are made. -/
theorem isOf_key (side : String) (n : Note) : isOf side (n.key side) = true := by
  refine isOf_iff.2 ⟨n.constructor.name ++ "." ++ n.parameter, ?_⟩
  simp only [Note.key, String.append_assoc]
  rfl

theorem isTop_of_isOf {side key : String} (h : isOf side key = true) : isTop key = false := by
  obtain ⟨rest, rfl⟩ := isOf_iff.1 h
  refine decide_eq_false (not_not_intro ?_)
  simp [String.toList_append]

theorem isOf_of_isTop {key : String} (h : isTop key = true) (side : String) :
    isOf side key = false :=
  Bool.eq_false_iff.2 fun hof => Bool.false_ne_true ((isTop_of_isOf hof).symm.trans h)

/-- The side of a key is what stands before its first colon. -/
theorem takeWhile_of_isOf {side key : String} (hside : isTop side = true)
    (h : isOf side key = true) : key.toList.takeWhile (· ≠ ':') = side.toList := by
  obtain ⟨rest, rfl⟩ := isOf_iff.1 h
  have hall : ∀ c ∈ side.toList, decide (c ≠ ':') = true := fun c hc =>
    decide_eq_true fun heq => of_decide_eq_true hside (heq ▸ hc)
  rw [String.append_assoc, String.toList_append, List.takeWhile_append_of_pos hall]
  simp [String.toList_append]

theorem side_unique {side other key : String} (hside : isTop side = true)
    (hother : isTop other = true) (h : isOf side key = true) (h' : isOf other key = true) :
    side = other :=
  String.toList_inj.1 ((takeWhile_of_isOf hside h).symm.trans (takeWhile_of_isOf hother h'))

theorem isTop_key (f : Field) : isTop f.key = true := by
  cases f <;> decide

/-! ### Messages -/

variable {log log' log'' : Changelog} {messages : List (String × String)}

/-- **Recording, looked at in part**: of the messages, those count whose keys are looked at. -/
theorem restrict_recordAll (p : String → Bool) (log : Changelog)
    (messages : List (String × String)) : (log.recordAll messages).restrict p =
      Changelog.recordAll (log.restrict p) (messages.filter fun m => p m.1) := by
  induction messages generalizing log with
  | nil => rfl
  | cons m rest ih =>
    have hstep : log.recordAll (m :: rest) = (log.record m.1 m.2).recordAll rest := rfl
    rw [hstep, ih, record, Dictionary.restrict_put, List.filter_cons]
    split <;> rfl

/-- **A changelog that has been added to for a side**: all keys are still there, in their order,
new ones come after them, and only entries of the side are new or have a new message. -/
structure Extends (side : String) (log log' : Changelog) : Prop where
  /-- No key is lost or moved, and new keys are at the end. -/
  keys : ∃ added, log'.keys = log.keys ++ added ∧ ∀ key ∈ added, isOf side key = true
  /-- All other entries are what they were. -/
  others : log'.restrict (fun key => !isOf side key) = log.restrict fun key => !isOf side key

namespace Extends

variable {side : String}

theorem refl (log : Changelog) : log.Extends side log :=
  ⟨⟨[], (List.append_nil _).symm, List.forall_mem_nil _⟩, rfl⟩

theorem trans (h : log.Extends side log') (h' : log'.Extends side log'') :
    log.Extends side log'' := by
  obtain ⟨added, hkeys, hadded⟩ := h.keys
  obtain ⟨more, hkeys', hmore⟩ := h'.keys
  refine ⟨⟨added ++ more, by rw [hkeys', hkeys, List.append_assoc], ?_⟩, h'.others.trans h.others⟩
  exact List.forall_mem_append.2 ⟨hadded, hmore⟩

/-- One message for the side. -/
theorem record (log : Changelog) {key : String} (hkey : isOf side key = true) (message : String) :
    log.Extends side (log.record key message) where
  keys := by
    rw [Changelog.record, Dictionary.keys_put]
    split
    · exact ⟨[], (List.append_nil _).symm, List.forall_mem_nil _⟩
    · exact ⟨[key], rfl, List.forall_mem_singleton.2 hkey⟩
  others := by
    rw [Changelog.record, Dictionary.restrict_put, hkey]
    rfl

end Extends

/-- **Messages for a side** add to it and to nothing else. -/
theorem extends_recordAll {side : String} (log : Changelog)
    (h : ∀ m ∈ messages, isOf side m.1 = true) : log.Extends side (log.recordAll messages) := by
  induction messages generalizing log with
  | nil => exact .refl log
  | cons m rest ih =>
    obtain ⟨hm, hrest⟩ := List.forall_mem_cons.1 h
    exact (Extends.record log hm m.2).trans (ih (log.record m.1 m.2) hrest)

end Changelog

end TradeSignals
