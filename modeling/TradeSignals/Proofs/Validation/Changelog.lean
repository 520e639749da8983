import Mathlib.Data.Finset.Card
import Mathlib.Data.List.Nodup
import TradeSignals.Validation.Changelog

/-!
# What a changelog holds

A changelog is searched from its first entry on, and a message whose key is found there takes the
place of the one before it. So it holds one entry for each key, and what it says about a key is
what was recorded last, however often and in whatever order keys come up again.

The invariant is `TradeSignals.Changelog.Holds`: the keys are distinct and stand in the order in
which they first came up, and each of them has its last message. A recorded message keeps it
(`TradeSignals.Changelog.Holds.record`), and so do any number of them
(`TradeSignals.Changelog.Holds.recordAll`). As keys are distinct, what is found under a key is all
that is listed under it (`TradeSignals.Changelog.Holds.mem_entries`). How many entries there are and
which keys are found follow as well.
-/

namespace TradeSignals.Changelog

variable {log : Changelog} {messages : List (String × String)} {key : String}

/-! ### Messages in a row -/

theorem recordAll_append (log : Changelog) (messages more : List (String × String)) :
    log.recordAll (messages ++ more) = (log.recordAll messages).recordAll more :=
  List.foldl_append

theorem mem_keys_record {message other : String} :
    other ∈ (log.record key message).keys ↔ other ∈ log.keys ∨ other = key := by
  rw [record, Dictionary.keys_put]
  split
  · next hmem =>
    refine ⟨.inl, ?_⟩
    rintro (h | rfl)
    · exact h
    · exact hmem
  · rw [List.mem_append, List.mem_singleton]

/-- The message that was recorded last under a key, if one was. -/
def lastMessage? (messages : List (String × String)) (key : String) : Option String :=
  ((messages.filter fun m => m.1 = key).map (·.2)).getLast?

theorem lastMessage?_concat (messages : List (String × String)) (key message other : String) :
    lastMessage? (messages ++ [(key, message)]) other =
      if other = key then some message else lastMessage? messages other := by
  rw [lastMessage?, List.filter_append, List.map_append]
  split
  · next heq => simp [heq]
  · next hne => simp [lastMessage?, Ne.symm hne]

/-! ### The invariant -/

/-- **A changelog that holds messages**, each key with its last one and in the place where it came
up first. -/
structure Holds (log : Changelog) (messages : List (String × String)) : Prop where
  /-- No key is there twice. -/
  nodup : log.keys.Nodup
  /-- The keys are those of the messages, in the order in which they first came up. -/
  keys : log.keys = (messages.map (·.1)).eraseDups
  /-- A key stands for the message that was recorded last under it, and for none if none was. -/
  get? : ∀ key, log.get? key = lastMessage? messages key

theorem holds_empty : empty.Holds [] where
  nodup := .nil
  keys := rfl
  get? _ := rfl

namespace Holds

theorem mem_keys (h : log.Holds messages) : key ∈ log.keys ↔ key ∈ messages.map (·.1) := by
  rw [h.keys, List.mem_eraseDups]

/-- **One more message** is held as well. -/
theorem record (h : log.Holds messages) (key message : String) :
    (log.record key message).Holds (messages ++ [(key, message)]) where
  nodup := by
    rw [Changelog.record, Dictionary.keys_put]
    split
    · exact h.nodup
    · next hnew =>
      rw [← List.concat_eq_append]
      exact h.nodup.concat hnew
  keys := by
    rw [Changelog.record, Dictionary.keys_put, List.map_append, List.map_singleton,
      List.eraseDups_append, ← h.keys]
    split
    · next hmem =>
      have hnone : [key].removeAll (messages.map (·.1)) = [] := by
        simp [List.removeAll, h.mem_keys.1 hmem]
      rw [hnone, List.eraseDups_nil, List.append_nil]
    · next hnew =>
      have hone : [key].removeAll (messages.map (·.1)) = [key] := by
        simp [List.removeAll, mt h.mem_keys.2 hnew]
      rw [hone, List.eraseDups_cons, List.filter_nil, List.eraseDups_nil]
  get? other := by
    rw [Changelog.record, Dictionary.get?_put, lastMessage?_concat, h.get?]

/-- **Any number of messages** is held as well. -/
theorem recordAll (h : log.Holds messages) (more : List (String × String)) :
    (log.recordAll more).Holds (messages ++ more) := by
  induction more generalizing log messages with
  | nil => exact (List.append_nil messages).symm ▸ h
  | cons m more ih =>
    rw [List.append_cons]
    exact ih (h.record m.1 m.2)

/-! ### What follows from it -/

/-- An entry is found under the keys of the messages. -/
theorem contains_iff (h : log.Holds messages) :
    log.contains key = true ↔ key ∈ messages.map (·.1) :=
  Dictionary.contains_iff.trans h.mem_keys

/-- There are as many entries as there are different keys. -/
theorem size_eq (h : log.Holds messages) : log.size = (messages.map (·.1)).toFinset.card := by
  have hkeys : log.keys.toFinset = (messages.map (·.1)).toFinset := by
    ext key
    rw [List.mem_toFinset, List.mem_toFinset, h.mem_keys]
  rw [Dictionary.size_eq, ← List.toFinset_card_of_nodup h.nodup, hkeys]

/-- There is no entry if and only if there is no message. -/
theorem isEmpty_iff (h : log.Holds messages) : log.isEmpty = true ↔ messages = [] := by
  have hkeys : log.isEmpty = true ↔ log.keys = [] := by
    rw [Dictionary.isEmpty, List.isEmpty_iff, Dictionary.keys, List.map_eq_nil_iff]
  rw [hkeys, h.keys]
  cases messages with
  | nil => exact iff_of_true rfl rfl
  | cons m messages =>
    rw [List.map_cons, List.eraseDups_cons]
    exact iff_of_false (List.cons_ne_nil _ _) (List.cons_ne_nil _ _)

/-- A pair is among the entries if and only if its message is the last one under its key. -/
theorem mem_entries (h : log.Holds messages) {message : String} :
    (key, message) ∈ log.entries ↔ lastMessage? messages key = some message := by
  rw [← h.get?, Dictionary.get?, Dictionary.lookup_eq_some_iff_mem h.nodup]

end Holds

/-! ### Changelogs of messages -/

theorem holds_ofMessages (messages : List (String × String)) :
    (ofMessages messages).Holds messages :=
  holds_empty.recordAll messages

/-- **The keys of a changelog** are those of its messages. -/
theorem mem_keys_ofMessages : key ∈ (ofMessages messages).keys ↔ key ∈ messages.map (·.1) :=
  (holds_ofMessages messages).mem_keys

/-- **Nothing is taken out of a changelog again**: it is empty only if there was no message. -/
theorem isEmpty_ofMessages : (ofMessages messages).isEmpty = true ↔ messages = [] :=
  (holds_ofMessages messages).isEmpty_iff

end TradeSignals.Changelog
