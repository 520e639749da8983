import TradeSignals.Dictionary

/-!
# Changelogs

What a validation changed, as messages with keys, in the order in which the keys first
came up. A key that comes up again keeps its place and gets the later message.
-/

namespace TradeSignals

/-- Messages with keys, in order of first entry. -/
abbrev Changelog := Dictionary String

namespace Changelog

/-- The changelog in which nothing has been recorded. -/
def empty : Changelog := Dictionary.empty

/-- Records a message under a key. -/
def record (log : Changelog) (key message : String) : Changelog := log.put key message

/-- Records several messages, one after the other. -/
def recordAll (log : Changelog) (messages : List (String × String)) : Changelog :=
  messages.foldl (fun log m => log.record m.1 m.2) log

/-- The changelog of several messages. -/
def ofMessages (messages : List (String × String)) : Changelog := empty.recordAll messages

end Changelog

end TradeSignals
