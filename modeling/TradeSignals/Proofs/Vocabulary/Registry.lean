import Mathlib.Data.List.Forall2
import Mathlib.Data.List.Induction
import TradeSignals.Dictionary
import TradeSignals.Text.Blank
import TradeSignals.Vocabulary.Constructor

/-!
# The vocabulary as a registry

The vocabulary is kept as text: a line for each constructor, with its name, its category and its
parameters, each of which names what it admits. The lines are read once, and from then on a
constructor is looked up by its name. A line that cannot be read is left out and complained about.

`TradeSignals.Constructor` says without any text what the lines say, and the rest of the
development goes by it. Here the registry is read. Each line says what the constructor in its place
says (`TradeSignals.Registry.listing_lists`), and this is all that is computed. From it follows that
the registry and the constructors have the same under every name, in every category and in the table
(`TradeSignals.Registry.registry_eq_vocabulary`).
-/

namespace TradeSignals

namespace Registry

/-! ### Lines -/

/-- A line of the registry. -/
structure Line where
  /-- The name of the constructor. -/
  name : String
  /-- What it builds. -/
  category : Category
  /-- Its parameters, with blanks between them. A star stands before those that take any number of
  arguments, and a colon before the tag. -/
  parameters : String

/-- **The registry.** -/
def listing : List Line :=
  [⟨"Strategy", .strategy,
      "ticker:Ticker position_type:Enum(PositionType) buy_condition:Condition " ++
      "sell_condition:Condition start_date:Date end_date:Date stop_loss:StopLoss " ++
      "take_profit:TakeProfit interval:Enum(Interval) period:Enum(Period) " ++
      "initial_capital:Float order_size:OrderSize trade_commissions:TradeCommissions"⟩,
    ⟨"GreaterThanCondition", .condition,
      "first_series:TradingSeries second_series:TradingSeries"⟩,
    ⟨"LessThanCondition", .condition, "first_series:TradingSeries second_series:TradingSeries"⟩,
    ⟨"CrossOverCondition", .condition, "first_series:TradingSeries second_series:TradingSeries"⟩,
    ⟨"CrossUnderCondition", .condition, "first_series:TradingSeries second_series:TradingSeries"⟩,
    ⟨"AND", .condition, "*conditions:Condition"⟩,
    ⟨"OR", .condition, "*conditions:Condition"⟩,
    ⟨"AfterXDaysCondition", .condition, "base_condition:Condition days:Int"⟩,
    ⟨"ChangeOfXPercentPerYDaysCondition", .condition,
      "series:TradingSeries percent:Float number_of_days:Int"⟩,
    ⟨"IntraIntervalChangeOfXPercentCondition", .condition, "series:TradingSeries percent:Float"⟩,
    ⟨"UptrendForXDaysCondition", .condition, "series:TradingSeries number_of_days:Int"⟩,
    ⟨"DowntrendForXDaysCondition", .condition, "series:TradingSeries number_of_days:Int"⟩,
    ⟨"PRICE", .series, "price_type:Enum(PriceType)"⟩,
    ⟨"CONST", .series, "value:Int"⟩,
    ⟨"SMA", .series, "length:Int"⟩,
    ⟨"EMA", .series, "length:Int"⟩,
    ⟨"WMA", .series, "length:Int"⟩,
    ⟨"RSI", .series, "length:Int"⟩,
    ⟨"ROC", .series, "length:Int"⟩,
    ⟨"STDDEV", .series, "length:Int"⟩,
    ⟨"ATR", .series, "length:Int"⟩,
    ⟨"OBV", .series, ""⟩,
    ⟨"MACD", .series, "fast_length:Int slow_length:Int"⟩,
    ⟨"MACD_SIGNAL", .series, "fast_length:Int slow_length:Int signal_length:Int"⟩,
    ⟨"BBANDS_UPPER", .series, "length:Int std_dev:Float"⟩,
    ⟨"BBANDS_LOWER", .series, "length:Int std_dev:Float"⟩,
    ⟨"FIB_RETRACEMENT", .series, "level:FibonacciLevel length:Int"⟩,
    ⟨"StopLoss", .stopLoss, "stop_loss_type:Enum(StopLossType) percent:Float"⟩,
    ⟨"TakeProfit", .takeProfit, "percent:Float"⟩,
    ⟨"Contracts", .orderSize, "value:Int"⟩,
    ⟨"USD", .orderSize, "value:Float"⟩,
    ⟨"PercentOfPortfolio", .orderSize, "value:Float"⟩,
    ⟨"FixedCommission", .commission, "value:Float"⟩,
    ⟨"PercentCommission", .commission, "value:Float"⟩]

/-! ### Reading -/

/-- A constructor as a line describes it. -/
structure Entry where
  /-- Its name. -/
  name : String
  /-- What it builds. -/
  category : Category
  /-- Its parameters, in order. -/
  slots : List Slot
  /-- Does it take any number of arguments? -/
  variadic : Bool
deriving DecidableEq

/-- Why a line cannot be read. -/
inductive LineFault where
  /-- A parameter has no tag. -/
  | malformed (name item : String)
  /-- There is no such tag. -/
  | unknownTag (name tag : String)
deriving DecidableEq

/-- What is said about a line that cannot be read. -/
def LineFault.message : LineFault → String
  | .malformed name item => s!"{name}: malformed parameter '{item}'"
  | .unknownTag name tag => s!"{name}: unknown type tag '{tag}'"

/-- The words of a text. -/
def words (text : List Char) : List (List Char) :=
  (text.splitOnP Text.isBlank).filter (· ≠ [])

/-- A parameter, and whether a star stands before it. -/
def readParameter (name : String) (item : List Char) : Except LineFault (Slot × Bool) :=
  let star := item.head? = some '*'
  let item := if star then item.tail else item
  match item.dropWhile (· ≠ ':') with
  | [] => .error (.malformed name (String.ofList item))
  | _ :: tag =>
    match Tag.ofName? (String.ofList tag) with
    | some admitted => .ok (⟨String.ofList (item.takeWhile (· ≠ ':')), admitted⟩, star)
    | none => .error (.unknownTag name (String.ofList tag))

/-- The parameters in a text, and whether a star stands before one of them. -/
def readParameters (name : String) (text : List Char) : Except LineFault (List Slot × Bool) := do
  let parameters ← (words text).mapM (readParameter name)
  return (parameters.map (·.1), parameters.any (·.2))

/-- **Reads a line.** -/
def Line.read (l : Line) : Except LineFault Entry := do
  let (slots, variadic) ← readParameters l.name l.parameters.toList
  return ⟨l.name, l.category, slots, variadic⟩

example : Line.read ⟨"X", .condition, "a:Enum(Colour)"⟩ =
    .error (.unknownTag "X" "Enum(Colour)") := by decide +kernel

/-- One more line, if it can be read. -/
def withLine (found : Dictionary Entry) (l : Line) : Dictionary Entry :=
  match l.read with
  | .ok e => found.put l.name e
  | .error _ => found

/-- The entries of all lines that can be read, by their names. -/
def entries : Dictionary Entry := listing.foldl withLine .empty

/-- What is said about the lines that cannot be read. -/
def complaints : List String :=
  listing.flatMap fun l =>
    match l.read with
    | .ok _ => []
    | .error fault => ["schema registry: " ++ fault.message]

/-- The constructor with a name. -/
def lookup (name : String) : Option Entry := entries.get? name

/-- The constructor with a name, if it builds what is asked for. -/
def lookupIn (name : String) (category : Category) : Option Entry :=
  (lookup name).filter (·.category = category)

/-- The names of the constructors that build something, in the order of the lines. -/
def namesIn (category : Category) : List String :=
  (listing.filter (·.category = category)).map (·.name)

/-- A row of the table. -/
def row (l : Line) (e : Entry) : String :=
  let star := if e.variadic then "*" else ""
  let parameters := e.slots.map fun s => star ++ s.name ++ ":" ++ s.tag.name
  s!"{l.name} [{l.category.name}] " ++ " ".intercalate parameters ++ "\n"

/-- **The table** of all lines whose names are found. -/
def table : String :=
  String.join (listing.flatMap fun l => (lookup l.name).toList.map (row l))

end Registry

open Registry

/-- A constructor as its line describes it. -/
def Constructor.entry (c : Constructor) : Entry := ⟨c.name, c.category, c.slots, c.variadic⟩

namespace Registry

/-! ### Lines and constructors -/

/-- **A line lists a constructor:** it has its name and its category, and is read as what the
constructor is. -/
structure Lists (l : Line) (c : Constructor) : Prop where
  /-- The name. -/
  name : l.name = c.name
  /-- What is built. -/
  category : l.category = c.category
  /-- What is read. -/
  read : l.read = .ok c.entry

/-- A line lists a constructor if its text does. -/
theorem Lists.of_text {l : Line} {c : Constructor} {text : List Char} (hname : l.name = c.name)
    (hcategory : l.category = c.category) (htext : l.parameters = String.ofList text)
    (h : readParameters c.name text = .ok (c.slots, c.variadic)) : Lists l c := by
  refine ⟨hname, hcategory, ?_⟩
  rw [Line.read, htext, String.toList_ofList, hname, h, hcategory]
  rfl

theorem append_eq_ofList {a b : String} {s t : List Char} (ha : a = String.ofList s)
    (hb : b = String.ofList t) : a ++ b = String.ofList (s ++ t) := by
  rw [ha, hb, String.ofList_append]

/-- **The lines list the constructors** one after the other. -/
theorem listing_lists : List.Forall₂ Lists listing Constructor.all := by
  -- The text of the first line is put together from four.
  refine .cons (.of_text rfl rfl (append_eq_ofList (append_eq_ofList (append_eq_ofList rfl rfl) rfl)
    rfl) (by decide +kernel)) ?_
  repeat' first
    | exact .nil
    | refine .cons (.of_text rfl rfl rfl (by decide +kernel)) ?_

/-- Every constructor has a line. -/
theorem exists_lists (c : Constructor) : ∃ l ∈ listing, Lists l c := by
  have hlists := listing_lists
  have hmem := Constructor.mem_all c
  generalize listing = ls at hlists ⊢
  generalize Constructor.all = cs at hlists hmem
  induction hlists with
  | nil => cases hmem
  | cons h _ ih =>
    rcases List.mem_cons.1 hmem with rfl | hmem
    · exact ⟨_, List.mem_cons_self, h⟩
    · obtain ⟨l, hl, h⟩ := ih hmem
      exact ⟨l, List.mem_cons_of_mem _ hl, h⟩

/-- What is made of each line and depends on what it lists only is made of each constructor. -/
theorem map_listing {α : Type} {f : Line → α} {g : Constructor → α}
    (h : ∀ {l c}, Lists l c → f l = g c) : listing.map f = Constructor.all.map g := by
  rw [← List.forall₂_eq_eq_eq, List.forall₂_map_left_iff, List.forall₂_map_right_iff]
  exact listing_lists.imp fun _ _ => h

/-- No line is left out. -/
theorem complaints_eq_nil : complaints = [] := by
  rw [complaints, List.flatMap_def, map_listing (g := fun _ => []), List.flatten_eq_nil_iff]
  · intro ls hls
    obtain ⟨_, -, rfl⟩ := List.mem_map.1 hls
    rfl
  · intro l c h
    rw [h.read]

/-! ### What is found -/

/-- The dictionary is that of the constructors. -/
theorem entries_eq :
    entries = Constructor.all.foldl (fun found c => found.put c.name c.entry) .empty := by
  have hfold : ∀ {ls : List Line} {cs : List Constructor}, List.Forall₂ Lists ls cs → ∀ found,
      ls.foldl withLine found = cs.foldl (fun found c => found.put c.name c.entry) found := by
    intro ls cs h
    induction h with
    | nil => exact fun _ => rfl
    | cons h _ ih =>
      intro found
      rw [List.foldl_cons, List.foldl_cons, ← ih, withLine, h.read, h.name]
  exact hfold listing_lists .empty

/-- **What is found under a name** is the constructor with that name: there is one only, so it does
not matter that a later entry would take the place of an earlier one. -/
theorem lookup_eq (name : String) :
    lookup name = (Constructor.ofName? name).map Constructor.entry := by
  rw [lookup, entries_eq, Constructor.ofName?]
  induction Constructor.all using List.reverseRecOn with
  | nil => rfl
  | append_singleton cs c ih =>
    rw [List.foldl_append, List.foldl_cons, List.foldl_nil, Dictionary.get?_put, ih,
      List.find?_append]
    split
    next hname =>
      subst hname
      rcases hfound : cs.find? (·.name == c.name) with _ | other
      · rw [hfound]
        simp
      · have hsame : other = c := Constructor.name_injective (by simpa using List.find?_some hfound)
        rw [hfound, hsame]
        rfl
    next hname => simp [Ne.symm hname]

theorem lookupIn_eq (name : String) (category : Category) :
    lookupIn name category = (Constructor.ofNameIn? category name).map Constructor.entry := by
  rw [lookupIn, lookup_eq, Constructor.ofNameIn?, Option.filter_map]
  rfl

theorem namesIn_eq (category : Category) : namesIn category = Constructor.namesIn category := by
  have h : listing.map (fun l => (l.name, l.category)) =
      Constructor.all.map fun c => (c.name, c.category) :=
    map_listing fun h => Prod.ext h.name h.category
  have hnames := congrArg (fun ls => (ls.filter (·.2 = category)).map (·.1)) h
  rw [List.filter_map, List.filter_map, List.map_map, List.map_map] at hnames
  exact hnames

theorem row_entry {l : Line} {c : Constructor} (h : Lists l c) :
    row l c.entry = c.line ++ "\n" := by
  rw [row, h.name, h.category]
  rfl

theorem table_eq : table = Constructor.table := by
  have hrows : listing.map (fun l => (lookup l.name).toList.map (row l)) =
      Constructor.all.map fun c => [c.line ++ "\n"] := by
    refine map_listing fun {l c} h => ?_
    rw [h.name, lookup_eq, Constructor.ofName?_name]
    exact congrArg ([·]) (row_entry h)
  rw [table, List.flatMap_def, hrows, ← List.flatMap_def, ← List.map_eq_flatMap]
  rfl

/-- **The registry says what the constructors say.** Every constructor has a line, and there is
nothing to complain about; under a name, in a category and in the table the registry has what the
constructors have. -/
theorem registry_eq_vocabulary :
    (∀ c, ∃ l ∈ listing, Lists l c) ∧ complaints = [] ∧
    (∀ name, lookup name = (Constructor.ofName? name).map Constructor.entry) ∧
    (∀ name category,
      lookupIn name category = (Constructor.ofNameIn? category name).map Constructor.entry) ∧
    (∀ category, namesIn category = Constructor.namesIn category) ∧ table = Constructor.table :=
  ⟨exists_lists, complaints_eq_nil, lookup_eq, lookupIn_eq, namesIn_eq, table_eq⟩

end Registry

end TradeSignals
