import Mathlib.Data.Nat.Notation
import TradeSignals.Configuration.Defaults
import TradeSignals.Proofs.Outcome
import TradeSignals.Proofs.Text.Trim

/-!
# Configured defaults

A configuration gives defaults if and only if everything that it says can be used, and the first
day comes before the last one, be they configured or not. Each default is then what is configured
for it, and what it is without a configuration where nothing is
(`TradeSignals.Defaults.ofIni_usable`).

The capital is checked in one way and then read in another. The check leaves out the blanks around
what is configured and refuses what is no number; the reader does neither, but puts the standard in
the place of what it cannot read. Both come to the same, because no value of a configuration has
blanks around it (`TradeSignals.Ini.Trimmed`): they are cut off when its lines are read.
-/

namespace TradeSignals

/-! ### Values without blanks around them -/

namespace Ini

/-- **No value has blanks around it.** -/
def Trimmed (ini : Ini) : Prop :=
  ∀ heading keys key value, ini.sections.get? heading = some keys →
    keys.get? key = some (some value) → Text.trim value = value

theorem trim_word (s : List Char) : Text.trim (word s) = word s := by
  have h := Text.trim_trim (String.ofList s)
  simpa only [Text.trim, String.toList_ofList, word] using h

namespace Trimmed

theorem empty : Trimmed empty := nofun

/-- One more value without blanks around it. -/
theorem put {ini : Ini} (h : ini.Trimmed) {value : Option String}
    (hvalue : ∀ text, value = some text → Text.trim text = text) (heading key : String) :
    (ini.put heading key value).Trimmed := by
  intro other keys name text hkeys htext
  rw [Ini.put, Dictionary.get?_put] at hkeys
  split at hkeys
  · obtain rfl := Option.some.inj hkeys
    rw [Dictionary.get?_put] at htext
    split at htext
    · exact hvalue text (Option.some.inj htext)
    · -- The other keys of the section, if it was there before.
      cases hsection : ini.sections.get? heading with
      | none =>
        rw [hsection] at htext
        cases htext
      | some others =>
        rw [hsection] at htext
        exact h heading others name text hsection htext
  · exact h other keys name text hkeys htext

/-- What one more line says has no blanks around it. -/
theorem readLine {number : ℕ} {heading heading' : String} {ini ini' : Ini} {line : List Char}
    (h : ini.Trimmed) (hline : Ini.readLine number heading ini line = .ok (heading', ini')) :
    ini'.Trimmed := by
  unfold Ini.readLine at hline
  split at hline
  · cases hline
    exact h
  · split at hline
    · cases hline
      exact h
    · cases hline
  · dsimp only at hline
    split at hline
    · cases hline
    · cases hline
      refine h.put (fun text htext => ?_) _ _
      split at htext
      · cases htext
      · obtain rfl := Option.some.inj htext
        exact trim_word _

theorem readLines {number : ℕ} {heading : String} {ini ini' : Ini} {lines : List (List Char)}
    (h : ini.Trimmed) (hlines : Ini.readLines number heading ini lines = .ok ini') :
    ini'.Trimmed := by
  induction lines generalizing number heading ini with
  | nil =>
    cases hlines
    exact h
  | cons line rest ih =>
    obtain ⟨⟨next, said⟩, hline, hrest⟩ := Except.bind_eq_ok.1 hlines
    exact ih (h.readLine hline) hrest

end Trimmed

/-- **The values of a configuration that is read** have no blanks around them. -/
theorem trimmed_of_read {text : String} {ini : Ini} (h : read text = .ok ini) : ini.Trimmed :=
  Trimmed.empty.readLines h

theorem Trimmed.trim_get? {ini : Ini} (h : ini.Trimmed) {heading key value : String}
    (hvalue : ini.get? heading key = some value) : Text.trim value = value := by
  obtain ⟨keys, hkeys, hkey⟩ := Option.bind_eq_some_iff.1 (Option.join_eq_some_iff.1 hvalue)
  exact h _ keys _ value hkeys hkey

/-! ### Numbers -/

variable {ini : Ini} {heading key text : String} {x default : Float}

theorem number_of_none (h : ini.get? heading key = none) :
    ini.number heading key default = default := by
  rw [number, h]
  rfl

theorem number_of_ok (h : ini.get? heading key = some text) (hread : readFloat text = .ok x) :
    ini.number heading key default = x := by
  rw [number, h, Option.map_some, hread]

end Ini

/-! ### One value -/

namespace Configured

variable {α : Type} {today : Date} {ini : Ini} {field : Field} {text : String}

theorem read?_eq_ok {read : String → Except ConfigFault α} {found : Option α} :
    read? ini field read = .ok found ↔
      Option.Rel (fun text a => read text = .ok a) (value? ini field) found := by
  rw [read?]
  cases value? ini field with
  | none =>
    constructor
    · rintro ⟨⟩
      exact .none
    · rintro ⟨⟩
      rfl
  | some text =>
    dsimp only
    constructor
    · intro h
      split at h
      · next hread =>
        cases h
        exact .some hread
      · cases h
    · intro h
      cases h with
      | some hread => rw [hread]

theorem tickerOf_eq_ok {ticker : String} : tickerOf text = .ok ticker ↔
    Ticker.isValid (Text.trim text) = true ∧ ticker = Text.trim text := by
  rw [tickerOf]
  split
  · next hvalid => exact ⟨fun h => ⟨hvalid, (Except.ok.inj h).symm⟩, fun h => h.2 ▸ rfl⟩
  · next hnot => exact ⟨nofun, fun h => absurd h.1 hnot⟩

theorem intervalOf_eq_ok {interval : Interval} :
    intervalOf text = .ok interval ↔ Choice.ofLabel? (Text.trim text) = some interval := by
  rw [intervalOf]
  cases (Choice.ofLabel? (Text.trim text) : Option Interval) <;> simp

theorem dateOf_eq_ok {day : Date} :
    dateOf field text = .ok day ↔ Date.read (Text.trim text) = .ok day := by
  rw [dateOf]
  cases Date.read (Text.trim text) <;> simp [Except.mapError]

theorem capitalOf_eq_ok {x : Float} : capitalOf text = .ok x ↔
    readFloat (Text.trim text) = .ok x ∧ x.isFinite = true ∧ x > 0 := by
  rw [capitalOf]
  cases readFloat (Text.trim text) with
  | error fault => simp
  | ok y =>
    dsimp only
    split
    · next hy =>
      rw [Bool.and_eq_true, decide_eq_true_iff] at hy
      constructor
      · rintro ⟨⟩
        exact ⟨rfl, hy⟩
      · rintro ⟨⟨⟩, -⟩
        rfl
    · next hy =>
      rw [Bool.and_eq_true, decide_eq_true_iff] at hy
      refine ⟨nofun, ?_⟩
      rintro ⟨⟨⟩, h⟩
      exact absurd h hy

/-! ### Checks -/

theorem checkPast_eq_ok {day : Option Date} {u : Unit} :
    checkPast today field day = .ok u ↔ ∀ d, day = some d → d ≤ today := by
  rw [checkPast]
  cases day with
  | none => simp
  | some d =>
    rw [Option.any_some]
    by_cases hd : today < d
    · simp [hd, Date.not_le.2 hd]
    · simp [hd, Date.not_lt.1 hd]

theorem checkOrder_eq_ok {start finish : Date} {u : Unit} :
    checkOrder start finish = .ok u ↔ start < finish := by
  rw [checkOrder]
  split <;> simp [*]

theorem checkBoth_eq_ok {start finish : Option Date} {u : Unit} :
    checkBoth start finish = .ok u ↔ ∀ s e, start = some s → finish = some e → s < e := by
  cases start with
  | none => simp [checkBoth]
  | some s =>
    cases finish with
    | none => simp [checkBoth]
    | some e =>
      rw [checkBoth, checkOrder_eq_ok]
      constructor
      · rintro h _ _ ⟨⟩ ⟨⟩
        exact h
      · exact fun h => h s e rfl rfl

theorem checkDirectory_eq_ok {u : Unit} : checkDirectory ini = .ok u ↔
    ∀ text, ini.get? dataHeading directoryKey = some text → Text.trim text ≠ "" := by
  rw [checkDirectory, directory?]
  cases ini.get? dataHeading directoryKey with
  | none => simp
  | some text => by_cases h : Text.trim text = "" <;> simp [h]

/-! ### All values -/

/-- A text that is a ticker, perhaps with blanks around it. -/
def IsTicker (text ticker : String) : Prop :=
  Ticker.isValid (Text.trim text) = true ∧ ticker = Text.trim text

/-- A text that is an interval, perhaps with blanks around it. -/
def IsInterval (text : String) (interval : Interval) : Prop :=
  Choice.ofLabel? (Text.trim text) = some interval

/-- A text that is a date, perhaps with blanks around it. -/
def IsDay (text : String) (day : Date) : Prop := Date.read (Text.trim text) = .ok day

theorem read?_dateOf_eq_ok {found : Option Date} :
    read? ini field (dateOf field) = .ok found ↔ Option.Rel IsDay (value? ini field) found := by
  rw [read?_eq_ok]
  simp only [dateOf_eq_ok]
  rfl

/-- **The dates** are read each on its own, and then compared if both are there. -/
theorem dates?_eq_ok {dates : Option Date × Option Date} : dates? today ini = .ok dates ↔
    Option.Rel (fun text d => IsDay text d ∧ d ≤ today) (value? ini .startDate) dates.1 ∧
      Option.Rel (fun text d => IsDay text d ∧ d ≤ today) (value? ini .endDate) dates.2 ∧
      ∀ s e, dates.1 = some s → dates.2 = some e → s < e := by
  simp only [dates?, Except.bind_eq_ok, read?_dateOf_eq_ok, checkPast_eq_ok, checkBoth_eq_ok,
    Option.rel_and_iff]
  constructor
  · rintro ⟨start, hstart, finish, hfinish, -, hpast, -, hpast', -, horder, ⟨⟩⟩
    exact ⟨⟨hstart, hpast⟩, ⟨hfinish, hpast'⟩, horder⟩
  · rintro ⟨⟨hstart, hpast⟩, ⟨hfinish, hpast'⟩, horder⟩
    exact ⟨_, hstart, _, hfinish, (), hpast, (), hpast', (), horder, rfl⟩

/-- A text that is a capital, perhaps with blanks around it. -/
def IsCapital (text : String) (x : Float) : Prop :=
  readFloat (Text.trim text) = .ok x ∧ x.isFinite = true ∧ x > 0

/-- **What a configuration says** can be used if each part of it can. -/
theorem settings_eq_ok {s : Settings} : settings today ini = .ok s ↔
    Option.Rel IsTicker (value? ini .ticker) s.ticker ∧
      Option.Rel IsInterval (value? ini .interval) s.interval ∧
      dates? today ini = .ok s.dates ∧
      (∃ capital, Option.Rel IsCapital (value? ini .initialCapital) capital) ∧
      ∀ text, ini.get? dataHeading directoryKey = some text → Text.trim text ≠ "" := by
  simp only [settings, Except.bind_eq_ok, read?_eq_ok, tickerOf_eq_ok, intervalOf_eq_ok,
    capitalOf_eq_ok, checkDirectory_eq_ok]
  constructor
  · rintro ⟨ticker, hticker, interval, hinterval, dates, hdates, capital, hcapital, -, hdirectory,
      ⟨⟩⟩
    exact ⟨hticker, hinterval, hdates, ⟨capital, hcapital⟩, hdirectory⟩
  · rintro ⟨hticker, hinterval, hdates, ⟨capital, hcapital⟩, hdirectory⟩
    exact ⟨_, hticker, _, hinterval, _, hdates, capital, hcapital, (), hdirectory, rfl⟩

end Configured

namespace Defaults

open Configured

variable {today : Date} {ini : Ini} {d : Defaults}

/-- **What a default comes to:** what is configured for it, or the standard where nothing is. -/
def ComesTo {α : Type} (reads : String → α → Prop) (standard : α) : Option String → α → Prop
  | none, a => a = standard
  | some text, a => reads text a

theorem comesTo_getD {α : Type} {reads : String → α → Prop} {configured : Option String}
    {found : Option α} (h : Option.Rel reads configured found) (standard : α) :
    ComesTo reads standard configured (found.getD standard) := by
  cases h with
  | none => rfl
  | some h => exact h

/-- The defaults of which each comes from what is configured for it. -/
structure Follow (ini : Ini) (d : Defaults) : Prop where
  /-- What is traded. -/
  ticker : ComesTo IsTicker standard.ticker (value? ini .ticker) d.ticker
  /-- How much time a bar covers. -/
  interval : ComesTo IsInterval standard.interval (value? ini .interval) d.interval
  /-- The first day. -/
  startDate : ComesTo IsDay standard.startDate (value? ini .startDate) d.startDate
  /-- The last day. -/
  endDate : ComesTo IsDay standard.endDate (value? ini .endDate) d.endDate
  /-- How many dollars there are in the beginning. -/
  initialCapital :
    ComesTo IsCapital standard.initialCapital (value? ini .initialCapital) d.initialCapital

/-- **A configuration of which everything can be used.** -/
structure Usable (today : Date) (ini : Ini) : Prop where
  /-- What is traded, if configured, is a ticker. -/
  ticker : ∀ text, value? ini .ticker = some text → Ticker.isValid (Text.trim text) = true
  /-- An interval is one. -/
  interval : ∀ text, value? ini .interval = some text → ∃ interval, IsInterval text interval
  /-- A date is one, and not in the future. -/
  date : ∀ field ∈ [Field.startDate, .endDate], ∀ text, value? ini field = some text →
    ∃ day, IsDay text day ∧ day ≤ today
  /-- The first day comes before the last one, be they configured or not. -/
  order : ∀ start finish, ComesTo IsDay standard.startDate (value? ini .startDate) start →
    ComesTo IsDay standard.endDate (value? ini .endDate) finish → start < finish
  /-- The capital is a positive number. -/
  initialCapital : ∀ text, value? ini .initialCapital = some text → ∃ x, IsCapital text x
  /-- The directory of the bars is not empty. -/
  directory : ∀ text, ini.get? dataHeading directoryKey = some text → Text.trim text ≠ ""

theorem ofIni_eq_ok : ofIni today ini = .ok d ↔ ∃ s, settings today ini = .ok s ∧
    s.dates.1.getD standard.startDate < s.dates.2.getD standard.endDate ∧
    d = { standard with
      ticker := s.ticker.getD standard.ticker
      interval := s.interval.getD standard.interval
      startDate := s.dates.1.getD standard.startDate
      endDate := s.dates.2.getD standard.endDate
      initialCapital := Configured.initialCapital ini standard.initialCapital } := by
  simp only [ofIni, Except.bind_eq_ok, checkOrder_eq_ok]
  constructor
  · rintro ⟨s, hs, -, horder, ⟨⟩⟩
    exact ⟨s, hs, horder, rfl⟩
  · rintro ⟨s, hs, horder, rfl⟩
    exact ⟨s, hs, (), horder, rfl⟩

/-- **Both ways to read the capital** come to the same once it is checked. -/
theorem comesTo_initialCapital (h : ini.Trimmed)
    (hcapital : ∀ text, value? ini .initialCapital = some text → ∃ x, IsCapital text x)
    (standard : Float) : ComesTo IsCapital standard (value? ini .initialCapital)
      (Configured.initialCapital ini standard) := by
  cases hvalue : value? ini .initialCapital with
  | none => exact Ini.number_of_none hvalue
  | some text =>
    obtain ⟨x, hx⟩ := hcapital text hvalue
    have htrim : Text.trim text = text := h.trim_get? hvalue
    have hread : readFloat text = .ok x := by simpa only [htrim] using hx.1
    have hnumber : Configured.initialCapital ini standard = x := Ini.number_of_ok hvalue hread
    rw [hnumber]
    exact hx

/-- What comes from what is configured, or is the standard, has what both have. -/
theorem ComesTo.elim {α : Type} {reads : String → α → Prop} {standard a : α}
    {configured : Option String} {P : α → Prop} (h : ComesTo reads standard configured a)
    (hstandard : P standard) (hreads : ∀ text, reads text a → P a) : P a := by
  cases configured with
  | none => exact Eq.subst (Eq.symm h) hstandard
  | some text => exact hreads text h

/-- **Defaults that come from a configuration** come each from its own part of it. -/
theorem follow_of_ofIni (h : ini.Trimmed) (hd : ofIni today ini = .ok d) : d.Follow ini := by
  obtain ⟨s, hs, -, rfl⟩ := ofIni_eq_ok.1 hd
  obtain ⟨hticker, hinterval, hdates, hcapital, -⟩ := settings_eq_ok.1 hs
  obtain ⟨hstart, hfinish, -⟩ := dates?_eq_ok.1 hdates
  exact ⟨comesTo_getD hticker _, comesTo_getD hinterval _,
    comesTo_getD (Option.rel_and_iff.1 hstart).1 _, comesTo_getD (Option.rel_and_iff.1 hfinish).1 _,
    comesTo_initialCapital h (Option.exists_rel_iff.1 hcapital) _⟩

/-- A date comes from what is configured in one way only. -/
theorem ComesTo.day_unique {standard day day' : Date} {configured : Option String}
    (h : ComesTo IsDay standard configured day) (h' : ComesTo IsDay standard configured day') :
    day = day' := by
  cases configured with
  | none => exact Eq.trans h (Eq.symm h')
  | some text => exact Except.ok.inj (Eq.trans (Eq.symm h) h')

theorem usable_of_ofIni (hd : ofIni today ini = .ok d) : Usable today ini := by
  obtain ⟨s, hs, horder, -⟩ := ofIni_eq_ok.1 hd
  obtain ⟨hticker, hinterval, hdates, hcapital, hdirectory⟩ := settings_eq_ok.1 hs
  obtain ⟨hstart, hfinish, -⟩ := dates?_eq_ok.1 hdates
  refine ⟨fun text htext => ?_, Option.exists_rel_iff.1 ⟨_, hinterval⟩, ?_, ?_,
    Option.exists_rel_iff.1 hcapital, hdirectory⟩
  · obtain ⟨ticker, hvalid, -⟩ := Option.exists_rel_iff.1 ⟨_, hticker⟩ text htext
    exact hvalid
  · intro field hfield
    obtain rfl | rfl : field = .startDate ∨ field = .endDate := by simpa using hfield
    · exact Option.exists_rel_iff.1 ⟨_, hstart⟩
    · exact Option.exists_rel_iff.1 ⟨_, hfinish⟩
  · intro start finish hs he
    have hstart' := comesTo_getD (Option.rel_and_iff.1 hstart).1 standard.startDate
    have hfinish' := comesTo_getD (Option.rel_and_iff.1 hfinish).1 standard.endDate
    rw [hs.day_unique hstart', he.day_unique hfinish']
    exact horder

theorem exists_ofIni_of_usable (h : Usable today ini) : ∃ d, ofIni today ini = .ok d := by
  obtain ⟨ticker, hticker⟩ := Option.exists_rel_iff (R := IsTicker).2
    fun text htext => ⟨_, h.ticker text htext, rfl⟩
  obtain ⟨interval, hinterval⟩ := Option.exists_rel_iff.2 h.interval
  obtain ⟨start, hstart⟩ := Option.exists_rel_iff.2 (h.date .startDate (by decide))
  obtain ⟨finish, hfinish⟩ := Option.exists_rel_iff.2 (h.date .endDate (by decide))
  have horder := h.order _ _ (comesTo_getD (Option.rel_and_iff.1 hstart).1 _)
    (comesTo_getD (Option.rel_and_iff.1 hfinish).1 _)
  have hdates : dates? today ini = .ok (start, finish) := by
    refine dates?_eq_ok.2 ⟨hstart, hfinish, ?_⟩
    rintro s e rfl rfl
    exact horder
  have hsettings : settings today ini = .ok ⟨ticker, interval, (start, finish)⟩ :=
    settings_eq_ok.2 ⟨hticker, hinterval, hdates, Option.exists_rel_iff.2 h.initialCapital,
      h.directory⟩
  exact ⟨_, ofIni_eq_ok.2 ⟨_, hsettings, horder, rfl⟩⟩

/-- **Defaults that are configured can be used.** On any day, what a configuration text gives is a
ticker, two dates in order, a positive number of dollars, one contract and the long side, each
taken from the text where the text has a value for it and as it is without a configuration where
not. It gives them if and only if every value can be used and the dates are in order. -/
theorem ofIni_usable {text : String} {ini : Ini} (h : Ini.read text = .ok ini) (today : Date) :
    (∀ d, ofIni today ini = .ok d →
      Ticker.isValid d.ticker = true ∧ d.startDate < d.endDate ∧ d.initialCapital.isFinite = true ∧
        d.initialCapital > 0 ∧ d.orderSize = .contracts 1 ∧ d.positionType = .long ∧
        d.Follow ini) ∧
      ((∃ d, ofIni today ini = .ok d) ↔ Usable today ini) := by
  refine ⟨fun d hd => ?_, fun ⟨_, hd⟩ => usable_of_ofIni hd, exists_ofIni_of_usable⟩
  have hfollow : d.Follow ini := follow_of_ofIni (Ini.trimmed_of_read h) hd
  have hticker : Ticker.isValid d.ticker = true := by
    refine hfollow.ticker.elim (P := (Ticker.isValid · = true)) (by decide) ?_
    rintro text ⟨hvalid, hticker⟩
    rw [hticker]
    exact hvalid
  have hcapital : d.initialCapital.isFinite = true ∧ d.initialCapital > 0 :=
    hfollow.initialCapital.elim (P := fun x : Float => x.isFinite = true ∧ x > 0)
      (by decide +kernel) fun _ hx => hx.2
  obtain ⟨s, -, horder, rfl⟩ := ofIni_eq_ok.1 hd
  exact ⟨hticker, horder, hcapital.1, hcapital.2, rfl, rfl, hfollow⟩

/-- A configuration of some of the defaults. -/
def written : String :=
  "[Defaults]\nTicker = MSFT ; not AAPL\nend_date: 2023-06-30\ninitial_capital = 2.5e4\n"

/-- The defaults of a configuration that says nothing of the first day: it is as it is without
one. -/
theorem ofIni_usable_written : ∃ ini d, Ini.read written = .ok ini ∧
    ofIni ⟨2024, 6, 1, by decide⟩ ini = .ok d ∧ Usable ⟨2024, 6, 1, by decide⟩ ini ∧
    d.ticker = "MSFT" ∧ d.startDate = standard.startDate ∧ d.startDate < d.endDate ∧
    d.initialCapital > 0 ∧ d.Follow ini := by
  have hsome : ((Ini.read written).toOption.bind fun ini =>
      (ofIni ⟨2024, 6, 1, by decide⟩ ini).toOption.map fun d =>
        (d.ticker, d.startDate)) = some ("MSFT", standard.startDate) := by
    decide +kernel
  obtain ⟨ini, hini, hread⟩ := Option.bind_eq_some_iff.1 hsome
  obtain ⟨d, hd, hvalues⟩ := Option.map_eq_some_iff.1 hread
  obtain ⟨hticker, hstart⟩ := Prod.mk.inj hvalues
  have hini' : Ini.read written = .ok ini := Except.toOption_eq_some_iff.1 hini
  have hd' : ofIni ⟨2024, 6, 1, by decide⟩ ini = .ok d := Except.toOption_eq_some_iff.1 hd
  obtain ⟨husable, hiff⟩ := ofIni_usable hini' ⟨2024, 6, 1, by decide⟩
  obtain ⟨-, horder, -, hcapital, -, -, hfollow⟩ := husable d hd'
  exact ⟨ini, d, hini', hd', hiff.1 ⟨d, hd'⟩, hticker, hstart, horder, hcapital, hfollow⟩

end Defaults

end TradeSignals
