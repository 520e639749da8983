import TradeSignals.Files.BarFile
import TradeSignals.Files.FileTree
import TradeSignals.Proofs.Market.BarOrder
import TradeSignals.Proofs.Outcome

/-!
# Bars of fewer days

A file of bars is read for some days. Every row has to have a date, but the numbers of a row are
looked at only if its day is one of them. So a row is at fault for these days
(`TradeSignals.BarFile.Faulty`) or for fewer days than these, but never for more; and what is read
is what stands in the file for these days, unless a row is at fault for them
(`TradeSignals.BarFile.barsOfRows_eq_ok`). To ask for fewer days gives the bars of those days and
no fault that was not there before (`TradeSignals.BarFile.fetched_narrow`).
-/

namespace TradeSignals

namespace BarFile

variable {start finish day : Date} {row : List String}

/-! ### One row -/

/-- The columns of the prices. -/
def priceColumns : List (ℕ × String) := [(1, "open"), (2, "high"), (3, "low"), (4, "close")]

/-- A row in which a price or the volume is missing or is no number. -/
def Malformed (row : List String) : Prop :=
  (∃ column ∈ priceColumns, ∃ fault, price row column.1 column.2 = .error fault) ∨
    ∃ fault, volume row 5 "volume" = .error fault

/-- There is a bar, on whatever day, unless a number is malformed. -/
theorem bar_isError_iff : (∃ fault, bar day row = .error fault) ↔ Malformed row := by
  have hbar : (∃ b, bar day row = .ok b) ↔ (∃ x, price row 1 "open" = .ok x) ∧
      (∃ x, price row 2 "high" = .ok x) ∧ (∃ x, price row 3 "low" = .ok x) ∧
      (∃ x, price row 4 "close" = .ok x) ∧ ∃ v, volume row 5 "volume" = .ok v := by
    simp only [bar, Except.bind_eq_ok]
    constructor
    · rintro ⟨_, opening, hopening, high, hhigh, low, hlow, close, hclose, v, hv, -⟩
      exact ⟨⟨_, hopening⟩, ⟨_, hhigh⟩, ⟨_, hlow⟩, ⟨_, hclose⟩, ⟨_, hv⟩⟩
    · rintro ⟨⟨opening, hopening⟩, ⟨high, hhigh⟩, ⟨low, hlow⟩, ⟨close, hclose⟩, ⟨v, hv⟩⟩
      exact ⟨_, opening, hopening, high, hhigh, low, hlow, close, hclose, v, hv, rfl⟩
  simp only [Except.isError_iff, hbar, Malformed, priceColumns, List.mem_cons, List.not_mem_nil,
    or_false, exists_eq_or_imp, exists_eq_left]
  tauto

theorem date_bar {b : Bar Float} (h : bar day row = .ok b) : b.date = day := by
  simp only [bar, Except.bind_eq_ok] at h
  obtain ⟨_, -, _, -, _, -, _, -, _, -, h⟩ := h
  cases h
  rfl

/-- **A row is at fault** for some days: it has the wrong number of fields, or no date, or a number
is malformed and its day is one of them. -/
inductive Faulty (start finish : Date) : Except UnequalRecord (List String) → Prop where
  /-- The wrong number of fields. -/
  | unequal (record : UnequalRecord) : Faulty start finish (.error record)
  /-- A date that cannot be read. -/
  | undated {row : List String} {fault : DataFault} (h : date row = .error fault) :
    Faulty start finish (.ok row)
  /-- A number that cannot be read, on a day that is asked for. -/
  | malformed {row : List String} {day : Date} (hday : date row = .ok day) (hstart : start ≤ day)
    (hfinish : day ≤ finish) (h : Malformed row) : Faulty start finish (.ok row)

/-- A row that is at fault for some days is so for all days that these are among. -/
theorem Faulty.widen {start' finish' : Date} {row : Except UnequalRecord (List String)}
    (hrow : Faulty start' finish' row)
    (h : ∀ day, start' ≤ day → day ≤ finish' → start ≤ day ∧ day ≤ finish) :
    Faulty start finish row := by
  cases hrow with
  | unequal record => exact .unequal record
  | undated hfault => exact .undated hfault
  | malformed hday hstart hfinish hbad =>
    obtain ⟨hstart, hfinish⟩ := h _ hstart hfinish
    exact .malformed hday hstart hfinish hbad

/-- A row with a date is at fault for the days among which the date is, and only if a number is
malformed. -/
theorem faulty_iff_of_date (hday : date row = .ok day) :
    Faulty start finish (.ok row) ↔ (start ≤ day ∧ day ≤ finish) ∧ Malformed row := by
  constructor
  · intro hrow
    cases hrow with
    | undated hfault =>
      rw [hday] at hfault
      cases hfault
    | malformed hday' hstart hfinish h =>
      obtain rfl := Except.ok.inj (hday.symm.trans hday')
      exact ⟨⟨hstart, hfinish⟩, h⟩
  · exact fun ⟨⟨hstart, hfinish⟩, h⟩ => .malformed hday hstart hfinish h

/-- The bar of a row, if there is one. -/
def bar? (row : Except UnequalRecord (List String)) : Option (Bar Float) :=
  row.toOption.bind fun row => (date row).toOption.bind fun day => (bar day row).toOption

theorem barBetween_ok : barBetween start finish (.ok row) = (date row >>= fun day =>
    if day < start ∨ finish < day then pure none else some <$> bar day row) := rfl

theorem barBetween_of_undated {fault : DataFault} (h : date row = .error fault) :
    barBetween start finish (.ok row) = .error fault := by
  rw [barBetween_ok, h]
  rfl

theorem barBetween_of_mem (hday : date row = .ok day) (hstart : start ≤ day)
    (hfinish : day ≤ finish) : barBetween start finish (.ok row) = some <$> bar day row := by
  have hinside : ¬(day < start ∨ finish < day) := by
    rw [not_or, Date.not_lt, Date.not_lt]
    exact ⟨hstart, hfinish⟩
  rw [barBetween_ok, hday]
  exact if_neg hinside

theorem barBetween_of_not_mem (hday : date row = .ok day) (h : ¬(start ≤ day ∧ day ≤ finish)) :
    barBetween start finish (.ok row) = .ok none := by
  have houtside : day < start ∨ finish < day := by
    rwa [not_and_or, Date.not_le, Date.not_le] at h
  rw [barBetween_ok, hday]
  exact if_pos houtside

theorem bar?_of_date (hday : date row = .ok day) : bar? (.ok row) = (bar day row).toOption := by
  have h : bar? (.ok row) = (date row).toOption.bind fun day => (bar day row).toOption := rfl
  rw [h, hday]
  rfl

theorem barBetween_eq_ok_of_date (hday : date row = .ok day) {found : Option (Bar Float)} :
    barBetween start finish (.ok row) = .ok found ↔ ¬Faulty start finish (.ok row) ∧ found =
      (bar? (.ok row)).filter fun bar => start.notAfter bar.date && bar.date.notAfter finish := by
  have hmalformed : (∃ fault, bar day row = .error fault) ↔ Malformed row := bar_isError_iff
  rw [bar?_of_date hday, faulty_iff_of_date hday]
  by_cases hmem : start ≤ day ∧ day ≤ finish
  · rw [barBetween_of_mem hday hmem.1 hmem.2, and_iff_right hmem, ← hmalformed]
    cases hbar : bar day row with
    | error fault =>
      refine iff_of_false ?_ fun h => h.1 ⟨fault, rfl⟩
      intro h
      cases h
    | ok b =>
      have hgood : ¬∃ fault, (Except.ok b : Except DataFault (Bar Float)) = .error fault := by
        rintro ⟨_, h⟩
        cases h
      have hkept : ((Except.ok b : Except DataFault (Bar Float)).toOption.filter fun bar =>
          start.notAfter bar.date && bar.date.notAfter finish) = some b := by
        simp [Except.toOption, Date.notAfter, date_bar hbar, hmem]
      rw [hkept, and_iff_right hgood]
      exact ⟨fun h => (Except.ok.inj h).symm, fun h => h ▸ rfl⟩
  · have hleft : ((bar day row).toOption.filter fun bar =>
        start.notAfter bar.date && bar.date.notAfter finish) = none := by
      refine Option.filter_eq_none_iff.2 fun b hb => ?_
      simpa [Date.notAfter, date_bar (Except.toOption_eq_some_iff.1 hb)] using hmem
    rw [barBetween_of_not_mem hday hmem, and_iff_right fun h => hmem h.1, hleft]
    exact ⟨fun h => (Except.ok.inj h).symm, fun h => h ▸ rfl⟩

/-- **What one row gives:** its bar, if its day is one of those that are asked for. -/
theorem barBetween_eq_ok {row : Except UnequalRecord (List String)} {found : Option (Bar Float)} :
    barBetween start finish row = .ok found ↔ ¬Faulty start finish row ∧
      found = (bar? row).filter fun bar => start.notAfter bar.date && bar.date.notAfter finish := by
  cases row with
  | error record => exact iff_of_false nofun fun h => h.1 (.unequal record)
  | ok row =>
    cases hday : date row with
    | error fault =>
      rw [barBetween_of_undated hday]
      exact iff_of_false nofun fun h => h.1 (.undated hday)
    | ok day => exact barBetween_eq_ok_of_date hday

/-! ### All rows -/

theorem between_filterMap_cons (row : Except UnequalRecord (List String))
    (rest : List (Except UnequalRecord (List String))) :
    Bar.between start finish ((row :: rest).filterMap bar?) =
      ((bar? row).filter fun bar => start.notAfter bar.date && bar.date.notAfter finish).toList ++
        Bar.between start finish (rest.filterMap bar?) := by
  cases h : bar? row with
  | none =>
    rw [List.filterMap_cons_none h]
    rfl
  | some b =>
    rw [List.filterMap_cons_some h, Bar.between, List.filter_cons, Option.filter_some]
    split <;> rfl

/-- **What rows give:** their bars of the days that are asked for, unless a row is at fault. -/
theorem barsOfRows_eq_ok {rows : List (Except UnequalRecord (List String))}
    {found : List (Bar Float)} : barsOfRows start finish rows = .ok found ↔
      (∀ row ∈ rows, ¬Faulty start finish row) ∧
        found = Bar.between start finish (rows.filterMap bar?) := by
  induction rows generalizing found with
  | nil => exact ⟨fun h => ⟨nofun, (Except.ok.inj h).symm⟩, fun h => h.2 ▸ rfl⟩
  | cons row rest ih =>
    simp only [barsOfRows, Except.bind_eq_ok, barBetween_eq_ok, ih, List.forall_mem_cons,
      between_filterMap_cons]
    constructor
    · rintro ⟨_, ⟨hrow, rfl⟩, _, ⟨hrest, rfl⟩, ⟨⟩⟩
      exact ⟨⟨hrow, hrest⟩, rfl⟩
    · rintro ⟨⟨hrow, hrest⟩, rfl⟩
      exact ⟨_, ⟨hrow, rfl⟩, _, ⟨hrest, rfl⟩, rfl⟩

/-- **The first row at fault** is the one that is reported. -/
theorem barsOfRows_of_fault {before after : List (Except UnequalRecord (List String))}
    {row : Except UnequalRecord (List String)} {fault : DataFault}
    (hbefore : ∀ r ∈ before, ¬Faulty start finish r)
    (hrow : barBetween start finish row = .error fault) :
    barsOfRows start finish (before ++ row :: after) = .error fault := by
  induction before with
  | nil => exact Except.bind_eq_error.2 (.inl hrow)
  | cons first rest ih =>
    obtain ⟨hfirst, hrest⟩ := List.forall_mem_cons.1 hbefore
    have hgood := barBetween_eq_ok.2 ⟨hfirst, rfl⟩
    exact Except.bind_eq_error.2 (.inr ⟨_, hgood, Except.bind_eq_error.2 (.inl (ih hrest))⟩)

/-! ### A text -/

theorem bars_eq_ok {text : String} {found : List (Bar Float)} :
    bars text start finish = .ok found ↔ (∀ row ∈ Csv.rows text, ¬Faulty start finish row) ∧
      found = Bar.sorted (Bar.between start finish ((Csv.rows text).filterMap bar?)) := by
  rw [bars, Except.map_eq_ok]
  simp only [barsOfRows_eq_ok]
  constructor
  · rintro ⟨_, ⟨hrows, rfl⟩, rfl⟩
    exact ⟨hrows, rfl⟩
  · rintro ⟨hrows, rfl⟩
    exact ⟨_, ⟨hrows, rfl⟩, rfl⟩

theorem bars_isError_iff {text : String} :
    (∃ fault, bars text start finish = .error fault) ↔
      ∃ row ∈ Csv.rows text, Faulty start finish row := by
  rw [Except.isError_iff]
  simp only [bars_eq_ok]
  constructor
  · intro h
    by_contra hnone
    exact h ⟨_, fun row hrow hfault => hnone ⟨row, hrow, hfault⟩, rfl⟩
  · rintro ⟨row, hrow, hfault⟩ ⟨_, hrows, -⟩
    exact hrows row hrow hfault

/-- **Bars of fewer days** are those of the days among them. -/
theorem bars_narrow {text : String} {start' finish' : Date} {found : List (Bar Float)}
    (h : bars text start finish = .ok found)
    (hdays : ∀ day, start' ≤ day → day ≤ finish' → start ≤ day ∧ day ≤ finish) :
    bars text start' finish' = .ok (Bar.between start' finish' found) := by
  obtain ⟨hrows, rfl⟩ := bars_eq_ok.1 h
  refine bars_eq_ok.2 ⟨fun row hrow hfault => hrows row hrow (hfault.widen hdays), ?_⟩
  rw [Bar.between_sorted, Bar.between_between hdays]

/-- **Bars of one day** are read in the order in which they stand in the text. -/
theorem onDay_bars {text : String} {found : List (Bar Float)}
    (h : bars text start finish = .ok found) (day : Date) : Bar.onDay day found =
      Bar.onDay day (Bar.between start finish ((Csv.rows text).filterMap bar?)) := by
  obtain ⟨-, rfl⟩ := bars_eq_ok.1 h
  exact Bar.onDay_sorted day _

theorem pairwise_bars {text : String} {found : List (Bar Float)}
    (h : bars text start finish = .ok found) : found.Pairwise fun a b => a.date ≤ b.date := by
  obtain ⟨-, rfl⟩ := bars_eq_ok.1 h
  exact Bar.pairwise_sorted _

/-- **A malformed number** is reported for the days among which its row is, if no row before is at
fault. For other days it does not matter. -/
theorem bars_of_malformed {text : String} {before after : List (Except UnequalRecord (List String))}
    (hrows : Csv.rows text = before ++ .ok row :: after) (hday : date row = .ok day)
    (hbad : Malformed row) : ∃ fault, bar day row = .error fault ∧
      ∀ start finish, (∀ r ∈ before, ¬Faulty start finish r) →
        (start ≤ day ∧ day ≤ finish → bars text start finish = .error fault) ∧
        (¬(start ≤ day ∧ day ≤ finish) →
          ((∃ other, bars text start finish = .error other) ↔
            ∃ r ∈ after, Faulty start finish r)) := by
  obtain ⟨fault, hfault⟩ := bar_isError_iff.2 hbad
  refine ⟨fault, hfault, fun start finish hbefore => ⟨fun hmem => ?_, fun hmem => ?_⟩⟩
  · have hrow : barBetween start finish (.ok row) = .error fault := by
      rw [barBetween_of_mem hday hmem.1 hmem.2, hfault]
      rfl
    rw [bars, hrows, barsOfRows_of_fault hbefore hrow]
    rfl
  · have hnot : ¬Faulty start finish (.ok row) := fun h => hmem ((faulty_iff_of_date hday).1 h).1
    rw [bars_isError_iff, hrows]
    simp only [List.mem_append, List.mem_cons]
    constructor
    · rintro ⟨r, hr | rfl | hr, hfaulty⟩
      · exact absurd hfaulty (hbefore r hr)
      · exact absurd hfaulty hnot
      · exact ⟨r, hr, hfaulty⟩
    · rintro ⟨r, hr, hfaulty⟩
      exact ⟨r, .inr (.inr hr), hfaulty⟩

/-! ### A file -/

/-- What is read of the file of a ticker for some days. -/
def fetched (session : Session) (directory ticker : String) (start finish : Date) :
    Except DataFault (List (Bar Float)) :=
  ((source Session.host directory ticker start finish).run session).1

variable {session : Session} {directory ticker : String}

theorem fetched_of_read {text : String} (h : session.tree.read (path directory ticker) = .ok text) :
    fetched session directory ticker start finish = bars text start finish := by
  simp only [fetched, source, Session.host, bind_pure_comp, bind_map_left, StateT.run_bind,
    StateT.run_get, pure_bind, h, StateT.run_pure]
  rfl

theorem fetched_of_unread {fault : FileFault}
    (h : session.tree.read (path directory ticker) = .error fault) :
    fetched session directory ticker start finish =
      .error (.unreadable (path directory ticker) fault) := by
  simp only [fetched, source, Session.host, bind_pure_comp, bind_map_left, StateT.run_bind,
    StateT.run_get, pure_bind, h, StateT.run_pure]
  rfl

/-- A file that is read for some days has a text. -/
theorem exists_read_of_fetched {found : List (Bar Float)}
    (h : fetched session directory ticker start finish = .ok found) :
    ∃ text, session.tree.read (path directory ticker) = .ok text := by
  cases hread : session.tree.read (path directory ticker) with
  | ok text => exact ⟨text, rfl⟩
  | error fault =>
    rw [fetched_of_unread hread] at h
    cases h

theorem read_of_binary {tree : FileTree} {name : String} {place : Place}
    (hplace : tree.locate name = .ok place) (h : tree.file? place = some .binary) :
    tree.read name = .error .notText := by
  rw [FileTree.read, Except.bind_eq_error]
  exact .inr ⟨place, hplace, by rw [h]; rfl⟩

/-- **To ask for fewer days** of a file gives the bars of those days, in the order in which they
were given for all, and no fault that was not there. The bars are in order of date, those of one
day as they stand in the file. Bytes that are no text, a row with the wrong number of fields and a
row without a date are faults for all days; a malformed number is one for the days among which its
row is, and then it is reported, if no row before is at fault. -/
theorem fetched_narrow (session : Session) (directory ticker : String) :
    (∀ start finish found, fetched session directory ticker start finish = .ok found →
      found.Pairwise (fun a b => a.date ≤ b.date) ∧
        (∃ text, session.tree.read (path directory ticker) = .ok text ∧
          ∀ day, Bar.onDay day found =
            Bar.onDay day (Bar.between start finish ((Csv.rows text).filterMap bar?))) ∧
        ∀ start' finish', (∀ day, start' ≤ day → day ≤ finish' → start ≤ day ∧ day ≤ finish) →
          fetched session directory ticker start' finish' =
            .ok (Bar.between start' finish' found)) ∧
      (∀ place, session.tree.locate (path directory ticker) = .ok place →
        session.tree.file? place = some .binary → ∀ start finish,
          fetched session directory ticker start finish =
            .error (.unreadable (path directory ticker) .notText)) ∧
      ∀ text, session.tree.read (path directory ticker) = .ok text →
        (∀ start finish, (∃ fault, fetched session directory ticker start finish = .error fault) ↔
          ∃ row ∈ Csv.rows text, Faulty start finish row) ∧
        ∀ before row after day, Csv.rows text = before ++ .ok row :: after →
          date row = .ok day → Malformed row → ∃ fault, bar day row = .error fault ∧
            ∀ start finish, (∀ r ∈ before, ¬Faulty start finish r) →
              (start ≤ day ∧ day ≤ finish →
                fetched session directory ticker start finish = .error fault) ∧
              (¬(start ≤ day ∧ day ≤ finish) →
                ((∃ other, fetched session directory ticker start finish = .error other) ↔
                  ∃ r ∈ after, Faulty start finish r)) := by
  refine ⟨fun start finish found h => ?_, fun place hplace hbinary start finish => ?_,
    fun text htext => ?_⟩
  · obtain ⟨text, htext⟩ := exists_read_of_fetched h
    simp only [fetched_of_read htext] at h ⊢
    exact ⟨pairwise_bars h, ⟨text, htext, onDay_bars h⟩,
      fun start' finish' hdays => bars_narrow h hdays⟩
  · exact fetched_of_unread (read_of_binary hplace hbinary)
  · simp only [fetched_of_read htext]
    exact ⟨fun start finish => bars_isError_iff,
      fun before row after day hrows hday hbad => bars_of_malformed hrows hday hbad⟩

/-- Bars of which the second one, on the day before the others, has a price that is no number. -/
def oneMalformed : String :=
  "date,open,high,low,close,volume\n2024-01-03,1,2,1,2,10\n2024-01-02,x,2,1,2,10\n" ++
    "2024-01-04,3,3,3,3,30\n2024-01-03,4,4,4,4,40\n"

/-- A malformed price is no fault for the days after it, and for fewer of them still none. -/
theorem fetched_narrow_oneMalformed :
    let session := Session.start ⟨[(.below ["A.csv"], .text oneMalformed)], []⟩
    ∃ found, fetched session "" "A" ⟨2024, 1, 3, by decide⟩ ⟨2024, 1, 4, by decide⟩ = .ok found ∧
      found.Pairwise (fun a b => a.date ≤ b.date) ∧
      fetched session "" "A" ⟨2024, 1, 3, by decide⟩ ⟨2024, 1, 3, by decide⟩ =
        .ok (Bar.between ⟨2024, 1, 3, by decide⟩ ⟨2024, 1, 3, by decide⟩ found) ∧
      ∃ row ∈ Csv.rows oneMalformed,
        Faulty ⟨2024, 1, 2, by decide⟩ ⟨2024, 1, 4, by decide⟩ row := by
  intro session
  have hlater : (fetched session "" "A" ⟨2024, 1, 3, by decide⟩
      ⟨2024, 1, 4, by decide⟩).toOption.isSome = true := by
    decide +kernel
  have hall : (fetched session "" "A" ⟨2024, 1, 2, by decide⟩
      ⟨2024, 1, 4, by decide⟩).toOption.isNone = true := by
    decide +kernel
  have hread : session.tree.read (path "" "A") = .ok oneMalformed := by decide +kernel
  obtain ⟨found, hfound⟩ := Option.isSome_iff_exists.1 hlater
  have hok := Except.toOption_eq_some_iff.1 hfound
  obtain ⟨hnarrow, -, hfaults⟩ := fetched_narrow session "" "A"
  obtain ⟨hsorted, -, hfewer⟩ := hnarrow _ _ found hok
  have herror : ∃ fault, fetched session "" "A" ⟨2024, 1, 2, by decide⟩ ⟨2024, 1, 4, by decide⟩ =
      .error fault := by
    refine Except.isError_iff.2 ?_
    rintro ⟨b, hb⟩
    rw [hb] at hall
    cases hall
  exact ⟨found, hok, hsorted,
    hfewer _ _ fun day hstart hfinish => ⟨hstart, Date.le_trans hfinish (by decide)⟩,
    ((hfaults _ hread).1 _ _).1 herror⟩

end BarFile

end TradeSignals
