import TradeSignals.Proofs.Calendar.DateText
import TradeSignals.Proofs.Decimal.ReadBack
import TradeSignals.Proofs.Files.Narrowing
import TradeSignals.Proofs.Files.Records
import TradeSignals.Proofs.Files.Written
import TradeSignals.Proofs.Market.DailyBars

/-!
# Signals read back as bars

A table is written with its columns behind its bars, and its file is read back as these bars
(`TradeSignals.BarFile.fetched_write`). The columns do not get in the way: whatever the labels of
the signals hold, each record is read back field by field, and only the first six of its fields are
those of a bar. Each of these six is read as the date, the price or the volume that it was written
for. The bars of a table are in order already, so they come in the order in which they are read.
-/

namespace TradeSignals

namespace BarFile

variable {t : BarTable} {index : ℕ} {b : Bar Float} {start finish : Date}

/-! ### One row -/

/-- All prices of a bar are numbers. -/
structure Priced (b : Bar Float) : Prop where
  /-- The first price. -/
  opening : b.opening.isNaN = false
  /-- The highest price. -/
  high : b.high.isNaN = false
  /-- The lowest price. -/
  low : b.low.isNaN = false
  /-- The last price. -/
  close : b.close.isNaN = false

theorem field_eq_ok {fields : List String} {column text : String}
    (h : fields[index]? = some text) : field fields index column = .ok (Text.trim text) := by
  rw [field, h]

theorem price_of_text {fields : List String} {column : String} {x : Float}
    (h : fields[index]? = some (priceText x)) (hx : x.isNaN = false) :
    price fields index column = .ok x := by
  rw [price, field_eq_ok h, priceText, trim_floatText hx]
  exact Except.mapError_eq_ok.2 (readFloat_text hx)

theorem volume_of_text {fields : List String} {column : String} {v : Int64}
    (h : fields[index]? = some (toString v)) : volume fields index column = .ok v := by
  rw [volume, field_eq_ok h, trim_intText]
  exact Except.mapError_eq_ok.2 (readInt64_text v)

theorem date_row : date (row t index b) = .ok b.date := by
  have hfield : field (row t index b) 0 "date" = .ok (Text.trim b.date.text) := field_eq_ok rfl
  rw [date, hfield, Date.trim_text]
  exact Except.mapError_eq_ok.2 b.date.read_text

/-- **A bar is read back** from its row. -/
theorem bar_row (h : Priced b) : bar b.date (row t index b) = .ok b := by
  have hopening : price (row t index b) 1 "open" = .ok b.opening := price_of_text rfl h.opening
  have hhigh : price (row t index b) 2 "high" = .ok b.high := price_of_text rfl h.high
  have hlow : price (row t index b) 3 "low" = .ok b.low := price_of_text rfl h.low
  have hclose : price (row t index b) 4 "close" = .ok b.close := price_of_text rfl h.close
  have hvolume : volume (row t index b) 5 "volume" = .ok b.volume := volume_of_text rfl
  rw [bar, hopening, hhigh, hlow, hclose, hvolume]
  rfl

theorem bar?_row (h : Priced b) : bar? (.ok (row t index b)) = some b := by
  rw [bar?_of_date date_row, bar_row h]
  rfl

/-- A row of a table is at fault for no days. -/
theorem not_faulty_row (h : Priced b) : ¬Faulty start finish (.ok (row t index b)) := by
  rw [faulty_iff_of_date date_row]
  rintro ⟨-, hbad⟩
  have hbar : ∃ fault, bar b.date (row t index b) = .error fault := bar_isError_iff.2 hbad
  obtain ⟨fault, hfault⟩ := hbar
  rw [bar_row h] at hfault
  cases hfault

/-! ### The text of a table -/

theorem text_eq (t : BarTable) :
    text t = String.join ((heading :: t.bars.mapIdx (row t)).map Csv.line) := by
  rw [text, List.map_cons, String.join_cons, List.mapIdx_eq_zipIdx_map, List.mapIdx_eq_zipIdx_map,
    List.map_map]
  rfl

/-- **The rows of a table** are read back, whatever its columns hold. -/
theorem rows_text (t : BarTable) : Csv.rows (text t) = (t.bars.mapIdx (row t)).map .ok := by
  have hlength : ∀ fields ∈ t.bars.mapIdx (row t), fields.length = heading.length := by
    intro fields hfields
    obtain ⟨index, hindex, rfl⟩ := List.mem_mapIdx.1 hfields
    rfl
  have hfields : (Csv.records (text t)).map (·.fields) = heading :: t.bars.mapIdx (row t) := by
    rw [text_eq]
    refine Csv.fields_records (List.forall_mem_cons.2 ⟨by decide, fun fields hfields => ?_⟩) ?_
    · -- A record of twelve fields is neither empty nor one empty field.
      have htwelve : fields.length = 12 := hlength fields hfields
      constructor <;>
        · rintro rfl
          cases htwelve
    · rw [List.map_cons, String.join_cons, String.toList_append, List.head?_append,
        show (Csv.line heading).toList.head? = some 'd' by decide, Option.some_or]
      decide
  exact Csv.rows_of_fields hfields hlength

theorem filterMap_bar?_rows {f : ℕ → Bar Float → List String} {bars : List (Bar Float)}
    (h : ∀ b ∈ bars, ∀ index, bar? (.ok (f index b)) = some b) :
    ((bars.mapIdx f).map .ok).filterMap bar? = bars := by
  induction bars generalizing f with
  | nil => rfl
  | cons b rest ih =>
    obtain ⟨hb, hrest⟩ := List.forall_mem_cons.1 h
    rw [List.mapIdx_cons, List.map_cons, List.filterMap_cons_some (hb 0),
      ih fun b hmem index => hrest b hmem (index + 1)]

/-- **The text of a table** is read back as its bars, for days among which theirs are. -/
theorem bars_text (hpriced : ∀ b ∈ t.bars, Priced b)
    (hsorted : t.bars.Pairwise fun a b => a.date ≤ b.date)
    (hdays : ∀ b ∈ t.bars, start ≤ b.date ∧ b.date ≤ finish) :
    bars (text t) start finish = .ok t.bars := by
  refine bars_eq_ok.2 ⟨?_, ?_⟩
  · intro r hr
    rw [rows_text, List.mem_map] at hr
    obtain ⟨fields, hfields, rfl⟩ := hr
    obtain ⟨index, hindex, rfl⟩ := List.mem_mapIdx.1 hfields
    exact not_faulty_row (hpriced _ (List.getElem_mem hindex))
  · rw [rows_text, filterMap_bar?_rows fun b hb index => bar?_row (hpriced b hb),
      Bar.between_eq_self hdays, Bar.sorted_eq_self hsorted]

/-! ### A file -/

variable {session session' : Session} {file : String}

/-- A table that was written is a text that was written. -/
theorem write_text (h : (write Session.host file t).run session = (.ok (), session')) :
    (Session.host.write file (text t)).run session = (.ok (), session') := by
  have hrun : (write Session.host file t).run session =
      match (Session.host.write file (text t)).run session with
      | (.ok (), next) => (.ok (), next)
      | (.error fault, next) => (.error (.unwritable file fault), next) := by
    rw [write, StateT.run_bind]
    rcases (Session.host.write file (text t)).run session with ⟨_ | _, next⟩ <;> rfl
  rw [hrun] at h
  rcases hwrite : (Session.host.write file (text t)).run session with ⟨fault | _, next⟩
  · rw [hwrite] at h
    cases h
  · rw [hwrite] at h
    cases h
    rfl

/-- **A table that is written is read back as its bars**, for days among which theirs are, if their
prices are numbers; and whatever else is in the table. -/
theorem fetched_write {ticker directory name : String} {given : List (Bar Float)}
    (ht : t.bars = (BarTable.ofBars ticker given).bars) (hpriced : ∀ b ∈ given, Priced b)
    (hwrite : (write Session.host (path directory name) t).run session = (.ok (), session'))
    (hdays : ∀ b ∈ t.bars, start ≤ b.date ∧ b.date ≤ finish) :
    fetched session' directory name start finish = .ok t.bars := by
  have hbars : t.bars = Bar.daily given := ht
  have hread : session'.tree.read (path directory name) = .ok (text t) :=
    Session.read_of_write (write_text hwrite)
  rw [fetched_of_read hread]
  refine bars_text (fun b hb => hpriced b ?_) ?_ hdays
  · rw [hbars] at hb
    exact Bar.mem_of_mem_daily hb
  · rw [hbars]
    exact (List.pairwise_map.1 (Bar.pairwise_dates_daily given)).imp Date.le_of_lt

/-- Two bars that are not in order of date. -/
def unordered : List (Bar Float) :=
  [⟨⟨1987, 10, 20, by decide⟩, 0.1, 1e300, -0.0, 2.5e-7, 7⟩,
    ⟨⟨1987, 10, 19, by decide⟩, 1, 1 / 0, 1, 1, -40⟩]

/-- Their table, with labels in which records and fields seem to end. -/
def labelled : BarTable :=
  { BarTable.ofBars "A" unordered with
    buySignals := [some "a,\"b\"\r\n", some ""]
    sellSignals := [none, some "\"", some "\n,"] }

theorem fetched_write_labelled : ∃ session',
    (write Session.host (path "" "A") labelled).run (Session.start .empty) = (.ok (), session') ∧
      fetched session' "" "A" ⟨1987, 10, 19, by decide⟩ ⟨1987, 10, 20, by decide⟩ =
        .ok labelled.bars := by
  have hok : ((write Session.host (path "" "A") labelled).run
      (Session.start .empty)).1.toOption.isSome = true := by
    decide +kernel
  rcases hwrite : (write Session.host (path "" "A") labelled).run (Session.start .empty) with
    ⟨fault | _, session'⟩
  · rw [hwrite] at hok
    cases hok
  · have ht : labelled.bars = (BarTable.ofBars "A" unordered).bars := rfl
    have hpriced : ∀ b ∈ unordered, Priced b := by
      simp only [unordered, List.forall_mem_cons]
      exact ⟨⟨by decide +kernel, by decide +kernel, by decide +kernel, by decide +kernel⟩,
        ⟨by decide +kernel, by decide +kernel, by decide +kernel, by decide +kernel⟩,
        List.forall_mem_nil _⟩
    have hdays : ∀ b ∈ unordered, (⟨1987, 10, 19, by decide⟩ : Date) ≤ b.date ∧
        b.date ≤ ⟨1987, 10, 20, by decide⟩ := by
      simp only [unordered, List.forall_mem_cons]
      exact ⟨by decide, by decide, List.forall_mem_nil _⟩
    exact ⟨session', rfl, fetched_write ht hpriced hwrite fun b hb =>
      hdays b (Bar.mem_of_mem_daily hb)⟩

end BarFile

end TradeSignals
