import Mathlib.Data.List.Basic
import Mathlib.Tactic.Common
import TradeSignals.Files.Csv

/-!
# Records read back

Records that are written on lines of their own are read back field by field, whatever the fields
hold (`TradeSignals.Csv.fields_records`): a field that holds a comma, a quote or the end of a line
is written in quotes, and in quotes all of these are characters like others. Only a record of one
empty field is lost, for its line is empty.

A reader goes through the characters of a field without coming to the end of a record
(`TradeSignals.Csv.Reader.Reads`). What it has read of the record is all that matters then; the
lines and bytes that it counts besides are for reports.
-/

namespace TradeSignals.Csv

namespace Reader

variable {r r' r'' : Reader} {c : Char} {s t : List Char} {f : String} {fs : List String}

/-! ### Characters that end no record -/

/-- **Reads characters** none of which ends a record. -/
def Reads (r : Reader) (s : List Char) (r' : Reader) : Prop :=
  ∀ rest, r.records (s ++ rest) = r'.records rest

theorem Reads.refl (r : Reader) : r.Reads [] r := fun _ => rfl

theorem Reads.trans (h : r.Reads s r') (h' : r'.Reads t r'') : r.Reads (s ++ t) r'' := by
  intro rest
  rw [List.append_assoc, h, h']

theorem reads_of_step (h : r.step c = (r', none)) : r.Reads [c] r' := by
  intro rest
  rw [List.singleton_append, records, h]
  rfl

/-- What a reader has read of a record. -/
structure Holds (r : Reader) (field : List Char) (fs : List String) : Prop where
  /-- The characters of the field, the last one first. -/
  field : r.field = field
  /-- The fields before it, the last one first. -/
  fields : r.fields = fs

/-- Is a reader before a field, of which there may be some in front? -/
def isBefore (r : Reader) : Bool := r.mode = .beforeRecord || r.mode = .beforeField

/-- Is a reader in or behind a field? -/
def isBehind (r : Reader) : Bool := r.mode = .inField || r.mode = .behindQuote

/-- A character that has to be quoted. -/
def isSpecial (c : Char) : Bool := c = ',' || c = '\x22' || endsLine c

/-- The characters of a field in quotes, each quote of it twice. -/
def doubled (s : List Char) : List Char := s.flatMap fun c => if c = '\x22' then [c, c] else [c]

/-! ### The characters of a field -/

variable {field : List Char}

theorem Holds.reads_plain (h : r.Holds field fs) (hmode : r.mode = .inField ∨ r.isBefore = true)
    (hc : isSpecial c = false) :
    ∃ r', r.Reads [c] r' ∧ r'.Holds (c :: field) fs ∧ r'.mode = .inField := by
  simp only [isSpecial, Bool.or_eq_false_iff, decide_eq_false_iff_not] at hc
  have hstep : r.step c = ((r.advance c).take c .inField, none) := by
    rw [isBefore, Bool.or_eq_true, decide_eq_true_iff, decide_eq_true_iff] at hmode
    rcases hmode with hmode | hmode | hmode <;> simp [step, advance, hmode, opening, plain, hc]
  exact ⟨_, reads_of_step hstep, ⟨congrArg (c :: ·) h.field, h.fields⟩, rfl⟩

/-- A field without special characters, from its second character on. -/
theorem Holds.reads_plains (h : r.Holds field fs) (hmode : r.mode = .inField)
    (hs : ∀ c ∈ s, isSpecial c = false) :
    ∃ r', r.Reads s r' ∧ r'.Holds (s.reverse ++ field) fs ∧ r'.mode = .inField := by
  induction s generalizing r field with
  | nil => exact ⟨r, .refl r, h, hmode⟩
  | cons c rest ih =>
    obtain ⟨hc, hrest⟩ := List.forall_mem_cons.1 hs
    obtain ⟨r₁, hr₁, hfirst, hmode₁⟩ := h.reads_plain (.inl hmode) hc
    obtain ⟨r₂, hr₂, hlast, hmode₂⟩ := ih hfirst hmode₁ hrest
    refine ⟨r₂, hr₁.trans hr₂, ?_, hmode₂⟩
    rwa [List.reverse_cons, List.append_assoc]

/-- A quote in quotes could be the closing one. -/
theorem Holds.reads_closing (h : r.Holds field fs) (hmode : r.mode = .inQuotes) :
    ∃ r', r.Reads ['\x22'] r' ∧ r'.Holds field fs ∧ r'.mode = .behindQuote := by
  have hstep : r.step '\x22' = ({ r.advance '\x22' with mode := .behindQuote }, none) := by
    simp [step, advance, hmode]
  exact ⟨_, reads_of_step hstep, ⟨h.field, h.fields⟩, rfl⟩

theorem Holds.reads_quoted (h : r.Holds field fs) (hmode : r.mode = .inQuotes) (c : Char) :
    ∃ r', r.Reads (doubled [c]) r' ∧ r'.Holds (c :: field) fs ∧ r'.mode = .inQuotes := by
  by_cases hc : c = '\x22'
  · subst hc
    obtain ⟨r₁, hr₁, hfirst, hmode₁⟩ := h.reads_closing hmode
    have hstep : r₁.step '\x22' = ((r₁.advance '\x22').take '\x22' .inQuotes, none) := by
      simp [step, advance, hmode₁]
    exact ⟨_, hr₁.trans (reads_of_step hstep), ⟨congrArg ('\x22' :: ·) hfirst.field, hfirst.fields⟩,
      rfl⟩
  · have hstep : r.step c = ((r.advance c).take c .inQuotes, none) := by
      simp [step, advance, hmode, hc]
    have hone : doubled [c] = [c] := by simp [doubled, hc]
    rw [hone]
    exact ⟨_, reads_of_step hstep, ⟨congrArg (c :: ·) h.field, h.fields⟩, rfl⟩

/-- The characters of a field in quotes. -/
theorem Holds.reads_doubled (h : r.Holds field fs) (hmode : r.mode = .inQuotes) (s : List Char) :
    ∃ r', r.Reads (doubled s) r' ∧ r'.Holds (s.reverse ++ field) fs ∧ r'.mode = .inQuotes := by
  induction s generalizing r field with
  | nil => exact ⟨r, .refl r, h, hmode⟩
  | cons c rest ih =>
    obtain ⟨r₁, hr₁, hfirst, hmode₁⟩ := h.reads_quoted hmode c
    obtain ⟨r₂, hr₂, hlast, hmode₂⟩ := ih hfirst hmode₁
    have hsplit : doubled (c :: rest) = doubled [c] ++ doubled rest := by simp [doubled]
    refine ⟨r₂, ?_, ?_, hmode₂⟩
    · rw [hsplit]
      exact hr₁.trans hr₂
    · rwa [List.reverse_cons, List.append_assoc]

/-- **A field is read back** whatever it holds. -/
theorem Holds.reads_field (h : r.Holds [] fs) (hmode : r.isBefore = true) (f : String) :
    ∃ r', r.Reads (fieldText f).toList r' ∧ r'.Holds f.toList.reverse fs ∧
      (r'.isBehind = true ∨ f = "" ∧ r'.mode = r.mode) := by
  rw [fieldText]
  split
  · have hopen : r.step '\x22' = ({ r.advance '\x22' with mode := .inQuotes }, none) := by
      rw [isBefore, Bool.or_eq_true, decide_eq_true_iff, decide_eq_true_iff] at hmode
      rcases hmode with hmode | hmode <;> simp [step, advance, hmode, opening, endsLine]
    have hopened : ({ r.advance '\x22' with mode := .inQuotes } : Reader).Holds [] fs :=
      ⟨h.field, h.fields⟩
    obtain ⟨r₁, hr₁, hbody, hmode₁⟩ := hopened.reads_doubled rfl f.toList
    obtain ⟨r₂, hr₂, hclosed, hmode₂⟩ := hbody.reads_closing hmode₁
    rw [List.append_nil] at hclosed
    refine ⟨r₂, ?_, hclosed, .inl (by simp [isBehind, hmode₂])⟩
    rw [String.toList_ofList]
    exact (reads_of_step hopen).trans (hr₁.trans hr₂)
  · next hplain =>
    have hchars : ∀ c ∈ f.toList, isSpecial c = false := by
      simpa [needsQuotes, isSpecial] using hplain
    rcases hf : f.toList with _ | ⟨c, rest⟩
    · exact ⟨r, .refl r, h, .inr ⟨String.toList_eq_nil_iff.1 hf, rfl⟩⟩
    · rw [hf] at hchars
      obtain ⟨hc, hrest⟩ := List.forall_mem_cons.1 hchars
      obtain ⟨r₁, hr₁, hfirst, hmode₁⟩ := h.reads_plain (.inr hmode) hc
      obtain ⟨r₂, hr₂, hlast, hmode₂⟩ := hfirst.reads_plains hmode₁ hrest
      refine ⟨r₂, hr₁.trans hr₂, ?_, .inl (by simp [isBehind, hmode₂])⟩
      rwa [List.reverse_cons]

/-! ### What ends a field -/

theorem Holds.endField (h : r.Holds f.toList.reverse fs) : r.endField.fields = f :: fs := by
  rw [Reader.endField, h.field, h.fields, List.reverse_reverse, String.ofList_toList]

/-- After a comma another field begins. -/
theorem Holds.reads_comma (h : r.Holds f.toList.reverse fs)
    (hmode : r.isBehind = true ∨ r.isBefore = true) :
    ∃ r', r.Reads [','] r' ∧ r'.Holds [] (f :: fs) ∧ r'.mode = .beforeField := by
  have hstep : r.step ',' = ((r.advance ',').endField, none) := by
    simp only [isBehind, isBefore, Bool.or_eq_true, decide_eq_true_iff] at hmode
    rcases hmode with (hmode | hmode) | hmode | hmode <;>
      simp [step, advance, hmode, opening, plain, endsLine]
  have hcomma : (r.advance ',').Holds f.toList.reverse fs := ⟨h.field, h.fields⟩
  exact ⟨_, reads_of_step hstep, ⟨rfl, hcomma.endField⟩, rfl⟩

/-- The end of the line ends the record, unless nothing of it has been read. -/
theorem Holds.ends_line (h : r.Holds f.toList.reverse fs)
    (hmode : r.isBehind = true ∨ r.mode = .beforeField) :
    ∃ (record : Record) (r' : Reader), record.fields = (f :: fs).reverse ∧ r'.Holds [] [] ∧
      r'.mode = .beforeRecord ∧ ∀ rest, r.records ('\n' :: rest) = record :: r'.records rest := by
  have hstep : r.step '\n' = ((r.advance '\n').endRecord '\n', some (r.advance '\n').record) := by
    simp only [isBehind, Bool.or_eq_true, decide_eq_true_iff] at hmode
    rcases hmode with (hmode | hmode) | hmode <;>
      simp [step, advance, hmode, opening, plain, endsLine]
  have hend : (r.advance '\n').Holds f.toList.reverse fs := ⟨h.field, h.fields⟩
  refine ⟨(r.advance '\n').record, (r.advance '\n').endRecord '\n', ?_, ⟨rfl, rfl⟩, rfl, ?_⟩
  · exact congrArg List.reverse hend.endField
  · intro rest
    rw [records, hstep]
    rfl

/-! ### A line -/

theorem toList_line_singleton (f : String) :
    (Csv.line [f]).toList = (fieldText f).toList ++ ['\n'] := by
  simp [Csv.line]

theorem toList_line_cons (f g : String) (rest : List String) :
    (Csv.line (f :: g :: rest)).toList =
      (fieldText f).toList ++ ([','] ++ (Csv.line (g :: rest)).toList) := by
  simp [Csv.line]

/-- **A record is read back** from its line. -/
theorem Holds.ends_record {row : List String} (h : r.Holds [] fs) (hrow : row ≠ [])
    (hmode : r.mode = .beforeField ∨ r.mode = .beforeRecord ∧ row ≠ [""]) :
    ∃ (record : Record) (r' : Reader), record.fields = fs.reverse ++ row ∧ r'.Holds [] [] ∧
      r'.mode = .beforeRecord ∧
      ∀ rest, r.records ((Csv.line row).toList ++ rest) = record :: r'.records rest := by
  induction row generalizing r fs with
  | nil => exact absurd rfl hrow
  | cons f row ih =>
    have hbefore : r.isBefore = true := by
      rw [isBefore, Bool.or_eq_true, decide_eq_true_iff, decide_eq_true_iff]
      exact hmode.symm.imp_left And.left
    obtain ⟨r₁, hr₁, hfield, hmode₁⟩ := h.reads_field hbefore f
    rcases row with _ | ⟨g, row⟩
    · have hbegun : r₁.isBehind = true ∨ r₁.mode = .beforeField := by
        rcases hmode₁ with hbehind | ⟨rfl, hsame⟩
        · exact .inl hbehind
        · rcases hmode with hmode | ⟨-, hempty⟩
          · exact .inr (hsame.trans hmode)
          · exact absurd rfl hempty
      obtain ⟨record, r₂, hrecord, hafter, hmode₂, hr₂⟩ := hfield.ends_line hbegun
      refine ⟨record, r₂, ?_, hafter, hmode₂, fun rest => ?_⟩
      · rw [hrecord, List.reverse_cons]
      · rw [toList_line_singleton, List.append_assoc, hr₁]
        exact hr₂ rest
    · have hopen : r₁.isBehind = true ∨ r₁.isBefore = true := by
        rcases hmode₁ with hbehind | ⟨-, hsame⟩
        · exact .inl hbehind
        · rw [isBefore, hsame]
          exact .inr hbefore
      obtain ⟨r₂, hr₂, hnext, hmode₂⟩ := hfield.reads_comma hopen
      obtain ⟨record, r₃, hrecord, hafter, hmode₃, hr₃⟩ := ih hnext (List.cons_ne_nil _ _)
        (.inl hmode₂)
      refine ⟨record, r₃, ?_, hafter, hmode₃, fun rest => ?_⟩
      · rw [hrecord, List.reverse_cons, List.append_assoc]
        rfl
      · rw [toList_line_cons, List.append_assoc, hr₁, List.append_assoc, hr₂]
        exact hr₃ rest

/-- **Records are read back** from their lines. -/
theorem Holds.fields_records (h : r.Holds [] []) (hmode : r.mode = .beforeRecord)
    {rows : List (List String)} (hrows : ∀ row ∈ rows, row ≠ [] ∧ row ≠ [""]) :
    (r.records (rows.flatMap fun row => (Csv.line row).toList)).map (·.fields) = rows := by
  induction rows generalizing r with
  | nil => simp [records, finish, hmode]
  | cons row rest ih =>
    obtain ⟨⟨hne, hempty⟩, hrest⟩ := List.forall_mem_cons.1 hrows
    obtain ⟨record, r', hrecord, hafter, hmode', hr'⟩ := h.ends_record hne (.inr ⟨hmode, hempty⟩)
    rw [List.flatMap_cons, hr', List.map_cons, ih hafter hmode' hrest, hrecord]
    rfl

end Reader

/-! ### A text -/

/-- A text without a mark of the byte order. -/
theorem records_of_unmarked {text : String} (h : text.toList.head? ≠ some '\ufeff') :
    records text = (Reader.start 0).records text.toList := by
  rw [records]
  split
  · next heq =>
    rw [heq] at h
    exact absurd rfl h
  · rfl

/-- **Records are read back** from a text of their lines, unless a record is one empty field. -/
theorem fields_records {rows : List (List String)} (hrows : ∀ row ∈ rows, row ≠ [] ∧ row ≠ [""])
    (hmark : (String.join (rows.map line)).toList.head? ≠ some '\ufeff') :
    (records (String.join (rows.map line))).map (·.fields) = rows := by
  rw [records_of_unmarked hmark, String.toList_join, List.flatMap_map]
  exact Reader.Holds.fields_records ⟨rfl, rfl⟩ rfl hrows

/-- Records that all have as many fields as the first one are all rows. -/
theorem rows_of_fields {text : String} {heading : List String} {rest : List (List String)}
    (h : (records text).map (·.fields) = heading :: rest)
    (hlength : ∀ row ∈ rest, row.length = heading.length) : rows text = rest.map .ok := by
  rw [rows]
  cases hrecords : records text with
  | nil =>
    rw [hrecords] at h
    cases h
  | cons first others =>
    rw [hrecords, List.map_cons] at h
    obtain ⟨rfl, rfl⟩ := List.cons_eq_cons.1 h
    dsimp only
    rw [List.map_map]
    refine List.ext_getElem (by simp) fun index hindex _ => ?_
    have hequal := hlength _ (List.mem_map_of_mem (List.getElem_mem (by simpa using hindex)))
    rw [List.getElem_mapIdx, List.getElem_map, checked, if_pos hequal]
    rfl

end TradeSignals.Csv
