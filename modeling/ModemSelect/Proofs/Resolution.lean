import Mathlib.Data.List.Chain
import Mathlib.Data.List.Induction
import ModemSelect.Proofs.ByteOrder
import ModemSelect.Settings.Draft

namespace ModemSelect

namespace Access

/-- The label names the class, whatever the blanks around it and the case of its ASCII letters. No
label names the unknown class. -/
def SpelledBy (access : Access) (label : String) : Prop :=
  access ≠ .unknown ∧ (trimBlanks label).toList.map Char.toUpper = (Named.name access).toList

theorem ofName?_eq_some_iff {name : String} {access : Access} :
    Named.ofName? name = some access ↔ Named.name access = name := by
  constructor
  · intro found
    exact eq_of_beq (List.find?_some (p := fun a => Named.name a == name) found)
  · rintro rfl
    cases access <;> decide

theorem ofLabel?_eq_some_iff {label : String} {access : Access} :
    ofLabel? label = some access ↔ access.SpelledBy label := by
  rw [ofLabel?, Option.filter_eq_some_iff, ofName?_eq_some_iff, SpelledBy, and_comm,
    bne_iff_ne, ← String.toList_inj, String.toList_ofList, eq_comm]

theorem SpelledBy.unique {access access' : Access} {label : String} (h : access.SpelledBy label)
    (h' : access'.SpelledBy label) : access = access' :=
  Option.some.inj ((ofLabel?_eq_some_iff.mpr h).symm.trans (ofLabel?_eq_some_iff.mpr h'))

end Access

namespace ScoreTable

/-- What is wrong with a written row: its label before its length, and its length before the order
of its scores. -/
inductive Faulty (label : String) (scores : List Int) : RowFault → Prop
  | unknownRat (unknown : ∀ access : Access, ¬ access.SpelledBy label) :
    Faulty label scores (.unknownRat label)
  | wrongLength {access : Access} (known : access.SpelledBy label) (length : scores.length ≠ 5) :
    Faulty label scores (.wrongLength label scores.length)
  | decreasing {access : Access} (known : access.SpelledBy label) (length : scores.length = 5)
    (falls : ¬ scores.Pairwise (· ≤ ·)) : Faulty label scores (.decreasing label)

theorem isRising_iff (scores : List Int) :
    isRising scores = true ↔ scores.Pairwise (· ≤ ·) := by
  rw [← List.isChain_iff_pairwise]
  induction scores using isRising.induct with
  | case1 a b rest ih => simp [isRising, ih]
  | case2 scores short =>
    match scores, short with
    | [], _ => simp [isRising]
    | [a], _ => simp [isRising]
    | a :: b :: rest, short => exact absurd rfl (short a b rest)

/-- The written row says that the class has this row. -/
def Writes (label : String) (scores : List Int) (access : Access) (row : ScoreRow) : Prop :=
  access.SpelledBy label ∧ row.toList = scores ∧ scores.Pairwise (· ≤ ·)

section ParseRow

variable {label : String} {scores : List Int}

/-- There is something wrong with a written row, or it can be read. -/
theorem faulty_or_writes (label : String) (scores : List Int) :
    (∃ fault, Faulty label scores fault) ∨ ∃ access row, Writes label scores access row := by
  by_cases unknown : ∀ access : Access, ¬ access.SpelledBy label
  · exact Or.inl ⟨_, .unknownRat unknown⟩
  obtain ⟨access, known⟩ := not_forall_not.mp unknown
  by_cases length : scores.length = 5
  · by_cases rises : scores.Pairwise (· ≤ ·)
    · exact Or.inr ⟨access, ⟨scores.toArray, length⟩, known, rfl, rises⟩
    · exact Or.inl ⟨_, .decreasing known length rises⟩
  · exact Or.inl ⟨_, .wrongLength known length⟩

theorem parseRow_of_known {access : Access} (known : access.SpelledBy label) :
    parseRow label scores =
      if h : scores.length = 5 then
        if isRising scores then .ok (access, ⟨scores.toArray, by simpa using h⟩)
        else .error (.decreasing label)
      else .error (.wrongLength label scores.length) := by
  rw [parseRow, Access.ofLabel?_eq_some_iff.mpr known]

theorem Faulty.parseRow {fault : RowFault} (h : Faulty label scores fault) :
    parseRow label scores = .error fault := by
  cases h with
  | unknownRat unknown =>
    rw [ScoreTable.parseRow]
    split
    next => rfl
    next access found => exact absurd (Access.ofLabel?_eq_some_iff.mp found) (unknown access)
  | wrongLength known length => rw [parseRow_of_known known, dif_neg length]
  | decreasing known length falls =>
    rw [parseRow_of_known known, dif_pos length, if_neg (mt (isRising_iff scores).mp falls)]

theorem Writes.parseRow {access : Access} {row : ScoreRow} (h : Writes label scores access row) :
    parseRow label scores = .ok (access, row) := by
  obtain ⟨known, rfl, rises⟩ := h
  rw [parseRow_of_known known, dif_pos row.length_toList, if_pos ((isRising_iff _).mpr rises)]
  rfl

theorem parseRow_eq_error_iff {fault : RowFault} :
    parseRow label scores = .error fault ↔ Faulty label scores fault := by
  refine ⟨fun failed => ?_, Faulty.parseRow⟩
  rcases faulty_or_writes label scores with ⟨fault', faulty⟩ | ⟨access, row, writes⟩
  · cases failed.symm.trans faulty.parseRow
    exact faulty
  · cases failed.symm.trans writes.parseRow

theorem parseRow_eq_ok_iff {access : Access} {row : ScoreRow} :
    parseRow label scores = .ok (access, row) ↔ Writes label scores access row := by
  refine ⟨fun read => ?_, Writes.parseRow⟩
  rcases faulty_or_writes label scores with ⟨fault, faulty⟩ | ⟨access', row', writes⟩
  · cases read.symm.trans faulty.parseRow
  · cases read.symm.trans writes.parseRow
    exact writes

end ParseRow

/-- The fault of the first row, in the order of the bytes of the labels, that has any. -/
def FirstFault (rows : List (String × List Int)) (fault : RowFault) : Prop :=
  ∃ r ∈ rows, Faulty r.1 r.2 fault ∧
    ∀ r' ∈ rows, utf8 r'.1 < utf8 r.1 → ∀ fault', ¬ Faulty r'.1 r'.2 fault'

/-- The row that the last label of the class has, in the order of the bytes of the labels. -/
def LastRow (rows : List (String × List Int)) (access : Access) (row : ScoreRow) : Prop :=
  ∃ r ∈ rows, access.SpelledBy r.1 ∧ row.toList = r.2 ∧
    ∀ r' ∈ rows, access.SpelledBy r'.1 → utf8 r'.1 ≤ utf8 r.1

section OfRows

variable {rows : List (String × List Int)} {last : String × List Int}

theorem ofRows_concat (rows : List (String × List Int)) (last : String × List Int) :
    ofRows (rows ++ [last]) = ofRows rows >>= fun table =>
      parseRow last.1 last.2 >>= fun read => pure (table.set read.1 read.2) := by
  rw [ofRows, List.foldlM_append]
  refine bind_congr fun table => ?_
  exact bind_pure _

theorem ofRows_concat_eq_error_iff {fault : RowFault} :
    ofRows (rows ++ [last]) = .error fault ↔
      ofRows rows = .error fault ∨
        (∃ table, ofRows rows = .ok table) ∧ Faulty last.1 last.2 fault := by
  rw [ofRows_concat, ← parseRow_eq_error_iff]
  cases ofRows rows with
  | error fault' => simp [bind, Except.bind]
  | ok table => cases parseRow last.1 last.2 <;> simp [bind, Except.bind, pure, Except.pure]

theorem ofRows_concat_eq_ok_iff {table : ScoreTable} :
    ofRows (rows ++ [last]) = .ok table ↔
      ∃ earlier access row, ofRows rows = .ok earlier ∧ Writes last.1 last.2 access row ∧
        table = earlier.set access row := by
  simp only [← parseRow_eq_ok_iff]
  rw [ofRows_concat]
  cases ofRows rows with
  | error fault => simp [bind, Except.bind]
  | ok earlier =>
    cases parseRow last.1 last.2 <;>
      simp [bind, Except.bind, pure, Except.pure, Prod.ext_iff, eq_comm]

theorem not_faulty_of_writes {access : Access} {row : ScoreRow}
    (h : Writes last.1 last.2 access row) (fault : RowFault) : ¬ Faulty last.1 last.2 fault :=
  fun faulty => nomatch faulty.parseRow.symm.trans h.parseRow

section Concat

variable {P : String × List Int → Prop}

theorem forall_mem_concat : (∀ r ∈ rows ++ [last], P r) ↔ (∀ r ∈ rows, P r) ∧ P last := by
  rw [List.forall_mem_append, List.forall_mem_singleton]

theorem exists_mem_concat : (∃ r ∈ rows ++ [last], P r) ↔ (∃ r ∈ rows, P r) ∨ P last := by
  simp [or_and_right, exists_or]

end Concat

theorem not_faulty_of_ofRows {table : ScoreTable} (read : ofRows rows = .ok table) :
    ∀ r ∈ rows, ∀ fault, ¬ Faulty r.1 r.2 fault := by
  induction rows using List.reverseRecOn generalizing table with
  | nil => exact fun r hr => nomatch hr
  | append_singleton rows last ih =>
    obtain ⟨earlier, access, row, before, writes, -⟩ := ofRows_concat_eq_ok_iff.mp read
    exact forall_mem_concat.mpr ⟨ih before, not_faulty_of_writes writes⟩

section Behind

variable (behind : ∀ r ∈ rows, utf8 r.1 < utf8 last.1)
include behind

theorem firstFault_concat {fault : RowFault} :
    FirstFault (rows ++ [last]) fault ↔ FirstFault rows fault ∨
      (∀ r ∈ rows, ∀ fault', ¬ Faulty r.1 r.2 fault') ∧ Faulty last.1 last.2 fault := by
  rw [FirstFault, exists_mem_concat]
  simp only [forall_mem_concat]
  constructor
  · rintro (⟨r, hr, faulty, good, -⟩ | ⟨faulty, good, -⟩)
    · exact Or.inl ⟨r, hr, faulty, good⟩
    · exact Or.inr ⟨fun r hr => good r hr (behind r hr), faulty⟩
  · rintro (⟨r, hr, faulty, good⟩ | ⟨good, faulty⟩)
    · exact Or.inl ⟨r, hr, faulty, good, fun less => absurd less (List.lt_asymm (behind r hr))⟩
    · exact Or.inr ⟨faulty, fun r hr _ => good r hr, fun less => absurd less (List.lt_irrefl _)⟩

theorem lastRow_concat_of_spelled {access : Access} (known : access.SpelledBy last.1)
    {row : ScoreRow} : LastRow (rows ++ [last]) access row ↔ row.toList = last.2 := by
  rw [LastRow, exists_mem_concat]
  simp only [forall_mem_concat]
  constructor
  · rintro (⟨r, hr, -, -, -, greatest⟩ | ⟨-, scores, -⟩)
    · exact absurd (greatest known) (List.not_le.mpr (behind r hr))
    · exact scores
  · intro scores
    exact Or.inr ⟨known, scores, fun r hr _ => List.le_of_lt (behind r hr),
      fun _ => List.le_refl _⟩

end Behind

theorem lastRow_concat_of_not {access : Access} (other : ¬ access.SpelledBy last.1)
    {row : ScoreRow} : LastRow (rows ++ [last]) access row ↔ LastRow rows access row := by
  rw [LastRow, exists_mem_concat]
  simp only [forall_mem_concat]
  constructor
  · rintro (⟨r, hr, spelled, scores, greatest, -⟩ | ⟨spelled, -⟩)
    · exact ⟨r, hr, spelled, scores, greatest⟩
    · exact absurd spelled other
  · rintro ⟨r, hr, spelled, scores, greatest⟩
    exact Or.inl ⟨r, hr, spelled, scores, greatest, fun h => absurd h other⟩

theorem ofRows_eq_error_iff (sorted : rows.Pairwise fun r r' => utf8 r.1 < utf8 r'.1)
    {fault : RowFault} : ofRows rows = .error fault ↔ FirstFault rows fault := by
  induction rows using List.reverseRecOn generalizing fault with
  | nil => exact ⟨nofun, fun ⟨_, hr, _⟩ => nomatch hr⟩
  | append_singleton rows last ih =>
    obtain ⟨sorted, -, behind⟩ := List.pairwise_append.mp sorted
    rw [ofRows_concat_eq_error_iff, ih sorted,
      firstFault_concat fun r hr => behind r hr last (List.mem_singleton_self last)]
    refine or_congr_right (and_congr_left fun _ => ⟨fun ⟨_, read⟩ => not_faulty_of_ofRows read, ?_⟩)
    intro good
    cases result : ofRows rows with
    | ok table => exact ⟨table, rfl⟩
    | error fault' =>
      obtain ⟨r, hr, faulty, -⟩ := (ih sorted).mp result
      exact absurd faulty (good r hr fault')

theorem row_ofRows (sorted : rows.Pairwise fun r r' => utf8 r.1 < utf8 r'.1)
    {table : ScoreTable} (read : ofRows rows = .ok table) {access : Access} {row : ScoreRow} :
    table.row access = some row ↔ LastRow rows access row := by
  induction rows using List.reverseRecOn generalizing table with
  | nil =>
    cases read
    exact ⟨nofun, fun ⟨_, hr, _⟩ => nomatch hr⟩
  | append_singleton rows last ih =>
    obtain ⟨sorted, -, behind⟩ := List.pairwise_append.mp sorted
    obtain ⟨earlier, access', row', before, writes, rfl⟩ := ofRows_concat_eq_ok_iff.mp read
    obtain ⟨known, scores, -⟩ := writes
    rw [set_row]
    split
    next same =>
      subst same
      have ahead (r) (hr : r ∈ rows) := behind r hr last (List.mem_singleton_self last)
      rw [lastRow_concat_of_spelled ahead known, ← scores, Vector.toList_inj, Option.some_inj,
        eq_comm]
    next differ =>
      rw [lastRow_concat_of_not fun h => differ (h.unique known)]
      exact ih sorted before

end OfRows

/-- The scores of no class fall from a level to the next, and the unknown class has none. -/
structure Rising (table : ScoreTable) : Prop where
  rises : ∀ access row, table.row access = some row → row.toList.Pairwise (· ≤ ·)
  unknown : table.row .unknown = none

theorem rising_standard : standard.Rising where
  rises access row h := by
    cases access <;> cases h <;> decide
  unknown := rfl

theorem rising_of_lastRow {table : ScoreTable} {rows : List (String × List Int)}
    (good : ∀ r ∈ rows, ∀ fault, ¬ Faulty r.1 r.2 fault)
    (last : ∀ access row, table.row access = some row ↔ LastRow rows access row) :
    table.Rising where
  rises access row h := by
    obtain ⟨r, hr, -, scores, -⟩ := (last access row).mp h
    rcases faulty_or_writes r.1 r.2 with ⟨fault, faulty⟩ | ⟨-, -, -, -, rises⟩
    · exact absurd faulty (good r hr fault)
    · exact scores ▸ rises
  unknown := Option.eq_none_iff_forall_ne_some.mpr fun row h => by
    obtain ⟨-, -, ⟨known, -⟩, -⟩ := (last .unknown row).mp h
    exact known rfl

theorem Rising.score_mono {table : ScoreTable} (h : table.Rising) (access : Access)
    {level level' : Level} (le : level ≤ level') :
    table.score access level ≤ table.score access level' := by
  unfold score
  split
  next row stands =>
    rcases Nat.lt_or_eq_of_le le with less | same
    · have rises := List.pairwise_iff_getElem.mp (h.rises access row stands) level level'
        (by simp) (by simp) less
      simpa using rises
    · cases Fin.ext same
      exact Int.le_refl _
  next => exact Int.le_refl _

end ScoreTable

open ScoreTable

namespace Draft

/-- The settings are those that the draft writes, with its defaults where it writes none. -/
structure Means (draft : Draft) (s : Settings) : Prop where
  availabilityThreshold : s.availabilityThreshold = draft.availabilityThreshold.getD 10000
  performanceThreshold : s.performanceThreshold = draft.performanceThreshold.getD 120000
  tolerance : s.tolerance = draft.tolerance.getD 100
  requirePing : s.requirePing = draft.requirePing.getD true
  allowRoaming : s.allowRoaming = draft.allowRoaming.getD true
  maxRetries : s.maxRetries = draft.maxRetries.getD 7
  roamingSwitch : s.features.roamingSwitch = draft.roamingSwitch.getD true
  satelliteClassification :
    s.features.satelliteClassification = draft.satelliteClassification.getD true
  immediateFallbackOnDisallowed :
    s.features.immediateFallbackOnDisallowed = draft.immediateFallbackOnDisallowed.getD true
  standard : draft.rows = [] → s.scores = ScoreTable.standard
  written : draft.rows ≠ [] → ∀ access row,
    s.scores.row access = some row ↔ LastRow draft.rows access row

section Table

variable {draft : Draft}

theorem mem_sortedRows {r : String × List Int} : r ∈ draft.sortedRows ↔ r ∈ draft.rows :=
  List.mem_mergeSort

theorem pairwise_sortedRows (distinct : (draft.rows.map Prod.fst).Nodup) :
    draft.sortedRows.Pairwise fun r r' => utf8 r.1 < utf8 r'.1 := by
  have sorted : draft.sortedRows.Pairwise fun r r' => r.1 ≤ r'.1 := by
    refine (List.pairwise_mergeSort (fun a b c h h' => ?_) (fun a b => ?_) draft.rows).imp
      of_decide_eq_true
    · exact decide_eq_true (String.le_trans (of_decide_eq_true h) (of_decide_eq_true h'))
    · simpa using String.le_total a.1 b.1
  have differ : (draft.sortedRows.map Prod.fst).Nodup :=
    ((List.mergeSort_perm _ _).map _).nodup_iff.mpr distinct
  refine (sorted.and (List.pairwise_map.mp differ)).imp fun {r r'} h => utf8_lt_utf8.mpr ?_
  exact Decidable.byContradiction fun not_less =>
    h.2 (String.le_antisymm h.1 (String.not_lt.mp not_less))

theorem firstFault_sortedRows {fault : RowFault} :
    FirstFault draft.sortedRows fault ↔ FirstFault draft.rows fault := by
  simp only [FirstFault, mem_sortedRows]

theorem lastRow_sortedRows {access : Access} {row : ScoreRow} :
    LastRow draft.sortedRows access row ↔ LastRow draft.rows access row := by
  simp only [LastRow, mem_sortedRows]

theorem table_eq_error_iff (distinct : (draft.rows.map Prod.fst).Nodup) {fault : RowFault} :
    draft.table = .error fault ↔ FirstFault draft.rows fault := by
  rw [table]
  split
  next none =>
    rw [List.isEmpty_iff.mp none]
    exact ⟨nofun, fun ⟨_, hr, _⟩ => nomatch hr⟩
  next =>
    rw [ofRows_eq_error_iff (pairwise_sortedRows distinct), firstFault_sortedRows]

theorem not_faulty_of_table {table : ScoreTable} (read : draft.table = .ok table) :
    ∀ r ∈ draft.rows, ∀ fault, ¬ Faulty r.1 r.2 fault := by
  rw [Draft.table] at read
  split at read
  next none =>
    rw [List.isEmpty_iff.mp none]
    exact fun r hr => nomatch hr
  next => exact fun r hr => not_faulty_of_ofRows read r (mem_sortedRows.mpr hr)

theorem table_of_rows (distinct : (draft.rows.map Prod.fst).Nodup) {table : ScoreTable}
    (read : draft.table = .ok table) :
    (draft.rows = [] → table = ScoreTable.standard) ∧
      (draft.rows ≠ [] → ∀ access row,
        table.row access = some row ↔ LastRow draft.rows access row) := by
  rw [Draft.table] at read
  split at read
  next none =>
    cases read
    exact ⟨fun _ => rfl, fun some => absurd (List.isEmpty_iff.mp none) some⟩
  next some =>
    refine ⟨fun none => absurd (List.isEmpty_iff.mpr none) some, fun _ access row => ?_⟩
    rw [row_ofRows (pairwise_sortedRows distinct) read, lastRow_sortedRows]

end Table

theorem Means.unique {draft : Draft} {s s' : Settings} (h : draft.Means s)
    (h' : draft.Means s') : s = s' := by
  have tables : s.scores = s'.scores := by
    by_cases none : draft.rows = []
    · exact (h.standard none).trans (h'.standard none).symm
    · have same (access : Access) : s.scores.row access = s'.scores.row access :=
        Option.ext fun row => (h.written none access row).trans (h'.written none access row).symm
      exact congrArg ScoreTable.mk (funext same)
  obtain ⟨_, _, _, _, _, _, ⟨_, _, _⟩, _⟩ := s
  obtain ⟨_, _, _, _, _, _, ⟨_, _, _⟩, _⟩ := s'
  simp only [Settings.mk.injEq, Features.mk.injEq]
  exact ⟨h.availabilityThreshold.trans h'.availabilityThreshold.symm,
    h.performanceThreshold.trans h'.performanceThreshold.symm,
    h.tolerance.trans h'.tolerance.symm, h.requirePing.trans h'.requirePing.symm,
    h.allowRoaming.trans h'.allowRoaming.symm, h.maxRetries.trans h'.maxRetries.symm,
    ⟨h.roamingSwitch.trans h'.roamingSwitch.symm,
      h.satelliteClassification.trans h'.satelliteClassification.symm,
      h.immediateFallbackOnDisallowed.trans h'.immediateFallbackOnDisallowed.symm⟩, tables⟩

theorem Means.rising {draft : Draft} {s : Settings}
    (good : ∀ r ∈ draft.rows, ∀ fault, ¬ Faulty r.1 r.2 fault) (h : draft.Means s) :
    s.scores.Rising := by
  by_cases none : draft.rows = []
  · exact h.standard none ▸ rising_standard
  · exact rising_of_lastRow good (h.written none)

section Resolve

variable {draft : Draft}

theorem resolve_eq_error_iff (known : draft.version = 0 ∨ draft.version = 1)
    {e : SettingsError} :
    draft.resolve = .error e ↔ ∃ fault, e = .badRow fault ∧ draft.table = .error fault := by
  rw [resolve, if_pos known]
  cases draft.table with
  | error fault => simp [eq_comm]
  | ok table => simp

theorem means_of_resolve (distinct : (draft.rows.map Prod.fst).Nodup) {s : Settings}
    (read : draft.resolve = .ok s) :
    (draft.version = 0 ∨ draft.version = 1) ∧
      (∀ r ∈ draft.rows, ∀ fault, ¬ Faulty r.1 r.2 fault) ∧ draft.Means s := by
  rw [resolve] at read
  split at read
  next known =>
    split at read
    next => cases read
    next table result =>
      cases read
      obtain ⟨standard, written⟩ := table_of_rows distinct result
      refine ⟨known, not_faulty_of_table result, ?_⟩
      constructor <;> first | rfl | assumption
  next => cases read

end Resolve

/-- A draft of a known version resolves unless a row is faulty, and then to what it means: the first
faulty row is reported, and the last label of a class gives its row. Scores that have been resolved
rise with the signal. -/
theorem resolves_exactly (draft : Draft) (distinct : (draft.rows.map Prod.fst).Nodup) :
    (draft.version ≠ 0 ∧ draft.version ≠ 1 →
        draft.resolve = .error (.unsupportedVersion draft.version)) ∧
      (draft.version = 0 ∨ draft.version = 1 →
        (∀ e, draft.resolve = .error e ↔ ∃ fault, e = .badRow fault ∧ FirstFault draft.rows fault) ∧
        (∀ s, draft.resolve = .ok s ↔
          (∀ r ∈ draft.rows, ∀ fault, ¬ Faulty r.1 r.2 fault) ∧ draft.Means s) ∧
        ((∃ s, draft.resolve = .ok s) ↔ ∀ r ∈ draft.rows, ∀ fault, ¬ Faulty r.1 r.2 fault)) ∧
      ∀ s, draft.resolve = .ok s →
        (∀ access row, s.scores.row access = some row → row.toList.Pairwise (· ≤ ·)) ∧
        s.scores.row .unknown = none ∧
        (∀ access level level', level ≤ level' →
          s.scores.score access level ≤ s.scores.score access level') ∧
        ∀ access, s.scores.row access = none → ∀ level, s.scores.score access level = 0 := by
  have failed {e : SettingsError} (known : draft.version = 0 ∨ draft.version = 1) :
      draft.resolve = .error e ↔ ∃ fault, e = .badRow fault ∧ FirstFault draft.rows fault := by
    simp only [resolve_eq_error_iff known, table_eq_error_iff distinct]
  have resolved (known : draft.version = 0 ∨ draft.version = 1)
      (good : ∀ r ∈ draft.rows, ∀ fault, ¬ Faulty r.1 r.2 fault) :
      ∃ s, draft.resolve = .ok s := by
    cases result : draft.resolve with
    | ok s => exact ⟨s, rfl⟩
    | error e =>
      obtain ⟨fault, -, r, hr, faulty, -⟩ := (failed known).mp result
      exact absurd faulty (good r hr fault)
  refine ⟨fun other => ?_, fun known => ⟨fun e => failed known, fun s => ?_, ?_⟩, fun s read => ?_⟩
  · rw [resolve, if_neg (not_or.mpr other)]
  · refine ⟨fun read => (means_of_resolve distinct read).2, fun ⟨good, means⟩ => ?_⟩
    obtain ⟨s', read⟩ := resolved known good
    rw [read, means.unique (means_of_resolve distinct read).2.2]
  · exact ⟨fun ⟨_, read⟩ => (means_of_resolve distinct read).2.1, resolved known⟩
  · obtain ⟨-, good, means⟩ := means_of_resolve distinct read
    have rising := means.rising good
    exact ⟨rising.rises, rising.unknown, fun access _ _ => rising.score_mono access,
      fun _ => score_of_row_none⟩

/-- Three labels of one class, of which the lower case one is the last. -/
def aliased : Draft where
  rows := [("lte", [0, 1, 2, 3, 4]), (" LTE ", [9, 9, 9, 9, 9]), ("LTE", [5, 5, 5, 5, 5])]

theorem resolves_exactly_aliased :
    (aliased.rows.map Prod.fst).Nodup ∧
      ∃ s, aliased.resolve = .ok s ∧ s.scores.row .lte = some #v[0, 1, 2, 3, 4] := by
  have distinct : (aliased.rows.map Prod.fst).Nodup := by decide
  obtain ⟨-, known, -⟩ := resolves_exactly aliased distinct
  obtain ⟨-, means, resolved⟩ := known (Or.inl rfl)
  have reads : ∀ r ∈ aliased.rows, (parseRow r.1 r.2).toOption.isSome = true := by decide
  have greatest : ∀ r ∈ aliased.rows, utf8 r.1 ≤ utf8 "lte" := by decide
  obtain ⟨s, read⟩ := resolved.mpr fun r hr fault faulty => by
    have read := reads r hr
    rw [faulty.parseRow] at read
    cases read
  have written := ((means s).mp read).2.written (by decide)
  refine ⟨distinct, s, read, (written .lte _).mpr ⟨_, .head _, ?_, rfl, ?_⟩⟩
  · exact ⟨by decide, by decide⟩
  · exact fun r hr _ => greatest r hr

end Draft

end ModemSelect
