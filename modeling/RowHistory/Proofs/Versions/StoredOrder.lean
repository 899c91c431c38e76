import RowHistory.Proofs.Versions.AsOf

/-!
# Lookups by the order of stored versions

A lookup takes the row whose version is the greatest as it is stored, and reads the number of that version
afterwards. This file fixes

* the number of a stored row (`Layout.numberOf`), which no floating-point number is read as
  (`numberOf_ne_real`);
* the forms of versions whose order is that of their numbers (`VersionForm`): integers, and numerals of one
  width (`VersionForm.Has.number_le`);
* what a lookup answers where all versions have numbers (`Layout.Answers`, `select_answers`): the record of a
  row whose version none exceeds as it is stored. It has the greatest number if the versions have one form,
  and it need not if they do not, since the text of nine is above that of ten.
-/

namespace RowHistory

open Sql Text

/-! ## 1. Numbers of stored rows -/

/-- What comes back of a stored row. -/
def Sql.Table.rowBack (t : Table) (r : List Cell) : Row :=
  Store.rowOfCells ((t.columns.map Column.name).zip r)

namespace Layout

variable {l : Layout} {t : Table} {r : List Cell} {n : Int}

/-- The number that a stored row is read as, if it has one. -/
def numberOf (l : Layout) (t : Table) (r : List Cell) : Except StorageError Int :=
  Record.versionOf l.names.version ((t.rowBack r).value l.names.version)

/-- A number is read from the cell of its column. -/
theorem versionOf_cell (hd : t.Distinct) (h : l.numberOf t r = .ok n) :
    Record.versionOf l.names.version (t.cell r l.names.version).toValue = .ok n := by
  unfold numberOf Table.rowBack at h
  obtain hvalue | hvalue := Table.value_rowOfCells (r := r) hd l.names.version
  · rwa [hvalue] at h
  · rw [hvalue] at h
    cases h

theorem numberOf_ne_real (hd : t.Distinct) (h : l.numberOf t r = .ok n) (x : Double) :
    t.cell r l.names.version ≠ .real x := by
  intro hreal
  have hread := versionOf_cell hd h
  rw [hreal] at hread
  cases hread

end Layout

/-- A form in which versions are stored: as integers, or as numerals of a width. -/
inductive VersionForm where
  | integers
  | numerals (width : Nat)

namespace VersionForm

variable {form : VersionForm} {c d : Cell} {n m : Int}

/-- A cell holds a number in the form. -/
inductive Has : VersionForm → Cell → Int → Prop
  | integer (n : Int) : Has .integers (.integer n) n
  | numeral {width k : Nat} : k < 10 ^ width →
      Has (.numerals width) (.text (String.ofList (padded width k))) k

theorem Has.eq_of_versionOf (h : form.Has c n) {name : String}
    (hread : Record.versionOf name c.toValue = .ok m) : m = n := by
  cases h with
  | integer n => exact (Except.ok.inj hread).symm
  | numeral hk =>
    unfold Record.versionOf Cell.toValue at hread
    dsimp only at hread
    split at hread
    · rename_i heq
      rw [← Except.ok.inj hread]
      exact readInt64?_padded heq
    · cases hread

/-- **Versions of one form are ordered as their numbers are.** -/
theorem Has.number_le (h : form.Has c n) (h' : form.Has d m) (horder : c.order d ≠ .lt) : m ≤ n := by
  cases h with
  | integer n =>
    cases h' with
    | integer m => exact Int.not_lt.mp fun hlt => horder (Int.compare_eq_lt.mpr hlt)
  | @numeral width k hk =>
    cases h' with
    | @numeral _ j hj =>
      refine Int.ofNat_le.mpr (Nat.not_lt.mp fun hlt => horder ?_)
      have htexts : String.ofList (padded width k) < String.ofList (padded width j) := by
        rw [String.lt_iff_toList_lt, String.toList_ofList, String.toList_ofList,
          ← List.append_nil (padded width k), ← List.append_nil (padded width j)]
        exact padded_lt hk hj hlt
      exact compare_lt_iff_lt.mpr htexts

end VersionForm

/-! ## 2. What a lookup answers -/

namespace Layout

variable {l : Layout} {t : Table} {picked : List Cell → Bool}

/-- A stored row of the identifier is active at an instant, by what is stored for the ends of its validity. -/
def activeAt (l : Layout) (t : Table) (w : Row) (now : Instant) (r : List Cell) : Bool :=
  l.identifies t w r && ((Atom.compare l.names.validFrom .le).holds t r (.text now.storageText) &&
    (Atom.notBefore l.names.validTo).holds t r (.text now.storageText))

theorem picks_activeAt (l : Layout) (t : Table) (w : Row) (now : Instant) (r : List Cell) :
    l.picks .active { row := w, instant := some now } t r = l.activeAt t w now r := by
  rw [picks_eq, activeAt]
  exact congrArg _ (congrArg _ (Bool.and_true _))

/-- The versions of rows that are picked have one form. -/
def Uniform (l : Layout) (t : Table) (picked : List Cell → Bool) : Prop :=
  ∃ form : VersionForm, ∀ r ∈ t.rows, picked r = true → ∃ n, form.Has (t.cell r l.names.version) n

/-- The record that a stored row with a number comes back as, unless an end of its validity cannot be read. -/
def recordFrom (l : Layout) (t : Table) (r : List Cell) (n : Int) : Except StorageError Record := do
  let validFrom ← Record.boundOf l.names.validFrom ((t.rowBack r).value l.names.validFrom)
  let validTo ← Record.boundOf l.names.validTo ((t.rowBack r).value l.names.validTo)
  return ⟨t.rowBack r, n, validFrom, validTo⟩

/-- What a lookup answers from the rows that it picks: nothing if there are none, and otherwise what comes back
of one whose version none of them exceeds as it is stored. If the versions have one form, none exceeds its
number. -/
inductive Answers (l : Layout) (t : Table) (picked : List Cell → Bool) :
    Except StorageError (Option Record) → Prop
  | none : (∀ r ∈ t.rows, picked r = false) → Answers l t picked (.ok none)
  | some {r : List Cell} {n : Int} : r ∈ t.rows → picked r = true → l.numberOf t r = .ok n →
      (∀ r' ∈ t.rows, picked r' = true →
        (t.cell r l.names.version).order (t.cell r' l.names.version) ≠ .lt) →
      (l.Uniform t picked → ∀ r' ∈ t.rows, picked r' = true → ∀ n', l.numberOf t r' = .ok n' → n' ≤ n) →
      Answers l t picked ((l.recordFrom t r n).map some)

theorem ofRow_rowBack {r : List Cell} {n : Int} (h : l.numberOf t r = .ok n) :
    Record.ofRow l.names (t.rowBack r) = l.recordFrom t r n := by
  unfold numberOf at h
  unfold Record.ofRow recordFrom
  rw [h]
  rfl

/-- Versions of one form that are ordered as stored are ordered by number. -/
theorem Uniform.number_le (h : l.Uniform t picked) (hd : t.Distinct) {r r' : List Cell} {n n' : Int}
    (hr : r ∈ t.rows) (hpicked : picked r = true) (hr' : r' ∈ t.rows) (hpicked' : picked r' = true)
    (hn : l.numberOf t r = .ok n) (hn' : l.numberOf t r' = .ok n')
    (horder : (t.cell r l.names.version).order (t.cell r' l.names.version) ≠ .lt) : n' ≤ n := by
  obtain ⟨form, hform⟩ := h
  obtain ⟨k, hk⟩ := hform r hr hpicked
  obtain ⟨k', hk'⟩ := hform r' hr' hpicked'
  rw [hk.eq_of_versionOf (versionOf_cell hd hn), hk'.eq_of_versionOf (versionOf_cell hd hn')]
  exact hk.number_le hk' horder

end Layout

namespace Storage

variable {σ ε : Type} [Connection σ] [Transactional σ] [Steady σ] {s : Storage σ ε} {t : Table}
  (hs : s.Ready) (hids : s.layout.fields.names .id ≠ []) (hmain : s.layout.InMain)
  (hfind : s.working.find? s.layout.table = some t) (hd : t.Distinct)
  (hcolumns : ∀ c ∈ s.layout.insertColumns, t.Has c)

include hs hids hmain hfind hd hcolumns

/-- **A lookup answers from the rows that it picks**, if all of them have numbers. -/
theorem select_answers {kind : StatementKind} (hkind : kind = .latest ∨ kind = .active) {b : Binding}
    (hnumbers : ∀ r ∈ t.rows, s.layout.picks kind b t r = true → ∃ n, s.layout.numberOf t r = .ok n) :
    ∃ found s', (select kind b).run.run s = (found, s') ∧ s'.Ready ∧
      s.layout.Answers t (s.layout.picks kind b t) found := by
  obtain ⟨answer, hrun⟩ := Layout.run_selects hids hmain hcolumns hkind hfind b
  obtain ⟨s', hselect, hready⟩ := select_eq hs hrun
  obtain ⟨t', ht', hpicks⟩ := Layout.run_select hids hkind hrun
  rw [hfind] at ht'
  cases ht'
  refine ⟨_, s', hselect, hready, ?_⟩
  obtain ⟨hnone, hpicks⟩ | ⟨r, hr, hpicked, hrow, hmax⟩ := hpicks (fun _ => hcolumns) fun r hr hpicked => by
      obtain ⟨n, hn⟩ := hnumbers r hr hpicked
      exact Layout.numberOf_ne_real hd hn
  · rw [Answer.record?, hnone]
    exact .none hpicks
  · obtain ⟨n, hn⟩ := hnumbers r hr hpicked
    have hrecord : answer.record? s.layout.names = (s.layout.recordFrom t r n).map some := by
      rw [Answer.record?, hrow, ← Layout.ofRow_rowBack hn]
      rfl
    rw [hrecord]
    exact .some hr hpicked hn hmax fun huniform r' hr' hpicked' n' hn' =>
      huniform.number_le hd hr hpicked hr' hpicked' hn hn' (hmax r' hr' hpicked')

/-- **Lookups go by the order of stored versions.** If every version of an identifier has a number, the latest
version is read from a row of the identifier whose version none of them exceeds as it is stored, and the active
one from such a row among those that are active: where the ends are stored as instants, those whose validity
holds the instant. Each has the greatest number of these rows if their versions are stored as integers, or as
numerals of one width. -/
theorem lookups_by_stored_order {w : Row} (hnumbers : ∀ r ∈ t.rows, s.layout.identifies t w r = true →
      ∃ n, s.layout.numberOf t r = .ok n) :
    (∃ found s', (latest w).run.run s = (found, s') ∧ s'.Ready ∧
      s.layout.Answers t (s.layout.identifies t w) found) ∧
    ∀ now, (∃ found s', (active w now).run.run s = (found, s') ∧ s'.Ready ∧
        s.layout.Answers t (s.layout.activeAt t w now) found) ∧
      ∀ r start bound, t.cell r s.layout.names.validFrom = .text start.storageText →
        t.cell r s.layout.names.validTo = endCell bound → start.IsStorable →
        (∀ e ∈ bound, e.IsStorable) → now.IsStorable → (s.layout.activeAt t w now r = true ↔
          s.layout.identifies t w r = true ∧ start ≤ now ∧ ∀ e ∈ bound, now ≤ e) := by
  have hlatest : s.layout.picks .latest { row := w } t = s.layout.identifies t w :=
    funext fun r => Layout.picks_latest s.layout { row := w } t r
  have hactive : ∀ now, s.layout.picks .active { row := w, instant := some now } t =
      s.layout.activeAt t w now := fun now => funext fun r => Layout.picks_activeAt s.layout t w now r
  refine ⟨?_, fun now => ⟨?_, fun r start bound hfrom hto hstart hbound hnow => ?_⟩⟩
  · rw [← hlatest]
    refine select_answers hs hids hmain hfind hd hcolumns (.inl rfl) fun r hr hpicked => ?_
    rw [hlatest] at hpicked
    exact hnumbers r hr hpicked
  · rw [← hactive]
    refine select_answers hs hids hmain hfind hd hcolumns (.inr rfl) fun r hr hpicked => ?_
    rw [Layout.picks_eq, Bool.and_eq_true] at hpicked
    exact hnumbers r hr hpicked.1
  · rw [← hactive]
    exact Layout.picks_active_of_ends hfrom hto hstart hbound hnow

end Storage

namespace Sample

/-- A version of an item that has no end. -/
def endless (number : Cell) : List Cell :=
  [.integer 1, .integer 1, number, .text "2024-01-01 00:00:00.000000", .null, .null]

/-- The items with versions nine and ten of one of them, as integers. -/
def counted : Table :=
  { items .integer with rows := [endless (.integer 9), endless (.integer 10)] }

/-- The same, with a version column of texts. -/
def lettered : Table :=
  { name := "items"
    columns := [⟨"i", .integer, false⟩, ⟨"n", .integer, false⟩, ⟨"v", .text, false⟩,
      ⟨"f", .text, false⟩, ⟨"t", .text, false⟩, ⟨"s", .text, false⟩]
    rows := [endless (.text "9"), endless (.text "10")] }

/-- Of the integers nine and ten the second is found. -/
theorem ten_of_answers {picked : List Cell → Bool} {found : Except StorageError (Option Record)}
    (hpicked : ∀ r ∈ counted.rows, picked r = true)
    (h : (sizes "n" none).layout.Answers counted picked found) :
    ∃ record, found = .ok (some record) ∧ record.version = 10 := by
  have hten : endless (.integer 10) ∈ counted.rows := List.mem_cons_of_mem _ List.mem_cons_self
  cases h with
  | none hnone => exact absurd ((hpicked _ hten).symm.trans (hnone _ hten)) (by decide)
  | some hr _ hn _ hmax =>
    have hcell : ∀ n ∈ [9, 10], counted.cell (endless (.integer n)) "v" = .integer n := by decide +kernel
    have huniform : (sizes "n" none).layout.Uniform counted picked := by
      refine ⟨.integers, List.forall_mem_cons.mpr ⟨fun _ => ⟨9, ?_⟩,
        List.forall_mem_singleton.mpr fun _ => ⟨10, ?_⟩⟩⟩
      · exact (hcell 9 (by decide)).symm ▸ .integer 9
      · exact (hcell 10 (by decide)).symm ▸ .integer 10
    have hle := hmax huniform _ hten (hpicked _ hten) 10 rfl
    obtain rfl | hr := List.mem_cons.mp hr
    · obtain rfl := Except.ok.inj hn
      exact absurd hle (by decide)
    · obtain rfl := List.mem_singleton.mp hr
      obtain rfl := Except.ok.inj hn
      exact ⟨_, rfl, rfl⟩

/-- A version that a selection finds is found by a storage. -/
theorem exists_version {l : Layout} {db : Database} {kind : StatementKind} {b : Binding} {n : Int}
    (h : ((l.run kind b db).any fun found => (found.1.record? l.names).toOption.join.any fun record =>
      record.version = n) = true) {q : Storage (Traced Store) Failure} (hready : q.Ready)
    (hlayout : q.layout = l) (hworking : q.working = db) :
    ∃ q' record, (Storage.select kind b).run.run q = (.ok (some record), q') ∧ record.version = n := by
  subst hlayout hworking
  obtain ⟨⟨answer, db'⟩, hrun, hfound⟩ := (Option.any_eq_true _ _).mp h
  obtain ⟨record, hrecord, hversion⟩ := (Option.any_eq_true _ _).mp hfound
  have hanswer : answer.record? q.layout.names = .ok (some record) :=
    toOption_eq_some.mp (Option.join_eq_some_iff.mp hrecord)
  obtain ⟨q', hselect, -⟩ := Storage.gives_select hready hrun hanswer
  exact ⟨q', record, hselect, of_decide_eq_true hversion⟩

end Sample

/-- **Of the integers nine and ten the lookups find the second.** -/
theorem ten_looked_up : ∃ q : Storage (Traced Store) Failure, q.working = ⟨[Sample.counted]⟩ ∧
    (∃ q' record, (Storage.latest (Sample.item 1 "n" 1)).run.run q = (.ok (some record), q') ∧
      record.version = 10) ∧
    ∃ q' record, (Storage.active (Sample.item 1 "n" 1) (Instant.ofSeconds 1704067200)).run.run q =
      (.ok (some record), q') ∧ record.version = 10 := by
  obtain ⟨q, hready, hlayout, hworking⟩ :=
    Sample.exists_ready (Sample.sizes "n" none).layout ⟨[Sample.counted]⟩
  have hspelled : (Sample.sizes "n" none).layout.Spelled Sample.counted := by decide
  have hnumbers : ∀ r ∈ Sample.counted.rows, ∃ n, (Sample.sizes "n" none).layout.numberOf Sample.counted r =
      .ok n := List.forall_mem_cons.mpr ⟨⟨9, rfl⟩, List.forall_mem_singleton.mpr ⟨10, rfl⟩⟩
  obtain ⟨⟨found, q', hrun, -, hanswers⟩, hactive⟩ := Storage.lookups_by_stored_order (t := Sample.counted)
    (w := Sample.item 1 "n" 1) hready (by rw [hlayout]; decide) (by rw [hlayout]; decide)
    (by rw [hlayout, hworking]; decide +kernel) (by show List.Nodup _; decide +kernel)
    (by rw [hlayout]; exact fun c hc => hspelled.has hc)
    (by rw [hlayout]; exact fun r hr _ => hnumbers r hr)
  obtain ⟨⟨found', q'', hrun', -, hanswers'⟩, -⟩ := hactive (Instant.ofSeconds 1704067200)
  rw [hlayout] at hanswers hanswers'
  obtain ⟨record, rfl, hversion⟩ := Sample.ten_of_answers (by decide +kernel) hanswers
  obtain ⟨record', rfl, hversion'⟩ := Sample.ten_of_answers (by decide +kernel) hanswers'
  exact ⟨q, hworking, ⟨q', record, hrun, hversion⟩, q'', record', hrun', hversion'⟩

/-- **Of the texts of nine and ten they find the first.** -/
theorem nine_looked_up : ∃ q : Storage (Traced Store) Failure, q.working = ⟨[Sample.lettered]⟩ ∧
    Sample.lettered.rows.map ((Sample.sizes "n" none).layout.numberOf Sample.lettered) = [.ok 9, .ok 10] ∧
    (∀ r ∈ Sample.lettered.rows, (Sample.sizes "n" none).layout.activeAt Sample.lettered
      (Sample.item 1 "n" 1) (Instant.ofSeconds 1704067200) r = true) ∧
    (∃ q' record, (Storage.latest (Sample.item 1 "n" 1)).run.run q = (.ok (some record), q') ∧
      record.version = 9) ∧
    ∃ q' record, (Storage.active (Sample.item 1 "n" 1) (Instant.ofSeconds 1704067200)).run.run q =
      (.ok (some record), q') ∧ record.version = 9 := by
  obtain ⟨q, hready, hlayout, hworking⟩ :=
    Sample.exists_ready (Sample.sizes "n" none).layout ⟨[Sample.lettered]⟩
  exact ⟨q, hworking, rfl, by decide +kernel,
    Sample.exists_version (by decide +kernel) hready hlayout hworking,
    Sample.exists_version (by decide +kernel) hready hlayout hworking⟩

end RowHistory
