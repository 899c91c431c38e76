import RowHistory.Proofs.Sql.Constraints
import RowHistory.Proofs.Versions.FullSync
import RowHistory.Proofs.Versions.Loads

/-!
# A load that comes again changes nothing

A session that is given the rows of a finished load once more tells that they are identical, with the
versions of the load, and changes nothing but when they were seen. This file fixes

* that sessions keep a table within its constraints (`keeps_consistent`), so that the active version
  can be seen now (`written_identical`);
* the rows that differ in when they were seen only (`Layout.Alike`, `Layout.Reseen`);
* that a row which the active version has is told to be identical (`mirrored_identical`), so that a
  row of the load is (`Replays.row`), and so are all of them
  (`Replays.tell`, `replay_changes_nothing`).
-/

namespace RowHistory

open Sql

variable {σ : Type} [Connection σ] [Transactional σ]

/-! ## 1. Constraints -/

namespace Layout

variable {l : Layout} {t : Table} {row : Row} {now : Instant} {strict : Prop} {ticks : List Instant}
  {rows rows' before after : List (List Cell)} {r r' : List Cell} {v : Version} {db db' : Database}
  {horizon : Option Instant} {status : RowStatus} {n : Int}

theorem written_consistent {kinds : List StatementKind} {name : String} (h : db.ConsistentAt name)
    (hwritten : l.written row kinds db = some db') : db'.ConsistentAt name := by
  induction kinds generalizing db with
  | nil =>
    cases hwritten
    exact h
  | cons kind kinds ih =>
    obtain ⟨answer, db₁, hrun, hrest⟩ := written_cons hwritten
    obtain ⟨st, -, hperform⟩ := run_some hrun
    exact ih (Database.perform_consistent h hperform) hrest

/-- Sessions keep a table within its constraints. -/
theorem keeps_consistent (H : Option Instant → Prop) (name : String) :
    Session.Keeps σ l t H fun _ db => db.ConsistentAt name where
  mono _ h := h
  row _ _ _ happlied h := written_consistent h happlied.written
  purge := by
    intro ticks s answer db _ hswept h
    obtain ⟨st, -, hpurged⟩ := swept_some hswept
    exact Database.purged_consistent h hpurged

/-- The texts of two instants are not equal for a database. -/
theorem order_texts {k : Instant} (hnow : now.IsStorable) (hk : k.IsStorable) (hlt : k < now) :
    (Cell.text now.storageText).order (.text k.storageText) ≠ .eq := by
  intro heq
  have htexts : compare now.storageText k.storageText = .eq := heq
  rw [Std.LawfulEqOrd.compare_eq_iff_eq] at htexts
  exact absurd (Instant.storageText_inj hnow hk htexts) (ne_of_gt hlt)

section Touch

variable (hs : l.Suits t) (hspelled : l.Spelled t)
  (hconsistent : t.Consistent (before ++ r :: after)) (hticks : ∀ k ∈ ticks, k < now)
  (hnow : now.IsStorable)

include hs hspelled hconsistent hticks hnow

/-- **A row may be seen now**, whatever must be unique: all others were seen before. -/
theorem check_seen {c : String} (hc : l.names.lastSeen = some c) (hr : t.IsRow r)
    (hseen : l.Seen t c ticks (before ++ r :: after)) :
    t.check (before ++ after) (t.put (l.seenCells now) r) = .ok () := by
  have hcells : l.seenCells now = [(c, .text now.storageText)] := by
    unfold seenCells
    rw [hc]
    rfl
  have hhas : t.Has c :=
    hspelled.has (updateColumns_insert (lastSeen_update (hc ▸ List.mem_singleton_self c)))
  rw [hcells, Table.put_single hs.columns hhas hr.length, Affinity.keepsInstants _ now hnow]
  refine hconsistent.check_set nofun fun r' hr' => ?_
  obtain ⟨k, hk, hpast⟩ := hseen r' (mem_other hr')
  have hcell : r'.getD (t.place c) .null = .text k.storageText := hk.cell
  rw [hcell]
  exact order_texts hnow hk.storable (hpast.lt hticks)

end Touch

/-- **The active version can be seen now.** -/
theorem written_identical {o : Options} (horizon : Option Instant) (outcome : Outcome)
    (hids : o.layout.fields.names .id ≠ []) (hmain : o.layout.InMain) (hspelled : o.layout.Spelled t)
    (hs : o.layout.Suits t)
    (h : o.layout.Chained t strict ticks (before ++ r :: after))
    (hfind : db.find? o.layout.table = some { t with rows := before ++ r :: after })
    (hconsistent : db.ConsistentAt o.layout.table)
    (hseen : ∀ c ∈ o.layout.names.lastSeen.toList, o.layout.Seen t c ticks (before ++ r :: after))
    (hticks : ∀ k ∈ ticks, k < now) (hnow : now.IsStorable)
    (hone : o.layout.OneActive t row now before r after v) :
    ∃ db', o.layout.written (Session.stamped o horizon outcome now row) (Storage.statementsOf
      (Mutation.ofStatus o.names.tracksLastSeen .identical)) db = some db' := by
  cases hc : o.names.lastSeen with
  | none =>
    have htracks : o.names.tracksLastSeen = false := by
      unfold Bookkeeping.tracksLastSeen
      rw [hc]
      rfl
    rw [htracks]
    exact ⟨db, rfl⟩
  | some c =>
    have htracks : o.names.tracksLastSeen = true := by
      unfold Bookkeeping.tracksLastSeen
      rw [hc]
      rfl
    have hlast : o.layout.names.lastSeen = some c := hc
    obtain ⟨st, hst⟩ : ∃ st, o.layout.statement .touch = .ok st := by
      simp only [statement, hlast]
      exact ⟨_, rfl⟩
    have hrows := hconsistent _ hfind
    have hcheck : t.check (before ++ after) (t.put (o.layout.seenCells now) r) = .ok () :=
      check_seen hs hspelled ⟨hrows.nulls, hrows.apart⟩ hticks hnow hlast
        (h.stored r (mem_middle _ _ r)).row (hseen c (hlast ▸ List.mem_singleton_self c))
    have hsets : o.layout.sets .touch (Session.stamped o horizon outcome now row) =
        o.layout.seenCells now := sets_touch hs.names
    rw [← hsets] at hcheck
    have hcolumns : ∀ c ∈ o.layout.insertColumns,
        Table.Has { t with rows := before ++ r :: after } c := fun c hc => hspelled.has hc
    obtain ⟨hpicked, hothers⟩ := hone.picks_open hs h hticks hnow (.inr (.inl rfl))
    obtain ⟨db', hrun⟩ := run_changes hids hmain hcolumns hs.names (.inr (.inr (.inl rfl))) hst rfl
      (h.kept hs) hfind hpicked hothers hcheck
    refine ⟨db', ?_⟩
    rw [htracks]
    show (o.layout.run .touch { row := Session.stamped o horizon outcome now row } db).bind _ = _
    rw [hrun]
    rfl

/-! ## 2. Rows that were seen again -/

/-- Two rows have the same cells, but for when they were seen. -/
def Alike (l : Layout) (t : Table) (r r' : List Cell) : Prop :=
  r'.length = r.length ∧ ∀ i, (∀ c ∈ l.names.lastSeen.toList, t.place c ≠ i) → r'[i]? = r[i]?

theorem Alike.refl (l : Layout) (t : Table) (r : List Cell) : l.Alike t r r :=
  ⟨rfl, fun _ _ => rfl⟩

theorem Alike.trans {r'' : List Cell} (h : l.Alike t r r') (h' : l.Alike t r' r'') : l.Alike t r r'' :=
  ⟨h'.1.trans h.1, fun i hi => (h'.2 i hi).trans (h.2 i hi)⟩

/-- A row that is seen is like the one before. -/
theorem alike_seen (hs : l.Suits t) (hr : l.Stored t r) : l.Alike t r (t.put (l.seenCells now) r) := by
  unfold seenCells
  cases hc : l.names.lastSeen with
  | none =>
    rw [Option.toList_none, List.map_nil, Table.put_nil hr.row.length]
    exact .refl l t r
  | some c =>
    have hmem : c ∈ l.names.lastSeen.toList := by rw [hc]; exact List.mem_singleton_self c
    have hhas : t.Has c := hr.columns c (updateColumns_insert (lastSeen_update hmem))
    rw [Option.toList_some, List.map_singleton, Table.put_single hs.columns hhas hr.row.length]
    exact ⟨List.length_set, fun i hi => List.getElem?_set_ne (hi c hmem)⟩

/-- All but what is seen is the same in rows that are alike. -/
theorem Alike.cell (hspelled : l.Spelled t) (h : l.Alike t r r') {c : String} (hc : c ∈ l.insertColumns)
    (hne : ∀ d ∈ l.names.lastSeen.toList, d.toLower ≠ c.toLower) : t.cell r' c = t.cell r c := by
  have hplace : ∀ d ∈ l.names.lastSeen.toList, t.place d ≠ t.place c := by
    intro d hd heq
    have hnodup : ([d, c].map t.place).Nodup := Table.nodup_places (by simpa using hne d hd)
      (by simpa using ⟨hspelled.has (updateColumns_insert (lastSeen_update hd)), hspelled.has hc⟩)
    simp [heq] at hnodup
  unfold Table.cell
  rw [List.getD_eq_getElem?_getD, List.getD_eq_getElem?_getD, h.2 _ hplace]

theorem mirrored_insert {c : String} (hc : c ∈ l.mirrored) : c ∈ l.insertColumns := by
  obtain hc | hc := List.mem_append.mp hc
  · exact lasting_insert hc
  · exact updateColumns_insert (update_update hc)

theorem Alike.mirrors (hl : l.Distinct) (hspelled : l.Spelled t) (h : l.Alike t r r')
    (hmirrors : l.Mirrors t row n r) : l.Mirrors t row n r' :=
  hmirrors.congr fun _ hc => h.cell hspelled (mirrored_insert hc) fun _ hd =>
    hl.mirrored hc (List.mem_cons_of_mem _ hd)

/-- Rows that are alike show the same version. -/
theorem Alike.shows_iff (hl : l.Distinct) (hspelled : l.Spelled t) (h : l.Alike t r r') :
    l.Shows t r' v ↔ l.Shows t r v := by
  have hversion : t.cell r' l.names.version = t.cell r l.names.version :=
    h.cell hspelled (lasting_insert l.version_lasting) fun _ hd =>
      hl.lasting l.version_lasting (List.mem_cons_of_mem _ (lastSeen_update hd))
  have hfrom : t.cell r' l.names.validFrom = t.cell r l.names.validFrom :=
    h.cell hspelled (updateColumns_insert l.validFrom_update) fun _ hd => hl.lastSeen_ne hd
  have hto : t.cell r' l.names.validTo = t.cell r l.names.validTo :=
    h.cell hspelled l.validTo_insert fun _ hd => hl.validTo_ne (lastSeen_update hd)
  constructor
  · rintro ⟨hn, hf, ht, hstorable⟩
    exact ⟨hversion ▸ hn, hfrom ▸ hf, hto ▸ ht, hstorable⟩
  · rintro ⟨hn, hf, ht, hstorable⟩
    exact ⟨hversion.trans hn, hfrom.trans hf, hto.trans ht, hstorable⟩

theorem forall₂_alike_refl (rows : List (List Cell)) : List.Forall₂ (l.Alike t) rows rows :=
  List.forall₂_same.mpr fun r _ => .refl l t r

theorem forall₂_alike_trans {rows'' : List (List Cell)} (h : List.Forall₂ (l.Alike t) rows rows')
    (h' : List.Forall₂ (l.Alike t) rows' rows'') : List.Forall₂ (l.Alike t) rows rows'' := by
  induction h generalizing rows'' with
  | nil => exact h'
  | cons hr _ ih =>
    cases h' with
    | cons hr' hrest => exact .cons (hr.trans hr') (ih hrest)

/-- **An identical row is seen, and nothing else is changed.** -/
theorem Step.alike (hstep : Step l t row now horizon rows .identical n rows') (hs : l.Suits t)
    (hstored : ∀ r ∈ rows, l.Stored t r) : List.Forall₂ (l.Alike t) rows rows' := by
  cases hstep with
  | identical _ =>
    exact List.rel_append (forall₂_alike_refl _)
      (.cons (alike_seen hs (hstored _ (mem_middle _ _ _))) (forall₂_alike_refl _))

/-- The rows of the table of a layout were seen again, and nothing else was changed in a database. -/
def Reseen (l : Layout) (t : Table) (db db' : Database) : Prop :=
  ∃ rows rows', db.find? l.table = some { t with rows } ∧
    db.Sets db' l.table { t with rows := rows' } ∧ List.Forall₂ (l.Alike t) rows rows'

theorem Reseen.refl (h : db.find? l.table = some { t with rows }) : l.Reseen t db db :=
  ⟨rows, rows, h, .refl h, forall₂_alike_refl rows⟩

theorem Reseen.step {db'' : Database} (h : l.Reseen t db db')
    (hfind : db'.find? l.table = some { t with rows })
    (hsets : db'.Sets db'' l.table { t with rows := rows' })
    (halike : List.Forall₂ (l.Alike t) rows rows') : l.Reseen t db db'' := by
  obtain ⟨rows₀, rows₁, hrows, hsets₁, halike₁⟩ := h
  obtain rfl : rows₁ = rows :=
    congrArg Table.rows (Option.some.inj (hsets₁.table.symm.trans hfind))
  exact ⟨rows₀, rows', hrows, hsets₁.trans hsets, forall₂_alike_trans halike₁ halike⟩

/-- The versions that results tell of have not ended at an instant. -/
def Unended (l : Layout) (t : Table) (history : List Entry) (db : Database) (now : Instant) : Prop :=
  ∀ rows, db.find? l.table = some { t with rows } → ∀ e ∈ history, ∀ r ∈ rows,
    l.identifies t e.row r = true → ∀ v, l.Shows t r v → v.number = e.result.version →
      ∀ d ∈ v.validTo, now ≤ d

/-- **The version of a row that was loaded is the active one**, also after rows were seen again. -/
theorem Reseen.oneActive {history : List Entry} {stored : List (List Cell)} {e : Entry}
    (h : l.Reseen t db db') (hs : l.Suits t) (hspelled : l.Spelled t)
    (hstored : db.find? l.table = some { t with rows := stored }) (hloaded : l.Loaded t history stored)
    (hunended : l.Unended t history db now) (hrows : db'.find? l.table = some { t with rows })
    (hchained : l.Chained t strict ticks rows) (hticks : ∀ k ∈ ticks, k < now) (he : e ∈ history) :
    ∃ before r after v, rows = before ++ r :: after ∧ l.OneActive t e.row now before r after v ∧
      l.Mirrors t e.row e.result.version r := by
  obtain ⟨stored', rows', hstored', hsets, halike⟩ := h
  obtain rfl : stored' = stored :=
    congrArg Table.rows (Option.some.inj (hstored'.symm.trans hstored))
  obtain rfl : rows' = rows := congrArg Table.rows (Option.some.inj (hsets.table.symm.trans hrows))
  obtain ⟨r₀, hr₀, hmirrors₀⟩ := hloaded e he
  obtain ⟨r, hr, hlike⟩ := exists_right halike hr₀
  have hmirrors := hlike.mirrors hs.names hspelled hmirrors₀
  obtain ⟨v, hv⟩ := hchained.shows r hr
  have hnumber : v.number = e.result.version :=
    Cell.integer.inj (hv.number.symm.trans hmirrors.number)
  have hactive : v.ActiveAt now :=
    ⟨le_of_lt ((hchained.past hr hmirrors.identified hv).lt hticks),
      hunended _ hstored e he r₀ hr₀ hmirrors₀.identified v
        ((hlike.shows_iff hs.names hspelled).mp hv) hnumber⟩
  obtain ⟨before, after, rfl⟩ := List.append_of_mem hr
  exact ⟨before, r, after, v, rfl, hchained.oneActive hticks hmirrors.identified hv hactive, hmirrors⟩

end Layout

/-! ## 3. Sessions that are given a load again -/

/-- A result says that a row is identical, with the version that a result of the row told of before. -/
def Entry.Repeats (history : List Entry) (e : Entry) : Prop :=
  e.result.status = .identical ∧
    ∃ e₀ ∈ history, e₀.row = e.row ∧ e.result.version = e₀.result.version

namespace Session

variable [Steady σ] {l : Layout} {t : Table} {c₀ : σ} {ticks : List Instant} {base : Database}
  {history : List Entry} {stored : List (List Cell)} {s s' : Session σ}

/-- What holds while a session is given rows that were loaded. -/
structure Replays (l : Layout) (t : Table) (c₀ : σ) (ticks : List Instant) (base : Database)
    (s : Session σ) : Prop where
  reaches : Reaches l t False c₀ (.busy s) ticks
  ready : s.Ready
  durable : l.Reseen t base s.durable
  working : l.Reseen t base s.working

section Replays

variable (hsound : Transactional.Sound c₀) (hs : l.Suits t) (hempty : t.rows = [])
  (hfind : (Transactional.durable c₀).find? l.table = some t) (hmain : history ≠ [] → l.InMain)
  (hspelled : l.Spelled t) (hstored : base.find? l.table = some { t with rows := stored })
  (hloaded : l.Loaded t history stored)

include hsound hs hempty hfind

omit [Steady σ] in
/-- What is known of the table of an open session, whatever came before. -/
theorem holds_constraints (h : Reaches l t False c₀ (.busy s) ticks) (hopen : s.isOpen = true) :
    s.working.ConsistentAt l.table ∧ ∀ {rows}, s.working.find? l.table = some { t with rows } →
      ∀ c ∈ l.names.lastSeen.toList, l.Seen t c ticks rows := by
  have hstart : (Transactional.durable c₀).ConsistentAt l.table := by
    intro t' ht'
    obtain rfl : t = t' := Option.some.inj (hfind.symm.trans ht')
    rw [hempty]
    exact t.consistent_nil
  refine ⟨((h.runs.keeps (Layout.keeps_consistent _ _) hsound hs hempty hfind hstart).2.2 hopen),
    fun hrows c hc => ?_⟩
  have hnone : ∃ rows, (Transactional.durable c₀).find? l.table = some { t with rows } ∧
      l.Seen t c [] rows := ⟨[], hfind.trans (by rw [← hempty]), List.forall_mem_nil _⟩
  obtain ⟨rows', hrows', hseen⟩ :=
    (h.runs.keeps (Layout.keeps_seen hs hc _) hsound hs hempty hfind hnone).2.2 hopen
  obtain rfl := congrArg Table.rows (Option.some.inj (hrows'.symm.trans hrows))
  exact hseen

include hspelled

/-- **A row that the active version has is told to be identical.** -/
theorem mirrored_identical {row : Row} {n : Int} {before after : List (List Cell)} {r : List Cell}
    {v : Version} (h : Reaches l t False c₀ (.busy s) ticks) (hready : s.Ready) (hmain : l.InMain)
    (hrows : s.working.find? l.table = some { t with rows := before ++ r :: after })
    (hone : l.OneActive t row s.clock.next before r after v) (hmirrors : l.Mirrors t row n r)
    (hidentified : missingIdentifier? s.options row = none) (hyears : s.clock.next.InYears) :
    ∃ result s', s.processAs row none = (.ok (some result), s') ∧ result.status = .identical ∧
      result.version = n ∧ s'.Ready := by
  have hholds : s.Holds l t False ticks := h.holds hsound hs hempty hfind
  have hnow : s.clock.next.IsStorable := ⟨hholds.whole.next, hyears⟩
  obtain ⟨rows, hrows', hchained⟩ := hholds.working hready.isOpen
  obtain rfl : rows = before ++ r :: after :=
    congrArg Table.rows (Option.some.inj (hrows'.symm.trans hrows))
  obtain ⟨hconsistent, hseen⟩ := holds_constraints hsound hs hempty hfind h hready.isOpen
  have hseen := hseen hrows
  have hids := hholds.ids
  obtain rfl := hholds.layout
  have hjudged := hmirrors.judged hids hmain hspelled hs hnow hchained hrows hone
  obtain ⟨db, hwritten⟩ := Layout.written_identical s.validTo ⟨.identical, n⟩ hids hmain
    hspelled hs hchained hrows hconsistent hseen hholds.after hnow hone
  obtain ⟨hresult, hready'⟩ := processRow_ready hready none hidentified hjudged hwritten
  have hprocess := processAs_permitted (s := s) (.inl rfl) row
  exact ⟨_, _, hprocess.trans (Prod.ext hresult rfl), rfl, rfl, hready'⟩

include hmain hstored hloaded

/-- **A row that was loaded is told to be identical.** -/
theorem Replays.row (h : Replays l t c₀ ticks base s) {e : Entry} (he : e ∈ history)
    (hadmissible : l.Admissible t e.row) (hidentified : missingIdentifier? s.options e.row = none)
    (hyears : s.clock.next.InYears) (hunended : l.Unended t history base s.clock.next) :
    ∃ result s', s.processAs e.row none = (.ok (some result), s') ∧ result.status = .identical ∧
      result.version = e.result.version ∧ s'.clock = s.clock.tick.2 ∧ Same s s' ∧
      Replays l t c₀ (s.clock.next :: ticks) base s' := by
  have hholds : s.Holds l t False ticks := h.reaches.holds hsound hs hempty hfind
  obtain ⟨rows, hrows, hchained⟩ := hholds.working h.ready.isOpen
  obtain ⟨before, r, after, v, rfl, hone, hmirrors⟩ := h.working.oneActive hs hspelled hstored hloaded
    hunended hrows hchained hholds.after he
  obtain ⟨result, s', hprocess, hstatus, hversion, hready⟩ := mirrored_identical hsound hs hempty hfind
    hspelled h.reaches h.ready (hmain (List.ne_nil_of_mem he)) hrows hone hmirrors hidentified hyears
  have htells : s.Tells l t ⟨e.row, none, s.clock.next, result⟩ s' := ⟨hadmissible, rfl, hyears, hprocess⟩
  have htold := htells.spec hs hholds
  obtain ⟨rows, rows', hrows, hchained, hstep, hsets, -⟩ := htold.step
  rw [hstatus] at hstep
  have hworking := h.working.step hrows hsets (hstep.alike hs hchained.stored)
  have hnext := h.reaches.processed hadmissible hyears hprocess
  rw [ticked_tick htold.clock] at hnext
  refine ⟨result, s', hprocess, hstatus, hversion, htold.clock, htold.same, hnext, hready, ?_, hworking⟩
  obtain hdurable | hdurable := htold.applied.committed
  · exact hdurable ▸ h.durable
  · exact hdurable ▸ hworking

/-- **Rows that were loaded are told to be identical**, one after the other. -/
theorem Replays.tell (h : Replays l t c₀ ticks base s) {replay : List Row}
    (hrows : ∀ row ∈ replay, (∃ e ∈ history, e.row = row) ∧ l.Admissible t row ∧
      missingIdentifier? s.options row = none)
    (hticks : ∀ k ∈ s.clock.ticks replay.length, k.InYears ∧ l.Unended t history base k)
    (earlier : List Entry) :
    ∃ told s' ticks', s.tell (replay.map fun row => (row, none)) earlier = some (told ++ earlier, s') ∧
      (∀ e ∈ told, e.Repeats history) ∧ Replays l t c₀ ticks' base s' := by
  induction replay generalizing s ticks earlier with
  | nil => exact ⟨[], s, ticks, rfl, List.forall_mem_nil _, h⟩
  | cons row replay ih =>
    obtain ⟨⟨⟨e, he, rfl⟩, hadmissible, hidentified⟩, hothers⟩ := List.forall_mem_cons.mp hrows
    obtain ⟨⟨hyears, hunended⟩, hlater⟩ := List.forall_mem_cons.mp hticks
    obtain ⟨result, s₁, hprocess, hstatus, hversion, hclock, hsame, hnext⟩ := h.row hsound hs hempty
      hfind hmain hspelled hstored hloaded he hadmissible hidentified hyears hunended
    rw [← hclock] at hlater
    rw [← hsame.options] at hothers
    obtain ⟨told, s', ticks', hrest, htold, hreplays⟩ :=
      ih hnext hothers hlater (⟨e.row, none, s.clock.next, result⟩ :: earlier)
    refine ⟨told ++ [⟨e.row, none, s.clock.next, result⟩], s', ticks', ?_, ?_, hreplays⟩
    · rw [List.append_assoc, List.singleton_append, ← hrest]
      simp only [List.map_cons, Session.tell, hprocess]
    · intro e' he'
      obtain he' | he' := List.mem_append.mp he'
      · exact htold e' he'
      · obtain rfl := List.mem_singleton.mp he'
        exact ⟨hstatus, e, he, rfl, hversion⟩

end Replays

end Session

/-- **A load that comes again changes nothing.** A session on a table that earlier sessions left is
given rows of JSON, and finishes; a later session is given some of these rows again, in any order, as
long as the versions of the load have not ended. Each of them is told to be identical, with the version
of the load, and no cell changes but when rows were seen. -/
theorem replay_changes_nothing [Steady σ] {l : Layout} {t : Table} {c₀ : σ} {ticks : List Instant}
    {s s₁ s' s₂ : Session σ} {rows replay : List Row} {history : List Entry} {clock : Clock}
    {id : String}
    (hsound : Transactional.Sound c₀) (hs : l.Suits t) (hempty : t.rows = [])
    (hfind : (Transactional.durable c₀).find? l.table = some t) (hspelled : l.Spelled t)
    (hexact : l.IsExact)
    -- the load
    (hreached : Reaches l t False c₀ (.busy s) ticks) (hload : ∀ row ∈ rows, l.Loadable t row)
    (hnodup : (rows.map (l.identifier t)).Nodup)
    (htold : s.tell (rows.map fun row => (row, none)) [] = some (history, s₁))
    (hyears : ∀ e ∈ history, e.tick.InYears) (hfinish : s₁.finish = (.ok (), s'))
    (hended : ∀ k ∈ s₁.ticked s', k.InYears)
    -- the session that comes later, and that nobody disturbs
    (hfree : Steady.Free s'.storage.connection) (hclock : clock.IsWhole)
    (hbegin : Session.begin s.options clock id s'.storage.connection = .ok s₂)
    (hstart : s₂.start.InYears) (hhorizon : ∀ e ∈ s₂.validTo, e.InYears)
    (hlater : ∀ k ∈ s₁.ticked s' ++ (history.map Entry.tick ++ ticks), k < s₂.clock.next)
    (hagain : ∀ row ∈ replay, row ∈ rows)
    (hticks : ∀ k ∈ s₂.clock.ticks replay.length, k.InYears ∧ l.Unended t history s'.durable k) :
    ∃ told s₃, s₂.tell (replay.map fun row => (row, none)) [] = some (told, s₃) ∧
      told.map Entry.row = replay.reverse ∧ (∀ e ∈ told, e.Repeats history) ∧
      l.Reseen t s'.durable s₃.durable ∧ l.Reseen t s'.durable s₃.working := by
  have hholds : s.Holds l t False ticks := hreached.holds hsound hs hempty hfind
  have hnames := Session.nodup_names hholds.fit
  rw [hholds.layout] at hnames
  have hidentified : ∀ row ∈ rows, Session.missingIdentifier? s.options row = none := fun row hrow =>
    Session.tell_identified hholds.fit htold (row, none) (List.mem_map_of_mem hrow)
  have hadmissible : ∀ row ∈ rows, l.Admissible t row := by
    intro row hrow
    have hpresent := Session.present_of_identified (hidentified row hrow)
    rw [hholds.layout] at hpresent
    exact (hload row hrow).admissible hexact hnames hpresent
  obtain ⟨hisLoad, hhistory⟩ := Session.isLoad_of_tell hexact hnames hload hnodup htold
  have hloads := Session.loads_of_tell hsound hs hempty hfind hspelled hexact hreached htold
    (List.forall_mem_map.mpr hadmissible) hyears
  obtain ⟨hidle, stored, hstored, hloaded⟩ :=
    hloads.finished hsound hs hempty hfind hisLoad hfinish hended
  obtain ⟨-, hoptions, -, hdurable, hworking, -, -, hprepare⟩ :=
    Session.begin_spec (Steady.sound hfree) hbegin
  obtain ⟨s₂', hbegin', hready⟩ := Session.begin_ready hfree hprepare id
  obtain rfl : s₂ = s₂' := Except.ok.inj (hbegin.symm.trans hbegin')
  have hreplays : Session.Replays l t c₀ _ s'.durable s₂ :=
    ⟨.opened hidle hholds.layout False.elim hclock hbegin hstart hhorizon hlater, hready,
      hdurable ▸ .refl hstored, hworking ▸ .refl hstored⟩
  have hrows : ∀ row ∈ replay, (∃ e ∈ history, e.row = row) ∧ l.Admissible t row ∧
      Session.missingIdentifier? s₂.options row = none := by
    intro row hrow
    have hmem := hagain row hrow
    refine ⟨?_, hadmissible row hmem, by rw [hoptions]; exact hidentified row hmem⟩
    have hrow' : row ∈ history.map Entry.row := hhistory ▸ List.mem_reverse.mpr hmem
    exact List.mem_map.mp hrow'
  obtain ⟨told, s₃, ticks₃, hrun, hrepeats, hkept⟩ := hreplays.tell hsound hs hempty hfind hloads.main
    hspelled hstored hloaded hrows hticks []
  rw [List.append_nil] at hrun
  refine ⟨told, s₃, hrun, ?_, hrepeats, hkept.durable, hkept.working⟩
  have hcalls := congrArg (List.map Prod.fst) (Session.tell_calls hrun)
  rw [List.map_nil, List.append_nil, ← List.map_reverse, List.map_map, List.map_map] at hcalls
  exact hcalls.trans (List.map_id _)

/-! ## 4. Items that come again -/

namespace Sample

/-- The items of a load, and their sizes. -/
def loaded : List (Int × Int) :=
  [(1, 2), (2, 5)]

def loadedRows : List Row :=
  loaded.map fun p => item p.1 "n" p.2

theorem loadable_items : ∀ row ∈ loadedRows, synced.layout.Loadable (items .integer) row := by
  have hread : ∀ p ∈ loaded, okAnd (synced.layout.fields.rowOfJson
      (.obj [("i", .int p.1), ("n", .int p.2)])) (fun row => decide (item p.1 "n" p.2 = row)) = true := by
    decide +kernel
  have hreturned : ∀ row ∈ loadedRows, ∀ f ∈ synced.layout.fields.fields, f.kind.Counts →
      ((items .integer).affinityOf f.name).store (Cell.ofValue (row.value f.name)) =
        Cell.ofValue (row.value f.name) := by
    decide +kernel
  intro row hrow
  refine ⟨?_, hreturned row hrow⟩
  obtain ⟨p, hp, rfl⟩ := List.mem_map.mp hrow
  obtain ⟨row, hrow, heq⟩ := exists_of_okAnd (hread p hp)
  exact ⟨_, of_decide_eq_true heq ▸ hrow⟩

/-- A connection that was left, to a database that nobody else uses. -/
def Left (c : Traced Store) : Prop :=
  c.triggers = [] ∧
    c.inner = { target := .file "items.db", file := { content := c.inner.file.content } }

instance (c : Traced Store) : Decidable (Left c) :=
  inferInstanceAs (Decidable (_ ∧ _))

theorem free_of_left {c : Traced Store} (h : Left c) : Steady.Free c := by
  refine ⟨?_, h.1⟩
  rw [h.2]
  exact ⟨⟨rfl, rfl⟩, rfl, rfl, rfl, rfl, fun _ h => nomatch h⟩

/-- The versions that results tell of end at an instant. -/
def EndAt (l : Layout) (history : List Entry) (horizon : Instant) (db : Database) : Prop :=
  ∀ t ∈ db.find? l.table, ∀ r ∈ t.rows, ∀ e ∈ history, l.identifies t e.row r = true →
    t.cell r l.names.version = .integer e.result.version →
      t.cell r l.names.validTo = .text horizon.storageText

instance (l : Layout) (history : List Entry) (horizon : Instant) (db : Database) :
    Decidable (EndAt l history horizon db) :=
  inferInstanceAs (Decidable (∀ t ∈ db.find? l.table, _))

theorem EndAt.unended {l : Layout} {history : List Entry} {horizon now : Instant} {db : Database}
    (h : EndAt l history horizon db) (hhorizon : horizon.IsStorable) (hle : now ≤ horizon) (t : Table) :
    l.Unended t history db now := by
  intro rows hrows e he r hr hid v hv hnumber d hd
  have hend := h _ hrows r hr e he hid (hv.number.trans (congrArg Cell.integer hnumber))
  have htext : Cell.text d.storageText = .text horizon.storageText := by
    have hcell := hv.validTo
    rw [Option.mem_def.mp hd] at hcell
    exact hcell.symm.trans hend
  rw [Instant.storageText_inj (hv.storable.2 d hd) hhorizon (Cell.text.inj htext)]
  exact hle

/-- The items, in a table that has their sizes under another spelling. -/
def misspelled : Traced Store :=
  { itemStore .integer [] with inner := { target := .file "items.db", file := { content := ⟨[
      { items .integer with columns := [⟨"i", .integer, false⟩, ⟨"N", .integer, false⟩,
        ⟨"v", .integer, false⟩, ⟨"f", .text, false⟩, ⟨"t", .text, false⟩]}]⟩ } } }

/-- An item comes, and in the next session it comes again, which tells results of it. -/
def Reloads (o : Options) (c : Traced Store) (row : Row) (results : List (RowStatus × Int)) : Prop :=
  ∃ s₁ s₂ s₃ history, ran o c (loading row) = some s₁ ∧ reload o s₁.storage.connection = .ok s₂ ∧
    s₂.tell [(row, none)] [] = some (history, s₃) ∧
    history.map (fun e => (e.result.status, e.result.version)) = results

theorem reloads_of_any {o : Options} {c : Traced Store} {row : Row} {results : List (RowStatus × Int)}
    (h : (ran o c (loading row)).any (fun s₁ => okAnd (reload o s₁.storage.connection) fun s₂ =>
      (s₂.tell [(row, none)] []).any fun told =>
        decide (told.1.map (fun e => (e.result.status, e.result.version)) = results)) = true) :
    Reloads o c row results := by
  obtain ⟨s₁, hran, hs₁⟩ := (Option.any_eq_true _ _).mp h
  obtain ⟨s₂, hbegin, hs₂⟩ := exists_of_okAnd hs₁
  obtain ⟨⟨history, s₃⟩, htold, hresults⟩ := (Option.any_eq_true _ _).mp hs₂
  exact ⟨s₁, s₂, s₃, history, hran, hbegin, htold, of_decide_eq_true hresults⟩

end Sample

/-- Two items come, one of them with another size than before, and come again in the next session. -/
theorem reloaded_items_identical :
    ∃ (s s₁ s' s₂ s₃ : Session (Traced Store)) (history told : List Entry),
      s.tell (Sample.loadedRows.map fun row => (row, none)) [] = some (history, s₁) ∧
      history.map (fun e => (e.result.status, e.result.version)) = [(.new, 1), (.changed, 2)] ∧
      s₁.finish = (.ok (), s') ∧ Sample.reload Sample.synced s'.storage.connection = .ok s₂ ∧
      s₂.tell (Sample.loadedRows.reverse.map fun row => (row, none)) [] = some (told, s₃) ∧
      told.map Entry.row = Sample.loadedRows ∧ (∀ e ∈ told, e.Repeats history) ∧
      Sample.synced.layout.Reseen (Sample.items .integer) s'.durable s₃.durable ∧
      Sample.synced.layout.Reseen (Sample.items .integer) s'.durable s₃.working := by
  have hcheck : okAnd (Session.begin Sample.synced Sample.clock "sample"
      (Sample.itemStore .integer [])) (fun s₀ =>
      decide (s₀.start.InYears ∧ (∀ e ∈ s₀.validTo, e.InYears) ∧ s₀.clock.next.InYears) &&
      Sample.resultAnd (s₀.processAs (Sample.item 1 "n" 1) none) fun _ s =>
        (s.tell (Sample.loadedRows.map fun row => (row, none)) []).any fun told =>
          decide ((∀ e ∈ told.1, e.tick.InYears) ∧
            told.1.map (fun e => (e.result.status, e.result.version)) = [(.new, 1), (.changed, 2)] ∧
            (∀ k ∈ told.2.ticked told.2.finish.2, k.InYears) ∧
            Sample.EndAt Sample.synced.layout told.1 (Instant.ofSeconds 4859740800)
              told.2.finish.2.durable ∧
            Sample.Left told.2.finish.2.storage.connection) &&
          okAnd told.2.finish.1 (fun _ => true) &&
          okAnd (Sample.reload Sample.synced told.2.finish.2.storage.connection) fun s₂ =>
            decide (s₂.start.InYears ∧ (∀ e ∈ s₂.validTo, e.InYears) ∧
              (∀ k ∈ told.2.ticked told.2.finish.2 ++ (told.1.map Entry.tick ++ (s₀.ticked s ++ [])),
                k < s₂.clock.next) ∧
              ∀ k ∈ s₂.clock.ticks 2, k.InYears ∧ k ≤ Instant.ofSeconds 4859740800)) = true := by
    unfold Sample.reload
    rw [Sample.durable_eq, Store.connection_eq Sample.synced]
    decide +kernel
  obtain ⟨s₀, hbegin₀, hs₀⟩ := exists_of_okAnd hcheck
  obtain ⟨hopening, hrow⟩ := Bool.and_eq_true_iff.mp hs₀
  obtain ⟨hstart₀, hhorizon₀, hnext₀⟩ := of_decide_eq_true hopening
  obtain ⟨result, s, hprocess, htell⟩ := Sample.exists_of_resultAnd hrow
  obtain ⟨⟨history, s₁⟩, htold, hload⟩ := (Option.any_eq_true _ _).mp htell
  obtain ⟨hload, hagain⟩ := Bool.and_eq_true_iff.mp hload
  obtain ⟨hload, hend⟩ := Bool.and_eq_true_iff.mp hload
  obtain ⟨hyears, hstatus, hended, hends, hleft⟩ := of_decide_eq_true hload
  obtain ⟨u, hok, -⟩ := exists_of_okAnd hend
  obtain ⟨s₂, hbegin, hs₂⟩ := exists_of_okAnd hagain
  obtain ⟨hstart, hhorizon, hlater, hticks⟩ := of_decide_eq_true hs₂
  have hsound : Transactional.Sound (Sample.itemStore .integer []) :=
    ⟨⟨rfl, rfl⟩, List.forall_mem_nil _⟩
  have hfinish : s₁.finish = (.ok (), s₁.finish.2) := Prod.ext hok rfl
  obtain ⟨hfit, hoptions₀, -⟩ := Session.begin_spec hsound hbegin₀
  have hoptions : s.options = Sample.synced :=
    (Session.identified_of_told hfit hprocess).2.2.options.trans hoptions₀
  have hreached : Reaches Sample.synced.layout (Sample.items .integer) False
      (Sample.itemStore .integer []) (.busy s) (s₀.ticked s ++ []) :=
    Reaches.processed (.opened .start rfl False.elim (Clock.isWhole_startingAt _) hbegin₀ hstart₀
      hhorizon₀ (List.forall_mem_nil _)) (by decide +kernel) hnext₀ hprocess
  have hhorizon' : (Instant.ofSeconds 4859740800).IsStorable := ⟨by decide +kernel, by decide +kernel⟩
  rw [Sample.reload, ← hoptions] at hbegin
  obtain ⟨told, s₃, hrun, hrows, hrepeats, hdurable, hworking⟩ := replay_changes_nothing hsound
    Sample.suits_synced rfl (by decide +kernel) (by decide +kernel) (by decide +kernel) hreached
    Sample.loadable_items (by decide +kernel) htold hyears hfinish hended (Sample.free_of_left hleft)
    (Clock.isWhole_startingAt _) hbegin hstart hhorizon hlater (fun row => List.mem_reverse.mp)
    fun k hk => ⟨(hticks k hk).1, hends.unended hhorizon' (hticks k hk).2 _⟩
  rw [hoptions] at hbegin
  rw [List.reverse_reverse] at hrows
  exact ⟨s, s₁, _, s₂, s₃, history, told, htold, hstatus, hfinish, hbegin, hrun, hrows, hrepeats,
    hdurable, hworking⟩

/-- An item that comes again is not identical if its size is not spelled as in the table, or if it has
the name of the version column. -/
theorem reloaded_item_changed :
    Sample.Reloads (Sample.sizes "n" none) Sample.misspelled (Sample.item 1 "n" 1) [(.changed, 2)] ∧
    Sample.Reloads (Sample.sizes "V" none) (Sample.itemStore .integer []) (Sample.item 1 "V" 7)
      [(.changed, 8)] := by
  refine ⟨Sample.reloads_of_any ?_, Sample.reloads_of_any ?_⟩ <;> unfold Sample.ran Sample.reload
  · rw [Store.connection_eq (Sample.sizes "n" none)]
    decide +kernel
  · rw [Store.connection_eq (Sample.sizes "V" none)]
    decide +kernel

end RowHistory
