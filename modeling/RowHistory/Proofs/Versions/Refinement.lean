import RowHistory.Proofs.Session.Calls
import RowHistory.Proofs.Versions.Chain
import RowHistory.Proofs.Versions.Statements

/-!
# Sessions take the steps of the machine

A row that a session judges and writes with statements changes the table as one step of the machine
of versions. This file fixes, for a table whose identifiers have chains,

* how an incoming row stands to the stored ones (`Layout.Standing`), which is what a judgement finds
  (`Judged.standing`);
* the one row that a change picks (`change_one`), and the row that an insertion adds (`insert_one`);
* that a row which is written takes a step (`Applied.step`).
-/

namespace RowHistory

open Sql

namespace Layout

variable {l : Layout} {t : Table} {r r' : List Cell} {row : Row} {now : Instant} {v v' : Version}
  {strict : Prop} {ticks : List Instant} {rows before after : List (List Cell)} {db db' : Database}

/-! ## 1. Standings -/

/-- How an incoming row stands to the stored ones, in terms of its outcome. -/
inductive Standing (l : Layout) (t : Table) (row : Row) (now : Instant) :
    List (List Cell) → Outcome → Prop
  /-- One version is active. -/
  | active {before after : List (List Cell)} {r : List Cell} {v : Version} {natural : Outcome} :
      l.OneActive t row now before r after v →
      natural = ⟨.changed, v.number + 1⟩ ∨ natural = ⟨.update, v.number⟩ ∨
        natural = ⟨.identical, v.number⟩ → Standing l t row now (before ++ r :: after) natural
  /-- Versions are stored, and none is active. -/
  | outdated {rows : List (List Cell)} {r : List Cell} {v : Version} : r ∈ rows →
      l.identifies t row r = true → l.Shows t r v → l.NoneActive t row now rows →
      (∀ r' ∈ rows, l.identifies t row r' = true → ∃ v', l.Shows t r' v' ∧ v'.number ≤ v.number) →
      Standing l t row now rows ⟨.outdated, v.number + 1⟩
  /-- Nothing is stored. -/
  | new {rows : List (List Cell)} : (∀ r ∈ rows, l.identifies t row r = false) →
      Standing l t row now rows ⟨.new, 1⟩

theorem Chained.kept (h : l.Chained t strict ticks rows) (hs : l.Suits t) :
    l.Kept { t with rows } := by
  refine ⟨hs.columns, fun r hr => ⟨(h.stored r hr).row.length, (h.stored r hr).row.stored⟩, ?_⟩
  intro hne
  obtain ⟨r, hr⟩ := List.exists_mem_of_ne_nil rows hne
  exact (h.stored r hr).columns

/-- **A version that is active is the only one.** -/
theorem Chained.oneActive (h : l.Chained t strict ticks (before ++ r :: after))
    (hticks : ∀ k ∈ ticks, k < now) (hid : l.identifies t row r = true) (hshow : l.Shows t r v)
    (hactive : v.ActiveAt now) : l.OneActive t row now before r after v := by
  refine ⟨hid, hshow, hactive, fun r' hr' hid' => ?_⟩
  have hchain := h.chains row
  rw [List.filter_append, List.filter_cons_of_pos hid, List.map_append, List.map_cons,
    hshow.eq_shown] at hchain
  have hlast := hchain.active_last hticks hactive
  obtain hr' | hr' := List.mem_append.mp hr'
  · have hv' := shows_shown (h.shows r' (List.mem_append_left _ hr'))
    refine ⟨l.shown t r', hv', fun hactive' => ?_⟩
    have hmem : l.shown t r' ∈ (before.filter (l.identifies t row)).map (l.shown t) :=
      List.mem_map_of_mem (List.mem_filter.mpr ⟨hr', hid'⟩)
    obtain ⟨e, he, hpast, -⟩ :=
      ((List.pairwise_append.mp hchain.ordered).2.2 _ hmem v List.mem_cons_self).ends
    exact absurd (hactive'.2 e he) (not_le.mpr (hpast.lt hticks))
  · have hempty := List.map_eq_nil_iff.mp hlast
    exact absurd (List.mem_filter.mpr ⟨hr', hid'⟩) (hempty ▸ List.not_mem_nil)

/-- The number that comes back of a row is the one that it shows. -/
theorem version_record (hd : t.Distinct) (hshow : l.Shows t r v) {record : Record}
    (h : Record.ofRow l.names (Store.rowOfCells ((t.columns.map Column.name).zip r)) = .ok record) :
    record.version = v.number := by
  obtain ⟨n, hn, hrest⟩ := ok_of_bind h
  obtain ⟨_, -, hrest⟩ := ok_of_bind hrest
  obtain ⟨_, -, hrest⟩ := ok_of_bind hrest
  cases hrest
  obtain hvalue | hvalue := Table.value_rowOfCells (r := r) hd l.names.version
  · rw [hvalue, hshow.number] at hn
    exact (Except.ok.inj hn).symm
  · rw [hvalue] at hn
    cases hn

/-- **What a selection gives back** from a table of versions: the row of the greatest version that it
picks. -/
theorem select_shown (hids : l.fields.names .id ≠ []) (hkept : l.Kept { t with rows })
    (hshows : ∀ r ∈ rows, ∃ v, l.Shows t r v) (hfind : db.find? l.table = some { t with rows })
    {kind : StatementKind} (hkind : kind = .latest ∨ kind = .active) {b : Binding} {answer : Answer}
    (hrun : l.run kind b db = some (answer, db')) :
    (answer.record? l.names = .ok none ∧ ∀ r ∈ rows, l.picks kind b t r = false) ∨
    ∃ r ∈ rows, l.picks kind b t r = true ∧ answer.record? l.names = (Record.ofRow l.names
        (Store.rowOfCells ((t.columns.map Column.name).zip r))).map some ∧
      ∀ r' ∈ rows, l.picks kind b t r' = true → (l.shown t r').number ≤ (l.shown t r).number := by
  obtain ⟨t', ht', hselect⟩ := run_select hids hkind hrun
  rw [hfind] at ht'
  cases ht'
  have hnumber : ∀ r ∈ rows, t.cell r l.names.version = .integer (l.shown t r).number :=
    fun r hr => (shows_shown (hshows r hr)).number
  have hversion : ∀ r ∈ rows, l.picks kind b { t with rows } r = true →
      ∀ x, t.cell r l.names.version ≠ .real x := fun r hr _ x => by
    rw [hnumber r hr]
    exact nofun
  obtain ⟨hnone, hpicks⟩ | ⟨r, hr, hpicked, hrow, hmax⟩ := hselect hkept.columns hversion
  · exact .inl ⟨by rw [Answer.record?, hnone], hpicks⟩
  · refine .inr ⟨r, hr, hpicked, by rw [Answer.record?, hrow], fun r' hr' hp' => ?_⟩
    have hge : (t.cell r l.names.version).order (t.cell r' l.names.version) ≠ .lt := hmax r' hr' hp'
    rw [hnumber r hr, hnumber r' hr'] at hge
    exact Int.not_lt.mp fun hlt => hge (Int.compare_eq_lt.mpr hlt)

/-- What a selection finds, by the version that it shows. -/
theorem Chained.select (hids : l.fields.names .id ≠ []) (hs : l.Suits t)
    (h : l.Chained t strict ticks rows) (hfind : db.find? l.table = some { t with rows })
    {kind : StatementKind} (hkind : kind = .latest ∨ kind = .active) {b : Binding} {answer : Answer}
    (hrun : l.run kind b db = some (answer, db')) :
    (answer.record? l.names = .ok none ∧ ∀ r ∈ rows, l.picks kind b t r = false) ∨
    ∃ r ∈ rows, ∃ v, l.picks kind b t r = true ∧ l.Shows t r v ∧
      (∀ found, answer.record? l.names = .ok found → ∃ record, found = some record ∧
        record.version = v.number) ∧
      ∀ r' ∈ rows, l.picks kind b t r' = true → ∃ v', l.Shows t r' v' ∧ v'.number ≤ v.number := by
  obtain hnone | ⟨r, hr, hpicked, hrow, hmax⟩ :=
    select_shown hids (h.kept hs) h.shows hfind hkind hrun
  · exact .inl hnone
  · have hshow := shows_shown (h.shows r hr)
    refine .inr ⟨r, hr, _, hpicked, hshow, fun found hfound => ?_, fun r' hr' hp' =>
      ⟨_, shows_shown (h.shows r' hr'), hmax r' hr' hp'⟩⟩
    rw [hrow] at hfound
    obtain ⟨record, hrecord, rfl⟩ := ok_of_map hfound
    exact ⟨record, rfl, version_record hs.columns hshow hrecord⟩

end Layout

/-- What a comparison with the active version can say. -/
theorem Classification.againstActive_ok {c : Classification} {row : Row} {active : Record}
    {natural : Outcome} (h : c.againstActive row active = .ok natural) :
    natural = ⟨.changed, active.version + 1⟩ ∨ natural = ⟨.update, active.version⟩ ∨
      natural = ⟨.identical, active.version⟩ := by
  unfold Classification.againstActive at h
  split at h
  · cases h
  · exact .inl (Except.ok.inj h).symm
  · split at h
    · cases h
    · exact .inr (.inl (Except.ok.inj h).symm)
    · exact .inr (.inr (Except.ok.inj h).symm)

/-- **A judgement finds how a row stands.** -/
theorem Session.Judged.standing {l : Layout} {t : Table} {row : Row} {now : Instant} {strict : Prop}
    {ticks : List Instant} {rows : List (List Cell)} {db : Database} {natural : Outcome}
    (hids : l.fields.names .id ≠ []) (hs : l.Suits t) (h : l.Chained t strict ticks rows)
    (hticks : ∀ k ∈ ticks, k < now) (hnow : now.IsStorable)
    (hfind : db.find? l.table = some { t with rows }) (hjudged : Session.Judged l row now db natural) :
    l.Standing t row now rows natural := by
  cases hjudged with
  | active hrun hrecord hagainst =>
    obtain ⟨hnone, -⟩ | ⟨r, hr, v, hpicked, hshow, hversion, -⟩ :=
      h.select hids hs hfind (.inr rfl) hrun
    · rw [hrecord] at hnone
      cases hnone
    · obtain ⟨record, heq, hnumber⟩ := hversion _ hrecord
      cases heq
      obtain ⟨hid, hactive⟩ := (Layout.picks_active hshow hnow).mp hpicked
      obtain ⟨before, after, rfl⟩ := List.append_of_mem hr
      refine .active (h.oneActive hticks hid hshow hactive) ?_
      rw [← hnumber]
      exact Classification.againstActive_ok hagainst
  | latest hrun hrecord hrun' hrecord' =>
    obtain ⟨-, hpicks⟩ | ⟨r, hr, v, -, -, hversion, -⟩ := h.select hids hs hfind (.inr rfl) hrun
    · have hnone : l.NoneActive t row now rows := by
        intro r hr hid
        have hshow := Layout.shows_shown (h.shows r hr)
        refine ⟨_, hshow, fun hactive => ?_⟩
        have hpicked : l.picks .active { row, instant := some now } t r = true :=
          (Layout.picks_active hshow hnow).mpr ⟨hid, hactive⟩
        rw [hpicks r hr] at hpicked
        cases hpicked
      have hpicks : ∀ r, l.picks .latest { row } t r = l.identifies t row r :=
        Layout.picks_latest l { row } t
      obtain ⟨hlatest, hids'⟩ | ⟨r, hr, v, hpicked, hshow, hversion, hmax⟩ :=
        h.select hids hs hfind (.inl rfl) hrun'
      · rw [hrecord'] at hlatest
        cases hlatest
        exact .new fun r hr => by rw [← hpicks, hids' r hr]
      · obtain ⟨record, rfl, hnumber⟩ := hversion _ hrecord'
        show l.Standing t row now rows ⟨.outdated, record.version + 1⟩
        rw [hnumber]
        rw [hpicks] at hpicked
        refine .outdated hr hpicked hshow hnone fun r' hr' hid' => hmax r' hr' ?_
        rw [hpicks, hid']
    · obtain ⟨record, heq, -⟩ := hversion _ hrecord
      cases heq

namespace Layout

/-! ## 2. Writes -/

variable {l : Layout} {t : Table} {r r' : List Cell} {row : Row} {now : Instant} {v v' : Version}
  {strict : Prop} {ticks : List Instant} {rows before after : List (List Cell)} {db db' : Database}
  {kind : StatementKind} {answer : Answer}

theorem written_cons {kinds : List StatementKind} (h : l.written row (kind :: kinds) db = some db') :
    ∃ answer db₁, l.run kind { row } db = some (answer, db₁) ∧ l.written row kinds db₁ = some db' := by
  obtain ⟨⟨answer, db₁⟩, hrun, hrest⟩ := Option.bind_eq_some_iff.mp h
  exact ⟨answer, db₁, hrun, hrest⟩

theorem written_single (h : l.written row [kind] db = some db') :
    ∃ answer, l.run kind { row } db = some (answer, db') := by
  obtain ⟨answer, db₁, hrun, hrest⟩ := written_cons h
  cases hrest
  exact ⟨answer, hrun⟩

/-- One of several rows is changed. -/
theorem map_one {p : List Cell → Bool} {f : List Cell → List Cell} (hr : p r = true)
    (hothers : ∀ r' ∈ before ++ after, p r' = false) :
    (before ++ r :: after).map (fun r => if p r then f r else r) = before ++ f r :: after := by
  have hsame : ∀ {xs : List (List Cell)}, xs ⊆ before ++ after →
      xs.map (fun r => if p r then f r else r) = xs := by
    intro xs hxs
    refine (List.map_congr_left fun r' hr' => ?_).trans (List.map_id xs)
    rw [hothers r' (hxs hr')]
    rfl
  rw [List.map_append, List.map_cons, hsame (List.subset_append_left _ _),
    hsame (List.subset_append_right _ _), if_pos hr]

/-- **A change that picks one row sets its cells there.** -/
theorem change_one (hids : l.fields.names .id ≠ []) (hs : l.Suits t)
    (h : l.Chained t strict ticks (before ++ r :: after)) (hkind : IsChange kind)
    (hfind : db.find? l.table = some { t with rows := before ++ r :: after })
    (hrun : l.run kind { row } db = some (answer, db')) (hr : l.picks kind { row } t r = true)
    (hothers : ∀ r' ∈ before ++ after, l.picks kind { row } t r' = false) :
    db.Sets db' l.table { t with rows := before ++ t.put (l.sets kind row) r :: after } := by
  obtain ⟨t', ht', hchange⟩ := run_change hids hs.names hkind hrun
  rw [hfind] at ht'
  cases ht'
  rw [hchange (h.kept hs)]
  have hrows := map_one (f := t.put (l.sets kind row)) hr hothers
  rw [← hrows]
  exact Database.sets_replace hfind rfl

/-- **An insertion adds one row.** -/
theorem insert_one (hs : l.Suits t) (hfind : db.find? l.table = some { t with rows })
    (hrun : l.run .insert { row } db = some (answer, db')) :
    (∀ c ∈ l.insertColumns, t.Has c) ∧
      db.Sets db' l.table { t with rows := rows ++ [t.put (l.sets .insert row) t.blank] } := by
  obtain ⟨t', ht', hcolumns, hinsert⟩ := run_insert hrun
  rw [hfind] at ht'
  cases ht'
  rw [hinsert hs.columns]
  exact ⟨hcolumns, Database.sets_replace hfind rfl⟩

/-- Different versions of an identifier have different numbers. -/
theorem Chained.number_ne (h : l.Chained t strict ticks (before ++ r :: after))
    (hid : l.identifies t row r = true) (hshow : l.Shows t r v) (hr' : r' ∈ before ++ after)
    (hid' : l.identifies t row r' = true) (hshow' : l.Shows t r' v') : v'.number ≠ v.number := by
  have hnodup : (((((before ++ r :: after).filter (l.identifies t row)).map (l.shown t)).map
      Version.number)).Nodup := by
    rw [(h.chains row).numbers]
    refine List.Nodup.map (fun i j hij => ?_) List.nodup_range
    have hsum : (i : Int) + 1 = j + 1 := hij
    omega
  rw [List.filter_append, List.filter_cons_of_pos hid, List.map_append, List.map_cons, List.map_append,
    List.map_cons, List.nodup_middle, List.nodup_cons, hshow.eq_shown, ← List.map_append,
    ← List.map_append, ← List.filter_append] at hnodup
  intro heq
  refine hnodup.1 ?_
  rw [← heq, ← hshow'.eq_shown]
  exact List.mem_map_of_mem (List.mem_map_of_mem (List.mem_filter.mpr ⟨hr', hid'⟩))

section Stamped

variable {o : Options} {horizon : Option Instant} {outcome : Outcome} (hs : o.layout.Suits t)
  (h : o.layout.Chained t strict ticks (before ++ r :: after))
  (hone : o.layout.OneActive t row now before r after v)

include hs h hone

/-- An end and a touch pick the active row only. -/
theorem OneActive.picks_open (hticks : ∀ k ∈ ticks, k < now) (hnow : now.IsStorable)
    (hkind : kind = .endActive ∨ kind = .touch ∨ kind = .purgeOne) :
    o.layout.picks kind { row := Session.stamped o horizon outcome now row } t r = true ∧
    ∀ r' ∈ before ++ after,
      o.layout.picks kind { row := Session.stamped o horizon outcome now row } t r' = false := by
  refine ⟨(Layout.picks_open hs hone.shows hnow hkind).mpr ⟨hone.identified, hone.active.2⟩, ?_⟩
  intro r' hr'
  rw [← Bool.not_eq_true]
  intro hpicked
  have hmem : r' ∈ before ++ r :: after := mem_other hr'
  obtain ⟨v', hv'⟩ := h.shows r' hmem
  obtain ⟨hid, hopen⟩ := (Layout.picks_open hs hv' hnow hkind).mp hpicked
  obtain ⟨u, hu, hnot⟩ := hone.only r' hr' hid
  rw [hu.unique hv'] at hnot
  exact hnot ⟨le_of_lt ((h.past hmem hid hv').lt hticks), hopen⟩

/-- A change in place picks the active row only. -/
theorem OneActive.picks_update (hversion : outcome.version = v.number) :
    o.layout.picks .update { row := Session.stamped o horizon outcome now row } t r = true ∧
    ∀ r' ∈ before ++ after,
      o.layout.picks .update { row := Session.stamped o horizon outcome now row } t r' = false := by
  refine ⟨(Layout.picks_update hs hone.shows).mpr ⟨hone.identified, hversion.symm⟩, ?_⟩
  intro r' hr'
  rw [← Bool.not_eq_true]
  intro hpicked
  have hmem : r' ∈ before ++ r :: after := mem_other hr'
  obtain ⟨v', hv'⟩ := h.shows r' hmem
  obtain ⟨hid, hnumber⟩ := (Layout.picks_update hs hv').mp hpicked
  exact h.number_ne hone.identified hone.shows hr' hid hv' (hnumber.trans hversion)

end Stamped

/-! ## 3. Steps -/

/-- What is to be done with a row, after a status may have been forced on it. -/
inductive Decided (l : Layout) (t : Table) (row : Row) (now : Instant) :
    List (List Cell) → Outcome → Prop
  /-- It stands to the stored rows as it does by itself. -/
  | natural {rows : List (List Cell)} {outcome : Outcome} : l.Standing t row now rows outcome →
      Decided l t row now rows outcome
  /-- The active version is to be seen or ended. -/
  | forced {before after : List (List Cell)} {r : List Cell} {v : Version} {status : RowStatus} :
      l.OneActive t row now before r after v → status = .identical ∨ status = .purged →
      Decided l t row now (before ++ r :: after) ⟨status, v.number⟩
  /-- No version is active. -/
  | skipped {rows : List (List Cell)} {n : Int} : l.NoneActive t row now rows →
      Decided l t row now rows ⟨.skipped, n⟩

theorem Standing.decided {natural : Outcome} (h : l.Standing t row now rows natural)
    {forced : Option RowStatus} (hp : Session.Permitted forced) :
    l.Decided t row now rows (Session.force forced natural).1 := by
  cases forced with
  | none => exact .natural h
  | some status =>
    have hstatus : status = .identical ∨ status = .purged := by
      rcases hp with hp | hp | hp
      · cases hp
      · exact .inl (Option.some.inj hp)
      · exact .inr (Option.some.inj hp)
    cases h with
    | active hone hnatural =>
      rcases hnatural with rfl | rfl | rfl
      · show l.Decided t row now _ ⟨status, _ + 1 - 1⟩
        rw [Int.add_sub_cancel]
        exact .forced hone hstatus
      · exact .forced hone hstatus
      · exact .forced hone hstatus
    | outdated _ _ _ hnone _ => exact .skipped hnone
    | new hnone =>
      refine .skipped fun r hr hid => ?_
      rw [hnone r hr] at hid
      cases hid

section Steps

variable {o : Options} {horizon : Option Instant} {outcome : Outcome} (hs : o.layout.Suits t)
  (hids : o.layout.fields.names .id ≠ []) (hticks : ∀ k ∈ ticks, k < now) (hnow : now.IsStorable)

include hs

/-- A new version is added. -/
theorem written_insert (hfind : db.find? o.layout.table = some { t with rows })
    (hstatus : outcome.status ≠ .purged)
    (hwritten : o.layout.written (Session.stamped o horizon outcome now row) [.insert] db = some db') :
    (∀ c ∈ o.layout.insertColumns, t.Has c) ∧ db.Sets db' o.layout.table
      { t with rows := rows ++ [o.layout.freshRow t row outcome.version now horizon] } := by
  obtain ⟨answer, hrun⟩ := written_single hwritten
  obtain ⟨hcolumns, hsets⟩ := insert_one hs hfind hrun
  rw [sets_insert hs.names hstatus] at hsets
  exact ⟨hcolumns, hsets⟩

include hids hticks hnow

variable (h : o.layout.Chained t strict ticks (before ++ r :: after))
  (hone : o.layout.OneActive t row now before r after v)
  (hfind : db.find? o.layout.table = some { t with rows := before ++ r :: after })

include h hone hfind

/-- The active version ends. -/
theorem run_end (hkind : kind = .endActive ∨ kind = .purgeOne)
    (hrun : o.layout.run kind { row := Session.stamped o horizon outcome now row } db =
      some (answer, db')) :
    db.Sets db' o.layout.table { t with rows := before ++ o.layout.endedRow t now r :: after } := by
  have hkind' : kind = .endActive ∨ kind = .touch ∨ kind = .purgeOne := hkind.imp_right .inr
  have hchange : IsChange kind := by rcases hkind with rfl | rfl <;> simp [IsChange]
  obtain ⟨hr, hothers⟩ := OneActive.picks_open hs h hone hticks hnow hkind'
  have hsets := change_one hids hs h hchange hfind hrun hr hothers
  rw [sets_end hs.names hkind] at hsets
  exact hsets

/-- The active version ends, and the next one is added. -/
theorem written_replace (hstatus : outcome.status ≠ .purged)
    (hwritten : o.layout.written (Session.stamped o horizon outcome now row) [.endActive, .insert] db =
      some db') :
    db.Sets db' o.layout.table { t with rows := before ++ o.layout.endedRow t now r :: after ++
      [o.layout.freshRow t row outcome.version now horizon] } := by
  obtain ⟨answer, db₁, hrun, hrest⟩ := written_cons hwritten
  have hended := run_end hs hids hticks hnow h hone hfind (.inl rfl) hrun
  exact hended.trans (written_insert hs hended.table hstatus hrest).2

omit hticks hnow in
/-- The active version is changed in place. -/
theorem written_update (hversion : outcome.version = v.number)
    (hwritten : o.layout.written (Session.stamped o horizon outcome now row) [.update] db = some db') :
    db.Sets db' o.layout.table
      { t with rows := before ++ t.put (o.layout.renewedCells row now) r :: after } := by
  obtain ⟨answer, hrun⟩ := written_single hwritten
  obtain ⟨hr, hothers⟩ := OneActive.picks_update hs h hone hversion
  have hsets := change_one hids hs h (by simp [IsChange]) hfind hrun hr hothers
  rw [sets_update hs.names] at hsets
  exact hsets

/-- The active version is seen, or nothing is written. -/
theorem written_seen (hwritten : o.layout.written (Session.stamped o horizon outcome now row)
      (Storage.statementsOf (Mutation.ofStatus o.names.tracksLastSeen .identical)) db = some db') :
    db.Sets db' o.layout.table
      { t with rows := before ++ t.put (o.layout.seenCells now) r :: after } := by
  cases htracks : o.names.tracksLastSeen with
  | true =>
    rw [htracks] at hwritten
    obtain ⟨answer, hrun⟩ := written_single hwritten
    obtain ⟨hr, hothers⟩ := OneActive.picks_open hs h hone hticks hnow (.inr (.inl rfl))
    have hsets := change_one hids hs h (by simp [IsChange]) hfind hrun hr hothers
    rw [sets_touch hs.names] at hsets
    exact hsets
  | false =>
    rw [htracks] at hwritten
    cases hwritten
    have hseen : o.layout.seenCells now = [] := by
      unfold seenCells
      have hnone : o.layout.names.lastSeen = none := Option.not_isSome_iff_eq_none.mp
        (Bool.eq_false_iff.mp htracks)
      rw [hnone]
      rfl
    rw [hseen, Table.put_nil (h.stored r (mem_middle _ _ r)).row.length]
    exact .refl hfind

omit h hone hfind hticks hnow hids in
/-- What is decided is written, and the rows take a step. -/
theorem Decided.step (hids : o.layout.fields.names .id ≠ []) (hticks : ∀ k ∈ ticks, k < now)
    (hnow : now.IsStorable) (h : o.layout.Chained t strict ticks rows)
    (hfind : db.find? o.layout.table = some { t with rows })
    (hdecided : o.layout.Decided t row now rows outcome)
    (hwritten : o.layout.written (Session.stamped o horizon outcome now row)
      (Storage.statementsOf (Mutation.ofStatus o.names.tracksLastSeen outcome.status)) db = some db') :
    ∃ rows', o.layout.Step t row now horizon rows outcome.status outcome.version rows' ∧
      db.Sets db' o.layout.table { t with rows := rows' } ∧
      (outcome.status = .new → ∀ c ∈ o.layout.insertColumns, t.Has c) := by
  cases hdecided with
  | natural hstanding =>
    cases hstanding with
    | active hone hnatural =>
      rcases hnatural with rfl | rfl | rfl
      · have hsets := written_replace hs hids hticks hnow h hone hfind (by simp) hwritten
        exact ⟨_, .changed hone, hsets, fun h => nomatch h⟩
      · have hsets := written_update hs hids h hone hfind rfl hwritten
        exact ⟨_, .update hone, hsets, fun h => nomatch h⟩
      · have hsets := written_seen hs hids hticks hnow h hone hfind hwritten
        exact ⟨_, .identical hone, hsets, fun h => nomatch h⟩
    | outdated hr hid hshow hnone hmax =>
      obtain ⟨-, hsets⟩ := written_insert hs hfind (by simp) hwritten
      exact ⟨_, .outdated hr hid hshow hnone hmax, hsets, fun h => nomatch h⟩
    | new hnone =>
      obtain ⟨hcolumns, hsets⟩ := written_insert hs hfind (by simp) hwritten
      exact ⟨_, .new hnone, hsets, fun _ => hcolumns⟩
  | forced hone hstatus =>
    rcases hstatus with rfl | rfl
    · have hsets := written_seen hs hids hticks hnow h hone hfind hwritten
      exact ⟨_, .identical hone, hsets, fun h => nomatch h⟩
    · obtain ⟨answer, hrun⟩ := written_single hwritten
      have hsets := run_end hs hids hticks hnow h hone hfind (.inr rfl) hrun
      exact ⟨_, .purged hone, hsets, fun h => nomatch h⟩
  | skipped hnone =>
    cases hwritten
    exact ⟨_, .skipped hnone, .refl hfind, fun h => nomatch h⟩

end Steps

end Layout

namespace Session

variable {σ : Type} [Connection σ] [Transactional σ] {s s' : Session σ} {t : Table} {row : Row}
  {now : Instant} {strict : Prop} {ticks : List Instant} {rows : List (List Cell)}

/-- **A row that is written takes a step of the machine**, and all other tables stay. -/
theorem Applied.step {forced : Option RowStatus} {result : RowResult}
    (happlied : Applied row forced now s result s') (hp : Permitted forced)
    (hids : s.options.layout.fields.names .id ≠ []) (hs : s.options.layout.Suits t)
    (h : s.options.layout.Chained t strict ticks rows) (hticks : ∀ k ∈ ticks, k < now)
    (hnow : now.IsStorable)
    (hfind : s.working.find? s.options.layout.table = some { t with rows }) :
    ∃ rows', s.options.layout.Step t row now s.validTo rows result.status result.version rows' ∧
      s.working.Sets s'.working s.options.layout.table { t with rows := rows' } ∧
      (result.status = .new → ∀ c ∈ s.options.layout.insertColumns, t.Has c) := by
  obtain ⟨natural, hjudged, hresult⟩ := happlied.judged
  have hdecided := (hjudged.standing hids hs h hticks hnow hfind).decided hp
  have hwritten := happlied.written
  have hrow : result.row = stamped s.options s.validTo (force forced natural).1 now row := by rw [hresult]; rfl
  have hstatus : result.status = (force forced natural).1.status := by rw [hresult]; rfl
  have hversion : result.version = (force forced natural).1.version := by rw [hresult]; rfl
  rw [hrow, hstatus] at hwritten
  rw [hstatus, hversion]
  exact hdecided.step hs hids hticks hnow h hfind hwritten

end Session

end RowHistory
