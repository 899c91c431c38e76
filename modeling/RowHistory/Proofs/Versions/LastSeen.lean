import RowHistory.Proofs.Versions.Invariants
import RowHistory.Proofs.Versions.Results

/-!
# When versions were last seen

A column keeps when a version was last seen. Whatever sessions do, it has the text of a tick that has
passed, and not of one before the version started. This file fixes

* when a stored row was last seen (`Layout.SeenAt`), and that steps and purges keep what is known of it
  (`Step.seen`, `Seen.sweep`);
* that the rows of a table have been seen after any runs of sessions (`keeps_seen`), and end at ticks
  that have passed or beyond a limit (`Layout.Tracked`, `keeps_tracked`).
-/

namespace RowHistory

open Sql

theorem Version.validFrom_turn_le {v : Version} {status : RowStatus} {now : Instant}
    (h : v.validFrom ≤ now) : (v.turn status now).validFrom ≤ now := by
  cases status with
  | update => exact le_refl now
  | new | outdated | changed | identical | skipped | purged => exact h

theorem Version.validFrom_turn {v : Version} {status : RowStatus} {now : Instant}
    (h : status.touches = false) : (v.turn status now).validFrom = v.validFrom := by
  cases status with
  | update => cases h
  | new | outdated | changed | identical | skipped | purged => rfl

namespace Layout

variable {l : Layout} {t : Table} {c : String} {row w : Row} {now limit cutoff : Instant}
  {horizon : Option Instant} {status : RowStatus} {n : Int} {k k' : Instant}
  {rows rows' : List (List Cell)} {r r' : List Cell} {v : Version} {strict : Prop}
  {ticks ticks' : List Instant} {picked : List Cell → Bool}

/-! ## 1. Rows that were seen -/

/-- A stored row was last seen at an instant, when its version had started. -/
structure SeenAt (l : Layout) (t : Table) (c : String) (r : List Cell) (k : Instant) : Prop where
  cell : t.cell r c = .text k.storageText
  storable : k.IsStorable
  started : ∀ v, l.Shows t r v → v.validFrom ≤ k

theorem SeenAt.unique (h : l.SeenAt t c r k) (h' : l.SeenAt t c r k') : k = k' :=
  Instant.storageText_inj h.storable h'.storable (Cell.text.inj (h.cell.symm.trans h'.cell))

/-- Every row was seen at a tick that has passed. -/
def Seen (l : Layout) (t : Table) (c : String) (ticks : List Instant) (rows : List (List Cell)) :
    Prop :=
  ∀ r ∈ rows, ∃ k, l.SeenAt t c r k ∧ Past ticks k

theorem Seen.mono (hticks : ticks ⊆ ticks') (h : l.Seen t c ticks rows) : l.Seen t c ticks' rows :=
  fun r hr => (h r hr).imp fun _ hk => ⟨hk.1, hk.2.mono hticks⟩

theorem Ends.mono (hticks : ticks ⊆ ticks') (h : l.Ends t ticks limit rows) :
    l.Ends t ticks' limit rows :=
  fun r hr v hv e he => (h r hr v hv e he).imp_left (Past.mono hticks)

/-- A fresh row was seen when it was added. -/
theorem seenAt_fresh (hs : l.Suits t) (hcolumns : ∀ c ∈ l.insertColumns, t.Has c)
    (hnow : now.IsStorable) (hhorizon : ∀ e ∈ horizon, e.IsStorable)
    (hc : c ∈ l.names.lastSeen.toList) : l.SeenAt t c (l.freshRow t row n now horizon) now := by
  refine ⟨(cell_fresh hs hcolumns ?_).trans (Affinity.keepsInstants _ now hnow), hnow, fun v hv => ?_⟩
  · exact List.mem_append_right _ (List.mem_cons_of_mem _ (List.mem_cons_of_mem _
      (List.mem_cons_of_mem _ (mem_seenCells hc now))))
  · have hfresh : l.Shows t (l.freshRow t row n now horizon) ⟨n, now, horizon⟩ :=
      shows_fresh hs hcolumns hnow hhorizon
    rw [hv.unique hfresh]

/-- A row that turns was seen now, if it is active and the status says so, and else as before. -/
theorem Turned.seenAt (h : l.Turned t row now status r r') (hshow : l.Shows t r v)
    (hc : c ∈ l.names.lastSeen.toList) (hseen : l.SeenAt t c r k) (hnow : now.IsStorable)
    (hfrom : v.validFrom ≤ now) :
    l.SeenAt t c r' (if l.identifies t row r = true ∧ v.ActiveAt now ∧ status.touches = true then now
      else k) := by
  have hcell := h.seen c hc v hshow
  have hshow' := h.shows v hshow
  split
  · rename_i htouched
    rw [if_pos htouched] at hcell
    rw [if_pos ⟨htouched.1, htouched.2.1⟩] at hshow'
    refine ⟨hcell, hnow, fun v' hv' => ?_⟩
    rw [hv'.unique hshow']
    exact Version.validFrom_turn_le hfrom
  · rename_i htouched
    rw [if_neg htouched] at hcell
    refine ⟨hcell.trans hseen.cell, hseen.storable, fun v' hv' => ?_⟩
    rw [hv'.unique hshow']
    split
    · rename_i hactive
      have hstatus : status.touches = false := by
        rw [← Bool.not_eq_true]
        exact fun htouches => htouched ⟨hactive.1, hactive.2, htouches⟩
      rw [Version.validFrom_turn hstatus]
      exact hseen.started v hshow
    · exact hseen.started v hshow

/-! ## 2. What steps and purges keep -/

/-- A version that is shown has started, whichever identifier it has. -/
theorem Seen.validFrom_lt (h : l.Seen t c ticks rows) (hticks : ∀ k ∈ ticks, k < now) (hr : r ∈ rows)
    (hshow : l.Shows t r v) : v.validFrom < now := by
  obtain ⟨k, hk, hpast⟩ := h r hr
  exact lt_of_le_of_lt (hk.started v hshow) (hpast.lt hticks)

/-- **A step sees rows now**, or leaves when they were seen. -/
theorem Step.seen (hstep : Step l t row now horizon rows status n rows') (hs : l.Suits t)
    (h : l.Chained t strict ticks rows) (hticks : ∀ k ∈ ticks, k < now) (hnow : now.IsStorable)
    (hhorizon : ∀ e ∈ horizon, e.IsStorable)
    (hcolumns : status = .new → ∀ c ∈ l.insertColumns, t.Has c) (hc : c ∈ l.names.lastSeen.toList)
    (hseen : l.Seen t c ticks rows) : l.Seen t c (now :: ticks) rows' := by
  intro r' hr'
  obtain ⟨r, hr, hturned⟩ | ⟨hadds, rfl⟩ := hstep.origin hs h.stored hnow hr'
  · obtain ⟨v, hv⟩ := h.shows r hr
    obtain ⟨k, hk, hpast⟩ := hseen r hr
    refine ⟨_, hturned.seenAt hv hc hk hnow (le_of_lt (hseen.validFrom_lt hticks hr hv)), ?_⟩
    split
    · exact past_head now ticks
    · exact hpast.mono (List.subset_cons_self _ _)
  · exact ⟨now, seenAt_fresh hs (hstep.columns h.stored hcolumns hadds) hnow hhorizon hc,
      past_head now ticks⟩

/-- A row that is swept shows the cutoff as its end. -/
theorem Shows.swept (hs : l.Suits t) (hr : l.Stored t r) (hcutoff : cutoff.IsStorable)
    (hshow : l.Shows t r v) : l.Shows t (l.sweptRow t picked cutoff r)
      (if picked r then { v with validTo := some cutoff } else v) := by
  unfold sweptRow
  split
  · exact hshow.ended hs hr hcutoff
  · exact hshow

/-- A purge sees no row. -/
theorem SeenAt.swept (hs : l.Suits t) (hr : l.Stored t r) (hcutoff : cutoff.IsStorable)
    (hc : c ∈ l.names.lastSeen.toList) (hshow : l.Shows t r v) (h : l.SeenAt t c r k) :
    l.SeenAt t c (l.sweptRow t picked cutoff r) k := by
  refine ⟨?_, h.storable, fun v' hv' => ?_⟩
  · refine Eq.trans ?_ h.cell
    unfold sweptRow
    split
    · exact Table.cell_put_of_none hr.row.length (Table.cellNamed?_eq_none
        (List.forall_mem_singleton.mpr (hs.names.validTo_ne (lastSeen_update hc)).symm))
    · rfl
  · rw [hv'.unique (hshow.swept hs hr hcutoff)]
    split
    · exact h.started v hshow
    · exact h.started v hshow

theorem Seen.sweep (hs : l.Suits t) (h : l.Chained t strict ticks rows) (hcutoff : cutoff.IsStorable)
    (hc : c ∈ l.names.lastSeen.toList) (hseen : l.Seen t c ticks rows) :
    l.Seen t c ticks (rows.map (l.sweptRow t picked cutoff)) := by
  intro r' hr'
  obtain ⟨r, hr, rfl⟩ := List.mem_map.mp hr'
  obtain ⟨v, hv⟩ := h.shows r hr
  obtain ⟨k, hk, hpast⟩ := hseen r hr
  exact ⟨k, hk.swept hs (h.stored r hr) hcutoff hc hv, hpast⟩

theorem Ends.sweep (hs : l.Suits t) (h : l.Chained t strict ticks rows) (hcutoff : cutoff.IsStorable)
    (hle : cutoff ≤ now) (hends : l.Ends t ticks limit rows) :
    l.Ends t (now :: ticks) limit (rows.map (l.sweptRow t picked cutoff)) := by
  intro r' hr' v' hv' e he
  obtain ⟨r, hr, rfl⟩ := List.mem_map.mp hr'
  obtain ⟨v, hv⟩ := h.shows r hr
  rw [hv'.unique (hv.swept hs (h.stored r hr) hcutoff)] at he
  split at he
  · obtain rfl := Option.some.inj he
    exact .inl ⟨now, List.mem_cons_self, hle⟩
  · exact hends.mono (List.subset_cons_self _ _) r hr v hv e he

/-! ## 3. Tables that are tracked -/

/-- The rows of a table were seen at ticks that have passed, and their ends have passed or lie beyond
a limit. -/
def Tracked (l : Layout) (t : Table) (c : String) (limit : Instant) (ticks : List Instant)
    (db : Database) : Prop :=
  ∃ rows, db.find? l.table = some { t with rows } ∧ l.Seen t c ticks rows ∧ l.Ends t ticks limit rows

/-- **Sessions keep tables tracked.** -/
theorem keeps_tracked {σ : Type} [Connection σ] [Transactional σ] (hs : l.Suits t)
    (hc : c ∈ l.names.lastSeen.toList) (limit : Instant) :
    Session.Keeps σ l t (fun horizon => ∀ e ∈ horizon, limit ≤ e) (l.Tracked t c limit) :=
  Session.keeps_rows hs (fun hticks h => ⟨h.1.mono hticks, h.2.mono hticks⟩)
    (fun hstep h hticks hnow hhorizon hlimit hcolumns hrows =>
      ⟨hstep.seen hs h hticks hnow hhorizon hcolumns hc hrows.1,
        hstep.ends hs h hnow (fun e he => ⟨hhorizon e he, hlimit e he⟩) hcolumns hrows.2⟩)
    fun h hcutoff hle hrows =>
      ⟨(hrows.1.sweep hs h hcutoff hc).mono (List.subset_cons_self _ _),
        hrows.2.sweep hs h hcutoff hle⟩

/-- Sessions keep when rows were seen. -/
theorem keeps_seen {σ : Type} [Connection σ] [Transactional σ] (hs : l.Suits t)
    (hc : c ∈ l.names.lastSeen.toList) (H : Option Instant → Prop) :
    Session.Keeps σ l t H fun ticks db =>
      ∃ rows, db.find? l.table = some { t with rows } ∧ l.Seen t c ticks rows :=
  Session.keeps_rows hs (fun hticks h => h.mono hticks)
    (fun hstep h hticks hnow hhorizon _ hcolumns hrows =>
      hstep.seen hs h hticks hnow hhorizon hcolumns hc hrows)
    fun h hcutoff _ hrows => (hrows.sweep hs h hcutoff hc).mono (List.subset_cons_self _ _)

end Layout

end RowHistory
