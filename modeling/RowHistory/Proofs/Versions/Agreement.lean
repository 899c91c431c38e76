import RowHistory.Proofs.Versions.Results

/-!
# Results against the table

A result is read from the stamped row and not from the table, and every status writes other columns
of it. This file fixes

* the one stored row of an identifier with a number (`Layout.HasVersion`), and the version that it
  shows after a step (`Step.hasVersion`);
* the instants of a result (`Applied.instants`);
* where the two agree (`result_agrees_with_row`): everywhere but at the end of a version that was
  changed in place, which keeps the end of the session that added it while the result has that of
  its own session (`updated_customer_keeps_end`).
-/

namespace RowHistory

open Sql

namespace Layout

variable {l : Layout} {t : Table} {row w : Row} {now : Instant} {horizon : Option Instant}
  {status : RowStatus} {n : Int} {rows rows' : List (List Cell)} {r : List Cell} {v : Version}
  {strict : Prop} {ticks ticks' : List Instant}

/-- One stored row of an identifier has a number, no other has it, and it shows a version. -/
def HasVersion (l : Layout) (t : Table) (w : Row) (n : Int) (rows : List (List Cell)) (v : Version) :
    Prop :=
  ∃ before r after, rows = before ++ r :: after ∧ l.identifies t w r = true ∧ l.Shows t r v ∧
    v.number = n ∧ ∀ r' ∈ before ++ after, l.identifies t w r' = true →
      t.cell r' l.names.version ≠ .integer n

/-- Where identifiers have chains, a number has one row. -/
theorem Chained.hasVersion (h : l.Chained t strict ticks rows) (hr : r ∈ rows)
    (hid : l.identifies t w r = true) (hshow : l.Shows t r v) : l.HasVersion t w v.number rows v := by
  obtain ⟨before, after, rfl⟩ := List.append_of_mem hr
  refine ⟨before, r, after, rfl, hid, hshow, rfl, fun r' hr' hid' hcell => ?_⟩
  obtain ⟨v', hv'⟩ := h.shows r' (mem_other hr')
  exact h.number_ne hid hshow hr' hid' hv' (Cell.integer.inj (hv'.number.symm.trans hcell))

/-- **The version that a result tells of is stored**: it is the one that was added, or the active
one, which turned as the status says. -/
theorem Step.hasVersion (hstep : Step l t row now horizon rows status n rows') (hs : l.Suits t)
    (h : l.Chained t strict ticks rows) (h' : l.Chained t strict ticks' rows') (hnow : now.IsStorable)
    (hhorizon : ∀ e ∈ horizon, e.IsStorable) (hfind : l.Findable t row)
    (hcolumns : status = .new → ∀ c ∈ l.insertColumns, t.Has c) (hstatus : status ≠ .skipped) :
    if status.adds then l.HasVersion t row n rows' ⟨n, now, horizon⟩
    else ∃ u, l.HasVersion t row n rows u ∧ l.HasVersion t row n rows' (u.turn status now) := by
  obtain ⟨kept, hkept, hrows'⟩ := hstep.turned hs h.stored hnow
  cases hadds : status.adds with
  | true =>
    have hall := hstep.columns h.stored hcolumns hadds
    rw [if_pos rfl]
    refine h'.hasVersion (v := ⟨n, now, horizon⟩) (r := l.freshRow t row n now horizon) ?_
      (identifies_fresh hs hall hfind) (shows_fresh hs hall hnow hhorizon)
    rw [hrows', hadds]
    exact List.mem_append_right _ List.mem_cons_self
  | false =>
    rw [if_neg Bool.false_ne_true]
    have hone : ∃ before r after u, l.OneActive t row now before r after u ∧
        rows = before ++ r :: after ∧ u.number = n := by
      cases hstep with
      | new _ | outdated _ _ _ _ _ | changed _ => cases hadds
      | update hone | identical hone | purged hone => exact ⟨_, _, _, _, hone, rfl, rfl⟩
      | skipped _ => exact absurd rfl hstatus
    obtain ⟨before, r, after, u, hone, rfl, rfl⟩ := hone
    obtain ⟨r', hr', hturned⟩ := hstep.image hs h.stored hnow (mem_middle before after r)
    have hshow' := hturned.shows u hone.shows
    rw [if_pos ⟨hone.identified, hone.active⟩] at hshow'
    refine ⟨u, h.hasVersion (mem_middle before after r) hone.identified hone.shows, ?_⟩
    rw [← Version.number_turn status now u]
    exact h'.hasVersion hr' ((hturned.identifies row).trans hone.identified) hshow'

end Layout

theorem Value.asInstant?_ofInstant? (t : Option Instant) : (Value.ofInstant? t).asInstant? = t := by
  cases t <;> rfl

namespace Session

variable {σ : Type} [Connection σ] [Transactional σ] {s s' : Session σ} {row : Row} {now : Instant}

/-- **The instants of a result**: it starts now, and it ends at the horizon of the session, or now if
it is purged. -/
theorem Applied.instants {forced : Option RowStatus} {result : RowResult}
    (happlied : Applied row forced now s result s') (hl : s.options.layout.Distinct) :
    result.validFrom = some now ∧
      result.validTo = if result.status = .purged then some now else s.validTo := by
  obtain ⟨natural, -, rfl⟩ := happlied.judged
  generalize (force forced natural).1 = outcome
  obtain ⟨-, hfrom, -, hto⟩ := value_stamped hl.bookkeeping s.validTo outcome now row
  refine ⟨congrArg Value.asInstant? hfrom, ?_⟩
  show ((stamped s.options s.validTo outcome now row).value s.options.names.validTo).asInstant? =
    if outcome.status = .purged then _ else _
  by_cases hpurged : outcome.status = .purged
  · rw [if_pos hpurged, stamped, if_pos hpurged, Row.value_set, if_pos rfl]
    rfl
  · rw [if_neg hpurged, hto hpurged, Value.asInstant?_ofInstant?]

end Session

variable {σ : Type} [Connection σ] [Transactional σ]

/-- **Results agree with the table, but for the end of a version that is changed in place.** After any
runs of sessions, with horizons of their own, let a row get a result that is not identical or
skipped. Then exactly one stored row of its identifier has the number of the result. It starts when
the result does, unless it is purged, and it ends when the result does, unless it is changed in
place: then the result has the horizon of the session, and the row keeps the end that it had. -/
theorem result_agrees_with_row {l : Layout} {t : Table} {c₀ : σ} {s s' : Session σ}
    {ticks : List Instant} {row : Row} {forced : Option RowStatus} {result : RowResult}
    (hsound : Transactional.Sound c₀) (hs : l.Suits t) (hempty : t.rows = [])
    (hfind : (Transactional.durable c₀).find? l.table = some t)
    (h : Reaches l t False c₀ (.busy s) ticks) (hrow : l.Admissible t row)
    (hyears : s.clock.next.InYears) (hcall : s.processAs row forced = (.ok (some result), s'))
    (hidentical : result.status ≠ .identical) (hskipped : result.status ≠ .skipped) :
    ∃ rows rows' v, s.working.find? l.table = some { t with rows } ∧
      s'.working.find? l.table = some { t with rows := rows' } ∧
      l.HasVersion t row result.version rows' v ∧
      (result.status ≠ .purged → result.validFrom = some v.validFrom) ∧
      (result.status ≠ .update → result.validTo = v.validTo) ∧
      (result.status = .update → result.validTo = s.validTo ∧
        ∃ u, l.HasVersion t row result.version rows u ∧ v.validTo = u.validTo) := by
  have hholds : s.Holds l t False ticks := h.holds hsound hs hempty hfind
  have htells : s.Tells l t ⟨row, forced, s.clock.next, result⟩ s' := ⟨hrow, rfl, hyears, hcall⟩
  have htold := htells.spec hs hholds
  obtain ⟨rows, rows', hrows, hchained, hstep, hsets, hcolumns⟩ := htold.step
  have hchained' := hstep.chained hs hchained htold.after htold.storable hholds.horizon
    htold.findable hcolumns
  have hversion := hstep.hasVersion hs hchained hchained' htold.storable hholds.horizon
    htold.findable hcolumns hskipped
  obtain ⟨hfrom, hto⟩ := htold.applied.instants (by rw [hholds.layout]; exact hs.names)
  dsimp only at hversion hfrom hto
  refine ⟨rows, rows', ?_⟩
  cases hstatus : result.status with
  | new | outdated | changed =>
    rw [hstatus] at hversion hto
    exact ⟨_, hrows, hsets.table, hversion, fun _ => hfrom, fun _ => hto, fun h => nomatch h⟩
  | update =>
    rw [hstatus] at hversion hto
    obtain ⟨u, hu, hv⟩ := hversion
    exact ⟨_, hrows, hsets.table, hv, fun _ => hfrom, fun h => absurd rfl h, fun _ => ⟨hto, u, hu, rfl⟩⟩
  | purged =>
    rw [hstatus] at hversion hto
    obtain ⟨u, hu, hv⟩ := hversion
    exact ⟨_, hrows, hsets.table, hv, fun h => absurd rfl h, fun _ => hto, fun h => nomatch h⟩
  | identical => exact absurd hstatus hidentical
  | skipped => exact absurd hstatus hskipped

namespace Sample

/-- The first session of a customer. -/
def joining : List Operation :=
  [.row (customer 1 "Ann" "Ulm") none, .finish]

/-- The identifiers of stored customers, with their numbers and ends. -/
def ends (db : Database) : Option (List (Cell × Cell × Cell)) :=
  (db.find? "customers").map fun t =>
    t.rows.map fun r => (t.cell r "id", t.cell r "version", t.cell r "dateTo")

theorem suits_table : options.layout.Suits table := by
  refine Layout.suits_of_integer ?_ ?_ ?_
  · show List.Nodup _
    decide +kernel
  · show List.Nodup _
    decide +kernel
  · show table.affinityOf "version" = .integer
    decide +kernel

/-- Customers from Kiel are not purged. -/
def sparing : Options :=
  { options with purgeWhere := some "city <> 'Kiel'" }

/-- The session after the first one, which starts a hundred seconds later. -/
def returning : Option (Session (Traced Store)) :=
  (ran options (store []) joining).bind fun s =>
    (Session.begin sparing (Clock.startingAt (Instant.ofSeconds 1704067300)) "sample"
      s.storage.connection).toOption

theorem returning_reached : ∃ (s : Session (Traced Store)) (ticks : List Instant),
    returning = some s ∧ Reaches options.layout table False (store []) (.busy s) ticks := by
  have hcheck : okAnd (Session.begin options clock "sample" (store [])) (fun s₁ =>
      decide (s₁.start.InYears ∧ (∀ e ∈ s₁.validTo, e.InYears) ∧
        (∀ k ∈ s₁.clock.ticks 2, k.InYears ∧ k < Instant.ofSeconds 1704067300) ∧
        (s₁.run joining).2.isOpen = false) &&
      okAnd (Session.begin sparing (Clock.startingAt (Instant.ofSeconds 1704067300)) "sample"
        (s₁.run joining).2.storage.connection) fun s => decide (s.start.InYears ∧
          (∀ e ∈ s.validTo, e.InYears) ∧ Instant.ofSeconds 1704067300 < s.clock.next)) = true := by
    rw [Store.connection_eq sparing]
    decide +kernel
  obtain ⟨s₁, hbegin₁, hs₁⟩ := exists_of_okAnd hcheck
  obtain ⟨hfirst, hsecond⟩ := Bool.and_eq_true_iff.mp hs₁
  obtain ⟨hstart₁, hhorizon₁, hticks₁, hclosed⟩ := of_decide_eq_true hfirst
  obtain ⟨s, hbegin, hs⟩ := exists_of_okAnd hsecond
  obtain ⟨hstart, hhorizon, hlater⟩ := of_decide_eq_true hs
  have hfit := (Session.begin_spec (sound_store [] (List.forall_mem_nil _)) hbegin₁).1
  have hticks := Session.runTicks_subset hfit joining
  have hjoined : Reaches options.layout table False (store []) (.busy (s₁.run joining).2) _ :=
    Reaches.run (.opened .start rfl False.elim (Clock.isWhole_startingAt _) hbegin₁ hstart₁ hhorizon₁
      (List.forall_mem_nil _)) (fun row forced hrow => by
        obtain rfl : row = customer 1 "Ann" "Ulm" := by simp_all [joining]
        decide +kernel) fun k hk => (hticks₁ k (hticks hk)).1
  have hlayout : sparing.layout = options.layout := rfl
  refine ⟨s, _, ?_, .opened (.left hjoined hclosed) hlayout False.elim (Clock.isWhole_startingAt _) hbegin
    hstart hhorizon fun k hk => ?_⟩
  · rw [returning, ran, hbegin₁]
    show (Session.begin sparing _ "sample" (s₁.run joining).2.storage.connection).toOption = some s
    rw [hbegin]
    rfl
  · rw [List.append_nil] at hk
    exact lt_trans (hticks₁ k (hticks hk)).2 hlater

/-- What the session after the first one leads to. -/
theorem reached_of_returning {p : Session (Traced Store) → Bool} (h : returning.any p = true) :
    ∃ (s : Session (Traced Store)) (ticks : List Instant),
      Reaches options.layout table False (store []) (.busy s) ticks ∧ p s = true := by
  obtain ⟨s, ticks, hreturning, hreaches⟩ := returning_reached
  rw [hreturning] at h
  exact ⟨s, ticks, hreaches, h⟩

/-- A customer moves. -/
theorem moved_customer :
    ∃ (s s' : Session (Traced Store)) (ticks : List Instant) (result : RowResult),
      Reaches options.layout table False (store []) (.busy s) ticks ∧ s.clock.next.InYears ∧
      s.processAs (customer 1 "Ann" "Bonn") none = (.ok (some result), s') ∧
      result.status = .update ∧ result.version = 1 ∧
      result.validTo = some (Instant.ofSeconds 4859740900) ∧
      ends s'.working = some [(.integer 1, .integer 1, .text "2124-01-01 00:00:00.000000")] := by
  have hcheck : returning.any (fun s => decide s.clock.next.InYears &&
      resultAnd (s.processAs (customer 1 "Ann" "Bonn") none) fun result s' =>
        decide (result.status = .update ∧ result.version = 1 ∧
          result.validTo = some (Instant.ofSeconds 4859740900) ∧
          ends s'.working =
            some [(.integer 1, .integer 1, .text "2124-01-01 00:00:00.000000")])) = true := by
    rw [returning, ran, working_eq, Store.connection_eq sparing]
    decide +kernel
  obtain ⟨s, ticks, hreaches, hs⟩ := reached_of_returning hcheck
  obtain ⟨hyears, hreply⟩ := Bool.and_eq_true_iff.mp hs
  obtain ⟨result, s', hprocess, hresult⟩ := exists_of_resultAnd hreply
  exact ⟨s, s', ticks, result, hreaches, of_decide_eq_true hyears, hprocess,
    of_decide_eq_true hresult⟩

end Sample

/-- A customer moves, and the result has the number and the start of the stored version. -/
theorem moved_customer_agrees :
    ∃ (s s' : Session (Traced Store)) (ticks : List Instant) (result : RowResult)
      (rows : List (List Cell)) (v : Version),
      Reaches Sample.options.layout Sample.table False (Sample.store []) (.busy s) ticks ∧
      s.processAs (Sample.customer 1 "Ann" "Bonn") none = (.ok (some result), s') ∧
      result.status = .update ∧
      s'.working.find? "customers" = some { Sample.table with rows } ∧
      Sample.options.layout.HasVersion Sample.table (Sample.customer 1 "Ann" "Bonn") 1 rows v ∧
      result.validFrom = some v.validFrom ∧ result.validTo = s.validTo := by
  obtain ⟨s, s', ticks, result, hreaches, hyears, hprocess, hstatus, hversion, -⟩ :=
    Sample.moved_customer
  obtain ⟨before, rows, v, -, hrows, hv, hfrom, -, hupdate⟩ := result_agrees_with_row
    (Sample.sound_store [] (List.forall_mem_nil _)) Sample.suits_table rfl (by decide +kernel)
    hreaches (by decide +kernel) hyears hprocess (by rw [hstatus]; nofun) (by rw [hstatus]; nofun)
  rw [hversion] at hv
  exact ⟨s, s', ticks, result, rows, v, hreaches, hprocess, hstatus, hrows, hv,
    hfrom (by rw [hstatus]; nofun), (hupdate hstatus).1⟩

/-- **A version that is changed in place keeps its end**, and the result has another one. -/
theorem updated_customer_keeps_end :
    ∃ (s s' : Session (Traced Store)) (ticks : List Instant) (result : RowResult),
      Reaches Sample.options.layout Sample.table False (Sample.store []) (.busy s) ticks ∧
      s.clock.next.InYears ∧
      s.processAs (Sample.customer 1 "Ann" "Bonn") none = (.ok (some result), s') ∧
      result.status = .update ∧ result.version = 1 ∧
      result.validTo = some (Instant.ofSeconds 4859740900) ∧
      Sample.ends s'.working =
        some [(.integer 1, .integer 1, .text "2124-01-01 00:00:00.000000")] :=
  Sample.moved_customer

end RowHistory
