import RowHistory.Proofs.Versions.Agreement
import RowHistory.Proofs.Versions.Replay

/-!
# A row that comes twice

A row that got a result and comes again at once is identical, with the version of the result. What the
first call wrote is read back for this, and types are only looked at when values are compared, so this
needs values that their types read again from what was stored. This file fixes

* the rows of which everything lasts that a result wrote (`Layout.Legible`);
* that the version which a result tells of is still the active one at the next tick, unless it has
  ended by then (`Step.activeLater`);
* the main statement (`repeated_row_identical`), and what can happen without its conditions
  (`repeated_row_differs`).
-/

namespace RowHistory

open Sql

namespace Layout

variable {l : Layout} {t : Table} {row : Row} {now later : Instant} {horizon : Option Instant}
  {status : RowStatus} {n : Int} {rows rows' : List (List Cell)} {r : List Cell} {v : Version}
  {strict : Prop} {ticks : List Instant} {natural : Outcome} {db : Database}

/-- What was written of a row lasts: the fields that are compared if a version was added, and those that
are updated unless nothing differed. -/
def Legible (l : Layout) (row : Row) (status : RowStatus) : Prop :=
  (status.adds = true → ∀ f ∈ l.fields.ofKind .compare, f.type.Lasts (row.value f.name)) ∧
    (status ≠ .identical → ∀ f ∈ l.fields.ofKind .update, f.type.Lasts (row.value f.name))

instance (l : Layout) (row : Row) (status : RowStatus) : Decidable (l.Legible row status) :=
  inferInstanceAs (Decidable ((_ → _) ∧ (_ → _)))

/-- The one row with a number shows its version. -/
theorem HasVersion.shows (h : l.HasVersion t row n rows v) (hr : r ∈ rows)
    (hid : l.identifies t row r = true) (hnumber : t.cell r l.names.version = .integer n) :
    l.Shows t r v := by
  obtain ⟨before, r₀, after, rfl, -, hshow, -, hothers⟩ := h
  obtain hr | hr := List.mem_append.mp hr
  · exact absurd hnumber (hothers r (List.mem_append_left _ hr) hid)
  · obtain rfl | hr := List.mem_cons.mp hr
    · exact hshow
    · exact absurd hnumber (hothers r (List.mem_append_right _ hr) hid)

/-- A version that is updated or seen ends as before. -/
theorem validTo_turn_of_kept (hadds : status.adds = false) (hpurged : status ≠ .purged)
    (now : Instant) (v : Version) : (v.turn status now).validTo = v.validTo := by
  cases status with
  | new | outdated | changed => cases hadds
  | purged => exact absurd rfl hpurged
  | update | identical | skipped => rfl

/-- **The version that a step tells of is active later**, unless it has ended: a version that was added
ends at the horizon, and any other one as before. -/
theorem Step.activeLater (hstep : Step l t row now horizon rows status n rows') (hs : l.Suits t)
    (h : l.Chained t strict ticks rows) (hticks : ∀ k ∈ ticks, k < now) (hnow : now.IsStorable)
    (hhorizon : ∀ e ∈ horizon, e.IsStorable) (hfindable : l.Findable t row)
    (hcolumns : status = .new → ∀ c ∈ l.insertColumns, t.Has c) (hskipped : status ≠ .skipped)
    (hpurged : status ≠ .purged) (hr : r ∈ rows') (hmirrors : l.Mirrors t row n r)
    (hlater : ∀ k ∈ now :: ticks, k < later)
    (hadded : status.adds = true → ∀ d ∈ horizon, later ≤ d)
    (hkept : status.adds = false → ∀ u, l.HasVersion t row n rows u → ∀ d ∈ u.validTo, later ≤ d) :
    ∃ before after v, rows' = before ++ r :: after ∧ l.OneActive t row later before r after v := by
  have h' := hstep.chained hs h hticks hnow hhorizon hfindable hcolumns
  have hversion := hstep.hasVersion hs h h' hnow hhorizon hfindable hcolumns hskipped
  have hends : ∃ v, l.Shows t r v ∧ ∀ d ∈ v.validTo, later ≤ d := by
    cases hadds : status.adds with
    | true =>
      rw [hadds, if_pos rfl] at hversion
      exact ⟨_, hversion.shows hr hmirrors.identified hmirrors.number, hadded hadds⟩
    | false =>
      rw [hadds, if_neg Bool.false_ne_true] at hversion
      obtain ⟨u, hu, hturned⟩ := hversion
      refine ⟨_, hturned.shows hr hmirrors.identified hmirrors.number, ?_⟩
      rw [validTo_turn_of_kept hadds hpurged]
      exact hkept hadds u hu
  obtain ⟨v, hv, hend⟩ := hends
  have hactive : v.ActiveAt later :=
    ⟨le_of_lt ((h'.past hr hmirrors.identified hv).lt hlater), hend⟩
  obtain ⟨before, after, rfl⟩ := List.append_of_mem hr
  exact ⟨before, after, v, rfl, h'.oneActive hlater hmirrors.identified hv hactive⟩

end Layout

namespace Session

variable {σ : Type} [Connection σ] [Transactional σ] [Steady σ] {s s' : Session σ} {row : Row}
  {result : RowResult}

/-- A session that nobody disturbs stays so when it tells of a row. -/
theorem ready_of_told (hs : s.Ready) (h : s.processAs row none = (.ok (some result), s')) :
    s'.Ready := by
  obtain ⟨-, -, -, happlied, -, -⟩ := told_spec hs.fit h
  obtain ⟨natural, hjudged, hresult⟩ := happlied.judged
  have hwritten := happlied.written
  rw [hresult] at hwritten
  obtain ⟨-, hready⟩ := processRow_ready hs none happlied.identified hjudged hwritten
  rw [← processAs_permitted (.inl rfl), h] at hready
  exact hready

end Session

variable {σ : Type} [Connection σ] [Transactional σ]

/-- **A row that comes twice is identical.** A session that earlier sessions and calls led to, and that
nobody disturbs, is given a row without floating-point numbers, whose values the columns give back as
they are bound, and tells what became of it. If the declared types read what was written, and the
version that the result tells of has not ended by then, the same row at the next tick is told to be
identical, with that version. -/
theorem repeated_row_identical [Steady σ] {l : Layout} {t : Table} {c₀ : σ} {ticks : List Instant}
    {s s' : Session σ} {row : Row} {result : RowResult}
    (hsound : Transactional.Sound c₀) (hs : l.Suits t) (hempty : t.rows = [])
    (hfind : (Transactional.durable c₀).find? l.table = some t) (hspelled : l.Spelled t)
    (hreached : Reaches l t False c₀ (.busy s) ticks) (hready : s.Ready)
    (hticks : ∀ k ∈ s.clock.ticks 2, k.InYears ∧ ∀ e ∈ s.validTo, k ≤ e)
    (hreturned : l.Returned t row) (hfirst : s.processAs row none = (.ok (some result), s'))
    (hlegible : l.Legible row result.status)
    (hunended : result.status.adds = false → ∀ rows, s.working.find? l.table = some { t with rows } →
      ∀ v, l.HasVersion t row result.version rows v → ∀ d ∈ v.validTo, s.clock.tick.2.next ≤ d) :
    result.status ∈ [.new, .outdated, .changed, .update, .identical] ∧
    ∃ result' s'', s'.processAs row none = (.ok (some result'), s'') ∧
      result'.status = .identical ∧ result'.version = result.version := by
  have hholds : s.Holds l t False ticks := hreached.holds hsound hs hempty hfind
  have hidentified := (Session.identified_of_told hholds.fit hfirst).1
  have hadmissible : l.Admissible t row := by
    have hpresent := Session.present_of_identified hidentified
    rw [hholds.layout] at hpresent
    exact hreturned.admissible hpresent
  obtain ⟨hnow, hlater⟩ := List.forall_mem_cons.mp hticks
  obtain ⟨hnext, -⟩ := List.forall_mem_cons.mp hlater
  have htells : s.Tells l t ⟨row, none, s.clock.next, result⟩ s' := ⟨hadmissible, rfl, hnow.1, hfirst⟩
  have htold := htells.spec hs hholds
  have hids := hholds.ids
  obtain ⟨rows, rows', hrows, hchained, hstep, hsets, hcolumns⟩ := htold.step
  have hjudged := htold.applied.natural
  rw [hholds.layout] at hjudged
  obtain ⟨hpurged, hskipped⟩ := Layout.status_of_judged hjudged
  have hmain := Layout.inMain_of_judged hids hjudged
  -- what it left is the active version at the next tick
  obtain ⟨r, hr, hmirrors⟩ := hstep.mirrors
    (fun hadds => hreturned.comesBack (.inr (.inl rfl)) (hlegible.1 hadds))
    (fun hne => hreturned.comesBack (.inr (.inr rfl)) (hlegible.2 hne)) hids hmain hspelled hs hchained
    htold.storable htold.findable hcolumns hrows hjudged
  have hclock : s'.clock.next = s.clock.tick.2.next := congrArg Clock.next htold.clock
  have hhorizon : ∀ d ∈ s.validTo, s'.clock.next ≤ d := by
    rw [hclock]
    exact hnext.2
  have hkept : result.status.adds = false → ∀ u, l.HasVersion t row result.version rows u →
      ∀ d ∈ u.validTo, s'.clock.next ≤ d := by
    rw [hclock]
    exact fun hadds => hunended hadds rows hrows
  obtain ⟨before, after, v, rfl, hone⟩ := hstep.activeLater hs hchained htold.after htold.storable
    hholds.horizon htold.findable hcolumns hskipped hpurged hr hmirrors htold.holds.after
    (fun _ => hhorizon) hkept
  have hyears : s'.clock.next.InYears := by
    rw [hclock]
    exact hnext.1
  refine ⟨?_, ?_⟩
  · cases hstatus : result.status with
    | new | outdated | changed | update | identical => decide
    | purged => exact absurd hstatus hpurged
    | skipped => exact absurd hstatus hskipped
  · have hreached' := hreached.processed hadmissible hnow.1 hfirst
    rw [← htold.same.options] at hidentified
    obtain ⟨result', s'', hprocess, hstatus, hversion, -⟩ := Session.mirrored_identical hsound hs hempty
      hfind hspelled hreached' (Session.ready_of_told hready hfirst) hmain hsets.table
      hone hmirrors hidentified hyears
    exact ⟨result', s'', hprocess, hstatus, hversion⟩

/-! ## Rows that come twice -/

namespace Sample

/-- A table that keeps what it is given: prices and whether they hold are versioned, and when they were
asked for is updated. -/
def priceTable : Table :=
  { name := "prices"
    columns := [⟨"k", .text, false⟩, ⟨"d", .blob, false⟩, ⟨"b", .integer, false⟩, ⟨"w", .text, false⟩,
      ⟨"v", .integer, false⟩, ⟨"f", .text, false⟩, ⟨"t", .text, false⟩] }

def prices : Options :=
  { table := "prices"
    names := { validFrom := "f", validTo := "t", version := "v" }
    fields := ⟨[⟨"k", .id, .string⟩, ⟨"d", .compare, .decimal 2⟩, ⟨"b", .compare, .boolean⟩,
      ⟨"w", .update, .timestamp⟩]⟩ }

/-- A price of five, with two fraction digits. -/
def price (holds : Bool) : Row :=
  (((Row.empty.set "k" (.text "a")).set "d" (.decimal ⟨500, 2, by decide, by decide⟩)).set "b"
    (.bool holds)).set "w" (.timestamp (Instant.ofSeconds 1700000000))

def priceStore : Traced Store :=
  { inner := { target := .file "items.db", file := { content := ⟨[priceTable]⟩ } }, triggers := [] }

theorem suits_prices : prices.layout.Suits priceTable := by
  refine Layout.suits_of_integer ?_ ?_ ?_
  · show List.Nodup _
    decide +kernel
  · show List.Nodup _
    decide +kernel
  · show priceTable.affinityOf "v" = .integer
    decide +kernel

theorem returned_price : prices.layout.Returned priceTable (price false) :=
  ⟨by decide +kernel, by decide +kernel⟩

end Sample

/-- A price that is stored, changes and then comes again as it is. -/
theorem repeated_price_identical :
    ∃ (s s' s'' : Session (Traced Store)) (result result' : RowResult),
      s.processAs (Sample.price false) none = (.ok (some result), s') ∧ result.status = .changed ∧
      s'.processAs (Sample.price false) none = (.ok (some result'), s'') ∧
      result'.status = .identical ∧ result'.version = 2 := by
  have hcheck : okAnd (Session.begin Sample.prices Sample.clock "sample" Sample.priceStore) (fun s₀ =>
      decide (s₀.start.InYears ∧ (∀ e ∈ s₀.validTo, e.InYears) ∧ s₀.clock.next.InYears) &&
      Sample.resultAnd (s₀.processAs (Sample.price true) none) fun _ s =>
        decide (∀ k ∈ s.clock.ticks 2, k.InYears ∧ ∀ e ∈ s.validTo, k ≤ e) &&
        Sample.resultAnd (s.processAs (Sample.price false) none) fun result _ =>
          decide (result.status = .changed ∧ result.version = 2)) = true := by
    rw [Store.connection_eq Sample.prices]
    decide +kernel
  obtain ⟨s₀, hbegin, hs₀⟩ := exists_of_okAnd hcheck
  obtain ⟨hopening, hrow⟩ := Bool.and_eq_true_iff.mp hs₀
  obtain ⟨hstart, hhorizon, hnext⟩ := of_decide_eq_true hopening
  obtain ⟨_, s, hearlier, hs⟩ := Sample.exists_of_resultAnd hrow
  obtain ⟨hticks, hs⟩ := Bool.and_eq_true_iff.mp hs
  obtain ⟨result, s', hfirst, hresult⟩ := Sample.exists_of_resultAnd hs
  obtain ⟨hstatus, hversion⟩ := of_decide_eq_true hresult
  have hfree : Steady.Free Sample.priceStore := Sample.free_of_left ⟨rfl, rfl⟩
  obtain ⟨-, -, -, -, -, -, -, hprepare⟩ := Session.begin_spec (Steady.sound hfree) hbegin
  obtain ⟨s₁, hbegin₁, hready⟩ := Session.begin_ready hfree hprepare "sample"
  obtain rfl : s₀ = s₁ := Except.ok.inj (hbegin.symm.trans hbegin₁)
  have hreached : Reaches Sample.prices.layout Sample.priceTable False Sample.priceStore (.busy s)
      (s₀.ticked s ++ []) :=
    Reaches.processed (.opened .start rfl False.elim (Clock.isWhole_startingAt _) hbegin hstart hhorizon
      (List.forall_mem_nil _)) (by decide +kernel) hnext hearlier
  obtain ⟨-, result', s'', hprocess, hidentical, hsame⟩ := repeated_row_identical (Steady.sound hfree)
    Sample.suits_prices rfl (by decide +kernel) (by decide +kernel) hreached
    (Session.ready_of_told hready hearlier) (of_decide_eq_true hticks) Sample.returned_price hfirst
    (by rw [hstatus]; decide +kernel) (by rw [hstatus]; exact nofun)
  exact ⟨s, s', s'', result, result', hfirst, hstatus, hprocess, hidentical, hsame.trans hversion⟩

namespace Sample

/-- What sessions tell, one after the other, each of which is given rows and ended. -/
def answers {σ : Type} [Connection σ] (c : σ) :
    List (Options × Instant × List Row) → List (List (Option (RowStatus × Int)))
  | [] => []
  | (o, now, rows) :: rest => match Session.begin o (.startingAt now) "sample" c with
    | .error _ => []
    | .ok s =>
      let (replies, s) := s.run (rows.map fun row => .row row none)
      replies.map (fun
        | .row (.ok (some result)) => some (result.status, result.version)
        | _ => none) :: answers s.finish.2.storage.connection rest

/-- Sizes that hold for ten seconds and a tick. -/
def shortLived : Options :=
  { sizes "n" none with
    validTo := .at (Instant.ofSeconds 1704067210).addMicro }

/-- A size that is a truth value. -/
def truthful : Row :=
  (Row.empty.set "i" (.int64 1)).set "n" (.bool true)

/-- The first session, and one that comes ten seconds later. -/
def opening : Instant := Instant.ofSeconds 1704067200

@[inherit_doc opening] def tenLater : Instant := Instant.ofSeconds 1704067210

end Sample

open Sample in
/-- A row that comes twice is not identical if its type does not read what was written, if the stored
version ends between the two calls, or if the clock of a session runs behind that of an earlier one. -/
theorem repeated_row_differs :
    answers (itemStore .integer []) [(sizes "n" none, opening, [truthful, truthful])] =
      [[some (.new, 1), none]] ∧
    answers (itemStore .integer []) [(shortLived, opening, [item 1 "n" 1]),
        (sizes "n" none, tenLater, [item 1 "n" 1, item 1 "n" 1])] =
      [[some (.new, 1)], [some (.identical, 1), some (.outdated, 2)]] ∧
    answers (itemStore .integer []) [(sizes "n" none, opening, [item 1 "n" 1, item 1 "n" 2]),
        (sizes "n" none, opening, [item 1 "n" 1, item 1 "n" 1])] =
      [[some (.new, 1), some (.changed, 2)], [some (.identical, 1), some (.changed, 3)]] := by
  rw [Store.connection_eq (sizes "n" none)]
  exact ⟨by decide +kernel, by decide +kernel, by decide +kernel⟩

end RowHistory
