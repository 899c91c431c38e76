import RowHistory.Proofs.Versions.AsOf
import RowHistory.Proofs.Versions.Replay
import RowHistory.Proofs.Versions.Success

/-!
# Identifiers do not interact

The rows that come for one identifier are told the same, and leave the same versions, whatever comes for
other identifiers in between. This file fixes

* the results of one identifier (`Layout.stream`), and results that follow a life (`Lived`), which the
  calls determine (`Lived.unique`);
* that the results of every identifier do so in a run from an empty table (`Session.Unfolds`,
  `Unfolds.tell`);
* what lets a row be written again at another time (`Layout.Repeatable`), so that its call is told again
  (`Unfolds.again`);
* reorderings of calls (`Layout.Reorders`), and the main statement (`identifiers_independent`).
-/

namespace RowHistory

open Sql

/-! ## 1. Results of an identifier -/

/-- What is asked for with a row. -/
def Entry.call (e : Entry) : Row × Option RowStatus :=
  (e.row, e.forced)

/-- What was told of a row: its status and version, and why it was skipped. -/
def Entry.told (e : Entry) : Outcome × Option SkipReason :=
  (⟨e.result.status, e.result.version⟩, e.result.skipReason)

/-- The results of an identifier. -/
def Layout.stream (l : Layout) (t : Table) (w : Row) (history : List Entry) : List Entry :=
  history.filter fun e => l.sameIdentifier t w e.row

/-- Results of an identifier, the last one first, are those of a life. -/
inductive Lived (l : Layout) (t : Table) : List Entry → Life → Prop
  | unborn : Lived l t [] .unborn
  | told {es : List Entry} {e : Entry} {life life' : Life} : Lived l t es life →
      life.step l t e.row e.forced = some (e.told, life') → Lived l t (e :: es) life'

/-- **What is asked for determines what is told**, and the versions that are left. -/
theorem Lived.unique {l : Layout} {t : Table} {es es' : List Entry} {life life' : Life}
    (h : Lived l t es life) (h' : Lived l t es' life') (hcalls : es.map Entry.call = es'.map Entry.call) :
    es.map Entry.told = es'.map Entry.told ∧ life = life' := by
  induction h generalizing es' life' with
  | unborn =>
    obtain rfl := List.map_eq_nil_iff.mp hcalls.symm
    cases h'
    exact ⟨rfl, rfl⟩
  | @told es e life next hlived hstep ih =>
    cases h' with
    | unborn => cases hcalls
    | @told es' e' life' next' hlived' hstep' =>
      obtain ⟨hcall, hrest⟩ := List.cons.inj hcalls
      obtain ⟨htold, rfl⟩ := ih hlived' hrest
      obtain ⟨hrow, hforced⟩ := Prod.mk.inj hcall
      rw [← hrow, ← hforced, hstep] at hstep'
      obtain ⟨heq, rfl⟩ := Prod.mk.inj (Option.some.inj hstep')
      rw [List.map_cons, List.map_cons, heq, htold]
      exact ⟨rfl, rfl⟩

/-- Each result was told by the life before it. -/
theorem Lived.before {l : Layout} {t : Table} {later es : List Entry} {e : Entry} {life : Life}
    (h : Lived l t (later ++ e :: es) life) :
    ∃ life₀ life₁, Lived l t es life₀ ∧ life₀.step l t e.row e.forced = some (e.told, life₁) := by
  induction later generalizing life with
  | nil =>
    cases h with
    | told hlived hstep => exact ⟨_, _, hlived, hstep⟩
  | cons _ later ih =>
    cases h with
    | told hlived _ => exact ih hlived

/-! ## 2. Runs from an empty table -/

namespace Layout

variable {l : Layout} {t : Table} {row w : Row} {now : Instant} {horizon : Option Instant}
  {status : RowStatus} {n : Int} {rows rows' : List (List Cell)} {history : List Entry} {e : Entry}

/-- The lookups of a layout succeed on a table with given columns, whatever its rows are. -/
def Selects (l : Layout) (t : Table) : Prop :=
  ∀ kind, kind = .latest ∨ kind = .active → ∀ (b : Binding) (db : Database) (rows : List (List Cell)),
    db.find? l.table = some { t with rows } → ∃ answer, l.run kind b db = some (answer, db)

/-- What was written for a result can be written again, for a row and with a horizon like those. -/
structure Repeatable (l : Layout) (t : Table) (horizon : Option Instant) (e : Entry) : Prop where
  findable : l.Findable t e.row
  permitted : Session.Permitted e.forced
  added : e.result.status.adds = true → (∀ c ∈ l.insertColumns, t.Has c) ∧
    t.nullColumn? (l.freshRow t e.row e.result.version e.tick horizon) = none
  renewed : e.result.status = .update → ∃ r, t.IsRow r ∧
    t.nullColumn? (t.put (l.renewedCells e.row e.tick) r) = none

theorem stream_cons_of_same (h : l.sameIdentifier t w e.row = true) :
    l.stream t w (e :: history) = e :: l.stream t w history :=
  List.filter_cons_of_pos h

theorem stream_cons_of_other (h : l.sameIdentifier t w e.row = false) :
    l.stream t w (e :: history) = l.stream t w history :=
  List.filter_cons_of_neg (by rw [h]; exact Bool.false_ne_true)

/-- A step that changes a version in place leaves the changed row. -/
theorem Step.renewed (h : Step l t row now horizon rows .update n rows') :
    ∃ r ∈ rows, t.put (l.renewedCells row now) r ∈ rows' := by
  cases h with
  | update _ => exact ⟨_, mem_middle _ _ _, mem_middle _ _ _⟩

end Layout

namespace Session

variable {σ : Type} [Connection σ] [Transactional σ] {l : Layout} {t : Table} {s s' : Session σ}
  {history history' : List Entry} {rows rows' : List (List Cell)} {e : Entry}

/-- What holds of a session that was opened on an empty table and told results: those of every
identifier are told by a life, whose versions the table has. -/
structure Unfolds (l : Layout) (t : Table) (history : List Entry) (rows : List (List Cell))
    (s : Session σ) : Prop where
  holds : Holds l t False (history.map Entry.tick) s
  table : s.working.find? l.table = some { t with rows }
  chained : l.Chained t False (history.map Entry.tick) rows
  consistent : s.working.ConsistentAt l.table
  lives : ∀ w, ∃ life, Lived l t (l.stream t w history) life ∧
    l.Lives t s.validTo (history.map Entry.tick) rows w life
  owned : ∀ r ∈ rows, ∃ e ∈ history, l.identifies t e.row r = true
  selects : history ≠ [] → l.Selects t
  repeatable : ∀ e ∈ history, l.Repeatable t s.validTo e

variable (hs : l.Suits t)

include hs

/-- The first row that is judged is looked up in both ways. -/
theorem Unfolds.selects_told (h : Unfolds l t history rows s) (htold : Told l t False
      (history.map Entry.tick) s e s') (hhorizon : ∀ d ∈ s.validTo, e.tick ≤ d) : l.Selects t := by
  by_cases hhistory : history = []
  · subst hhistory
    obtain ⟨natural, hjudged, -⟩ := htold.applied.judged
    obtain ⟨rows₀, -, hrows, hchained, -⟩ := htold.step
    obtain rfl : rows₀ = rows := congrArg Table.rows (Option.some.inj (hrows.symm.trans h.table))
    have hids := h.holds.ids
    obtain rfl := h.holds.layout
    obtain ⟨life, hlived, hlives⟩ := h.lives e.row
    have hnatural := hlives.natural_of_judged hids hs hchained hrows htold.after htold.storable
      hhorizon hjudged
    cases hlived
    have hnew : (⟨.new, 1⟩ : Outcome) = natural := Option.some.inj hnatural
    cases hjudged with
    | active _ _ hagainst =>
      obtain heq | heq | heq := Classification.againstActive_ok hagainst <;> cases hnew.trans heq
    | latest hrun _ hrun' _ =>
      rintro kind (rfl | rfl) b db rows hfind
      · exact Layout.run_selects_again hids (.inl rfl) hrun' hrows hfind b
      · exact Layout.run_selects_again hids (.inr rfl) hrun hrows hfind b
  · exact h.selects hhistory

omit hs in
/-- What was written for a result can be written again. -/
theorem Told.repeatable {ticks : List Instant} (htold : Told l t False ticks s e s')
    (hs : l.Suits t) (hconsistent : s'.working.ConsistentAt l.table) :
    l.Repeatable t s.validTo e := by
  obtain ⟨rows, rows', hrows, hchained, hstep, hsets, hcolumns⟩ := htold.step
  have hnulls : ∀ r ∈ rows', t.nullColumn? r = none := fun r hr =>
    (hconsistent _ hsets.table).nulls r hr
  refine ⟨htold.findable, htold.permitted, fun hadds => ⟨?_, ?_⟩, fun hupdate => ?_⟩
  · exact hstep.columns hchained.stored hcolumns hadds
  · obtain ⟨kept, -, rfl⟩ := hstep.turned hs hchained.stored htold.storable
    refine hnulls _ (List.mem_append_right _ ?_)
    rw [hadds]
    exact List.mem_singleton_self _
  · rw [hupdate] at hstep
    obtain ⟨r, hr, hrenewed⟩ := hstep.renewed
    exact ⟨r, (hchained.stored r hr).row, hnulls _ hrenewed⟩

/-- **A call that tells goes on with the life of its identifier**, and with all others as they are. -/
theorem Unfolds.told (h : Unfolds l t history rows s) (he : s.Tells l t e s')
    (hhorizon : ∀ d ∈ s.validTo, e.tick ≤ d) : ∃ rows', Unfolds l t (e :: history) rows' s' := by
  have htold : Told l t False (history.map Entry.tick) s e s' := he.spec hs h.holds
  have hselects := h.selects_told hs htold hhorizon
  have hconsistent : s'.working.ConsistentAt l.table :=
    Layout.written_consistent h.consistent htold.applied.written
  have hrepeatable := htold.repeatable hs hconsistent
  obtain ⟨natural, hjudged, hresult⟩ := htold.applied.judged
  obtain ⟨rows₀, rows', hrows, hchained, hstep, hsets, hcolumns⟩ := htold.step
  obtain rfl : rows₀ = rows := congrArg Table.rows (Option.some.inj (hrows.symm.trans h.table))
  have hids := h.holds.ids
  obtain rfl := h.holds.layout
  have hchained' := hstep.chained hs hchained htold.after htold.storable h.holds.horizon htold.findable
    hcolumns
  refine ⟨rows', htold.holds, hsets.table, hchained', hconsistent, fun w => ?_, fun r' hr' => ?_,
    fun _ => hselects, List.forall_mem_cons.mpr ⟨?_, fun e' he' => ?_⟩⟩
  · obtain ⟨life, hlived, hlives⟩ := h.lives w
    rw [htold.same.validTo, List.map_cons]
    cases hsame : s.options.layout.sameIdentifier t w e.row with
    | true =>
      have hown := (Layout.lives_of_same hs hchained.stored htold.findable hsame).mp hlives
      have hnatural := hown.natural_of_judged hids hs hchained hrows htold.after htold.storable
        hhorizon hjudged
      refine ⟨life.after s.options.layout t e.row ⟨e.result.status, e.result.version⟩, ?_, ?_⟩
      · rw [Layout.stream_cons_of_same hsame]
        refine .told hlived ?_
        unfold Life.step Entry.told
        rw [hnatural, hresult]
        rfl
      · exact (Layout.lives_of_same hs hchained'.stored htold.findable hsame).mpr (hstep.lives hs hchained
          htold.after htold.storable h.holds.horizon htold.findable hcolumns hown)
    | false =>
      have hfilter := hstep.filter_other hs hchained htold.findable hcolumns hsame
      obtain ⟨hversions, hends⟩ := hlives.mono (List.subset_cons_self e.tick _)
      rw [← hfilter] at hversions hends
      exact ⟨life, by rw [Layout.stream_cons_of_other hsame]; exact hlived, hversions, hends⟩
  · obtain ⟨r, hr, hturned⟩ | ⟨hadds, rfl⟩ := hstep.origin hs hchained.stored htold.storable hr'
    · obtain ⟨e', he', hid⟩ := h.owned r hr
      exact ⟨e', List.mem_cons_of_mem _ he', (hturned.identifies e'.row).trans hid⟩
    · exact ⟨e, List.mem_cons_self, Layout.identifies_fresh hs
        (hstep.columns hchained.stored hcolumns hadds) htold.findable⟩
  · rw [htold.same.validTo]
    exact hrepeatable
  · rw [htold.same.validTo]
    exact h.repeatable e' he'

/-- **Calls that tell follow the lives of all identifiers.** -/
theorem Unfolds.tell {calls : List (Row × Option RowStatus)} (h : Unfolds l t history rows s)
    (htell : s.tell calls history = some (history', s')) (hrows : ∀ call ∈ calls, l.Admissible t call.1)
    (hticks : ∀ k ∈ s.clock.ticks calls.length, k.InYears ∧ ∀ d ∈ s.validTo, k ≤ d) :
    ∃ rows', Unfolds l t history' rows' s' := by
  induction calls generalizing s history rows with
  | nil =>
    cases htell
    exact ⟨rows, h⟩
  | cons call calls ih =>
    obtain ⟨result, s₁, hrun, hrest⟩ := tell_cons htell
    obtain ⟨hrow, hothers⟩ := List.forall_mem_cons.mp hrows
    obtain ⟨⟨hyears, hhorizon⟩, hlater⟩ := List.forall_mem_cons.mp hticks
    have htells : s.Tells l t ⟨call.1, call.2, s.clock.next, result⟩ s₁ := ⟨hrow, rfl, hyears, hrun⟩
    have htold := htells.spec hs h.holds
    obtain ⟨rows₁, h₁⟩ := h.told hs htells hhorizon
    rw [← htold.clock, ← htold.same.validTo] at hlater
    exact ih h₁ hrest hothers hlater

end Session

/-! ## 3. Reorderings -/

namespace Layout

variable {l : Layout} {t : Table} {w : Row} {calls calls' : List (Row × Option RowStatus)}
  {history : List Entry} {rows : List (List Cell)} {r : List Cell}

/-- The calls for an identifier. -/
def callsOf (l : Layout) (t : Table) (w : Row) (calls : List (Row × Option RowStatus)) :
    List (Row × Option RowStatus) :=
  calls.filter fun call => l.sameIdentifier t w call.1

/-- Calls come in another order, but those for the same identifier stay in theirs. -/
structure Reorders (l : Layout) (t : Table) (calls calls' : List (Row × Option RowStatus)) : Prop where
  perm : calls'.Perm calls
  order : ∀ call ∈ calls, l.callsOf t call.1 calls' = l.callsOf t call.1 calls

theorem callsOf_middle {call : Row × Option RowStatus} (hfind : l.Findable t call.1)
    (done rest : List (Row × Option RowStatus)) : l.callsOf t call.1 (done ++ call :: rest) =
      l.callsOf t call.1 done ++ call :: l.callsOf t call.1 rest := by
  unfold callsOf
  rw [List.filter_append, List.filter_cons, if_pos hfind.sameIdentifier]

/-- The results of an identifier are those of its calls. -/
theorem map_call_stream (h : history.map Entry.call = calls.reverse) (w : Row) :
    (l.stream t w history).map Entry.call = (l.callsOf t w calls).reverse := by
  unfold callsOf
  rw [← List.filter_reverse, ← h, List.filter_map]
  rfl

/-- Each call had its result when it came at another place, after the same calls for its identifier. -/
theorem Reorders.result (hreorders : l.Reorders t calls calls')
    (h : history.map Entry.call = calls.reverse) {done rest : List (Row × Option RowStatus)}
    {call : Row × Option RowStatus} (hcalls : calls' = done ++ call :: rest)
    (hfind : l.Findable t call.1) : ∃ later e es, l.stream t call.1 history = later ++ e :: es ∧
      e.call = call ∧ es.map Entry.call = (l.callsOf t call.1 done).reverse := by
  have hmem : call ∈ calls := hreorders.perm.subset (hcalls ▸ List.mem_append_right _ List.mem_cons_self)
  have hstream := map_call_stream (l := l) (t := t) h call.1
  rw [← hreorders.order call hmem, hcalls, callsOf_middle hfind, List.reverse_append,
    List.reverse_cons, List.append_assoc, List.singleton_append] at hstream
  obtain ⟨later, rest', heq, -, hrest⟩ := List.map_eq_append_iff.mp hstream
  obtain ⟨e, es, rfl, he, hes⟩ := List.map_eq_cons_iff.mp hrest
  exact ⟨later, e, es, heq, he, hes⟩

/-- A row without its times is found by the same rows. -/
theorem identifies_veiled (hl : l.Distinct) (hr : t.IsRow r) (w : Row) :
    l.identifies t w (l.veiled t r) = l.identifies t w r := by
  unfold identifies
  rw [Bool.eq_iff_iff, List.all_eq_true, List.all_eq_true]
  refine forall₂_congr fun n hn => ?_
  have hcontents : n ∈ l.contents := by
    simp only [contents, List.mem_append]
    exact .inl (.inl (.inl (.inl hn)))
  rw [cell_veiled hl hr hcontents]

/-- A row without its times stands among those of its identifier only. -/
theorem count_veiled (hl : l.Distinct) (hrows : ∀ r ∈ rows, t.IsRow r) {x : List Cell}
    (hx : l.identifies t w x = true) :
    (rows.map (l.veiled t)).count x = ((rows.filter (l.identifies t w)).map (l.veiled t)).count x := by
  have hfilter : rows.filter (l.identifies t w) = rows.filter (l.identifies t w ∘ l.veiled t) :=
    List.filter_congr fun r hr => (identifies_veiled hl (hrows r hr) w).symm
  rw [hfilter, ← List.filter_map, List.count_filter hx]

end Layout

theorem Horizon.isSome_resolve {h : Horizon} {start : Instant} {validTo : Option Instant}
    (hresolve : h.resolve start = .ok validTo) : validTo.isSome = decide (h ≠ .unlimited) := by
  cases h with
  | farFuture =>
    simp only [resolve] at hresolve
    split at hresolve
    · cases hresolve
      rfl
    · cases hresolve
  | unlimited =>
    cases hresolve
    rfl
  | «at» e =>
    simp only [resolve] at hresolve
    split at hresolve
    · cases hresolve
    · cases hresolve
      rfl

namespace Session

variable {σ σ' : Type} [Connection σ] [Transactional σ] [Connection σ'] [Transactional σ'] {l : Layout}
  {t : Table} {o : Options} {c : σ} {s : Session σ} {s' : Session σ'} {history history' : List Entry}
  {rows rows' : List (List Cell)} {calls calls' : List (Row × Option RowStatus)} {n : Nat}

/-- Calls that tell keep the options, the start and the horizon. -/
theorem tell_same {s₁ : Session σ} (hfit : s.Fit) (h : s.tell calls history = some (history', s₁)) :
    Same s s₁ := by
  induction calls generalizing s history with
  | nil =>
    cases h
    exact .refl _
  | cons call calls ih =>
    obtain ⟨result, s₂, hrun, hrest⟩ := tell_cons h
    obtain ⟨-, hfit₂, hsame⟩ := identified_of_told hfit hrun
    exact hsame.trans (ih hfit₂ hrest)

/-- A session is opened on a table, and its next ticks can be stored and come no later than its
horizon. -/
structure Starts (o : Options) (t : Table) (c : σ) (n : Nat) (s : Session σ) : Prop where
  sound : Transactional.Sound c
  table : (Transactional.durable c).find? o.layout.table = some t
  opened : ∃ clock id, clock.IsWhole ∧ begin o clock id c = .ok s
  start : s.start.InYears
  horizon : ∀ e ∈ s.validTo, e.InYears
  ticks : ∀ k ∈ s.clock.ticks n, k.InYears ∧ ∀ e ∈ s.validTo, k ≤ e

theorem Starts.options (h : s.Starts o t c n) : s.options = o := by
  obtain ⟨clock, id, -, hbegin⟩ := h.opened
  exact (begin_spec h.sound hbegin).2.1

omit [Connection σ] [Transactional σ] in
/-- Whether there is a horizon is known from the options. -/
theorem isSome_prepare {clock clock' : Clock} {start : Instant} {validTo : Option Instant}
    (h : prepare o clock = .ok (start, clock', validTo)) :
    validTo.isSome = decide (o.validTo ≠ .unlimited) := by
  obtain ⟨-, -, hrest⟩ := ok_of_bind h
  obtain ⟨horizon, hresolve, heq⟩ := ok_of_bind hrest
  cases heq
  exact Horizon.isSome_resolve hresolve

theorem Starts.isSome_validTo (h : s.Starts o t c n) :
    s.validTo.isSome = decide (o.validTo ≠ .unlimited) := by
  obtain ⟨clock, id, -, hbegin⟩ := h.opened
  obtain ⟨-, -, -, -, -, -, -, hprepare⟩ := begin_spec h.sound hbegin
  exact isSome_prepare hprepare

/-- Nothing has been told at the start. -/
theorem Starts.unfolds (h : s.Starts o t c n) (hs : o.layout.Suits t) (hempty : t.rows = []) :
    Unfolds o.layout t [] [] s := by
  obtain ⟨clock, id, hclock, hbegin⟩ := h.opened
  obtain ⟨-, -, -, -, hworking, -⟩ := begin_spec h.sound hbegin
  have hreaches : Reaches o.layout t False c (.busy s) [] :=
    .opened .start rfl False.elim hclock hbegin h.start h.horizon (List.forall_mem_nil _)
  have htable : s.working.find? o.layout.table = some { t with rows := [] } := by
    rw [hworking, h.table, ← hempty]
  refine ⟨hreaches.holds h.sound hs hempty h.table, htable, Layout.chained_nil _ _ _ _, ?_,
    fun w => ⟨.unborn, .unborn, Layout.lives_unborn _ _ _ _ _⟩, List.forall_mem_nil _, fun hne =>
    absurd rfl hne, List.forall_mem_nil _⟩
  intro t' ht'
  obtain rfl : { t with rows := [] } = t' := Option.some.inj (htable.symm.trans ht')
  exact Table.consistent_nil _

/-- A session is ready if nobody disturbs its connection. -/
theorem Starts.ready [Steady σ] (h : s.Starts o t c n) (hfree : Steady.Free c) : s.Ready := by
  obtain ⟨clock, id, -, hbegin⟩ := h.opened
  obtain ⟨-, -, -, -, -, -, -, hprepare⟩ := begin_spec h.sound hbegin
  obtain ⟨s', hbegin', hready⟩ := begin_ready hfree hprepare id
  obtain rfl : s = s' := Except.ok.inj (hbegin.symm.trans hbegin')
  exact hready

section Runs

variable (hs : l.Suits t)

include hs

/-- **A call is told again**, in a run where the same calls came before it for its identifier. -/
theorem Unfolds.again [Steady σ] (h : Unfolds l t history rows s) (hready : s.Ready)
    (hkeyed : l.Keyed t) (hselects : l.Selects t) {e : Entry} {es : List Entry} {life life' : Life}
    {horizon : Option Instant} (hrepeatable : l.Repeatable t horizon e)
    (hsome : horizon.isSome = s.validTo.isSome)
    (hidentified : missingIdentifier? s.options e.row = none) (hyears : s.clock.next.InYears)
    (hends : ∀ d ∈ s.validTo, s.clock.next ≤ d) (hlived : Lived l t es life)
    (hcalls : es.map Entry.call = (l.stream t e.row history).map Entry.call)
    (hstep : life.step l t e.row e.forced = some (e.told, life')) :
    ∃ result s', s.processAs e.row e.forced = (.ok (some result), s') ∧ s'.Ready := by
  obtain ⟨life₀, hlived₀, hlives⟩ := h.lives e.row
  obtain rfl := (hlived.unique hlived₀ hcalls).2
  obtain ⟨natural, hnatural, hforce⟩ := Option.map_eq_some_iff.mp hstep
  have htold : force e.forced natural = e.told := congrArg Prod.fst hforce
  have hnow : s.clock.next.IsStorable := ⟨h.holds.whole.next, hyears⟩
  have hids := h.holds.ids
  obtain rfl := h.holds.layout
  have hactive := hselects .active (.inr rfl) { row := e.row, instant := some s.clock.next } s.working
    rows h.table
  have hlatest := hselects .latest (.inl rfl) { row := e.row } s.working rows h.table
  have hmain : s.options.layout.InMain := Layout.inMain_of_run hids (.inr rfl) hactive.choose_spec
  have hjudged := hlives.judged_of_natural hids hs h.chained h.table h.holds.after hnow hends hactive
    hlatest hnatural
  have hdecided := (hjudged.standing hids hs h.chained h.holds.after hnow h.table).decided
    hrepeatable.permitted
  obtain ⟨db, hwritten⟩ := hdecided.writes s.validTo _ hkeyed hids hmain hs h.holds.after hnow
    h.holds.horizon hrepeatable.findable h.chained h.table (h.consistent _ h.table).nulls
    (fun hadds => by
      rw [htold] at hadds ⊢
      obtain ⟨hcolumns, hnull⟩ := hrepeatable.added hadds
      exact ⟨hcolumns, (Layout.sameNulls_version _ e.row _ e.tick s.clock.next hsome).nullColumn?
        (Table.isRow_blank t).length hnull⟩)
    (fun hupdate r hr => by
      rw [htold] at hupdate
      obtain ⟨r₀, hr₀, hnull⟩ := hrepeatable.renewed hupdate
      exact Table.nullColumn?_put_of_put hr₀ (h.chained.stored r hr).row
        ((Layout.sameNulls_renewed _ e.row e.tick s.clock.next).nullColumn? hr₀.length hnull)
        ((h.consistent _ h.table).nulls r hr))
  obtain ⟨hresult, hready'⟩ := processRow_ready hready e.forced hidentified hjudged hwritten
  rw [processAs_permitted hrepeatable.permitted]
  exact ⟨_, _, Prod.ext hresult rfl, hready'⟩

/-- **Calls that told all tell again in another order**, on a table that refuses repeated versions
only. -/
theorem Unfolds.tell_again [Steady σ'] (h : Unfolds l t history rows s)
    (hcalls : history.map Entry.call = calls.reverse) (hreorders : l.Reorders t calls calls')
    (hkeyed : l.Keyed t) (hrows : ∀ call ∈ calls, l.Admissible t call.1)
    {done rest : List (Row × Option RowStatus)} (hrest : calls' = done ++ rest)
    (h' : Unfolds l t history' rows' s') (hdone : history'.map Entry.call = done.reverse)
    (hready : s'.Ready) (hsome : s.validTo.isSome = s'.validTo.isSome)
    (hidentified : ∀ call ∈ calls, missingIdentifier? s'.options call.1 = none)
    (hticks : ∀ k ∈ s'.clock.ticks rest.length, k.InYears ∧ ∀ d ∈ s'.validTo, k ≤ d) :
    ∃ told s₁, s'.tell rest history' = some (told, s₁) := by
  -- The induction is on the calls that are left; those that are done have been told in this order.
  induction rest generalizing done history' rows' s' with
  | nil => exact ⟨history', s', rfl⟩
  | cons call rest ih =>
    have hmem : call ∈ calls := hreorders.perm.subset (hrest ▸ List.mem_append_right _ List.mem_cons_self)
    obtain ⟨e₀, he₀, rfl⟩ := List.mem_map.mp (hcalls ▸ List.mem_reverse.mpr hmem : call ∈ history.map _)
    obtain ⟨later, e, es, hstream, hcall, hes⟩ :=
      hreorders.result hcalls hrest (h.repeatable e₀ he₀).findable
    have he : e ∈ history :=
      (List.mem_filter.mp (hstream ▸ List.mem_append_right _ List.mem_cons_self)).1
    obtain ⟨life, hlived, -⟩ := h.lives e₀.call.1
    rw [hstream] at hlived
    obtain ⟨life₀, life₁, hlived₀, hstep⟩ := hlived.before
    obtain ⟨⟨hyears, hends⟩, hlater⟩ := List.forall_mem_cons.mp hticks
    rw [← hcall] at hmem hes hrest ⊢
    rw [← Layout.map_call_stream hdone] at hes
    obtain ⟨result, s₁, hrun, hready₁⟩ := h'.again hs hready hkeyed (h.selects (List.ne_nil_of_mem he))
      (h.repeatable e he) hsome (hidentified _ hmem) hyears hends hlived₀ hes hstep
    have htells : s'.Tells l t ⟨e.row, e.forced, s'.clock.next, result⟩ s₁ :=
      ⟨hrows _ hmem, rfl, hyears, hrun⟩
    have htold := htells.spec hs h'.holds
    obtain ⟨rows₁, h₁⟩ := h'.told hs htells hends
    rw [← htold.clock, ← htold.same.validTo] at hlater
    rw [← htold.same.validTo] at hsome
    rw [← htold.same.options] at hidentified
    obtain ⟨told, s₂, htell⟩ := ih (hrest.trans (List.append_cons _ _ _)) h₁
      (by rw [List.map_cons, hdone, List.reverse_append]; rfl) hready₁ hsome hidentified hlater
    refine ⟨told, s₂, ?_⟩
    simp only [Entry.call, Session.tell, hrun]
    exact htell

/-- The versions of an identifier stand as often in the tables of two runs, if its calls are the
same. -/
theorem Unfolds.count_eq (h : Unfolds l t history rows s) (h' : Unfolds l t history' rows' s')
    (hstreams : ∀ e ∈ history, (l.stream t e.row history).map Entry.call =
      (l.stream t e.row history').map Entry.call) {x : List Cell} (hx : x ∈ rows.map (l.veiled t)) :
    (rows.map (l.veiled t)).count x = (rows'.map (l.veiled t)).count x := by
  obtain ⟨r, hr, rfl⟩ := List.mem_map.mp hx
  obtain ⟨e, he, hid⟩ := h.owned r hr
  have hveiled : l.identifies t e.row (l.veiled t r) = true :=
    (Layout.identifies_veiled hs.names (h.chained.stored r hr).row e.row).trans hid
  obtain ⟨life, hlived, hlives⟩ := h.lives e.row
  obtain ⟨life', hlived', hlives'⟩ := h'.lives e.row
  obtain rfl := (hlived.unique hlived' (hstreams e he)).2
  rw [Layout.count_veiled hs.names (fun r hr => (h.chained.stored r hr).row) hveiled,
    Layout.count_veiled hs.names (fun r hr => (h'.chained.stored r hr).row) hveiled, hlives.versions,
    hlives'.versions]

/-- **Two runs leave the same versions**, in some order, if the calls of each identifier are the
same. -/
theorem Unfolds.perm (h : Unfolds l t history rows s) (h' : Unfolds l t history' rows' s')
    (hstreams : ∀ e, e ∈ history ∨ e ∈ history' → (l.stream t e.row history).map Entry.call =
      (l.stream t e.row history').map Entry.call) :
    (rows.map (l.veiled t)).Perm (rows'.map (l.veiled t)) := by
  refine List.perm_iff_count.mpr fun x => ?_
  by_cases hx : x ∈ rows.map (l.veiled t)
  · exact h.count_eq hs h' (fun e he => hstreams e (.inl he)) hx
  · by_cases hx' : x ∈ rows'.map (l.veiled t)
    · exact (h'.count_eq hs h (fun e he => (hstreams e (.inr he)).symm) hx').symm
    · rw [List.count_eq_zero_of_not_mem hx, List.count_eq_zero_of_not_mem hx']

/-- The fields and numbers of versions without times are those of the rows. -/
theorem Unfolds.map_contents (h : Unfolds l t history rows s) :
    (rows.map (l.veiled t)).map (fun r => l.contents.map (t.cell r)) =
      rows.map fun r => l.contents.map (t.cell r) := by
  rw [List.map_map]
  exact List.map_congr_left fun r hr => List.map_congr_left fun c hc =>
    Layout.cell_veiled hs.names (h.chained.stored r hr).row hc

end Runs

end Session

/-- **Identifiers do not interact.** Sessions with the same options are opened on an empty table, and
are given the same rows in two orders that agree for each identifier. If all rows of the first session
are told, so are those of the second, provided that nobody disturbs it and that what must be unique tells
versions apart. The rows of each identifier are then told the same, and the tables have the same versions
but for their times. -/
theorem identifiers_independent {σ σ' : Type} [Connection σ] [Transactional σ] [Connection σ']
    [Transactional σ'] [Steady σ'] {o : Options} {t : Table} {c : σ} {c' : σ'} {s s₁ : Session σ}
    {s' : Session σ'} {calls calls' : List (Row × Option RowStatus)} {history : List Entry}
    (hs : o.layout.Suits t) (hempty : t.rows = [])
    (hrows : ∀ call ∈ calls, o.layout.Admissible t call.1) (hstarts : s.Starts o t c calls.length)
    (htold : s.tell calls [] = some (history, s₁)) (hstarts' : s'.Starts o t c' calls'.length)
    (hreorders : o.layout.Reorders t calls calls') :
    (o.layout.Keyed t → Steady.Free c' → ∃ history' s₁', s'.tell calls' [] = some (history', s₁')) ∧
    ∀ history' s₁', s'.tell calls' [] = some (history', s₁') →
      (∀ call ∈ calls, (o.layout.stream t call.1 history').map (fun e => (e.call, e.told)) =
        (o.layout.stream t call.1 history).map fun e => (e.call, e.told)) ∧
      ∃ rows rows', s₁.working.find? o.layout.table = some { t with rows } ∧
        s₁'.working.find? o.layout.table = some { t with rows := rows' } ∧
        (rows'.map fun r => o.layout.contents.map (t.cell r)).Perm
          (rows.map fun r => o.layout.contents.map (t.cell r)) := by
  have hstart := hstarts.unfolds hs hempty
  have hstart' := hstarts'.unfolds hs hempty
  obtain ⟨rows, hrun⟩ := hstart.tell hs htold hrows hstarts.ticks
  have hcalls : history.map Entry.call = calls.reverse :=
    (Session.tell_calls htold).trans (List.append_nil _)
  refine ⟨fun hkeyed hfree => ?_, fun history' s₁' htold' => ?_⟩
  · have hidentified := Session.tell_identified hstart.holds.fit htold
    rw [hstarts.options, ← hstarts'.options] at hidentified
    have hsome : s₁.validTo.isSome = s'.validTo.isSome := by
      rw [(Session.tell_same hstart.holds.fit htold).validTo, hstarts.isSome_validTo, hstarts'.isSome_validTo]
    exact hrun.tell_again hs hcalls hreorders hkeyed hrows (List.nil_append _).symm hstart' rfl
      (hstarts'.ready hfree) hsome hidentified hstarts'.ticks
  · have hrows' : ∀ call ∈ calls', o.layout.Admissible t call.1 := fun call hcall =>
      hrows call (hreorders.perm.subset hcall)
    obtain ⟨rows', hrun'⟩ := hstart'.tell hs htold' hrows' hstarts'.ticks
    have hcalls' : history'.map Entry.call = calls'.reverse :=
      (Session.tell_calls htold').trans (List.append_nil _)
    have hstreams : ∀ call ∈ calls, (o.layout.stream t call.1 history').map Entry.call =
        (o.layout.stream t call.1 history).map Entry.call := by
      intro call hcall
      rw [Layout.map_call_stream hcalls, Layout.map_call_stream hcalls', hreorders.order call hcall]
    have hmem : ∀ e, e ∈ history' ∨ e ∈ history → e.call ∈ calls := by
      rintro e (he | he)
      · have hcall : e.call ∈ history'.map Entry.call := List.mem_map_of_mem he
        rw [hcalls'] at hcall
        exact hreorders.perm.subset (List.mem_reverse.mp hcall)
      · have hcall : e.call ∈ history.map Entry.call := List.mem_map_of_mem he
        rw [hcalls] at hcall
        exact List.mem_reverse.mp hcall
    refine ⟨fun call hcall => ?_, rows, rows', hrun.table, hrun'.table, ?_⟩
    · obtain ⟨life, hlived, -⟩ := hrun.lives call.1
      obtain ⟨life', hlived', -⟩ := hrun'.lives call.1
      have hpairs : ∀ es : List Entry, es.map (fun e => (e.call, e.told)) =
          (es.map Entry.call).zip (es.map Entry.told) := fun es => List.zip_map'.symm
      rw [hpairs, hpairs, hstreams call hcall, (hlived'.unique hlived (hstreams call hcall)).1]
    · have hperm := hrun'.perm hs hrun fun e he => hstreams e.call (hmem e he)
      rw [← hrun'.map_contents hs, ← hrun.map_contents hs]
      exact hperm.map _

/-! ## 4. Items in another order -/

namespace Sample

/-- The table of items, where no version of an item may be repeated. -/
def keyedItems : Table :=
  { items .integer with unique := [[0, 2]] }

/-- Two items come in turn. -/
def visits : List (Row × Option RowStatus) :=
  [(item 1 "n" 1, none), (item 2 "n" 1, none), (item 1 "n" 2, none), (item 2 "n" 1, some .purged),
    (item 2 "n" 1, none)]

/-- The rows of both, with those of the second one earlier. -/
def hastened : List (Row × Option RowStatus) :=
  [(item 2 "n" 1, none), (item 2 "n" 1, some .purged), (item 1 "n" 1, none), (item 2 "n" 1, none),
    (item 1 "n" 2, none)]

theorem reorders_visits : (sizes "n" none).layout.Reorders keyedItems visits hastened :=
  ⟨by decide +kernel, by decide +kernel⟩

/-- The clock of a system whose time goes on by an hour, twice, and then back. -/
def restless : Clock :=
  .system fun i => Instant.ofSeconds (1704067200 + 3600 * (i % 3 : Nat))

/-- The ticks of a session that is asked five times lie in the years, and not after its horizon. -/
def inTime (s : Session (Traced Store)) : Bool :=
  decide (s.start.InYears ∧ (∀ e ∈ s.validTo, e.InYears) ∧
    ∀ k ∈ s.clock.ticks 5, k.InYears ∧ ∀ e ∈ s.validTo, k ≤ e)

theorem starts_keyed {clock : Clock} (hclock : clock.IsWhole) {check : Session (Traced Store) → Bool}
    (h : okAnd (Session.begin (sizes "n" none) clock "sample" (holding ⟨[keyedItems]⟩))
      (fun s => inTime s && check s) = true) :
    ∃ s : Session (Traced Store),
      Session.begin (sizes "n" none) clock "sample" (holding ⟨[keyedItems]⟩) = .ok s ∧
      s.Starts (sizes "n" none) keyedItems (holding ⟨[keyedItems]⟩) 5 ∧ check s = true := by
  obtain ⟨s, hbegin, hs⟩ := exists_of_okAnd h
  obtain ⟨hopening, hchecked⟩ := Bool.and_eq_true_iff.mp hs
  obtain ⟨hstart, hhorizon, hticks⟩ := of_decide_eq_true hopening
  exact ⟨s, hbegin, ⟨Steady.sound (free_holding _), by decide +kernel,
    ⟨clock, "sample", hclock, hbegin⟩, hstart, hhorizon, hticks⟩, hchecked⟩

/-- The visits are told, one after the other. -/
theorem visits_told : ∃ (s s₁ : Session (Traced Store)) (history : List Entry),
    s.Starts (sizes "n" none) keyedItems (holding ⟨[keyedItems]⟩) 5 ∧
    s.tell visits [] = some (history, s₁) ∧
    history.map (fun e => (e.result.status, e.result.version)) =
      [(.outdated, 2), (.purged, 1), (.changed, 2), (.new, 1), (.new, 1)] := by
  have hcheck : okAnd (Session.begin (sizes "n" none) clock "sample" (holding ⟨[keyedItems]⟩)) (fun s =>
      inTime s && (s.tell visits []).any fun told =>
        decide (told.1.map (fun e => (e.result.status, e.result.version)) =
          [(.outdated, 2), (.purged, 1), (.changed, 2), (.new, 1), (.new, 1)])) = true := by
    rw [Store.connection_eq (sizes "n" none)]
    decide +kernel
  obtain ⟨s, -, hstarts, htold⟩ := starts_keyed (Clock.isWhole_startingAt _) hcheck
  obtain ⟨⟨history, s₁⟩, htell, hresults⟩ := (Option.any_eq_true _ _).mp htold
  exact ⟨s, s₁, history, hstarts, htell, of_decide_eq_true hresults⟩

/-- A session with a restless clock starts. -/
theorem restless_starts : ∃ s : Session (Traced Store),
    Session.begin (sizes "n" none) restless "sample" (holding ⟨[keyedItems]⟩) = .ok s ∧
    s.Starts (sizes "n" none) keyedItems (holding ⟨[keyedItems]⟩) 5 := by
  have hcheck : okAnd (Session.begin (sizes "n" none) restless "sample" (holding ⟨[keyedItems]⟩))
      (fun s => inTime s && true) = true := by
    rw [Store.connection_eq (sizes "n" none)]
    decide +kernel
  obtain ⟨s, hbegin, hstarts, -⟩ := starts_keyed (Clock.isWhole_system _) hcheck
  exact ⟨s, hbegin, hstarts⟩

end Sample

/-- The second of two items comes earlier, in a session with a restless clock, and both get the same
results and versions. -/
theorem hastened_items_agree :
    ∃ (s s₁ s' s₁' : Session (Traced Store)) (history history' : List Entry)
      (rows rows' : List (List Cell)),
      s.tell Sample.visits [] = some (history, s₁) ∧
      history.map (fun e => (e.result.status, e.result.version)) =
        [(.outdated, 2), (.purged, 1), (.changed, 2), (.new, 1), (.new, 1)] ∧
      Session.begin (Sample.sizes "n" none) Sample.restless "sample"
        (Sample.holding ⟨[Sample.keyedItems]⟩) = .ok s' ∧
      s'.tell Sample.hastened [] = some (history', s₁') ∧
      (∀ call ∈ Sample.visits, ((Sample.sizes "n" none).layout.stream Sample.keyedItems call.1 history').map
          (fun e => (e.call, e.told)) =
        ((Sample.sizes "n" none).layout.stream Sample.keyedItems call.1 history).map
          fun e => (e.call, e.told)) ∧
      s₁.working.find? "items" = some { Sample.keyedItems with rows } ∧
      s₁'.working.find? "items" = some { Sample.keyedItems with rows := rows' } ∧
      (rows'.map fun r => (Sample.sizes "n" none).layout.contents.map (Sample.keyedItems.cell r)).Perm
        (rows.map fun r => (Sample.sizes "n" none).layout.contents.map (Sample.keyedItems.cell r)) := by
  obtain ⟨s, s₁, history, hstarts, htold, hresults⟩ := Sample.visits_told
  have hsuits : (Sample.sizes "n" none).layout.Suits Sample.keyedItems :=
    ⟨Sample.suits_items.names, Sample.suits_items.columns, Sample.suits_items.version,
      Sample.suits_items.validFrom, Sample.suits_items.validTo⟩
  obtain ⟨s', hbegin', hstarts'⟩ := Sample.restless_starts
  obtain ⟨hagain, hsame⟩ := identifiers_independent hsuits rfl (by decide +kernel) hstarts htold
    hstarts' Sample.reorders_visits
  obtain ⟨history', s₁', htold'⟩ := hagain (by decide +kernel) (Sample.free_holding _)
  obtain ⟨hstreams, rows, rows', hrows, hrows', hperm⟩ := hsame history' s₁' htold'
  exact ⟨s, s₁, s', s₁', history, history', rows, rows', htold, hresults, hbegin', htold', hstreams,
    hrows, hrows', hperm⟩

namespace Sample

/-- What rows are told in a session on a table, the first one first; none if one of them is not told. -/
def told (o : Options) (t : Table) (rows : List Row) : Option (List (RowStatus × Int)) :=
  (Session.begin o clock "sample" (holding ⟨[t]⟩)).toOption.bind fun s =>
    (s.tell (rows.map fun row => (row, none)) []).map fun told =>
      told.1.reverse.map fun e => (e.result.status, e.result.version)

/-- An item whose identifier is a text. -/
def spelled : Row :=
  (Row.empty.set "i" (.text "1")).set "n" (.int64 1)

/-- The ends of items are compared under a name that the column of ends has. -/
def ending : Options :=
  { sizes "n" none with fields := ⟨[⟨"i", .id, .integer⟩, ⟨"T", .compare, .string⟩]⟩ }

/-- An item with an end. -/
def endingItem (id : Int) (stop : String) : Row :=
  (Row.empty.set "i" (.int64 id)).set "T" (.text stop)

/-- Sizes are changed in place. -/
def resized : Options :=
  { sizes "n" none with fields := ⟨[⟨"i", .id, .integer⟩, ⟨"n", .update, .integer⟩]⟩ }

/-- The table of items, no two of which have the same size. -/
def sized : Table :=
  { items .integer with unique := [[1]] }

/-- A version ends before a later row of its identifier, or after it. -/
theorem ending_items_differ :
    told ending (items .integer) [endingItem 1 "2024-01-01 00:00:00.000002",
        endingItem 1 "2024-01-01 00:00:00.000002", endingItem 2 "3000-01-01 00:00:00.000000"] =
      some [(.new, 1), (.changed, 2), (.new, 1)] ∧
    told ending (items .integer) [endingItem 1 "2024-01-01 00:00:00.000002",
        endingItem 2 "3000-01-01 00:00:00.000000", endingItem 1 "2024-01-01 00:00:00.000002"] =
      some [(.new, 1), (.new, 1), (.outdated, 2)] := by
  unfold told
  rw [Store.connection_eq ending]
  decide +kernel

end Sample

/-- **Orders that tell rows differently.** A number and a text that a column keeps as the same
identifier change their results with their places; so do two numbers, of which only one is a
floating-point number, in a column of those. A field that stands in the place of the end lets a version
end before a later row of the same identifier, and a size that must be unique refuses an order. -/
theorem reordered_items_differ :
    (Sample.told (Sample.sizes "n" none) (Sample.items .integer) [Sample.item 1 "n" 1, Sample.spelled] =
        some [(.new, 1), (.identical, 1)] ∧
      Sample.told (Sample.sizes "n" none) (Sample.items .integer) [Sample.spelled, Sample.item 1 "n" 1] =
        some [(.new, 1), (.identical, 1)]) ∧
    (Sample.told (Sample.sizes "n" none) (Sample.items .real)
        [Sample.inexact, Sample.item 9007199254740992 "n" 1] = some [(.new, 1), (.identical, 1)] ∧
      Sample.told (Sample.sizes "n" none) (Sample.items .real)
        [Sample.item 9007199254740992 "n" 1, Sample.inexact] = some [(.new, 1), (.new, 1)]) ∧
    (Sample.told Sample.ending (Sample.items .integer)
        [Sample.endingItem 1 "2024-01-01 00:00:00.000002", Sample.endingItem 1 "2024-01-01 00:00:00.000002",
          Sample.endingItem 2 "3000-01-01 00:00:00.000000"] =
        some [(.new, 1), (.changed, 2), (.new, 1)] ∧
      Sample.told Sample.ending (Sample.items .integer)
        [Sample.endingItem 1 "2024-01-01 00:00:00.000002", Sample.endingItem 2 "3000-01-01 00:00:00.000000",
          Sample.endingItem 1 "2024-01-01 00:00:00.000002"] =
        some [(.new, 1), (.new, 1), (.outdated, 2)]) ∧
    (Sample.told Sample.resized Sample.sized
        [Sample.item 1 "n" 1, Sample.item 1 "n" 2, Sample.item 2 "n" 1] =
        some [(.new, 1), (.update, 1), (.new, 1)] ∧
      Sample.told Sample.resized Sample.sized
        [Sample.item 1 "n" 1, Sample.item 2 "n" 1, Sample.item 1 "n" 2] = none) := by
  refine ⟨?_, ?_, Sample.ending_items_differ, ?_⟩ <;> unfold Sample.told
  · rw [Store.connection_eq (Sample.sizes "n" none)]
    decide +kernel
  · rw [Store.connection_eq (Sample.sizes "n" none)]
    decide +kernel
  · rw [Store.connection_eq Sample.resized]
    decide +kernel

end RowHistory
