import RowHistory.Proofs.Session.Success
import RowHistory.Proofs.Versions.Activity

/-!
# Lookups reproduce the history

What a session told of a row at a tick can be looked up later: the version that is active at an
instant is the one of the last result before it. This file fixes

* the version that results tell of for an instant (`Layout.versionAt`);
* that a table is what the results tell (`Layout.Logged`), and that a step adds its result
  (`Logged.step`);
* runs of sessions with all their results (`Recorded`), and that a lookup gives what they tell
  (`lookup_reproduces_history`).
-/

namespace RowHistory

open Sql

namespace Layout

variable {l : Layout} {t : Table} {row w : Row} {now time limit : Instant}
  {horizon : Option Instant} {status : RowStatus} {n k : Int}
  {rows rows' : List (List Cell)} {r r' : List Cell} {v v' : Version} {strict : Prop}
  {ticks : List Instant}

/-! ## 1. What results tell -/

/-- The version at an instant, by results of which the last one comes first: it is the version of
the last result that tells of it, unless that one ended it before. -/
def versionAt (l : Layout) (t : Table) (history : List Entry) (w : Row) (time : Instant) :
    Option Int :=
  match history.find? (fun e => l.tells t w e && e.tick ≤ time) with
  | none => none
  | some e => if e.result.status = .purged ∧ e.tick < time then none else some e.result.version

theorem versionAt_cons (e : Entry) (history : List Entry) (time : Instant) :
    l.versionAt t (e :: history) w time = if l.tells t w e && e.tick ≤ time then
      (if e.result.status = .purged ∧ e.tick < time then none else some e.result.version)
      else l.versionAt t history w time := by
  unfold versionAt
  rw [List.find?_cons]
  cases l.tells t w e && e.tick ≤ time <;> rfl

/-- A stored row was added for a result: it keeps its identifier, what is compared, and its number. -/
structure AddedFor (l : Layout) (t : Table) (r : List Cell) (e : Entry) : Prop where
  cells : ∀ m ∈ l.fields.names .id ++ l.fields.names .compare,
    t.cell r m = (t.affinityOf m).store (Cell.ofValue (e.row.value m))
  number : t.cell r l.names.version = .integer e.result.version

theorem AddedFor.turned {e : Entry} (h : l.AddedFor t r e) (hturned : l.Turned t row now status r r') :
    l.AddedFor t r' e :=
  ⟨fun m hm => (hturned.lasting m (List.mem_append_left _ hm)).trans (h.cells m hm),
    (hturned.lasting _ l.version_lasting).trans h.number⟩

theorem forall₂_turned {kept : List (List Cell)} {es : List Entry}
    (h : List.Forall₂ (l.AddedFor t) rows es)
    (hkept : List.Forall₂ (l.Turned t row now status) rows kept) :
    List.Forall₂ (l.AddedFor t) kept es := by
  induction h generalizing kept with
  | nil =>
    cases hkept
    exact .nil
  | cons hr _ ih =>
    cases hkept with
    | cons hturned hkept => exact .cons (hr.turned hturned) (ih hkept)

theorem addedFor_fresh (hs : l.Suits t) (hcolumns : ∀ c ∈ l.insertColumns, t.Has c) (e : Entry) :
    l.AddedFor t (l.freshRow t e.row e.result.version now horizon) e := by
  refine ⟨fun m hm => cell_fresh hs hcolumns ?_, ?_⟩
  · unfold versionCells fieldCells
    obtain hm | hm := List.mem_append.mp hm <;>
      simp only [List.mem_append, List.mem_map, List.mem_cons]
    · exact .inl (.inl (.inl (.inl ⟨m, hm, rfl⟩)))
    · exact .inl (.inl (.inr ⟨m, hm, rfl⟩))
  · refine (cell_fresh hs hcolumns (List.mem_append_right _ ?_)).trans (hs.version _)
    exact List.mem_cons_of_mem _ (List.mem_cons_of_mem _ List.mem_cons_self)

/-- **The rows of a table are what results tell**, up to a limit. -/
structure Logged (l : Layout) (t : Table) (limit : Instant) (history : List Entry)
    (rows : List (List Cell)) : Prop where
  /-- Each row was added for a result, in their order. -/
  added : List.Forall₂ (l.AddedFor t) rows (history.filter fun e => e.result.status.adds).reverse
  ends : l.Ends t (history.map Entry.tick) limit rows
  asOf : ∀ w time, time ≤ limit → Greatest (l.HasActive t rows w time) (l.versionAt t history w time)

theorem logged_nil (l : Layout) (t : Table) (limit : Instant) : l.Logged t limit [] [] :=
  ⟨.nil, List.forall_mem_nil _, fun _ _ _ _ ⟨_, hr, _⟩ => nomatch hr⟩

/-- **A step adds its result to what is told.** -/
theorem Logged.step {e : Entry} {history : List Entry} (hlogged : l.Logged t limit history rows)
    (hstep : Step l t e.row e.tick horizon rows e.result.status e.result.version rows')
    (hs : l.Suits t) (h : l.Chained t strict (history.map Entry.tick) rows)
    (hticks : ∀ k ∈ history.map Entry.tick, k < e.tick) (hnow : e.tick.IsStorable)
    (hhorizon : ∀ e ∈ horizon, e.IsStorable ∧ limit ≤ e)
    (hcolumns : e.result.status = .new → ∀ c ∈ l.insertColumns, t.Has c)
    (hfind : l.Findable t e.row) (hstatus : e.result.status ≠ .update) :
    l.Logged t limit (e :: history) rows' := by
  have hhorizon' : ∀ e ∈ horizon, e.IsStorable := fun e he => (hhorizon e he).1
  have h' := hstep.chained hs h hticks hnow hhorizon' hfind hcolumns
  refine ⟨?_, hstep.ends hs h hnow hhorizon hcolumns hlogged.ends, fun w time hlimit => ?_⟩
  · obtain ⟨kept, hkept, rfl⟩ := hstep.turned hs h.stored hnow
    have hadded := forall₂_turned hlogged.added hkept
    rw [List.filter_cons]
    split
    · rename_i hadds
      rw [List.reverse_cons]
      exact List.rel_append hadded (.cons (addedFor_fresh hs
        (hstep.columns h.stored hcolumns hadds) e) .nil)
    · rw [List.append_nil]
      exact hadded
  · rw [versionAt_cons]
    by_cases htells : (l.tells t w e && e.tick ≤ time) = true
    · rw [if_pos htells]
      rw [Bool.and_eq_true, tells_iff, decide_eq_true_eq] at htells
      exact hstep.greatest hs h h' hticks hnow hhorizon hcolumns hlogged.ends hfind htells.1.1
        htells.1.2 htells.2 hlimit
    · rw [if_neg htells]
      rw [Bool.and_eq_true, tells_iff, decide_eq_true_eq] at htells
      have hold := hlogged.asOf w time hlimit
      refine hold.congr fun k => ?_
      by_cases hle : e.tick ≤ time
      · exact hasActive_untold hstep hs h hnow hcolumns hfind fun htold => htells ⟨htold, hle⟩
      · exact hasActive_before hstep hs h hnow hhorizon' hcolumns hstatus (not_le.mp hle)

/-- What a version was added for: the only result of its identifier with its number. -/
theorem Logged.unique {history : List Entry} (hlogged : l.Logged t limit history rows)
    (h : l.Chained t strict ticks rows) (hr : r ∈ rows) (hid : l.identifies t w r = true)
    (hshow : l.Shows t r v) :
    (∃ e ∈ history, e.result.status.adds = true ∧ l.sameIdentifier t w e.row = true ∧
      e.result.version = v.number) ∧
    ∀ e ∈ history, e.result.status.adds = true → l.sameIdentifier t w e.row = true →
      e.result.version = v.number → l.AddedFor t r e := by
  have hidentifies : ∀ {r' e}, l.AddedFor t r' e →
      l.identifies t w r' = l.sameIdentifier t w e.row := fun hadded =>
    identifies_of_cells fun m hm => hadded.cells m (List.mem_append_left _ hm)
  refine ⟨?_, fun e he hadds hsame hversion => ?_⟩
  · obtain ⟨e, he, hadded⟩ := exists_right hlogged.added hr
    obtain ⟨he, hadds⟩ := List.mem_filter.mp (List.mem_reverse.mp he)
    exact ⟨e, he, hadds, (hidentifies hadded).symm.trans hid,
      Cell.integer.inj (hadded.number.symm.trans hshow.number)⟩
  · obtain ⟨r', hr', hadded⟩ := exists_left hlogged.added
      (List.mem_reverse.mpr (List.mem_filter.mpr ⟨he, hadds⟩))
    obtain ⟨v', hv'⟩ := h.shows r' hr'
    have hnumber : v'.number = v.number :=
      (Cell.integer.inj (hv'.number.symm.trans hadded.number)).trans hversion
    rwa [h.eq_of_number hr hr' hid ((hidentifies hadded).trans hsame) hshow hv' hnumber.symm]

end Layout

/-! ## 2. Runs with all their results -/

variable {σ : Type} [Connection σ]

/-- What sessions without a purge lead to, with all their results, the last one first. Every session
has a clock of its own, whose readings are arbitrary. No session takes versions to end before the
limit. -/
inductive Recorded (l : Layout) (t : Table) (limit : Instant) (c₀ : σ) : Phase σ → List Entry → Prop
  | start : Recorded l t limit c₀ (.idle c₀) []
  /-- A session is opened. -/
  | opened {c : σ} {history : List Entry} {o : Options} {clock : Clock} {id : String}
      {s : Session σ} : Recorded l t limit c₀ (.idle c) history → o.layout = l → o.purge = false →
      clock.IsWhole → Session.begin o clock id c = .ok s → s.start.InYears →
      (∀ e ∈ s.validTo, e.InYears ∧ limit ≤ e) → (∀ e ∈ history, e.tick < s.clock.next) →
      Recorded l t limit c₀ (.busy s) history
  /-- A session tells of a row. -/
  | told {s s' : Session σ} {history : List Entry} {e : Entry} :
      Recorded l t limit c₀ (.busy s) history → s.Tells l t e s' →
      Recorded l t limit c₀ (.busy s') (e :: history)
  /-- A session is finished. -/
  | ended {s s' : Session σ} {history : List Entry} : Recorded l t limit c₀ (.busy s) history →
      s.finish = (.ok (), s') → Recorded l t limit c₀ (.idle s'.storage.connection) history

/-- A kind without fields makes no difference. -/
theorem Classification.againstActive_ne_update {c : Classification} (h : c.names .update = [])
    {row : Row} {active : Record} {natural : Outcome}
    (hagainst : c.againstActive row active = .ok natural) : natural.status ≠ .update := by
  have hnone : c.anyDiffers .update row active.row = .ok false := by
    have hfields : c.ofKind .update = [] := List.map_eq_nil_iff.mp h
    unfold Classification.anyDiffers
    rw [hfields]
    rfl
  unfold Classification.againstActive at hagainst
  rw [hnone] at hagainst
  split at hagainst
  · cases hagainst
  · cases hagainst
    exact nofun
  · cases hagainst
    exact nofun

variable [Transactional σ]

namespace Session

variable {l : Layout} {t : Table} {strict : Prop} {ticks : List Instant} {s s' : Session σ} {e : Entry}

/-- A result is no update where no field is updated in place. -/
theorem Told.ne_update (h : Told l t strict ticks s e s') (hl : s.options.layout = l)
    (hupdate : l.fields.names .update = []) : e.result.status ≠ .update := by
  obtain ⟨natural, hjudged, hresult⟩ := h.applied.judged
  have hnatural : natural.status ≠ .update := by
    rw [hl] at hjudged
    cases hjudged with
    | active _ _ hagainst => exact Classification.againstActive_ne_update hupdate hagainst
    | latest _ _ _ _ => unfold Outcome.withoutActive; split <;> exact nofun
  rw [hresult]
  show (force e.forced natural).1.status ≠ .update
  obtain hp | hp | hp := h.permitted <;> rw [hp] <;> unfold force
  · exact hnatural
  · dsimp only
    split <;> exact nofun
  · dsimp only
    split <;> exact nofun

end Session

/-- The database of a phase, with all that was told. -/
def Phase.current : Phase σ → Database
  | .idle c => Transactional.durable c
  | .busy s => s.working

/-- What holds in a phase of sessions with all their results. -/
structure Phase.Records (l : Layout) (t : Table) (limit : Instant) (history : List Entry)
    (p : Phase σ) : Prop where
  holds : p.Holds l t False (history.map Entry.tick)
  logged : ∃ rows, p.current.find? l.table = some { t with rows } ∧
    l.Chained t False (history.map Entry.tick) rows ∧ l.Logged t limit history rows
  isOpen : ∀ s, p = .busy s → s.isOpen = true ∧ s.options.purge = false ∧ ∀ e ∈ s.validTo, limit ≤ e

/-- **In every phase the table is what the results tell.** -/
theorem Recorded.records {l : Layout} {t : Table} {limit : Instant} {c₀ : σ} {p : Phase σ}
    {history : List Entry} (hsound : Transactional.Sound c₀) (hs : l.Suits t) (hempty : t.rows = [])
    (hfind : (Transactional.durable c₀).find? l.table = some t)
    (hupdate : l.fields.names .update = []) (h : Recorded l t limit c₀ p history) :
    p.Records l t limit history := by
  induction h with
  | start =>
    have hrows : (Transactional.durable c₀).find? l.table = some { t with rows := [] } := by
      rw [hfind, ← hempty]
    exact ⟨⟨hsound, [], hrows, l.chained_nil t False []⟩,
      ⟨[], hrows, l.chained_nil t False [], l.logged_nil t limit⟩, fun _ heq => nomatch heq⟩
  | @opened _ history o _ _ s _ hlayout hpurge hclock hbegin hstart hhorizon hticks ih =>
    obtain ⟨hfit, hoptions, hopen, hd, hw, -, -, hprepare⟩ := Session.begin_spec ih.holds.1 hbegin
    obtain ⟨hwhole, hclock', hlt, hwhole'⟩ := Session.prepare_whole hclock hprepare
    have hafter : ∀ k ∈ history.map Entry.tick, k < s.clock.next := by
      intro k hk
      obtain ⟨e, he, rfl⟩ := List.mem_map.mp hk
      exact hticks e he
    refine ⟨⟨hfit, hoptions ▸ hlayout, False.elim, hclock', hafter, hlt, ⟨hwhole, hstart⟩,
      fun e he => ⟨hwhole' e he, (hhorizon e he).1⟩, hd ▸ ih.holds.2, fun _ => hw ▸ ih.holds.2⟩,
      ?_, ?_⟩
    · obtain ⟨rows, hrows, hlogged⟩ := ih.logged
      have hcurrent : (Phase.busy s).current = (Phase.idle _).current := hw
      exact ⟨rows, hcurrent ▸ hrows, hlogged⟩
    · rintro s' ⟨⟩
      exact ⟨hopen, hoptions ▸ hpurge, fun e he => (hhorizon e he).2⟩
  | @told s s' history e _ htells ih =>
    obtain ⟨-, hpurge, hlimit⟩ := ih.isOpen s rfl
    have hholds : s.Holds l t False (history.map Entry.tick) := ih.holds
    have htold := htells.spec hs hholds
    obtain ⟨rows, rows', hrows, hchained, hstep, hsets, hcolumns⟩ := htold.step
    obtain ⟨rows₀, hrows₀, -, hlogged⟩ := ih.logged
    obtain rfl : rows₀ = rows := congrArg Table.rows (Option.some.inj (hrows₀.symm.trans hrows))
    have hhorizon : ∀ e ∈ s.validTo, e.IsStorable ∧ limit ≤ e := fun e he =>
      ⟨hholds.horizon e he, hlimit e he⟩
    refine ⟨htold.holds, ⟨rows', hsets.table, ?_, ?_⟩, ?_⟩
    · exact hstep.chained hs hchained htold.after htold.storable (fun e he => (hhorizon e he).1)
        htold.findable hcolumns
    · exact hlogged.step hstep hs hchained htold.after htold.storable hhorizon hcolumns
        htold.findable (htold.ne_update hholds.layout hupdate)
    · rintro s'' ⟨⟩
      rw [htold.same.options, htold.same.validTo]
      exact ⟨htold.isOpen, hpurge, hlimit⟩
  | @ended s s' history _ hfinish ih =>
    obtain ⟨hopen, hpurge, -⟩ := ih.isOpen s rfl
    obtain ⟨-, hclose⟩ := Session.finish_ok hfinish
    rw [if_neg (by rw [hpurge]; exact Bool.false_ne_true)] at hclose
    obtain ⟨hd, -, -, -, hfit, -⟩ := Session.commitAndClose_ok ih.holds.fit hopen hclose
    have hcurrent : (Phase.idle s'.storage.connection).current = (Phase.busy s).current := hd
    obtain ⟨rows, hrows, hchained, hlogged⟩ := ih.logged
    rw [← hcurrent] at hrows
    exact ⟨⟨hfit.storage.sound, rows, hrows, hchained⟩, ⟨rows, hrows, hchained, hlogged⟩,
      fun _ heq => nomatch heq⟩

/-- **Lookups reproduce the history.** After any sessions without a purge, a lookup at an instant
succeeds: it gives the version of the last result that tells of the identifier by then, unless that
result ended it before, and with it what that version was added with. -/
theorem lookup_reproduces_history [Steady σ] {ε : Type} {l : Layout} {t : Table} {limit : Instant}
    {c₀ : σ} {p : Phase σ} {history : List Entry} {q : Storage σ ε} {now : Instant}
    (hsound : Transactional.Sound c₀) (hs : l.Suits t) (hids : l.fields.names .id ≠ [])
    (hmain : l.InMain) (hspelled : l.Spelled t) (hempty : t.rows = [])
    (hfind : (Transactional.durable c₀).find? l.table = some t)
    (hupdate : l.fields.names .update = []) (h : Recorded l t limit c₀ p history)
    (hready : q.Ready) (hlayout : q.layout = l) (hcurrent : q.working = p.current)
    (hnow : now.IsStorable) (hlimit : now ≤ limit) (w : Row) :
    ∃ found q', (Storage.active w now).run.run q = (.ok found, q') ∧
      found.map Record.version = l.versionAt t history w now ∧
      ∀ record ∈ found, (∃ e ∈ history, e.result.status.adds = true ∧
          l.sameIdentifier t w e.row = true ∧ e.result.version = record.version) ∧
        ∀ e ∈ history, e.result.status.adds = true → l.sameIdentifier t w e.row = true →
          e.result.version = record.version → ∀ m ∈ l.fields.names .compare,
          record.row.value m = ((t.affinityOf m).store (Cell.ofValue (e.row.value m))).toValue := by
  obtain ⟨rows, hrows, hchained, hlogged⟩ :=
    (h.records hsound hs hempty hfind hupdate).logged
  obtain ⟨found, ⟨q', hrun, -⟩, hfinds⟩ := hchained.gives_active hids hmain hspelled hs hrows hready
    hlayout hcurrent hnow w
  refine ⟨found, q', hrun, hfinds.greatest.unique (hlogged.asOf w now hlimit), ?_⟩
  intro record hrecord
  cases hfinds with
  | none _ => cases hrecord
  | some hr hid hshow _ _ =>
    obtain rfl := Option.some.inj hrecord
    obtain ⟨hexists, hunique⟩ := hlogged.unique hchained hr hid hshow
    refine ⟨hexists, fun e he hadds hsame hversion m hm => ?_⟩
    have hadded := hunique e he hadds hsame hversion
    have hmem : m ∈ l.insertColumns := Layout.lasting_insert (List.mem_append_left _ (List.mem_append_right _ hm))
    rw [Layout.value_recordOf hspelled hs.columns (hchained.stored _ hr).row hmem,
      hadded.cells m (List.mem_append_right _ hm)]

/-! ## 3. Lookups of an item -/

namespace Sample

/-- An item comes, gets another size, and is purged. -/
def resizing : List (Row × Option RowStatus) :=
  [(item 1 "n" 1, none), (item 1 "n" 2, none), (item 1 "n" 2, some .purged)]

/-- A store with a database that nobody disturbs. -/
def holding (db : Database) : Traced Store :=
  { inner := { target := .file "items.db", file := { content := db } }, triggers := [] }

theorem free_holding (db : Database) : Steady.Free (holding db) :=
  ⟨⟨⟨rfl, rfl⟩, rfl, rfl, rfl, rfl, fun _ h => nomatch h⟩, rfl⟩

/-- A storage for the database. -/
theorem exists_ready (l : Layout) (db : Database) :
    ∃ q : Storage (Traced Store) Failure, q.Ready ∧ q.layout = l ∧ q.working = db := by
  obtain ⟨q, hconnect, hready⟩ := Storage.connect_ready (free_holding db) l 1 "sample"
  obtain ⟨-, -, hworking, hlayout, -⟩ :=
    Storage.connect_fit (Steady.sound (free_holding db)) hconnect
  exact ⟨q, hready, hlayout, hworking⟩

/-- Sizes are versioned, with the name of the version column in capitals. -/
def capitalized : Options :=
  { table := "items"
    names := { validFrom := "f", validTo := "t", version := "V" }
    fields := (sizes "n" none).fields }

/-- The items with one of them. -/
def firstItem : Database :=
  ⟨[{ items .integer with rows := [[.integer 1, .integer 1, .integer 1,
    .text "2024-01-01 00:00:00.000000", .null, .null]] }]⟩

/-- What a lookup tells of the version, if it succeeds. -/
def lookedUp (s : Session (Traced Store)) (w : Row) : Option (Option Int) :=
  match (Storage.active w s.clock.next).run.run s.storage with
  | (.ok found, _) => some (found.map Record.version)
  | _ => none

theorem exists_of_session {o : Option (Session (Traced Store))} {p : Session (Traced Store) → Prop}
    [∀ s, Decidable (p s)] (h : o.any (fun s => decide (p s)) = true) : ∃ s, o = some s ∧ p s := by
  obtain ⟨s, hs, hp⟩ := (Option.any_eq_true _ _).mp h
  exact ⟨s, hs, of_decide_eq_true hp⟩

end Sample

omit [Transactional σ] in
theorem Recorded.tell {l : Layout} {t : Table} {limit : Instant} {c₀ : σ} {s s' : Session σ}
    {history history' : List Entry} {calls : List (Row × Option RowStatus)}
    (h : Recorded l t limit c₀ (.busy s) history) (htold : s.tell calls history = some (history', s'))
    (hrows : ∀ call ∈ calls, l.Admissible t call.1) (hyears : ∀ e ∈ history', e.tick.InYears) :
    Recorded l t limit c₀ (.busy s') history' :=
  Session.tell_induction (P := fun history s => Recorded l t limit c₀ (.busy s) history)
    (fun h htells => h.told htells) h htold hrows hyears

/-- An item that came, got another size and was purged is found at the ticks of its results, and no
more after them. -/
theorem resized_item_looked_up :
    ∃ (p : Phase (Traced Store)) (history : List Entry) (q : Storage (Traced Store) Failure),
      Recorded (Sample.sizes "n" none).layout (Sample.items .integer) (Instant.ofSeconds 1735689600)
        (Sample.itemStore .integer []) p history ∧
      q.working = p.current ∧
      (Instant.ofSeconds 1735689600 :: history.map Entry.tick).map
        ((Sample.sizes "n" none).layout.versionAt (Sample.items .integer) history
          (Sample.item 1 "n" 0)) = [none, some 2, some 2, some 1] ∧
      ∀ now ∈ Instant.ofSeconds 1735689600 :: history.map Entry.tick,
        ∃ found q', (Storage.active (Sample.item 1 "n" 0) now).run.run q = (.ok found, q') ∧
          found.map Record.version = (Sample.sizes "n" none).layout.versionAt (Sample.items .integer)
            history (Sample.item 1 "n" 0) now := by
  have hcheck : okAnd (Session.begin (Sample.sizes "n" none) Sample.clock "sample"
      (Sample.itemStore .integer [])) (fun s => decide (s.start.InYears ∧
        ∀ e ∈ s.validTo, e.InYears ∧ Instant.ofSeconds 1735689600 ≤ e) &&
      (s.tell Sample.resizing []).any fun told => decide (
        (∀ e ∈ told.1, e.tick.InYears ∧ e.tick.IsWhole ∧ e.tick ≤ Instant.ofSeconds 1735689600) ∧
        (Instant.ofSeconds 1735689600 :: told.1.map Entry.tick).map
          ((Sample.sizes "n" none).layout.versionAt (Sample.items .integer) told.1
            (Sample.item 1 "n" 0)) = [none, some 2, some 2, some 1])) = true := by
    rw [Store.connection_eq (Sample.sizes "n" none)]
    decide +kernel
  obtain ⟨s, hbegin, hs⟩ := exists_of_okAnd hcheck
  obtain ⟨hyears, htell⟩ := Bool.and_eq_true_iff.mp hs
  obtain ⟨hstart, hhorizon⟩ := of_decide_eq_true hyears
  obtain ⟨⟨history, s'⟩, htold, hhistory⟩ := (Option.any_eq_true _ _).mp htell
  obtain ⟨hticks, hversions⟩ := of_decide_eq_true hhistory
  have hopened : Recorded (Sample.sizes "n" none).layout (Sample.items .integer)
      (Instant.ofSeconds 1735689600) (Sample.itemStore .integer []) (.busy s) [] :=
    .opened .start rfl rfl (Clock.isWhole_startingAt _) hbegin hstart hhorizon (List.forall_mem_nil _)
  have hrows : ∀ call ∈ Sample.resizing,
      (Sample.sizes "n" none).layout.Admissible (Sample.items .integer) call.1 := by
    decide +kernel
  have hrecorded := hopened.tell htold hrows fun e he => (hticks e he).1
  obtain ⟨q, hready, hlayout, hworking⟩ := Sample.exists_ready (Sample.sizes "n" none).layout s'.working
  have hnow : ∀ now ∈ Instant.ofSeconds 1735689600 :: history.map Entry.tick,
      now.IsStorable ∧ now ≤ Instant.ofSeconds 1735689600 := by
    refine List.forall_mem_cons.mpr ⟨⟨⟨by decide +kernel, by decide +kernel⟩, le_refl _⟩,
      fun now hnow => ?_⟩
    obtain ⟨e, he, rfl⟩ := List.mem_map.mp hnow
    obtain ⟨hin, hwhole, hle⟩ := hticks e he
    exact ⟨⟨hwhole, hin⟩, hle⟩
  refine ⟨_, history, q, hrecorded, hworking, hversions, fun now hmem => ?_⟩
  obtain ⟨found, q', hrun, hfound, -⟩ := lookup_reproduces_history
    (Steady.sound (Sample.free_holding _)) Sample.suits_items (by decide +kernel) (by decide +kernel)
    (by decide +kernel) rfl (by decide +kernel) (by decide +kernel) hrecorded hready hlayout hworking
    (hnow now hmem).1 (hnow now hmem).2 (Sample.item 1 "n" 0)
  exact ⟨found, q', hrun, hfound⟩

/-- An identifier that is not found again is not looked up. -/
theorem Sample.inexact_not_looked_up : ∃ s, Sample.ran (Sample.sizes "n" none)
    (Sample.itemStore .real []) [.row Sample.inexact none] = some s ∧
    Sample.lookedUp s Sample.inexact = some none :=
  Sample.exists_of_session (by
    rw [Sample.ran]
    unfold Sample.lookedUp
    rw [Store.connection_eq (Sample.sizes "n" none)]
    decide +kernel)

/-- A number that is not stored under just its name makes a lookup fail. -/
theorem Sample.capitalized_not_looked_up :
    ∃ answer db, Sample.capitalized.layout.run .active
        { row := Sample.item 1 "n" 1, instant := some (Instant.ofSeconds 1704067200) }
        Sample.firstItem = some (answer, db) ∧
      ∃ e, answer.record? Sample.capitalized.names = .error e := by
  have hcheck : (Sample.capitalized.layout.run .active
      { row := Sample.item 1 "n" 1, instant := some (Instant.ofSeconds 1704067200) }
      Sample.firstItem).any (fun found =>
        (found.1.record? Sample.capitalized.names).toOption.isNone) = true := by
    decide +kernel
  obtain ⟨⟨answer, db⟩, hrun, hnone⟩ := (Option.any_eq_true _ _).mp hcheck
  refine ⟨answer, db, hrun, ?_⟩
  cases hrecord : answer.record? Sample.capitalized.names with
  | error e => exact ⟨e, rfl⟩
  | ok found =>
    simp only [hrecord] at hnone
    cases hnone

/-- A new item is not looked up as version one if its identifier is not found again, if a field has
the name of the version column, whose value is stored for it, or if a name is not spelled as in the
table. -/
theorem new_item_not_looked_up :
    (∃ s, Sample.ran (Sample.sizes "n" none) (Sample.itemStore .real [])
        [.row Sample.inexact none] = some s ∧ Sample.lookedUp s Sample.inexact = some none) ∧
    (∃ (s s' : Session (Traced Store)) (result : RowResult),
      Sample.ran (Sample.sizes "V" none) (Sample.itemStore .integer []) [] = some s ∧
      s.processAs (Sample.item 1 "V" 7) none = (.ok (some result), s') ∧
      result.status = .new ∧ result.version = 1 ∧
      Sample.cells (Sample.item 1 "V" 7) ["v"] s'.working = some [[.integer 7]]) ∧
    ∃ answer db, Sample.capitalized.layout.run .active
        { row := Sample.item 1 "n" 1, instant := some (Instant.ofSeconds 1704067200) }
        Sample.firstItem = some (answer, db) ∧
      ∃ e, answer.record? Sample.capitalized.names = .error e :=
  ⟨Sample.inexact_not_looked_up, Sample.clashing_names, Sample.capitalized_not_looked_up⟩

end RowHistory
