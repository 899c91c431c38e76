import RowHistory.Proofs.Versions.Runs

/-!
# What runs of sessions keep

What every row and every purge keeps, all sessions keep, whatever fails between them. This file fixes

* runs of sessions whose horizons have a property (`Runs`);
* properties of databases that rows and purges keep (`Session.Keeps`), and that then every call keeps
  them (`Keeps.moved`);
* that they hold in every phase that runs lead to (`Runs.keeps`);
* properties of the rows of a table that steps and sweeps keep (`keeps_rows`).
-/

namespace RowHistory

open Sql

variable {σ : Type} [Connection σ]

/-! ## 1. Runs with a property of their horizons -/

/-- What runs of sessions lead to, with all ticks of their calls, if the horizon of every session has
a property. Every session has a clock of its own, whose readings are arbitrary. -/
inductive Runs (l : Layout) (t : Table) (H : Option Instant → Prop) (c₀ : σ) :
    Phase σ → List Instant → Prop
  | start : Runs l t H c₀ (.idle c₀) []
  /-- A session is opened. -/
  | opened {c : σ} {ticks : List Instant} {o : Options} {clock : Clock} {id : String}
      {s : Session σ} : Runs l t H c₀ (.idle c) ticks → o.layout = l → clock.IsWhole →
      Session.begin o clock id c = .ok s → s.start.InYears → (∀ e ∈ s.validTo, e.InYears) →
      H s.validTo → (∀ k ∈ ticks, k < s.clock.next) → Runs l t H c₀ (.busy s) ticks
  /-- A session could not be opened. -/
  | refused {c c' : σ} {ticks : List Instant} {o : Options} {clock : Clock} {id : String}
      {e : Failure} : Runs l t H c₀ (.idle c) ticks → Session.begin o clock id c = .error (e, c') →
      Runs l t H c₀ (.idle c') ticks
  /-- A session is asked for something. -/
  | called {s : Session σ} {ticks : List Instant} {call : Operation} :
      Runs l t H c₀ (.busy s) ticks → (∀ row forced, call = .row row forced → l.Admissible t row) →
      (∀ k ∈ s.ticked (s.answer call).2, k.InYears) →
      Runs l t H c₀ (.busy (s.answer call).2) (s.ticked (s.answer call).2 ++ ticks)
  /-- A session that was closed is left. -/
  | left {s : Session σ} {ticks : List Instant} : Runs l t H c₀ (.busy s) ticks →
      s.isOpen = false → Runs l t H c₀ (.idle s.storage.connection) ticks
  /-- A session is dropped, open or not. -/
  | dropped {s : Session σ} {ticks : List Instant} : Runs l t H c₀ (.busy s) ticks →
      Runs l t H c₀ (.idle (Connection.release s.storage.connection)) ticks

variable {l : Layout} {t : Table} {H : Option Instant → Prop} {c₀ : σ} {p : Phase σ}
  {ticks : List Instant}

theorem Runs.reaches [Transactional σ] (h : Runs l t H c₀ p ticks) :
    Reaches l t False c₀ p ticks := by
  induction h with
  | start => exact .start
  | opened _ hlayout hclock hbegin hstart hhorizon _ hticks ih =>
    exact .opened ih hlayout False.elim hclock hbegin hstart hhorizon hticks
  | refused _ hbegin ih => exact .refused ih hbegin
  | called _ hrow hyears ih => exact .called ih hrow hyears
  | left _ hclosed ih => exact .left ih hclosed
  | dropped _ ih => exact .dropped ih

theorem Reaches.runs [Transactional σ] {strict : Prop} (h : Reaches l t strict c₀ p ticks) :
    Runs l t (fun _ => True) c₀ p ticks := by
  induction h with
  | start => exact .start
  | opened _ hlayout _ hclock hbegin hstart hhorizon hticks ih =>
    exact .opened ih hlayout hclock hbegin hstart hhorizon trivial hticks
  | refused _ hbegin ih => exact .refused ih hbegin
  | called _ hrow hyears ih => exact .called ih hrow hyears
  | left _ hclosed ih => exact .left ih hclosed
  | dropped _ ih => exact .dropped ih

/-- Calls one after the other lead on. -/
theorem Runs.run {s : Session σ} (h : Runs l t H c₀ (.busy s) ticks) {calls : List Operation}
    (hrows : ∀ row forced, .row row forced ∈ calls → l.Admissible t row)
    (hyears : ∀ k ∈ s.runTicks calls, k.InYears) :
    Runs l t H c₀ (.busy (s.run calls).2) (s.runTicks calls ++ ticks) := by
  induction calls generalizing s ticks with
  | nil => exact h
  | cons call calls ih =>
    have hcalled := h.called (fun row forced hcall => hrows row forced (hcall ▸ List.mem_cons_self))
      fun k hk => hyears k (List.mem_append_right _ hk)
    have hrest := ih hcalled (fun row forced hrow => hrows row forced (List.mem_cons_of_mem _ hrow))
      fun k hk => hyears k (List.mem_append_left _ hk)
    rw [← List.append_assoc] at hrest
    exact hrest

variable [Transactional σ]

/-! ## 2. What calls keep -/

/-- A session that is given a row or purges: it is open, and its next tick can be stored. -/
structure Session.Works (l : Layout) (t : Table) (H : Option Instant → Prop) (ticks : List Instant)
    (s : Session σ) : Prop where
  holds : s.Holds l t False ticks
  isOpen : s.isOpen = true
  horizon : H s.validTo
  storable : s.clock.next.IsStorable

/-- Rows and purges keep a property of databases, which later ticks keep, too. -/
structure Session.Keeps (σ : Type) [Connection σ] [Transactional σ] (l : Layout) (t : Table)
    (H : Option Instant → Prop) (P : List Instant → Database → Prop) : Prop where
  mono {ticks ticks' : List Instant} {db : Database} : ticks ⊆ ticks' → P ticks db → P ticks' db
  row {ticks : List Instant} {s s' : Session σ} {row : Row} {forced : Option RowStatus}
    {result : RowResult} : s.Works l t H ticks → l.Admissible t row → Permitted forced →
    Applied row forced s.clock.next s result s' → P ticks s.working →
    P (s.clock.next :: ticks) s'.working
  purge {ticks : List Instant} {s : Session σ} {answer : Answer} {db : Database} :
    s.Works l t H ticks →
    l.swept (Transactional.judge σ) s.start s.clock.next s.options.purgeWhere s.working =
      some (answer, db) →
    P ticks s.working → P (s.clock.next :: ticks) db

namespace Session

variable {P : List Instant → Database → Prop} {s s' : Session σ}

/-- **Every call keeps what rows and purges keep**, in what was committed and in what the session
sees. -/
theorem Keeps.moved (hkeeps : Keeps σ l t H P) (h : Holds l t False ticks s) (hH : H s.validTo)
    (hd : P ticks s.durable) (hw : P ticks s.working) {call : Operation} {reply : Reply}
    (hmoved : Moved s call reply s')
    (hrow : ∀ row forced, call = .row row forced → l.Admissible t row)
    (hyears : ∀ k ∈ s.ticked s', k.InYears) (hopen : s.isOpen = true) :
    P (s.ticked s' ++ ticks) s'.durable ∧
      (s'.isOpen = true → P (s.ticked s' ++ ticks) s'.working) := by
  have hworks : s.clock.next ∈ s.ticked s' → s.Works l t H ticks := fun hmem =>
    ⟨h, hopen, hH, h.whole.next, hyears _ hmem⟩
  refine hmoved.keeps (hkeeps.mono (List.subset_cons_self _ _)) (fun hcall hp hmem happlied => ?_)
    (fun hmem hswept => ?_) hd hw
  · exact hkeeps.row (hworks hmem) (hrow _ _ hcall) hp happlied hw
  · rw [h.layout] at hswept
    exact hkeeps.purge (hworks hmem) hswept hw

end Session

/-! ## 3. What runs keep -/

/-- A property holds of the databases of a phase, and one of the horizon of its session. -/
def Phase.Keeps (H : Option Instant → Prop) (P : List Instant → Database → Prop)
    (ticks : List Instant) : Phase σ → Prop
  | .idle c => P ticks (Transactional.durable c)
  | .busy s => H s.validTo ∧ P ticks s.durable ∧ (s.isOpen = true → P ticks s.working)

/-- **What rows and purges keep holds in every phase.** -/
theorem Runs.keeps {P : List Instant → Database → Prop} (hkeeps : Session.Keeps σ l t H P)
    (hsound : Transactional.Sound c₀) (hs : l.Suits t) (hempty : t.rows = [])
    (hfind : (Transactional.durable c₀).find? l.table = some t)
    (hstart : P [] (Transactional.durable c₀)) (h : Runs l t H c₀ p ticks) :
    p.Keeps H P ticks := by
  have hholds : ∀ {p : Phase σ} {ticks}, Runs l t H c₀ p ticks → p.Holds l t False ticks := fun h =>
    h.reaches.holds hsound hs hempty hfind
  induction h with
  | start => exact hstart
  | @opened c ticks o clock id s hidle _ _ hbegin _ _ hH _ ih =>
    obtain ⟨-, -, -, hd, hw, -⟩ := Session.begin_spec (hholds hidle).1 hbegin
    have hc : P ticks (Transactional.durable c) := ih
    exact ⟨hH, hd ▸ hc, fun _ => hw ▸ hc⟩
  | @refused c c' ticks _ _ _ _ hidle hbegin ih =>
    obtain ⟨-, hd⟩ := Session.begin_error (hholds hidle).1 hbegin
    have hc : P ticks (Transactional.durable c) := ih
    show P ticks (Transactional.durable c')
    rwa [hd]
  | @called s ticks call hbusy hrow hyears ih =>
    obtain ⟨hH, hd, hw⟩ := ih
    have hs' : s.Holds l t False ticks := hholds hbusy
    cases hopen : s.isOpen with
    | false =>
      rw [Session.answer_closed hopen, Session.ticked_same rfl]
      exact ⟨hH, hd, hw⟩
    | true =>
      obtain ⟨-, hsame, hmoved⟩ := Session.answer_moved hs'.fit hopen call
      have hkept := hkeeps.moved hs' hH hd (hw hopen) hmoved hrow hyears hopen
      exact ⟨hsame.validTo ▸ hH, hkept⟩
  | left _ _ ih => exact ih.2.1
  | @dropped s ticks hbusy ih =>
    have hs' : s.Holds l t False ticks := hholds hbusy
    show P ticks (Transactional.durable (Connection.release s.storage.connection))
    rw [Transactional.durable_release hs'.fit.storage.sound]
    exact ih.2.1

/-! ## 4. What steps and sweeps keep -/

/-- **What steps of the machine and sweeps keep of the rows of a table, sessions keep.** -/
theorem Session.keeps_rows {Q : List Instant → List (List Cell) → Prop} (hs : l.Suits t)
    (hmono : ∀ {ticks ticks' rows}, ticks ⊆ ticks' → Q ticks rows → Q ticks' rows)
    (hstep : ∀ {ticks row now horizon rows status n rows'},
      l.Step t row now horizon rows status n rows' → l.Chained t False ticks rows →
      (∀ k ∈ ticks, k < now) → now.IsStorable → (∀ e ∈ horizon, e.IsStorable) → H horizon →
      (status = .new → ∀ c ∈ l.insertColumns, t.Has c) → Q ticks rows → Q (now :: ticks) rows')
    (hsweep : ∀ {ticks now cutoff picked rows}, l.Chained t False ticks rows → cutoff.IsStorable →
      cutoff ≤ now → Q ticks rows → Q (now :: ticks) (rows.map (l.sweptRow t picked cutoff))) :
    Session.Keeps σ l t H fun ticks db =>
      ∃ rows, db.find? l.table = some { t with rows } ∧ Q ticks rows where
  mono := by
    rintro ticks ticks' db hticks ⟨rows, hfind, hrows⟩
    exact ⟨rows, hfind, hmono hticks hrows⟩
  row := by
    rintro ticks s s' row forced result hworks - hp happlied ⟨rows, hfind, hrows⟩
    obtain ⟨rows₀, hfind₀, hchained⟩ := hworks.holds.working hworks.isOpen
    obtain rfl : rows₀ = rows := congrArg Table.rows (Option.some.inj (hfind₀.symm.trans hfind))
    have hids := hworks.holds.ids
    obtain rfl := hworks.holds.layout
    obtain ⟨rows', hstepped, hsets, hcolumns⟩ := happlied.step hp hids hs hchained
      hworks.holds.after hworks.storable hfind
    exact ⟨rows', hsets.table, hstep hstepped hchained hworks.holds.after hworks.storable
      hworks.holds.horizon hworks.horizon hcolumns hrows⟩
  purge := by
    rintro ticks s answer db hworks hswept ⟨rows, hfind, hrows⟩
    obtain ⟨rows₀, hfind₀, hchained⟩ := hworks.holds.working hworks.isOpen
    obtain rfl : rows₀ = rows := congrArg Table.rows (Option.some.inj (hfind₀.symm.trans hfind))
    obtain ⟨picked, -, hsets⟩ := hchained.swept hs hfind hswept
    exact ⟨_, hsets.table, hsweep hchained hworks.holds.start (le_of_lt hworks.holds.started) hrows⟩

end RowHistory
