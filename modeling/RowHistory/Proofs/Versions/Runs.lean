import RowHistory.Proofs.Versions.Refinement

/-!
# Runs of sessions on a table

Sessions run on a table one after the other, each with calls in any order, and every request to the
database may fail. This file fixes

* what such runs lead to (`Reaches`): the connection between two sessions, or a session, with all
  ticks so far;
* that calls keep what rows and purges keep (`Moved.keeps`), whatever fails;
* what holds of a session at all times (`Session.Holds`), and that every call keeps it
  (`Holds.moved`);
* that the identifiers of the table have chains all the time (`Reaches.holds`).
-/

namespace RowHistory

open Sql

/-! ## 1. Databases with chains -/

namespace Layout

variable {l : Layout} {t : Table} {strict : Prop} {ticks ticks' : List Instant} {db db' : Database}
  {now : Instant} {row : Row} {judge : Judge}

/-- The table of a layout has the columns of a given one, and its identifiers have chains. -/
def HasChains (l : Layout) (t : Table) (strict : Prop) (ticks : List Instant) (db : Database) : Prop :=
  ∃ rows, db.find? l.table = some { t with rows } ∧ l.Chained t strict ticks rows

theorem HasChains.mono (hticks : ticks ⊆ ticks') (h : l.HasChains t strict ticks db) :
    l.HasChains t strict ticks' db := by
  obtain ⟨rows, hfind, hchained⟩ := h
  exact ⟨rows, hfind, hchained.mono hticks⟩

/-- A purge without a further condition leaves rows that have ended, whichever rows the table has. -/
theorem Chained.purge_open {rows : List (List Cell)} (h : l.Chained t strict ticks rows)
    (hnow : now.IsStorable) {cutoff : Instant} {r : List Cell} (hr : r ∈ rows)
    (hpicked : l.PurgePicks { t with rows } (purgeCells cutoff now) r) {v : Version}
    (hv : l.Shows t r v) : ∀ e ∈ v.validTo, now ≤ e := by
  obtain ⟨hrow, hcolumns, hproper⟩ := h.stored r hr
  have hr' : l.Stored { t with rows } r := ⟨⟨hrow.length, hrow.stored⟩, hcolumns, hproper⟩
  have hv' : l.Shows { t with rows } r v := ⟨hv.number, hv.validFrom, hv.validTo, hv.storable⟩
  exact purgePicks_open hr' hv' hnow hpicked

/-- What a purge makes of the rows. -/
theorem Chained.swept {rows : List (List Cell)} (h : l.Chained t strict ticks rows) (hs : l.Suits t)
    (hfind : db.find? l.table = some { t with rows }) {cutoff : Instant} {condition : Option String}
    {answer : Answer} (hswept : l.swept judge cutoff now condition db = some (answer, db')) :
    ∃ picked : List Cell → Bool,
      (l.Narrows judge condition → ∀ r ∈ rows, picked r = true →
        l.PurgePicks { t with rows } (purgeCells cutoff now) r) ∧
      db.Sets db' l.table { t with rows := rows.map (l.sweptRow t picked cutoff) } := by
  obtain ⟨t', picked, ht', hpicked, -, hdb⟩ := swept_eq hswept
  rw [hfind] at ht'
  cases ht'
  refine ⟨picked, hpicked, ?_⟩
  rw [hdb (h.kept hs)]
  exact Database.sets_replace hfind rfl

/-- **A purge keeps the chains.** -/
theorem HasChains.sweep (h : l.HasChains t strict ticks db) (hs : l.Suits t)
    (hticks : ∀ k ∈ ticks, k < now) (hnow : now.IsStorable) {cutoff : Instant}
    (hcutoff : cutoff.IsStorable) (hle : cutoff ≤ now) {condition : Option String}
    (hnarrows : strict → l.Narrows judge condition) {answer : Answer}
    (hswept : l.swept judge cutoff now condition db = some (answer, db')) :
    l.HasChains t strict (now :: ticks) db' := by
  obtain ⟨rows, hfind, hchained⟩ := h
  obtain ⟨picked, hpicked, hsets⟩ := hchained.swept hs hfind hswept
  refine ⟨_, hsets.table, hchained.sweep hs hticks hcutoff hle fun hstrict r hr hp v hv => ?_⟩
  exact hchained.purge_open hnow hr (hpicked (hnarrows hstrict) r hr hp) hv

/-- An identifier that is found again: no part of it is NaN, and a column of floating-point numbers
finds its part. -/
def Admissible (l : Layout) (t : Table) (row : Row) : Prop :=
  ∀ n ∈ l.fields.names .id, (Cell.ofValue (row.value n) = .null → row.value n = .null) ∧
    (t.affinityOf n = .real → compareCells .eq (some .real)
      (Affinity.real.store (Cell.ofValue (row.value n))) (Cell.ofValue (row.value n)) = some true)

instance (l : Layout) (t : Table) (row : Row) : Decidable (l.Admissible t row) :=
  inferInstanceAs (Decidable (∀ n ∈ l.fields.names .id, _))

theorem Admissible.findable (h : l.Admissible t row)
    (hnull : ∀ n ∈ l.fields.names .id, row.value n ≠ .null) : l.Findable t row := by
  intro n hn
  obtain ⟨hnan, hreal⟩ := h n hn
  by_cases ha : t.affinityOf n = .real
  · rw [ha]
    exact hreal ha
  · exact Affinity.compareCells_store ha (fun hc => hnull n hn (hnan hc)) (Cell.isProper_ofValue _)

end Layout

/-! ## 2. Runs of sessions -/

/-- Where a table stands: between sessions, or in one. -/
inductive Phase (σ : Type) where
  /-- No session is open. -/
  | idle (c : σ)
  | busy (s : Session σ)

variable {σ : Type}

/-- The tick that a call took, if it took one. -/
def Session.ticked (s s' : Session σ) : List Instant :=
  if s'.clock.last = s.clock.last then [] else [s.clock.next]

variable [Connection σ]

/-- What runs of sessions lead to, with all ticks of their calls. Every session uses the layout and a
clock of its own, whose readings are arbitrary; its ticks come after those of the sessions before it.
Under a strict order a further condition may only narrow a purge. -/
inductive Reaches [Transactional σ] (l : Layout) (t : Table) (strict : Prop) (c₀ : σ) :
    Phase σ → List Instant → Prop
  | start : Reaches l t strict c₀ (.idle c₀) []
  /-- A session is opened. -/
  | opened {c : σ} {ticks : List Instant} {o : Options} {clock : Clock} {id : String}
      {s : Session σ} : Reaches l t strict c₀ (.idle c) ticks → o.layout = l →
      (strict → l.Narrows (Transactional.judge σ) o.purgeWhere) → clock.IsWhole →
      Session.begin o clock id c = .ok s → s.start.InYears → (∀ e ∈ s.validTo, e.InYears) →
      (∀ k ∈ ticks, k < s.clock.next) → Reaches l t strict c₀ (.busy s) ticks
  /-- A session could not be opened. -/
  | refused {c c' : σ} {ticks : List Instant} {o : Options} {clock : Clock} {id : String}
      {e : Failure} : Reaches l t strict c₀ (.idle c) ticks →
      Session.begin o clock id c = .error (e, c') → Reaches l t strict c₀ (.idle c') ticks
  /-- A session is asked for something. -/
  | called {s : Session σ} {ticks : List Instant} {call : Operation} :
      Reaches l t strict c₀ (.busy s) ticks →
      (∀ row forced, call = .row row forced → l.Admissible t row) →
      (∀ k ∈ s.ticked (s.answer call).2, k.InYears) →
      Reaches l t strict c₀ (.busy (s.answer call).2) (s.ticked (s.answer call).2 ++ ticks)
  /-- A session that was closed is left. -/
  | left {s : Session σ} {ticks : List Instant} : Reaches l t strict c₀ (.busy s) ticks →
      s.isOpen = false → Reaches l t strict c₀ (.idle s.storage.connection) ticks
  /-- A session is dropped, open or not. -/
  | dropped {s : Session σ} {ticks : List Instant} : Reaches l t strict c₀ (.busy s) ticks →
      Reaches l t strict c₀ (.idle (Connection.release s.storage.connection)) ticks

/-! ## 3. What holds in every phase -/

theorem Horizon.isWhole_resolve {h : Horizon} {start : Instant} (hstart : start.IsWhole)
    {validTo : Option Instant} (hresolve : h.resolve start = .ok validTo) :
    ∀ e ∈ validTo, e.IsWhole := by
  intro e he
  cases h with
  | farFuture =>
    cases hmonths : start.addMonths? farMonths with
    | none =>
      simp only [resolve, hmonths] at hresolve
      cases hresolve
    | some t =>
      simp only [resolve, hmonths, Except.ok.injEq] at hresolve
      rw [← hresolve] at he
      exact Option.some.inj he ▸ hstart.addMonths? hmonths
  | unlimited =>
    cases hresolve
    cases he
  | «at» t =>
    simp only [resolve] at hresolve
    split at hresolve
    · cases hresolve
    · rw [← Except.ok.inj hresolve] at he
      exact Option.some.inj he ▸ t.isWhole_truncate

namespace Session

omit [Connection σ] in
/-- What is settled before a session connects: its start comes before all its ticks, and all of its
instants are whole microseconds. -/
theorem prepare_whole {o : Options} {clock clock' : Clock} {start : Instant}
    {validTo : Option Instant} (hclock : clock.IsWhole)
    (h : prepare o clock = .ok (start, clock', validTo)) :
    start.IsWhole ∧ clock'.IsWhole ∧ start < clock'.next ∧ ∀ e ∈ validTo, e.IsWhole := by
  have hsettled : (startOf o clock).1.IsWhole ∧ (startOf o clock).2.IsWhole ∧
      (startOf o clock).1 < (startOf o clock).2.next := by
    unfold startOf
    cases o.startDate with
    | none => exact ⟨hclock.next, hclock.tick, clock.next_lt_next⟩
    | some start => exact ⟨start.isWhole_truncate, hclock.observe start, clock.lt_next_observe start⟩
  obtain ⟨-, -, hrest⟩ := ok_of_bind h
  obtain ⟨horizon, hresolve, heq⟩ := ok_of_bind hrest
  cases heq
  exact ⟨hsettled.1, hsettled.2.1, hsettled.2.2, Horizon.isWhole_resolve hsettled.1 hresolve⟩

omit [Connection σ] in
theorem ticked_same {s s' : Session σ} (h : s'.clock = s.clock) : s.ticked s' = [] :=
  if_pos (congrArg Clock.last h)

omit [Connection σ] in
theorem ticked_tick {s s' : Session σ} (h : s'.clock = s.clock.tick.2) :
    s.ticked s' = [s.clock.next] := by
  refine if_neg fun heq => ?_
  rw [h] at heq
  exact lt_irrefl _ (Clock.last_lt_next heq.symm)

omit [Connection σ] in
theorem eq_next_of_mem_ticked {s s' : Session σ} {k : Instant} (hk : k ∈ s.ticked s') :
    k = s.clock.next := by
  unfold ticked at hk
  split at hk
  · cases hk
  · exact List.mem_singleton.mp hk

variable [Transactional σ] {l : Layout} {t : Table} {strict : Prop} {ticks : List Instant}
  {s s' : Session σ}

/-- **Every call keeps what its row or its purge keeps**, in what was committed and in what the session
sees. -/
theorem Moved.keeps {P : List Instant → Database → Prop} {call : Operation} {reply : Reply}
    (h : Moved s call reply s') (hlater : ∀ {db}, P ticks db → P (s.clock.next :: ticks) db)
    (hrow : ∀ {row forced result}, call = .row row forced → Permitted forced →
      s.clock.next ∈ s.ticked s' → Applied row forced s.clock.next s result s' →
      P (s.clock.next :: ticks) s'.working)
    (hpurge : ∀ {answer db}, s.clock.next ∈ s.ticked s' →
      s.options.layout.swept (Transactional.judge σ) s.start s.clock.next s.options.purgeWhere
        s.working = some (answer, db) → P (s.clock.next :: ticks) db)
    (hd : P ticks s.durable) (hw : P ticks s.working) :
    P (s.ticked s' ++ ticks) s'.durable ∧
      (s'.isOpen = true → P (s.ticked s' ++ ticks) s'.working) := by
  have hclosed : s'.isOpen = false → s'.isOpen = true → ∀ {Q : Prop}, Q := fun hclosed hopen => by
    rw [hclosed] at hopen
    cases hopen
  cases h with
  | applied hp happlied _ hclock =>
    rw [ticked_tick hclock] at hrow ⊢
    have hworking := hrow rfl hp List.mem_cons_self happlied
    refine ⟨?_, fun _ => hworking⟩
    obtain hdurable | hdurable := happlied.committed
    · exact hdurable ▸ hlater hd
    · exact hdurable ▸ hworking
  | undone _ hdurable hworking _ _ hclock =>
    rw [ticked_tick hclock, hworking, hdurable]
    exact ⟨hlater hd, fun _ => hlater hd⟩
  | swept hswept hclock =>
    rw [ticked_tick hclock] at hpurge ⊢
    obtain ⟨answer, hanswer⟩ := hswept.swept
    have hworking := hpurge List.mem_cons_self hanswer
    exact ⟨hswept.durable ▸ hworking, fun _ => hworking⟩
  | set hdurable hworking _ _ hclock =>
    rw [ticked_same hclock, hdurable, hworking]
    exact ⟨hd, fun _ => hw⟩
  | refused =>
    rw [ticked_same rfl]
    exact ⟨hd, fun _ => hw⟩
  | closed _ hdurable hclosed' hclock =>
    refine ⟨?_, fun hopen => hclosed hclosed' hopen⟩
    rw [hdurable]
    obtain hclock | hclock := hclock
    · exact ticked_same hclock ▸ hd
    · exact ticked_tick hclock ▸ hlater hd
  | finished _ hdurable hclosed' hclock =>
    refine ⟨?_, fun hopen => hclosed hclosed' hopen⟩
    obtain hdurable | ⟨hclock, answer, hanswer⟩ := hdurable
    · rw [hdurable]
      obtain hclock | hclock := hclock
      · exact ticked_same hclock ▸ hw
      · exact ticked_tick hclock ▸ hlater hw
    · rw [ticked_tick hclock] at hpurge ⊢
      exact hpurge List.mem_cons_self hanswer

/-- What holds of a session at all times: its ticks come after all others, its instants can be
stored, and the identifiers have chains in what was committed and, while it is open, in what it
sees. -/
structure Holds (l : Layout) (t : Table) (strict : Prop) (ticks : List Instant) (s : Session σ) :
    Prop where
  fit : s.Fit
  layout : s.options.layout = l
  narrows : strict → l.Narrows (Transactional.judge σ) s.options.purgeWhere
  whole : s.clock.IsWhole
  after : ∀ k ∈ ticks, k < s.clock.next
  started : s.start < s.clock.next
  start : s.start.IsStorable
  horizon : ∀ e ∈ s.validTo, e.IsStorable
  durable : l.HasChains t strict ticks s.durable
  working : s.isOpen = true → l.HasChains t strict ticks s.working

/-- A call without a tick keeps what holds, if it keeps the chains. -/
theorem Holds.still (h : Holds l t strict ticks s) (hfit : s'.Fit) (hsame : Same s s')
    (hclock : s'.clock = s.clock) (hd : l.HasChains t strict ticks s'.durable)
    (hw : s'.isOpen = true → l.HasChains t strict ticks s'.working) : Holds l t strict ticks s' := by
  refine ⟨hfit, hsame.options ▸ h.layout, hsame.options ▸ h.narrows, hclock ▸ h.whole,
    hclock ▸ h.after, ?_, hsame.start ▸ h.start, hsame.validTo ▸ h.horizon, hd, hw⟩
  rw [hsame.start, hclock]
  exact h.started

/-- A call with a tick does so too. -/
theorem Holds.ticked (h : Holds l t strict ticks s) (hfit : s'.Fit) (hsame : Same s s')
    (hclock : s'.clock = s.clock.tick.2)
    (hd : l.HasChains t strict (s.clock.next :: ticks) s'.durable)
    (hw : s'.isOpen = true → l.HasChains t strict (s.clock.next :: ticks) s'.working) :
    Holds l t strict (s.clock.next :: ticks) s' := by
  have hlt := s.clock.next_lt_next
  rw [← hclock] at hlt
  refine ⟨hfit, hsame.options ▸ h.layout, hsame.options ▸ h.narrows, hclock ▸ h.whole.tick, ?_, ?_,
    hsame.start ▸ h.start, hsame.validTo ▸ h.horizon, hd, hw⟩
  · exact List.forall_mem_cons.mpr ⟨hlt, fun k hk => lt_trans (h.after k hk) hlt⟩
  · rw [hsame.start]
    exact lt_trans h.started hlt

theorem Holds.ids (h : Holds l t strict ticks s) : l.fields.names .id ≠ [] := by
  rw [← h.layout, ← h.fit.layout]
  exact h.fit.ids

omit [Connection σ] [Transactional σ] in
/-- An identifier that is not missing is found again, if it is admissible. -/
theorem findable_of_identified {row : Row} (hrow : s.options.layout.Admissible t row)
    (hidentified : missingIdentifier? s.options row = none) : s.options.layout.Findable t row := by
  refine hrow.findable fun n hn hnull => ?_
  have hpresent := List.find?_eq_none.mp hidentified n hn
  rw [hnull] at hpresent
  exact hpresent rfl

variable (hs : l.Suits t)

include hs

/-- **Every call keeps what holds of a session.** -/
theorem Holds.moved (h : Holds l t strict ticks s) {call : Operation} {reply : Reply}
    (hmoved : Moved s call reply s') (hfit : s'.Fit) (hsame : Same s s')
    (hrow : ∀ row forced, call = .row row forced → l.Admissible t row)
    (hyears : ∀ k ∈ s.ticked s', k.InYears) (hopen : s.isOpen = true) :
    Holds l t strict (s.ticked s' ++ ticks) s' := by
  have hnow : s.clock.next ∈ s.ticked s' → s.clock.next.IsStorable := fun hmem =>
    ⟨h.whole.next, hyears _ hmem⟩
  have happly : ∀ {row : Row} {forced : Option RowStatus} {result : RowResult},
      call = .row row forced → Permitted forced → s.clock.next ∈ s.ticked s' →
      Applied row forced s.clock.next s result s' →
      l.HasChains t strict (s.clock.next :: ticks) s'.working := by
    intro row forced result hcall hp hmem happlied
    obtain ⟨rows, hfind, hchained⟩ := h.working hopen
    obtain rfl := h.layout
    obtain ⟨rows', hstep, hsets, hcolumns⟩ :=
      happlied.step hp h.ids hs hchained h.after (hnow hmem) hfind
    have hfindable := findable_of_identified (hrow row forced hcall) happlied.identified
    exact ⟨rows', hsets.table, hstep.chained hs hchained h.after (hnow hmem) h.horizon hfindable hcolumns⟩
  have hsweep : ∀ {answer : Answer} {db : Database}, s.clock.next ∈ s.ticked s' →
      s.options.layout.swept (Transactional.judge σ) s.start s.clock.next s.options.purgeWhere
        s.working = some (answer, db) →
      l.HasChains t strict (s.clock.next :: ticks) db := by
    intro answer db hmem hswept
    rw [h.layout] at hswept
    exact (h.working hopen).sweep hs h.after (hnow hmem) h.start (le_of_lt h.started) h.narrows hswept
  obtain ⟨hd, hw⟩ := hmoved.keeps (·.mono (List.subset_cons_self _ _)) happly hsweep h.durable
    (h.working hopen)
  obtain hclock | hclock := hmoved.clock
  · rw [ticked_same hclock] at hd hw ⊢
    exact h.still hfit hsame hclock hd hw
  · rw [ticked_tick hclock] at hd hw ⊢
    exact h.ticked hfit hsame hclock hd hw

theorem Holds.answered (h : Holds l t strict ticks s) {call : Operation}
    (hrow : ∀ row forced, call = .row row forced → l.Admissible t row)
    (hyears : ∀ k ∈ s.ticked (s.answer call).2, k.InYears) :
    Holds l t strict (s.ticked (s.answer call).2 ++ ticks) (s.answer call).2 := by
  cases hopen : s.isOpen with
  | false =>
    rw [answer_closed hopen, ticked_same rfl]
    exact h
  | true =>
    obtain ⟨hfit, hsame, hmoved⟩ := answer_moved h.fit hopen call
    exact h.moved hs hmoved hfit hsame hrow hyears hopen

end Session

/-- What holds in a phase. -/
def Phase.Holds [Transactional σ] (l : Layout) (t : Table) (strict : Prop) (ticks : List Instant) :
    Phase σ → Prop
  | .idle c => Transactional.Sound c ∧ l.HasChains t strict ticks (Transactional.durable c)
  | .busy s => s.Holds l t strict ticks

/-- **In every phase that runs of sessions reach, the identifiers have chains.** -/
theorem Reaches.holds [Transactional σ] {l : Layout} {t : Table} {strict : Prop} {c₀ : σ}
    {p : Phase σ} {ticks : List Instant} (hsound : Transactional.Sound c₀) (hs : l.Suits t)
    (hempty : t.rows = []) (hfind : (Transactional.durable c₀).find? l.table = some t)
    (h : Reaches l t strict c₀ p ticks) : p.Holds l t strict ticks := by
  induction h with
  | start =>
    refine ⟨hsound, [], ?_, l.chained_nil t strict []⟩
    rw [hfind, ← hempty]
  | opened _ hlayout hnarrows hclock hbegin hstart hhorizon hticks ih =>
    obtain ⟨hfit, hoptions, -, hd, hw, -, -, hprepare⟩ := Session.begin_spec ih.1 hbegin
    obtain ⟨hwhole, hclock', hlt, hwhole'⟩ := Session.prepare_whole hclock hprepare
    exact ⟨hfit, hoptions ▸ hlayout, hoptions ▸ hnarrows, hclock', hticks, hlt, ⟨hwhole, hstart⟩,
      fun e he => ⟨hwhole' e he, hhorizon e he⟩, hd ▸ ih.2, fun _ => hw ▸ ih.2⟩
  | refused _ hbegin ih =>
    obtain ⟨hsound', hd⟩ := Session.begin_error ih.1 hbegin
    exact ⟨hsound', hd ▸ ih.2⟩
  | called _ hrow hyears ih => exact Session.Holds.answered hs ih hrow hyears
  | left _ _ ih => exact ⟨ih.fit.storage.sound, ih.durable⟩
  | dropped _ ih =>
    refine ⟨Transactional.sound_release ih.fit.storage.sound, ?_⟩
    rw [Transactional.durable_release ih.fit.storage.sound]
    exact ih.durable

/-! ## 4. Runs of calls -/

/-- The ticks of calls, the last one first. -/
def Session.runTicks (s : Session σ) : List Operation → List Instant
  | [] => []
  | call :: calls => (s.answer call).2.runTicks calls ++ s.ticked (s.answer call).2

/-- A row leads on. -/
theorem Reaches.processed [Transactional σ] {l : Layout} {t : Table} {strict : Prop} {c₀ : σ}
    {s s' : Session σ} {ticks : List Instant} (h : Reaches l t strict c₀ (.busy s) ticks) {row : Row}
    (hrow : l.Admissible t row) (hyears : s.clock.next.InYears) {forced : Option RowStatus}
    {result : Except Failure (Option RowResult)} (hcall : s.processAs row forced = (result, s')) :
    Reaches l t strict c₀ (.busy s') (s.ticked s' ++ ticks) := by
  have hadmissible : ∀ row' forced', Operation.row row forced = .row row' forced' →
      l.Admissible t row' := by
    intro row' forced' heq
    cases heq
    exact hrow
  have hcalled := h.called hadmissible fun k hk => Session.eq_next_of_mem_ticked hk ▸ hyears
  rw [Session.answer_row hcall] at hcalled
  exact hcalled

/-- Calls one after the other lead on. -/
theorem Reaches.run [Transactional σ] {l : Layout} {t : Table} {strict : Prop} {c₀ : σ}
    {s : Session σ} {ticks : List Instant} (h : Reaches l t strict c₀ (.busy s) ticks) {calls : List Operation}
    (hrows : ∀ row forced, .row row forced ∈ calls → l.Admissible t row)
    (hyears : ∀ k ∈ s.runTicks calls, k.InYears) :
    Reaches l t strict c₀ (.busy (s.run calls).2) (s.runTicks calls ++ ticks) := by
  induction calls generalizing s ticks with
  | nil => exact h
  | cons call calls ih =>
    have hcalled : Reaches l t strict c₀ (.busy (s.answer call).2)
        (s.ticked (s.answer call).2 ++ ticks) :=
      h.called (fun row forced hcall => hrows row forced (hcall ▸ List.mem_cons_self))
        fun k hk => hyears k (List.mem_append_right _ hk)
    have hrest := ih hcalled (fun row forced hrow => hrows row forced (List.mem_cons_of_mem _ hrow))
      fun k hk => hyears k (List.mem_append_left _ hk)
    rw [← List.append_assoc] at hrest
    exact hrest

/-- The ticks of calls are those of the clock, one for each call at most. -/
theorem Session.runTicks_subset [Transactional σ] {s : Session σ} (hs : s.Fit)
    (calls : List Operation) : s.runTicks calls ⊆ s.clock.ticks calls.length := by
  induction calls generalizing s with
  | nil => exact List.nil_subset _
  | cons call calls ih =>
    have hrest := ih (answer_fit hs call).1
    unfold Session.runTicks
    obtain hclock | hclock := answer_clock hs call
    · rw [ticked_same hclock, List.append_nil]
      rw [hclock] at hrest
      exact List.Subset.trans hrest (s.clock.ticks_subset_succ _)
    · rw [ticked_tick hclock]
      rw [hclock] at hrest
      exact List.append_subset.mpr ⟨List.Subset.trans hrest (List.subset_cons_self _ _),
        List.cons_subset.mpr ⟨List.mem_cons_self, List.nil_subset _⟩⟩

/-- The next tick after calls is one of the clock, too. -/
theorem Session.next_run [Transactional σ] {s : Session σ} (hs : s.Fit) (calls : List Operation) :
    (s.run calls).2.clock.next ∈ s.clock.ticks (calls.length + 1) := by
  induction calls generalizing s with
  | nil => exact List.mem_cons_self
  | cons call calls ih =>
    have hrest := ih (answer_fit hs call).1
    obtain hclock | hclock := answer_clock hs call
    · rw [hclock] at hrest
      exact s.clock.ticks_subset_succ _ hrest
    · rw [hclock] at hrest
      exact List.mem_cons_of_mem _ hrest

/-! ## 5. Small tables -/

namespace Sample

/-- A table of items with a size, whose identifier column has an affinity. -/
def items (id : Affinity) : Table :=
  { name := "items"
    columns := [⟨"i", id, false⟩, ⟨"n", .integer, false⟩, ⟨"v", .integer, false⟩,
      ⟨"f", .text, false⟩, ⟨"t", .text, false⟩, ⟨"s", .text, false⟩] }

/-- Sizes are versioned under a name. -/
def sizes (size : String) (lastSeen : Option String) : Options :=
  { table := "items"
    names := { validFrom := "f", validTo := "t", version := "v", lastSeen }
    fields := ⟨[⟨"i", .id, .integer⟩, ⟨size, .compare, .integer⟩]⟩ }

/-- An item with a size. -/
def item (id : Int) (size : String) (n : Int) : Row :=
  (Row.empty.set "i" (.int64 id)).set size (.int64 n)

/-- The database of items, on which some requests fail. -/
def itemStore (id : Affinity) (triggers : List Trigger) : Traced Store :=
  { inner := { target := .file "items.db", file := { content := ⟨[items id]⟩ } }
    triggers }

/-- The cells of the rows of an identifier, in some columns. -/
def cells (w : Row) (columns : List String) (db : Database) : Option (List (List Cell)) :=
  (db.find? "items").map fun t =>
    (t.rows.filter ((sizes "n" none).layout.identifies t w)).map fun r => columns.map (t.cell r)

/-- The table of items is fit for versions. -/
theorem suits_items : (sizes "n" none).layout.Suits (items .integer) := by
  refine Layout.suits_of_integer ?_ ?_ ?_
  · show List.Nodup _
    decide +kernel
  · show List.Nodup _
    decide +kernel
  · show (items .integer).affinityOf "v" = .integer
    decide +kernel

theorem admissible_items : ∀ row ∈ [item 1 "n" 1, item 1 "n" 2],
    (sizes "n" none).layout.Admissible (items .integer) row := by
  decide +kernel

/-- A row with a result that passes a check, with the session after it. -/
def resultAnd (answer : Except Failure (Option RowResult) × Session σ)
    (p : RowResult → Session σ → Bool) : Bool :=
  match answer with
  | (.ok (some result), s') => p result s'
  | _ => false

omit [Connection σ] in
theorem exists_of_resultAnd {answer : Except Failure (Option RowResult) × Session σ}
    {p : RowResult → Session σ → Bool} (h : resultAnd answer p = true) :
    ∃ result s', answer = (.ok (some result), s') ∧ p result s' = true := by
  obtain ⟨reply, s'⟩ := answer
  cases reply with
  | error e => cases h
  | ok reply =>
    cases reply with
    | none => cases h
    | some result => exact ⟨result, s', rfl, h⟩

/-- An item that comes twice. -/
def twice : List Operation :=
  [.recovery acceptAll, .row (item 1 "n" 1) none, .row (item 1 "n" 1) none]

/-- The items, on which the first lookup is refused. -/
def refusing : Traced Store :=
  itemStore .integer [⟨.query, 1, busy⟩]

theorem sound_refusing : Transactional.Sound refusing := by
  refine ⟨⟨rfl, rfl⟩, fun trigger htrigger hkind => ?_⟩
  cases List.mem_singleton.mp htrigger
  cases hkind

theorem find?_refusing :
    (Transactional.durable refusing).find? (sizes "n" none).layout.table = some (items .integer) := by
  decide +kernel

/-- An item gets another size, after its first row was refused once. -/
theorem resized_item (strict : Prop) :
    ∃ (s s' : Session (Traced Store)) (ticks : List Instant) (result : RowResult),
      Reaches (sizes "n" none).layout (items .integer) strict refusing (.busy s) ticks ∧
      s.clock.next.InYears ∧ s.processAs (item 1 "n" 2) none = (.ok (some result), s') ∧
      result.status = .changed ∧ s'.isOpen = true ∧
      cells (item 1 "n" 2) ["v"] s'.working = some [[.integer 1], [.integer 2]] := by
  have hcheck : okAnd (Session.begin (sizes "n" none) clock "sample" refusing) (fun s₀ =>
      decide ((s₀.start.InYears ∧ ∀ e ∈ s₀.validTo, e.InYears) ∧
        (∀ k ∈ s₀.clock.ticks 4, k.InYears)) &&
      resultAnd ((s₀.run twice).2.processAs (item 1 "n" 2) none) fun result s' =>
        decide (result.status = .changed ∧ s'.isOpen = true ∧
          cells (item 1 "n" 2) ["v"] s'.working = some [[.integer 1], [.integer 2]])) = true := by
    rw [working_eq, Store.connection_eq (sizes "n" none)]
    decide +kernel
  obtain ⟨s₀, hbegin, hs₀⟩ := exists_of_okAnd hcheck
  obtain ⟨hyears, hreply⟩ := Bool.and_eq_true_iff.mp hs₀
  obtain ⟨⟨hstart, hhorizon⟩, hticks⟩ := of_decide_eq_true hyears
  obtain ⟨result, s', hprocess, hresult⟩ := exists_of_resultAnd hreply
  have hfit := (Session.begin_spec sound_refusing hbegin).1
  have hopened : Reaches (sizes "n" none).layout (items .integer) strict refusing (.busy s₀) [] :=
    .opened .start rfl (fun _ => Layout.narrows_none _ _) (Clock.isWhole_startingAt _) hbegin
      hstart hhorizon (List.forall_mem_nil _)
  have hran : Reaches (sizes "n" none).layout (items .integer) strict refusing
      (.busy (s₀.run twice).2) _ :=
    hopened.run (fun row forced hrow => admissible_items row (by simp_all [twice]))
      fun k hk => hticks k (s₀.clock.ticks_subset_succ _ (Session.runTicks_subset hfit twice hk))
  exact ⟨_, s', _, result, hran, hticks _ (Session.next_run hfit twice), hprocess,
    of_decide_eq_true hresult⟩

/-- The session that calls lead to. -/
def ran (o : Options) (c : Traced Store) (calls : List Operation) :
    Option (Session (Traced Store)) :=
  (Session.begin o clock "sample" c).toOption.map fun s => (s.run calls).2

theorem exists_of_ran {o : Options} {c : Traced Store} {calls : List Operation} {row : Row}
    {p : Session (Traced Store) → Session (Traced Store) → RowResult → Prop}
    [∀ s s' result, Decidable (p s s' result)]
    (h : (ran o c calls).any (fun s => resultAnd (s.processAs row none) fun result s' =>
      decide (p s s' result)) = true) :
    ∃ s s' result, ran o c calls = some s ∧ s.processAs row none = (.ok (some result), s') ∧
      p s s' result := by
  obtain ⟨s, hran, hs⟩ := (Option.any_eq_true _ _).mp h
  obtain ⟨result, s', hprocess, hresult⟩ := exists_of_resultAnd hs
  exact ⟨s, s', result, hran, hprocess, of_decide_eq_true hresult⟩

/-- An item whose identifier is no floating-point number. -/
def inexact : Row :=
  item 9007199254740993 "n" 1

/-- In a column of floating-point numbers, an identifier that is none of them is not found again: it
gets its first version twice, and a row with the number next to it ends both. -/
theorem inexact_identifier : ∃ (s s' : Session (Traced Store)) (result : RowResult),
    ran (sizes "n" none) (itemStore .real []) [.row inexact none, .row inexact none] = some s ∧
    s.processAs (item 9007199254740992 "n" 2) none = (.ok (some result), s') ∧
    result.status = .changed ∧
    cells (item 9007199254740992 "n" 2) ["v", "t"] s.working =
      some [[.integer 1, .text "2124-01-01 00:00:00.000000"],
        [.integer 1, .text "2124-01-01 00:00:00.000000"]] ∧
    cells (item 9007199254740992 "n" 2) ["v", "t"] s'.working =
      some [[.integer 1, .text "2024-01-01 00:00:00.000003"],
        [.integer 1, .text "2024-01-01 00:00:00.000003"],
        [.integer 2, .text "2124-01-01 00:00:00.000000"]] :=
  exists_of_ran (by
    rw [ran, working_eq, Store.connection_eq (sizes "n" none)]
    decide +kernel)

/-- A field with the name of the version column takes its place: the row shows the value of the field
where the result has its number. -/
theorem clashing_names : ∃ (s s' : Session (Traced Store)) (result : RowResult),
    ran (sizes "V" none) (itemStore .integer []) [] = some s ∧
    s.processAs (item 1 "V" 7) none = (.ok (some result), s') ∧
    result.status = .new ∧ result.version = 1 ∧
    cells (item 1 "V" 7) ["v"] s'.working = some [[.integer 7]] :=
  exists_of_ran (by
    rw [ran, working_eq, Store.connection_eq (sizes "V" none)]
    decide +kernel)

end Sample

end RowHistory
