import RowHistory.Proofs.Session.Success
import RowHistory.Proofs.Versions.Activity
import RowHistory.Proofs.Versions.History
import RowHistory.Proofs.Versions.LastSeen

/-!
# A purge ends what was not seen

A session that is given all rows of a source and then purges ends the versions whose identifiers the
source no longer has. This file fixes

* which stored rows results tell of (`Layout.toldOf`), and that these were seen after the session
  started (`Layout.Synced`, `Synced.step`);
* what a purge ends that comes after them (`Layout.Purges`, `Synced.purges`);
* that the purge of a session which finishes does so (`purge_ends_untold`).
-/

namespace RowHistory

open Sql

namespace Layout

variable {l : Layout} {t : Table} {c : String} {row w : Row} {now start limit : Instant}
  {horizon : Option Instant} {status : RowStatus} {n : Int} {k k' : Instant}
  {rows rows' : List (List Cell)} {r r' : List Cell} {v v' : Version} {strict : Prop}
  {ticks : List Instant} {picked : List Cell → Bool} {e : Entry} {history : List Entry}

/-! ## 1. What results tell of stored rows -/

/-- A result tells of a stored row. -/
def toldOf (l : Layout) (t : Table) (history : List Entry) (r : List Cell) : Bool :=
  history.any fun e => l.identifies t e.row r && e.result.status ≠ .skipped

theorem toldOf_iff : l.toldOf t history r = true ↔
    ∃ e ∈ history, l.identifies t e.row r = true ∧ e.result.status ≠ .skipped := by
  unfold toldOf
  simp only [List.any_eq_true, Bool.and_eq_true, decide_eq_true_eq]

/-- A result tells of a row if it tells of its identifier. -/
theorem toldOf_iff_tells (hs : l.Suits t) (hr : l.Stored t r)
    (hfind : ∀ e ∈ history, l.Findable t e.row) (hid : l.identifies t w r = true) :
    l.toldOf t history r = true ↔ ∃ e ∈ history, l.tells t w e = true := by
  rw [toldOf_iff]
  refine exists_congr fun e => and_congr_right fun he => ?_
  rw [tells_iff]
  refine and_congr_left fun _ => ⟨fun hrow => ?_, fun hsame => ?_⟩
  · rw [← identifies_of_found hs hr (hfind e he) hrow]
    exact hid
  · rw [← identifies_of_same hs hr (hfind e he) hsame]
    exact hid

theorem toldOf_cons (hid : l.identifies t e.row r = true) (hstatus : e.result.status ≠ .skipped) :
    l.toldOf t (e :: history) r = true :=
  toldOf_iff.mpr ⟨e, List.mem_cons_self, hid, hstatus⟩

/-- A result of another identifier does not tell of a row. -/
theorem toldOf_cons_other (hid : ¬ l.identifies t e.row r = true) :
    l.toldOf t (e :: history) r = l.toldOf t history r := by
  rw [toldOf, List.any_cons, Bool.eq_false_of_not_eq_true hid, Bool.false_and, Bool.false_or]
  rfl

theorem Turned.toldOf (h : l.Turned t row now status r r') :
    l.toldOf t history r' = l.toldOf t history r := by
  simp only [Layout.toldOf, h.identifies]

/-- The active row of the identifier is seen, or it ends. -/
theorem Step.touches_or_ends (hstep : Step l t row now horizon rows status n rows') (hr : r ∈ rows)
    (hid : l.identifies t row r = true) (hshow : l.Shows t r v) (hactive : v.ActiveAt now) :
    status.touches = true ∨ (v.turn status now).validTo = some now := by
  have hnone : ¬ l.NoneActive t row now rows := fun hnone => by
    obtain ⟨u, hu, hnot⟩ := hnone r hr hid
    rw [hu.unique hshow] at hnot
    exact hnot hactive
  cases hstep with
  | new h => exact absurd (noneActive_of_new h) hnone
  | outdated _ _ _ h _ => exact absurd h hnone
  | skipped h => exact absurd h hnone
  | update _ => exact .inl rfl
  | identical _ => exact .inl rfl
  | changed _ => exact .inr rfl
  | purged _ => exact .inr rfl

/-- A version of the identifier that has not ended was active, and so it is seen. -/
theorem Step.touches_lasting (hstep : Step l t row now horizon rows status n rows') (hr : r ∈ rows)
    (hturned : l.Turned t row now status r r') (hid : l.identifies t row r = true)
    (hshow : l.Shows t r v) (hshow' : l.Shows t r' v') (hfrom : v.validFrom ≤ now)
    (hlasting : ∀ e ∈ v'.validTo, now < e) : v.ActiveAt now ∧ status.touches = true := by
  have heq := hshow'.unique (hturned.shows v hshow)
  have hactive : v.ActiveAt now := by
    by_contra hnot
    rw [if_neg fun hand => hnot hand.2] at heq
    rw [heq] at hlasting
    exact hnot ⟨hfrom, fun d hd => le_of_lt (hlasting d hd)⟩
  rw [if_pos ⟨hid, hactive⟩] at heq
  refine ⟨hactive, (hstep.touches_or_ends hr hid hshow hactive).resolve_right fun hend => ?_⟩
  rw [heq] at hlasting
  exact absurd (hlasting _ hend) (lt_irrefl _)

/-! ## 2. What a session has seen -/

/-- **What a session has seen** since its start: the versions that have not ended were seen after it
if results tell of them, and before it if not; and the last result of an identifier tells whether it
has such a version. -/
structure Synced (l : Layout) (t : Table) (c : String) (start limit : Instant)
    (history : List Entry) (rows : List (List Cell)) : Prop where
  findable : ∀ e ∈ history, l.Findable t e.row
  seen : ∀ r ∈ rows, ∀ v, l.Shows t r v → (∀ e ∈ v.validTo, limit ≤ e) → ∀ k, l.SeenAt t c r k →
    if l.toldOf t history r then start < k else k < start
  last : ∀ w e, history.find? (l.tells t w) = some e → Greatest (l.HasActive t rows w limit)
    (if e.result.status = .purged then none else some e.result.version)

/-- Before all results, everything was seen before the start. -/
theorem synced_nil (limit : Instant) (hticks : ∀ k ∈ ticks, k < start)
    (hseen : l.Seen t c ticks rows) : l.Synced t c start limit [] rows := by
  refine ⟨List.forall_mem_nil _, fun r hr v _ _ k hk => ?_, fun _ _ h => nomatch h⟩
  obtain ⟨k', hk', hpast⟩ := hseen r hr
  rw [hk.unique hk']
  exact hpast.lt hticks

/-- **A step sees its own identifier.** -/
theorem Synced.step (h : l.Synced t c start limit history rows)
    (hstep : Step l t e.row e.tick horizon rows e.result.status e.result.version rows')
    (hs : l.Suits t) (hchained : l.Chained t strict ticks rows) (hticks : ∀ k ∈ ticks, k < e.tick)
    (hnow : e.tick.IsStorable) (hhorizon : ∀ e ∈ horizon, e.IsStorable ∧ limit ≤ e)
    (hcolumns : e.result.status = .new → ∀ c ∈ l.insertColumns, t.Has c)
    (hfind : l.Findable t e.row) (hc : c ∈ l.names.lastSeen.toList) (hseen : l.Seen t c ticks rows)
    (hends : l.Ends t ticks limit rows) (hstart : start < e.tick) (hlimit : e.tick < limit) :
    l.Synced t c start limit (e :: history) rows' := by
  have hstorable : ∀ e ∈ horizon, e.IsStorable := fun e he => (hhorizon e he).1
  refine ⟨List.forall_mem_cons.mpr ⟨hfind, h.findable⟩, fun r' hr' v' hv' hopen k' hk' => ?_,
    fun w e' he' => ?_⟩
  · obtain ⟨r, hr, hturned⟩ | ⟨hadds, rfl⟩ := hstep.origin hs hchained.stored hnow hr'
    · obtain ⟨v, hv⟩ := hchained.shows r hr
      obtain ⟨k, hk, -⟩ := hseen r hr
      have hfrom := le_of_lt (hseen.validFrom_lt hticks hr hv)
      have hkeq := hk'.unique (hturned.seenAt hv hc hk hnow hfrom)
      rw [hturned.toldOf]
      by_cases hid : l.identifies t e.row r = true
      · obtain ⟨hactive, htouches⟩ := hstep.touches_lasting hr hturned hid hv hv' hfrom
          fun d hd => lt_of_lt_of_le hlimit (hopen d hd)
        have hstatus : e.result.status ≠ .skipped := fun heq => by
          rw [heq] at htouches
          cases htouches
        rw [if_pos ⟨hid, hactive, htouches⟩] at hkeq
        rw [toldOf_cons hid hstatus, hkeq]
        exact hstart
      · have hveq := hv'.unique (hturned.shows v hv)
        rw [if_neg fun hand => hid hand.1] at hkeq hveq
        rw [toldOf_cons_other hid, hkeq]
        exact h.seen r hr v hv (hveq ▸ hopen) k hk
    · have hcolumns' := hstep.columns hchained.stored hcolumns hadds
      have hstatus : e.result.status ≠ .skipped := fun heq => by
        rw [heq] at hadds
        cases hadds
      rw [toldOf_cons (identifies_fresh hs hcolumns' hfind) hstatus,
        hk'.unique (seenAt_fresh hs hcolumns' hnow hstorable hc)]
      exact hstart
  · have h' := hstep.chained hs hchained hticks hnow hstorable hfind hcolumns
    rw [List.find?_cons] at he'
    cases htells : l.tells t w e with
    | true =>
      rw [htells] at he'
      obtain rfl := Option.some.inj he'
      obtain ⟨hsame, hstatus⟩ := tells_iff.mp htells
      have hgreatest := hstep.greatest hs hchained h' hticks hnow hhorizon hcolumns hends hfind hsame
        hstatus (le_of_lt hlimit) (le_refl limit)
      simpa only [hlimit, and_true] using hgreatest
    | false =>
      rw [htells] at he'
      have hnot := tells_iff.not.mp (Bool.eq_false_iff.mp htells)
      exact (h.last w e' he').congr fun j => hasActive_untold hstep hs hchained hnow hcolumns hfind hnot

/-! ## 3. What a purge ends -/

/-- **A purge ends what no result tells of**: the rows that it picks are the active versions of the
identifiers without a result, one for each of them. -/
structure Purges (l : Layout) (t : Table) (history : List Entry) (start now : Instant)
    (rows : List (List Cell)) (picked : List Cell → Bool) : Prop where
  /-- An identifier is picked if it has an active version, and no result. -/
  identifiers : ∀ w, (∃ r ∈ rows, picked r = true ∧ l.identifies t w r = true) ↔
    (∃ r ∈ rows, l.identifies t w r = true ∧ ∃ v, l.Shows t r v ∧ v.ActiveAt now) ∧
      history.find? (l.tells t w) = none
  /-- Each of them is picked once. -/
  once : (rows.filter picked).Pairwise fun a b =>
    ∀ w, ¬ (l.identifies t w a = true ∧ l.identifies t w b = true)
  /-- What is picked is active and started before the session, and gets its start as its end. -/
  versions : ∀ r ∈ rows, picked r = true → ∃ v, l.Shows t r v ∧ v.ActiveAt now ∧
    v.validFrom < start ∧ l.Shows t (l.endedRow t start r) { v with validTo := some start }
  /-- After it, an identifier has a version that holds if its last result did not end it. -/
  remain : ∀ w, (∃ r ∈ rows.map (l.sweptRow t picked start), l.identifies t w r = true ∧
      ∃ v, l.Shows t r v ∧ v.HoldsAt now) ↔
    ∃ e, history.find? (l.tells t w) = some e ∧ e.result.status ≠ .purged

/-- Of two rows of an identifier the first has ended. -/
theorem Chained.pairwise (h : l.Chained t strict ticks rows) (hticks : ∀ k ∈ ticks, k < now) :
    rows.Pairwise fun a b => ∀ w, l.identifies t w a = true → l.identifies t w b = true →
      ∀ v, l.Shows t a v → ¬ v.ActiveAt now := by
  rw [List.pairwise_iff_forall_sublist]
  intro a b hab w ha hb v hv hactive
  have hsublist : [a, b].Sublist (rows.filter (l.identifies t w)) := by
    have hfilter := hab.filter (l.identifies t w)
    rwa [List.filter_cons_of_pos ha, List.filter_cons_of_pos hb, List.filter_nil] at hfilter
  have hordered := List.pairwise_iff_forall_sublist.mp (h.chains w).ordered (hsublist.map (l.shown t))
  obtain ⟨e, he, hpast, -⟩ := hordered.ends
  rw [hv.eq_shown] at he
  exact absurd (hactive.2 e he) (not_le.mpr (hpast.lt hticks))

section Purge

variable (h : l.Synced t c start limit history rows) (hs : l.Suits t)
  (hchained : l.Chained t strict ticks rows) (hseen : l.Seen t c ticks rows)
  (hends : l.Ends t ticks limit rows) (hticks : ∀ k ∈ ticks, k < now) (hlimit : now < limit)

include h hs hchained hseen hends hticks hlimit

omit h hs hchained in
/-- A version is active at the purge just if it has not ended before the limit. -/
theorem active_iff_open (hr : r ∈ rows) (hshow : l.Shows t r v) :
    v.ActiveAt now ↔ ∀ e ∈ v.validTo, limit ≤ e :=
  ⟨fun hactive => hends.open hticks hr hshow hactive, fun hopen =>
    ⟨le_of_lt (hseen.validFrom_lt hticks hr hshow), fun e he => le_trans (le_of_lt hlimit) (hopen e he)⟩⟩

omit hs hchained in
/-- **What was seen before the start of the session is what no result tells of.** -/
theorem Synced.picked_iff (hpicked : ∀ r ∈ rows, ∀ v k, l.Shows t r v → l.SeenAt t c r k →
      (picked r = true ↔ (∀ e ∈ v.validTo, now ≤ e) ∧ k < start)) (hr : r ∈ rows)
    (hshow : l.Shows t r v) :
    picked r = true ↔ v.ActiveAt now ∧ l.toldOf t history r = false := by
  obtain ⟨k, hk, -⟩ := hseen r hr
  have hactive := active_iff_open hseen hends hticks hlimit hr hshow
  rw [hpicked r hr v k hshow hk]
  constructor
  · rintro ⟨hopen, hlt⟩
    have hnow : v.ActiveAt now := ⟨le_of_lt (hseen.validFrom_lt hticks hr hshow), hopen⟩
    have htold := h.seen r hr v hshow (hactive.mp hnow) k hk
    refine ⟨hnow, Bool.eq_false_iff.mpr fun heq => ?_⟩
    rw [heq] at htold
    exact lt_asymm hlt htold
  · rintro ⟨hnow, heq⟩
    have htold := h.seen r hr v hshow (hactive.mp hnow) k hk
    rw [heq] at htold
    exact ⟨hnow.2, htold⟩

theorem Synced.purges (hpicked : ∀ r ∈ rows, ∀ v k, l.Shows t r v → l.SeenAt t c r k →
      (picked r = true ↔ (∀ e ∈ v.validTo, now ≤ e) ∧ k < start)) (hstart : start.IsStorable)
    (hlt : start < now) : l.Purges t history start now rows picked := by
  have hiff : ∀ {r v}, r ∈ rows → l.Shows t r v →
      (picked r = true ↔ v.ActiveAt now ∧ l.toldOf t history r = false) := fun hr hshow =>
    h.picked_iff hseen hends hticks hlimit hpicked hr hshow
  have htold : ∀ {r w}, r ∈ rows → l.identifies t w r = true →
      (l.toldOf t history r = false ↔ history.find? (l.tells t w) = none) := by
    intro r w hr hid
    rw [← Bool.not_eq_true, toldOf_iff_tells hs (hchained.stored r hr) h.findable hid,
      List.find?_eq_none]
    push Not
    rfl
  have hbefore : ∀ {r v}, r ∈ rows → l.Shows t r v → picked r = true → v.validFrom < start := by
    intro r v hr hshow hp
    obtain ⟨k, hk, -⟩ := hseen r hr
    exact lt_of_le_of_lt (hk.started v hshow) ((hpicked r hr v k hshow hk).mp hp).2
  refine ⟨fun w => ⟨?_, ?_⟩, ?_, fun r hr hp => ?_, fun w => ⟨?_, ?_⟩⟩
  · rintro ⟨r, hr, hp, hid⟩
    obtain ⟨v, hv⟩ := hchained.shows r hr
    obtain ⟨hactive, hnot⟩ := (hiff hr hv).mp hp
    exact ⟨⟨r, hr, hid, v, hv, hactive⟩, (htold hr hid).mp hnot⟩
  · rintro ⟨⟨r, hr, hid, v, hv, hactive⟩, hnone⟩
    exact ⟨r, hr, (hiff hr hv).mpr ⟨hactive, (htold hr hid).mpr hnone⟩, hid⟩
  · refine (List.Pairwise.filter _ (hchained.pairwise hticks)).imp_of_mem ?_
    rintro a b ha - hab w ⟨hida, hidb⟩
    obtain ⟨ha, hp⟩ := List.mem_filter.mp ha
    obtain ⟨v, hv⟩ := hchained.shows a ha
    exact hab w hida hidb v hv ((hiff ha hv).mp hp).1
  · obtain ⟨v, hv⟩ := hchained.shows r hr
    exact ⟨v, hv, ((hiff hr hv).mp hp).1, hbefore hr hv hp, hv.ended hs (hchained.stored r hr) hstart⟩
  · rintro ⟨r', hr', hid, v', hv', hholds⟩
    obtain ⟨r, hr, rfl⟩ := List.mem_map.mp hr'
    obtain ⟨v, hv⟩ := hchained.shows r hr
    rw [hv'.unique (hv.swept hs (hchained.stored r hr) hstart)] at hholds
    by_cases hp : picked r = true
    · -- What is picked has ended.
      rw [if_pos hp] at hholds
      exact absurd (hholds.2 start rfl) (lt_asymm hlt)
    · rw [if_neg hp] at hholds
      unfold sweptRow at hid
      rw [if_neg hp] at hid
      have hactive : v.ActiveAt now := ⟨hholds.1, fun e he => le_of_lt (hholds.2 e he)⟩
      have hopen := (active_iff_open hseen hends hticks hlimit hr hv).mp hactive
      have hsome : history.find? (l.tells t w) ≠ none := fun hnone =>
        hp ((hiff hr hv).mpr ⟨hactive, (htold hr hid).mpr hnone⟩)
      obtain ⟨e, he⟩ := Option.ne_none_iff_exists'.mp hsome
      refine ⟨e, he, fun hpurged => ?_⟩
      have hgreatest := h.last w e he
      rw [if_pos hpurged] at hgreatest
      exact hgreatest v.number ⟨r, hr, hid, v, hv, ⟨le_trans hactive.1 (le_of_lt hlimit), hopen⟩, rfl⟩
  · rintro ⟨e, he, hstatus⟩
    have hgreatest := h.last w e he
    rw [if_neg hstatus] at hgreatest
    obtain ⟨r, hr, hid, v, hv, hactive, -⟩ := hgreatest.1
    have hnot : ¬ picked r = true := fun hp => by
      rw [(htold hr hid).mp ((hiff hr hv).mp hp).2] at he
      cases he
    have hswept : l.sweptRow t picked start r = r := if_neg hnot
    refine ⟨r, List.mem_map.mpr ⟨r, hr, hswept⟩, hid, v, hv, ?_, fun d hd => ?_⟩
    · exact le_of_lt (hseen.validFrom_lt hticks hr hv)
    · exact lt_of_lt_of_le hlimit (hactive.2 d hd)

end Purge

/-- **A purge picks the rows that have not ended and were seen before its cutoff**, and counts them. -/
theorem swept_seen {judge : Judge} {db db' : Database} {count : Nat} (hs : l.Suits t)
    (hc : l.names.lastSeen = some c) (hchained : l.Chained t strict ticks rows)
    (hfind : db.find? l.table = some { t with rows }) (hnow : now.IsStorable)
    (hstart : start.IsStorable) (h : l.swept judge start now none db = some (.changed count, db')) :
    ∃ picked : List Cell → Bool, (∀ r ∈ rows, ∀ v k, l.Shows t r v → l.SeenAt t c r k →
        (picked r = true ↔ (∀ e ∈ v.validTo, now ≤ e) ∧ k < start)) ∧
      count = (rows.filter picked).length ∧
      db.Sets db' l.table { t with rows := rows.map (l.sweptRow t picked start) } := by
  obtain ⟨t', st, reading, p, sets, e, e', ht', hst, hread, hcommand, hresolve, hanswer, hdb⟩ :=
    swept_fits rfl h
  rw [hfind] at ht'
  obtain rfl := Option.some.inj ht'
  refine ⟨_, fun r hr v k hv hk => ?_, Answer.changed.inj hanswer, ?_⟩
  · obtain ⟨hrow, hcolumns, hproper⟩ := hchained.stored r hr
    have hr' : l.Stored { t with rows } r := ⟨⟨hrow.length, hrow.stored⟩, hcolumns, hproper⟩
    have hv' : l.Shows { t with rows } r v := ⟨hv.number, hv.validFrom, hv.validTo, hv.storable⟩
    have hcell : Table.cell { t with rows } r c = .text k.storageText := hk.cell
    rw [fits_purge hc hr' hst hread hcommand hresolve, holds_open hv'.validTo hv'.storable.2 hnow,
      Atom.holds_compare, hcell, Affinity.compareCells_instants (Affinity.keepsInstants _) hk.storable hstart]
    simp only [Relation.holds, Option.some.injEq, decide_eq_true_eq]
    rw [compare_lt_iff_lt]
  · rw [hdb (hchained.kept hs)]
    exact Database.sets_replace hfind rfl

end Layout

/-! ## 4. Sessions that purge -/

variable {σ : Type} [Connection σ] [Transactional σ]

namespace Session

variable {l : Layout} {t : Table} {c : String} {limit : Instant} {ticks : List Instant}
  {history : List Entry} {s₀ s s' : Session σ}

/-- What holds of a session that has told results, as long as they come before the limit. -/
structure Syncs (l : Layout) (t : Table) (c : String) (limit : Instant) (ticks : List Instant)
    (s₀ : Session σ) (history : List Entry) (s : Session σ) : Prop where
  holds : s.Holds l t False (history.map Entry.tick ++ ticks)
  isOpen : s.isOpen = true
  same : Same s₀ s
  synced : (∀ e ∈ history, e.tick < limit) → ∃ rows, s.working.find? l.table = some { t with rows } ∧
    l.Seen t c (history.map Entry.tick ++ ticks) rows ∧
    l.Ends t (history.map Entry.tick ++ ticks) limit rows ∧
    l.Synced t c s₀.start limit history rows

/-- **A row that gets a result is seen.** -/
theorem Syncs.told {e : Entry} (h : Syncs l t c limit ticks s₀ history s) (hs : l.Suits t)
    (hc : c ∈ l.names.lastSeen.toList) (hhorizon : ∀ e ∈ s₀.validTo, limit ≤ e)
    (htells : s.Tells l t e s') : Syncs l t c limit ticks s₀ (e :: history) s' := by
  have htold := htells.spec hs h.holds
  refine ⟨htold.holds, htold.isOpen, h.same.trans htold.same, fun hbefore => ?_⟩
  obtain ⟨hlimit, hbefore⟩ := List.forall_mem_cons.mp hbefore
  obtain ⟨rows, rows', hrows, hchained, hstep, hsets, hcolumns⟩ := htold.step
  obtain ⟨rows₀, hrows₀, hseen, hends, hsynced⟩ := h.synced hbefore
  obtain rfl : rows₀ = rows := congrArg Table.rows (Option.some.inj (hrows₀.symm.trans hrows))
  have hhorizon' : ∀ e ∈ s.validTo, e.IsStorable ∧ limit ≤ e := fun e he =>
    ⟨h.holds.horizon e he, hhorizon e (h.same.validTo ▸ he)⟩
  have hstart : s₀.start < e.tick := by
    rw [htells.tick, ← h.same.start]
    exact h.holds.started
  exact ⟨rows', hsets.table,
    hstep.seen hs hchained htold.after htold.storable (fun e he => (hhorizon' e he).1) hcolumns hc hseen,
    hstep.ends hs hchained htold.storable hhorizon' hcolumns hends,
    hsynced.step hstep hs hchained htold.after htold.storable hhorizon' hcolumns htold.findable hc
      hseen hends hstart hlimit⟩

end Session

/-- **The purge of a full load ends what the load does not have.** A session on a table that earlier
sessions left is given rows, and then it finishes with a purge. The purge ends the active versions of
the identifiers that got no result, at the start of the session, and counts them; after it, an
identifier has a version just if its last result left it one. -/
theorem purge_ends_untold {l : Layout} {t : Table} {limit : Instant} {c₀ c : σ}
    {ticks : List Instant} {o : Options} {clock : Clock} {id : String} {s₀ s s' : Session σ}
    {calls : List (Row × Option RowStatus)} {history : List Entry}
    (hsound : Transactional.Sound c₀) (hs : l.Suits t) (hempty : t.rows = [])
    (hfind : (Transactional.durable c₀).find? l.table = some t)
    (hearlier : Runs l t (fun horizon => ∀ e ∈ horizon, limit ≤ e) c₀ (.idle c) ticks)
    (hlayout : o.layout = l) (hpurge : o.purge = true) (hwhere : o.purgeWhere = none)
    (hclock : clock.IsWhole) (hbegin : Session.begin o clock id c = .ok s₀)
    (hstart : s₀.start.InYears) (hhorizon : ∀ e ∈ s₀.validTo, e.InYears ∧ limit ≤ e)
    (hticks : ∀ k ∈ ticks, k < s₀.start) (htold : s₀.tell calls [] = some (history, s))
    (hrows : ∀ call ∈ calls, l.Admissible t call.1) (hyears : ∀ e ∈ history, e.tick.InYears)
    (hnow : s.clock.next.InYears) (hlimit : s.clock.next < limit)
    (hfinish : s.finish = (.ok (), s')) :
    ∃ rows picked n s₁, s.working.find? l.table = some { t with rows } ∧
      s.purge = (.ok n, s₁) ∧ s₁.commitAndClose = (.ok (), s') ∧
      n = (rows.filter picked).length ∧ s'.counters = s.counters.map (·.addRejected n) ∧
      s.working.Sets s'.durable l.table { t with rows := rows.map (l.sweptRow t picked s₀.start) } ∧
      l.Purges t history s₀.start s.clock.next rows picked := by
  have hidle : (Phase.idle c).Holds l t False ticks := hearlier.reaches.holds hsound hs hempty hfind
  obtain ⟨-, hoptions, hopen₀, -, -, -, -, hprepare⟩ := Session.begin_spec hidle.1 hbegin
  obtain ⟨-, -, hlt, -⟩ := Session.prepare_whole hclock hprepare
  have hopened : Runs l t (fun horizon => ∀ e ∈ horizon, limit ≤ e) c₀ (.busy s₀) ticks :=
    .opened hearlier hlayout hclock hbegin hstart (fun e he => (hhorizon e he).1)
      (fun e he => (hhorizon e he).2) fun k hk => lt_trans (hticks k hk) hlt
  have hholds₀ : s₀.Holds l t False ticks := hopened.reaches.holds hsound hs hempty hfind
  have htracks : l.names.tracksLastSeen = true := by
    rw [← hlayout, ← hoptions]
    exact Options.tracks_of_validate hholds₀.fit.valid (hoptions ▸ hpurge)
  obtain ⟨lastSeen, hseen⟩ := Option.isSome_iff_exists.mp htracks
  have hmem : lastSeen ∈ l.names.lastSeen.toList := by
    rw [hseen]
    exact List.mem_cons_self
  obtain ⟨-, -, htracked⟩ := hopened.keeps (Layout.keeps_tracked hs hmem limit) hsound hs hempty hfind
    ⟨[], by rw [hfind, ← hempty], List.forall_mem_nil _, List.forall_mem_nil _⟩
  have hsyncs₀ : Session.Syncs l t lastSeen limit ticks s₀ [] s₀ := by
    obtain ⟨rows, hrows, hseen, hends⟩ := htracked hopen₀
    exact ⟨hholds₀, hopen₀, .refl s₀, fun _ => ⟨rows, hrows, hseen, hends,
      Layout.synced_nil limit hticks hseen⟩⟩
  have hsyncs := Session.tell_induction (P := Session.Syncs l t lastSeen limit ticks s₀)
    (fun h htells => h.told hs hmem (fun e he => (hhorizon e he).2) htells) hsyncs₀ htold hrows hyears
  have hbefore : ∀ e ∈ history, e.tick < limit := fun e he => lt_trans
    (hsyncs.holds.after _ (List.mem_append_left _ (List.mem_map_of_mem he))) hlimit
  obtain ⟨rows, hfound, hseenRows, hends, hsynced⟩ := hsyncs.synced hbefore
  obtain ⟨-, hfinished⟩ := Session.finish_ok hfinish
  rw [hsyncs.same.options, hoptions, if_pos hpurge] at hfinished
  obtain ⟨n, s₁, hrun, hclose⟩ := hfinished
  obtain ⟨-, hpurged⟩ := Session.purge_ok hsyncs.holds.fit hrun
  obtain ⟨hd, hcounters, -⟩ := Session.commitAndClose_ok hpurged.fit hpurged.isOpen hclose
  obtain ⟨rows', hrows', hchained⟩ := hsyncs.holds.working hsyncs.isOpen
  obtain rfl : rows' = rows := congrArg Table.rows (Option.some.inj (hrows'.symm.trans hfound))
  have hswept := hpurged.swept
  rw [hsyncs.holds.layout, hsyncs.same.options, hoptions, hwhere, hsyncs.same.start] at hswept
  obtain ⟨picked, hpicked, hcount, hsets⟩ := Layout.swept_seen hs hseen hchained hfound
    ⟨hsyncs.holds.whole.next, hnow⟩ hholds₀.start hswept
  refine ⟨rows', picked, n, s₁, hfound, hrun, hclose, hcount, ?_, hd ▸ hsets, ?_⟩
  · rw [hcounters, hpurged.counters]
  · exact hsynced.purges hs hchained hseenRows hends hsyncs.holds.after hlimit hpicked hholds₀.start
      (hsyncs.same.start ▸ hsyncs.holds.started)

/-! ## 5. Loads of items -/

namespace Sample

/-- Sizes are versioned, and what is not seen is purged. -/
def synced : Options :=
  { sizes "n" (some "s") with purge := true }

theorem suits_synced : synced.layout.Suits (items .integer) := by
  refine Layout.suits_of_integer ?_ ?_ ?_
  · show List.Nodup _
    decide +kernel
  · show List.Nodup _
    decide +kernel
  · show (items .integer).affinityOf "v" = .integer
    decide +kernel

/-- The first load of an item. -/
def loading (row : Row) : List Operation :=
  [.row row none, .finish]

/-- The session of the next load, which comes a hundred seconds later. -/
def reload (o : Options) (c : Traced Store) :
    Except (Failure × Traced Store) (Session (Traced Store)) :=
  Session.begin o (Clock.startingAt (Instant.ofSeconds 1704067300)) "sample" c

end Sample

/-- A load has one item, and the next one another: the first item is purged. -/
theorem missing_item_purged :
    ∃ (s₀ s s' : Session (Traced Store)) (history : List Entry) (rows : List (List Cell))
      (picked : List Cell → Bool), s₀.tell [(Sample.item 2 "n" 5, none)] [] = some (history, s) ∧
      s.finish = (.ok (), s') ∧ s.working.find? "items" = some { Sample.items .integer with rows } ∧
      history.map (fun e => e.result.status) = [.new] ∧ (rows.filter picked).length = 1 ∧
      Sample.synced.layout.Purges (Sample.items .integer) history s₀.start s.clock.next rows
        picked := by
  have hcheck : okAnd (Session.begin Sample.synced Sample.clock "sample"
      (Sample.itemStore .integer [])) (fun s₁ =>
      decide (s₁.start.InYears ∧ (∀ e ∈ s₁.validTo, e.InYears ∧ Instant.ofSeconds 1735689600 ≤ e) ∧
        (∀ k ∈ s₁.clock.ticks 2, k.InYears ∧ k < Instant.ofSeconds 1704067300) ∧
        (s₁.run (Sample.loading (Sample.item 1 "n" 1))).2.isOpen = false) &&
      okAnd (Sample.reload Sample.synced
        (s₁.run (Sample.loading (Sample.item 1 "n" 1))).2.storage.connection) fun s₀ =>
        decide (s₀.start = Instant.ofSeconds 1704067300 ∧ s₀.start.InYears ∧
          ∀ e ∈ s₀.validTo, e.InYears ∧ Instant.ofSeconds 1735689600 ≤ e) &&
        (s₀.tell [(Sample.item 2 "n" 5, none)] []).any fun told =>
          decide ((∀ e ∈ told.1, e.tick.InYears) ∧ told.2.clock.next.InYears ∧
            told.2.clock.next < Instant.ofSeconds 1735689600 ∧
            told.1.map (fun e => e.result.status) = [.new]) &&
          okAnd told.2.purge.1 (fun n => decide (n = 1)) && okAnd told.2.finish.1 fun _ => true) =
        true := by
    unfold Sample.reload
    rw [Store.connection_eq Sample.synced]
    decide +kernel
  obtain ⟨s₁, hbegin₁, hs₁⟩ := exists_of_okAnd hcheck
  obtain ⟨hfirst, hsecond⟩ := Bool.and_eq_true_iff.mp hs₁
  obtain ⟨hstart₁, hhorizon₁, hticks₁, hclosed₁⟩ := of_decide_eq_true hfirst
  obtain ⟨s₀, hbegin, hs₀⟩ := exists_of_okAnd hsecond
  obtain ⟨hopening, htell⟩ := Bool.and_eq_true_iff.mp hs₀
  obtain ⟨hstart, hyears, hhorizon⟩ := of_decide_eq_true hopening
  obtain ⟨⟨history, s⟩, htold, hresults⟩ := (Option.any_eq_true _ _).mp htell
  obtain ⟨hresults, hfinish⟩ := Bool.and_eq_true_iff.mp hresults
  obtain ⟨hresults, hpurge⟩ := Bool.and_eq_true_iff.mp hresults
  obtain ⟨hticks, hnow, hlimit, hstatus⟩ := of_decide_eq_true hresults
  obtain ⟨n, hn, hone⟩ := exists_of_okAnd hpurge
  obtain ⟨u, hok, -⟩ := exists_of_okAnd hfinish
  have hsound : Transactional.Sound (Sample.itemStore .integer []) :=
    ⟨⟨rfl, rfl⟩, List.forall_mem_nil _⟩
  have hfind : (Transactional.durable (Sample.itemStore .integer [])).find?
      Sample.synced.layout.table = some (Sample.items .integer) := by
    decide +kernel
  have hadmissible : ∀ id ∈ [1, 2], Sample.synced.layout.Admissible (Sample.items .integer)
      (Sample.item id "n" (if id = 1 then 1 else 5)) := by
    decide +kernel
  have hfit := (Session.begin_spec hsound hbegin₁).1
  have hran : ∀ k ∈ s₁.runTicks (Sample.loading (Sample.item 1 "n" 1)) ++ [], k.InYears ∧
      k < Instant.ofSeconds 1704067300 := fun k hk =>
    hticks₁ k (Session.runTicks_subset hfit _ (by simpa using hk))
  have hearlier : Runs Sample.synced.layout (Sample.items .integer)
      (fun horizon => ∀ e ∈ horizon, Instant.ofSeconds 1735689600 ≤ e)
      (Sample.itemStore .integer []) (.idle _) _ :=
    .left (.run (.opened .start rfl (Clock.isWhole_startingAt _) hbegin₁ hstart₁
      (fun e he => (hhorizon₁ e he).1) (fun e he => (hhorizon₁ e he).2) (List.forall_mem_nil _))
      (fun row forced hrow => by
        obtain rfl : row = Sample.item 1 "n" 1 := by simp_all [Sample.loading]
        exact hadmissible 1 (by simp))
      fun k hk => (hran k (List.mem_append_left _ hk)).1) hclosed₁
  have hfinished : s.finish = (.ok (), s.finish.2) := Prod.ext hok rfl
  obtain ⟨rows, picked, m, s₂, hrows, hrun, -, hcount, -, -, hpurges⟩ := purge_ends_untold hsound
    Sample.suits_synced rfl hfind hearlier rfl rfl rfl (Clock.isWhole_startingAt _) hbegin hyears
    hhorizon (fun k hk => hstart ▸ (hran k hk).2) htold
    (List.forall_mem_singleton.mpr (hadmissible 2 (by simp))) hticks hnow hlimit hfinished
  have hm : m = 1 := by
    rw [hrun] at hn
    exact (Except.ok.inj hn).trans (of_decide_eq_true hone)
  exact ⟨s₀, s, s.finish.2, history, rows, picked, htold, hfinished, hrows, hstatus, hcount ▸ hm,
    hpurges⟩

/-- An item whose identifier is not found again is purged, although the load has it. -/
theorem present_item_purged :
    ∃ (s₁ s₀ s s' : Session (Traced Store)) (history : List Entry),
      Sample.ran Sample.synced (Sample.itemStore .real []) (Sample.loading Sample.inexact) = some s₁ ∧
      Sample.reload Sample.synced s₁.storage.connection = .ok s₀ ∧
      s₀.tell [(Sample.inexact, none)] [] = some (history, s) ∧
      history.map (fun e => e.result.status) = [.new] ∧ s.purge = (.ok 1, s') := by
  have hcheck : (Sample.ran Sample.synced (Sample.itemStore .real [])
      (Sample.loading Sample.inexact)).any (fun s₁ =>
        okAnd (Sample.reload Sample.synced s₁.storage.connection) fun s₀ =>
          (s₀.tell [(Sample.inexact, none)] []).any fun told =>
            decide (told.1.map (fun e => e.result.status) = [.new]) &&
            okAnd told.2.purge.1 fun n => decide (n = 1)) = true := by
    unfold Sample.ran Sample.reload
    rw [Store.connection_eq Sample.synced]
    decide +kernel
  obtain ⟨s₁, hran, hs₁⟩ := (Option.any_eq_true _ _).mp hcheck
  obtain ⟨s₀, hbegin, hs₀⟩ := exists_of_okAnd hs₁
  obtain ⟨⟨history, s⟩, htold, hresults⟩ := (Option.any_eq_true _ _).mp hs₀
  obtain ⟨hstatus, hpurge⟩ := Bool.and_eq_true_iff.mp hresults
  obtain ⟨n, hn, hone⟩ := exists_of_okAnd hpurge
  obtain rfl : n = 1 := of_decide_eq_true hone
  exact ⟨s₁, s₀, s, s.purge.2, history, hran, hbegin, htold, of_decide_eq_true hstatus,
    Prod.ext hn rfl⟩

end RowHistory
