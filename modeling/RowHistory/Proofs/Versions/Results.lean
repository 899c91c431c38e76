import RowHistory.Proofs.Instant.RoundTrip
import RowHistory.Proofs.Versions.Runs

/-!
# What results tell of a table

A session tells of every row what became of it, and the table is what the results tell. This file
fixes

* results with the rows and ticks that they belong to (`Entry`), and when two incoming rows have the
  same identifier (`Layout.sameIdentifier`);
* what a step of the machine makes of every stored row (`Turned`, `Step.turned`): the active version
  of the identifier turns as the status says, all others stay;
* a call that tells a result (`Session.Tells`), and the step that it takes (`Tells.spec`);
* calls one after the other that all tell (`Session.tell`), and that they keep what each of them
  keeps (`tell_induction`).
-/

namespace RowHistory

open Sql

/-! ## 1. Statuses and identifiers -/

/-- A version is added. -/
def RowStatus.adds : RowStatus → Bool
  | .new => true
  | .outdated => true
  | .changed => true
  | _ => false

/-- The active version is seen, and stays active. -/
def RowStatus.touches : RowStatus → Bool
  | .update => true
  | .identical => true
  | _ => false

/-- A row that a session was given, at a tick, and what it told of it. -/
structure Entry where
  row : Row
  forced : Option RowStatus
  tick : Instant
  result : RowResult

instance (v : Version) (now : Instant) : Decidable (v.ActiveAt now) :=
  inferInstanceAs (Decidable (_ ∧ ∀ e ∈ v.validTo, _))

/-- What a status makes of the active version. -/
def Version.turn (status : RowStatus) (now : Instant) (v : Version) : Version :=
  match status with
  | .changed => { v with validTo := some now }
  | .purged => { v with validTo := some now }
  | .update => { v with validFrom := now }
  | _ => v

theorem Version.number_turn (status : RowStatus) (now : Instant) (v : Version) :
    (v.turn status now).number = v.number := by
  cases status <;> rfl

namespace Layout

variable {l : Layout} {t : Table} {row w : Row} {now : Instant} {horizon : Option Instant}
  {status : RowStatus} {n : Int} {rows rows' before after : List (List Cell)} {r r' : List Cell}
  {v v' : Version} {strict : Prop} {ticks : List Instant}

/-- Two incoming rows have the same identifier: what the columns store for one is found by the
other. -/
def sameIdentifier (l : Layout) (t : Table) (w row : Row) : Bool :=
  (l.fields.names .id).all fun n => compareCells .eq (some (t.affinityOf n))
    ((t.affinityOf n).store (Cell.ofValue (row.value n))) (Cell.ofValue (w.value n)) = some true

theorem Findable.sameIdentifier (h : l.Findable t row) : l.sameIdentifier t row row = true := by
  unfold Layout.sameIdentifier
  rw [List.all_eq_true]
  exact fun n hn => decide_eq_true (h n hn)

/-- A row that keeps an identifier is found by the rows that have it. -/
theorem identifies_of_cells
    (h : ∀ n ∈ l.fields.names .id, t.cell r n = (t.affinityOf n).store (Cell.ofValue (row.value n))) :
    l.identifies t w r = l.sameIdentifier t w row := by
  unfold identifies sameIdentifier
  rw [Bool.eq_iff_iff, List.all_eq_true, List.all_eq_true]
  refine forall₂_congr fun n hn => ?_
  rw [h n hn]

/-- A row that is found by an identifier is found by the rows that have it. -/
theorem identifies_of_found (hs : l.Suits t) (hr : l.Stored t r) (hfind : l.Findable t row)
    (hid : l.identifies t row r = true) : l.identifies t w r = l.sameIdentifier t w row := by
  -- A row that would be added for the identifier is found by the same rows.
  generalize hfresh : l.freshRow t row 0 (Instant.ofSeconds 0) none = fresh
  have hstored : l.Stored t fresh := hfresh ▸ stored_fresh hs hr.columns
  have hself : l.identifies t row fresh = true := hfresh ▸ identifies_fresh hs hr.columns hfind
  have hsame : l.identifies t w fresh = l.sameIdentifier t w row :=
    identifies_of_cells fun m hm => hfresh ▸ cell_fresh_id hs hr.columns hm
  rw [← hsame]
  exact Bool.eq_iff_iff.mpr ⟨fun hw => (identifies_congr hr hstored hw hid).trans hself,
    fun hw => (identifies_congr hstored hr hw hself).trans hid⟩

/-- Rows that have the identifier of a row find the same stored rows. -/
theorem identifies_of_same (hs : l.Suits t) (hr : l.Stored t r) (hfind : l.Findable t row)
    (hsame : l.sameIdentifier t w row = true) : l.identifies t w r = l.identifies t row r := by
  generalize hfresh : l.freshRow t row 0 (Instant.ofSeconds 0) none = fresh
  have hstored : l.Stored t fresh := hfresh ▸ stored_fresh hs hr.columns
  have hself : l.identifies t row fresh = true := hfresh ▸ identifies_fresh hs hr.columns hfind
  have hw : l.identifies t w fresh = true := hsame ▸ identifies_of_cells fun m hm =>
    hfresh ▸ cell_fresh_id hs hr.columns hm
  exact identifies_congr hstored hr hw hself

/-- A result is one of an identifier. -/
def tells (l : Layout) (t : Table) (w : Row) (e : Entry) : Bool :=
  l.sameIdentifier t w e.row && e.result.status ≠ .skipped

theorem tells_iff {e : Entry} : l.tells t w e = true ↔
    l.sameIdentifier t w e.row = true ∧ e.result.status ≠ .skipped := by
  unfold tells
  rw [Bool.and_eq_true, decide_eq_true_eq]

/-! ## 2. What becomes of stored rows -/

/-- What is stored when a row is seen. -/
theorem cell_put_seen (hs : l.Suits t) (hr : l.Stored t r) {entries : List (String × Cell)}
    (hentries : (entries.map Prod.fst).Sublist l.insertColumns) {c : String}
    (hc : c ∈ l.names.lastSeen.toList) (hmem : (c, Cell.text now.storageText) ∈ entries)
    (hnow : now.IsStorable) : t.cell (t.put entries r) c = .text now.storageText := by
  rw [Table.cell_put (hr.columns _ (updateColumns_insert (lastSeen_update hc))) hr.row.length,
    hs.names.cellNamed? hentries hmem]
  exact Affinity.keepsInstants _ now hnow

theorem mem_seenCells {c : String} (hc : c ∈ l.names.lastSeen.toList) (now : Instant) :
    (c, Cell.text now.storageText) ∈ l.seenCells now :=
  List.mem_map_of_mem hc

/-- What a step makes of a stored row: the active version of the identifier turns, and is seen. -/
structure Turned (l : Layout) (t : Table) (row : Row) (now : Instant) (status : RowStatus)
    (r r' : List Cell) : Prop where
  lasting : ∀ c ∈ l.lasting, t.cell r' c = t.cell r c
  shows : ∀ v, l.Shows t r v → l.Shows t r'
    (if l.identifies t row r = true ∧ v.ActiveAt now then v.turn status now else v)
  seen : ∀ c ∈ l.names.lastSeen.toList, ∀ v, l.Shows t r v → t.cell r' c =
    if l.identifies t row r = true ∧ v.ActiveAt now ∧ status.touches = true then
      .text now.storageText else t.cell r c

theorem Turned.identifies (h : l.Turned t row now status r r') (w : Row) :
    l.identifies t w r' = l.identifies t w r := by
  unfold Layout.identifies
  rw [Bool.eq_iff_iff, List.all_eq_true, List.all_eq_true]
  refine forall₂_congr fun m hm => ?_
  rw [h.lasting m (id_lasting hm)]

/-- A row stays if it is not the active one of the identifier. -/
theorem turned_inactive (h : ∀ v, l.Shows t r v → l.identifies t row r = true → ¬ v.ActiveAt now) :
    l.Turned t row now status r r := by
  refine ⟨fun _ _ => rfl, fun v hv => ?_, fun c _ v hv => ?_⟩
  · rw [if_neg fun hactive => h v hv hactive.1 hactive.2]
    exact hv
  · rw [if_neg fun hactive => h v hv hactive.1 hactive.2.1]

/-- The active row turns, and the others stay. -/
theorem OneActive.turned (hl : l.Distinct) (hone : l.OneActive t row now before r after v)
    (hr : t.IsRow r) {entries : List (String × Cell)}
    (hentries : ∀ e ∈ entries, e.1 ∈ l.names.validTo :: l.updateColumns)
    (hshow : l.Shows t (t.put entries r) (v.turn status now))
    (hseen : ∀ c ∈ l.names.lastSeen.toList, t.cell (t.put entries r) c =
      if status.touches = true then .text now.storageText else t.cell r c) :
    List.Forall₂ (l.Turned t row now status) (before ++ r :: after)
      (before ++ t.put entries r :: after) := by
  have hothers : ∀ xs, xs ⊆ before ++ after → List.Forall₂ (l.Turned t row now status) xs xs := by
    intro xs hxs
    refine List.forall₂_same.mpr fun r' hr' => turned_inactive fun v' hv' hid => ?_
    obtain ⟨u, hu, hnot⟩ := hone.only r' (hxs hr') hid
    rwa [hu.unique hv'] at hnot
  refine List.rel_append (hothers _ (List.subset_append_left _ _)) (.cons ⟨?_, fun u hu => ?_, ?_⟩
    (hothers _ (List.subset_append_right _ _)))
  · exact fun c hc => hl.cell_put hr hentries hc
  · rw [hu.unique hone.shows, if_pos ⟨hone.identified, hone.active⟩]
    exact hshow
  · intro c hc u hu
    rw [hseen c hc, hu.unique hone.shows]
    simp only [hone.identified, hone.active, true_and]

/-- Where no row of the identifier is active, all rows stay. -/
theorem NoneActive.turned (h : l.NoneActive t row now rows) (status : RowStatus) :
    List.Forall₂ (l.Turned t row now status) rows rows := by
  refine List.forall₂_same.mpr fun r hr => turned_inactive fun v hv hid => ?_
  obtain ⟨u, hu, hnot⟩ := h r hr hid
  rwa [hu.unique hv] at hnot

theorem noneActive_of_new (h : ∀ r ∈ rows, l.identifies t row r = false) :
    l.NoneActive t row now rows := by
  intro r hr hid
  rw [h r hr] at hid
  cases hid

/-- **What a step makes of all rows**: stored rows turn, and behind them stands the new one. -/
theorem Step.turned (hstep : Step l t row now horizon rows status n rows') (hs : l.Suits t)
    (hstored : ∀ r ∈ rows, l.Stored t r) (hnow : now.IsStorable) :
    ∃ kept, List.Forall₂ (l.Turned t row now status) rows kept ∧
      rows' = kept ++ if status.adds then [l.freshRow t row n now horizon] else [] := by
  have hended : ∀ e ∈ [(l.names.validTo, Cell.text now.storageText)],
      e.1 ∈ l.names.validTo :: l.updateColumns := List.forall_mem_singleton.mpr List.mem_cons_self
  have hkept : ∀ {r}, l.Stored t r → ∀ c ∈ l.names.lastSeen.toList,
      t.cell (l.endedRow t now r) c = t.cell r c := fun hr c hc =>
    Table.cell_put_of_none hr.row.length (Table.cellNamed?_eq_none (List.forall_mem_singleton.mpr
      (hs.names.validTo_ne (lastSeen_update hc)).symm))
  cases hstep with
  | new hnone => exact ⟨rows, (noneActive_of_new hnone).turned .new, rfl⟩
  | outdated _ _ _ hnone _ => exact ⟨rows, hnone.turned .outdated, rfl⟩
  | changed hone =>
    have hr := hstored _ (mem_middle _ _ _)
    exact ⟨_, hone.turned hs.names hr.row hended (hone.shows.ended hs hr hnow) (hkept hr), rfl⟩
  | update hone =>
    have hr := hstored _ (mem_middle _ _ _)
    refine ⟨_, hone.turned hs.names hr.row (l.renewedCells_changes row now)
      (hone.shows.renewed hs hr hnow) fun c hc => ?_, (List.append_nil _).symm⟩
    refine cell_put_seen hs hr ?_ hc (List.mem_append_right _ (List.mem_cons_of_mem _
      (mem_seenCells hc now))) hnow
    rw [fst_renewedCells]
    exact l.setColumns_sublist .update
  | identical hone =>
    have hr := hstored _ (mem_middle _ _ _)
    refine ⟨_, hone.turned hs.names hr.row (l.seenCells_changes now) (hone.shows.seen hs hr)
      fun c hc => cell_put_seen hs hr ?_ hc (mem_seenCells hc now) hnow, (List.append_nil _).symm⟩
    rw [fst_seenCells]
    exact l.setColumns_sublist .touch
  | purged hone =>
    have hr := hstored _ (mem_middle _ _ _)
    exact ⟨_, hone.turned hs.names hr.row hended (hone.shows.ended hs hr hnow) (hkept hr),
      (List.append_nil _).symm⟩
  | skipped hnone => exact ⟨rows, hnone.turned .skipped, (List.append_nil _).symm⟩

theorem exists_left {α β : Type} {R : α → β → Prop} {as : List α} {bs : List β}
    (h : List.Forall₂ R as bs) {b : β} (hb : b ∈ bs) : ∃ a ∈ as, R a b := by
  induction h with
  | nil => cases hb
  | cons hab _ ih =>
    obtain rfl | hb := List.mem_cons.mp hb
    · exact ⟨_, List.mem_cons_self, hab⟩
    · obtain ⟨a, ha, hR⟩ := ih hb
      exact ⟨a, List.mem_cons_of_mem _ ha, hR⟩

theorem exists_right {α β : Type} {R : α → β → Prop} {as : List α} {bs : List β}
    (h : List.Forall₂ R as bs) {a : α} (ha : a ∈ as) : ∃ b ∈ bs, R a b :=
  exists_left h.flip ha

variable (hstep : Step l t row now horizon rows status n rows') (hs : l.Suits t)
  (hstored : ∀ r ∈ rows, l.Stored t r) (hnow : now.IsStorable)

include hstep hs hstored hnow

/-- A row after a step was there before, or it is new. -/
theorem Step.origin (hr' : r' ∈ rows') : (∃ r ∈ rows, l.Turned t row now status r r') ∨
    (status.adds = true ∧ r' = l.freshRow t row n now horizon) := by
  obtain ⟨kept, hkept, rfl⟩ := hstep.turned hs hstored hnow
  obtain hr' | hr' := List.mem_append.mp hr'
  · exact .inl (exists_left hkept hr')
  · split at hr'
    · rename_i hadds
      exact .inr ⟨hadds, List.mem_singleton.mp hr'⟩
    · cases hr'

/-- A row from before a step is there after it. -/
theorem Step.image (hr : r ∈ rows) : ∃ r' ∈ rows', l.Turned t row now status r r' := by
  obtain ⟨kept, hkept, rfl⟩ := hstep.turned hs hstored hnow
  obtain ⟨r', hr', hturned⟩ := exists_right hkept hr
  exact ⟨r', List.mem_append_left _ hr', hturned⟩

omit hs hnow in
/-- A table to which a row is added has all columns. -/
theorem Step.columns (hcolumns : status = .new → ∀ c ∈ l.insertColumns, t.Has c)
    (hadds : status.adds = true) : ∀ c ∈ l.insertColumns, t.Has c := by
  cases hstep with
  | new _ => exact hcolumns rfl
  | outdated hr _ _ _ _ => exact (hstored _ hr).columns
  | changed _ => exact (hstored _ (mem_middle _ _ _)).columns
  | update _ | identical _ | purged _ | skipped _ => cases hadds

omit hstep hs hstored hnow

/-- Ends lie at ticks that have passed, or at a limit and later. -/
def Ends (l : Layout) (t : Table) (ticks : List Instant) (limit : Instant)
    (rows : List (List Cell)) : Prop :=
  ∀ r ∈ rows, ∀ v, l.Shows t r v → ∀ e ∈ v.validTo, Past ticks e ∨ limit ≤ e

/-- A version that is active after all ticks does not end before the limit. -/
theorem Ends.open {limit : Instant} (h : l.Ends t ticks limit rows) (hticks : ∀ k ∈ ticks, k < now)
    (hr : r ∈ rows) (hshow : l.Shows t r v) (hactive : v.ActiveAt now) :
    ∀ e ∈ v.validTo, limit ≤ e := by
  intro e he
  obtain hpast | hle := h r hr v hshow e he
  · exact absurd (hactive.2 e he) (not_le.mpr (hpast.lt hticks))
  · exact hle

/-- A version that turns ends now, or as before. -/
theorem validTo_turn (status : RowStatus) (now : Instant) (v : Version) :
    (v.turn status now).validTo = some now ∨ (v.turn status now).validTo = v.validTo := by
  cases status with
  | changed | purged => exact .inl rfl
  | new | outdated | update | identical | skipped => exact .inr rfl

/-- **A step ends versions now**, or at its horizon. -/
theorem Step.ends {limit : Instant} (hstep : Step l t row now horizon rows status n rows')
    (hs : l.Suits t) (h : l.Chained t strict ticks rows) (hnow : now.IsStorable)
    (hhorizon : ∀ e ∈ horizon, e.IsStorable ∧ limit ≤ e)
    (hcolumns : status = .new → ∀ c ∈ l.insertColumns, t.Has c)
    (hends : l.Ends t ticks limit rows) : l.Ends t (now :: ticks) limit rows' := by
  intro r' hr' v' hv' e he
  obtain ⟨r, hr, hturned⟩ | ⟨hadds, rfl⟩ := hstep.origin hs h.stored hnow hr'
  · obtain ⟨v, hv⟩ := h.shows r hr
    have hold : ∀ e ∈ v.validTo, Past (now :: ticks) e ∨ limit ≤ e := fun e he =>
      (hends r hr v hv e he).imp_left (Past.mono (List.subset_cons_self _ _))
    rw [hv'.unique (hturned.shows v hv)] at he
    split at he
    · obtain hturn | hturn := validTo_turn status now v
      · rw [hturn] at he
        exact .inl (Option.some.inj he ▸ past_head now ticks)
      · exact hold e (hturn ▸ he)
    · exact hold e he
  · have hfresh : l.Shows t (l.freshRow t row n now horizon) ⟨n, now, horizon⟩ :=
      shows_fresh hs (hstep.columns h.stored hcolumns hadds) hnow fun e he => (hhorizon e he).1
    rw [hv'.unique hfresh] at he
    exact .inr (hhorizon e he).2

end Layout

/-! ## 3. Calls that tell -/

namespace Session

variable {σ : Type} [Connection σ] {l : Layout} {t : Table} {s s' : Session σ} {e : Entry}

/-- A session is given a row with an admissible identifier, and tells what became of it. -/
structure Tells (l : Layout) (t : Table) (s : Session σ) (e : Entry) (s' : Session σ) : Prop where
  admissible : l.Admissible t e.row
  tick : e.tick = s.clock.next
  years : e.tick.InYears
  told : s.processAs e.row e.forced = (.ok (some e.result), s')

variable [Transactional σ] {strict : Prop} {ticks : List Instant}

/-- What a session did that tells of a row. -/
structure Told (l : Layout) (t : Table) (strict : Prop) (ticks : List Instant) (s : Session σ)
    (e : Entry) (s' : Session σ) : Prop where
  wasOpen : s.isOpen = true
  isOpen : s'.isOpen = true
  clock : s'.clock = s.clock.tick.2
  same : Same s s'
  holds : Holds l t strict (e.tick :: ticks) s'
  after : ∀ k ∈ ticks, k < e.tick
  storable : e.tick.IsStorable
  findable : l.Findable t e.row
  permitted : Permitted e.forced
  applied : Applied e.row e.forced e.tick s e.result s'
  step : ∃ rows rows', s.working.find? l.table = some { t with rows } ∧
    l.Chained t strict ticks rows ∧
    l.Step t e.row e.tick s.validTo rows e.result.status e.result.version rows' ∧
    s.working.Sets s'.working l.table { t with rows := rows' } ∧
    (e.result.status = .new → ∀ c ∈ l.insertColumns, t.Has c)

/-- **A session that tells of a row took a step of the machine.** -/
theorem Tells.spec (he : s.Tells l t e s') (hs : l.Suits t) (h : Holds l t strict ticks s) :
    Told l t strict ticks s e s' := by
  have hopen := isOpen_of_told he.told
  have hyears : ∀ k ∈ s.ticked s', k.InYears := fun k hk => by
    rw [eq_next_of_mem_ticked hk, ← he.tick]
    exact he.years
  obtain ⟨hfit, hsame, hp, happlied, hopen', hclock⟩ := told_spec h.fit he.told
  have hholds := h.moved hs (.applied hp happlied hopen' hclock) hfit hsame
    (fun _ _ heq => by cases heq; exact he.admissible) hyears hopen
  have hnow : s.clock.next.IsStorable := ⟨h.whole.next, he.tick ▸ he.years⟩
  obtain ⟨rows, hfind, hchained⟩ := h.working hopen
  obtain rfl := h.layout
  obtain ⟨rows', hstep, hsets, hcolumns⟩ := happlied.step hp h.ids hs hchained h.after hnow hfind
  rw [ticked_tick hclock, ← he.tick] at hholds
  rw [← he.tick] at happlied hstep hnow
  exact ⟨hopen, hopen', hclock, hsame, hholds, he.tick ▸ h.after, hnow,
    findable_of_identified he.admissible happlied.identified, hp, happlied,
    rows, rows', hfind, hchained, hstep, hsets, hcolumns⟩

/-! ## 4. Runs of calls that tell -/

omit [Transactional σ] in
/-- Rows are given one after the other, each at a tick with a reading of its own, and each of them gets
a result. The results stand in front of earlier ones, the last one first. -/
def tell (s : Session σ) :
    List (Row × Option RowStatus) → List Entry → Option (List Entry × Session σ)
  | [], history => some (history, s)
  | (row, forced) :: calls, history => match s.processAs row forced with
    | (.ok (some result), s') => s'.tell calls (⟨row, forced, s.clock.next, result⟩ :: history)
    | _ => none

variable {row : Row} {forced : Option RowStatus} {calls : List (Row × Option RowStatus)}
  {history history' : List Entry}

omit [Transactional σ] in
/-- The first of the calls tells, and then the others do. -/
theorem tell_cons (h : s.tell ((row, forced) :: calls) history = some (history', s')) :
    ∃ result s₁, s.processAs row forced = (.ok (some result), s₁) ∧
      s₁.tell calls (⟨row, forced, s.clock.next, result⟩ :: history) = some (history', s') := by
  simp only [tell] at h
  split at h
  · rename_i result s₁ hrun
    exact ⟨result, s₁, hrun, h⟩
  · cases h

omit [Transactional σ] in
theorem tell_suffix (h : s.tell calls history = some (history', s')) : history <:+ history' := by
  induction calls generalizing s history with
  | nil =>
    cases h
    exact List.suffix_refl _
  | cons call calls ih =>
    obtain ⟨result, s₁, -, hrest⟩ := tell_cons h
    exact (List.suffix_cons _ _).trans (ih hrest)

omit [Transactional σ] in
/-- The results are those of the calls, the last one first. -/
theorem tell_calls (h : s.tell calls history = some (history', s')) :
    history'.map (fun e => (e.row, e.forced)) =
      calls.reverse ++ history.map fun e => (e.row, e.forced) := by
  induction calls generalizing s history with
  | nil =>
    cases h
    rfl
  | cons call calls ih =>
    obtain ⟨result, s₁, -, hrest⟩ := tell_cons h
    rw [ih hrest, List.reverse_cons, List.append_assoc]
    rfl

omit [Transactional σ] in
/-- **Calls that tell keep what each of them keeps.** -/
theorem tell_induction {P : List Entry → Session σ → Prop}
    (hstep : ∀ {history s e s'}, P history s → s.Tells l t e s' → P (e :: history) s')
    (h : P history s) (htold : s.tell calls history = some (history', s'))
    (hrows : ∀ call ∈ calls, l.Admissible t call.1) (hyears : ∀ e ∈ history', e.tick.InYears) :
    P history' s' := by
  induction calls generalizing s history with
  | nil =>
    cases htold
    exact h
  | cons call calls ih =>
    obtain ⟨result, s₁, hrun, hrest⟩ := tell_cons htold
    obtain ⟨hrow, hrows⟩ := List.forall_mem_cons.mp hrows
    have hmem := (tell_suffix hrest).subset List.mem_cons_self
    exact ih (hstep h ⟨hrow, rfl, hyears _ hmem, hrun⟩) hrest hrows

end Session

end RowHistory
