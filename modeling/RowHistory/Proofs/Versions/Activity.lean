import RowHistory.Proofs.Versions.Lookups
import RowHistory.Proofs.Versions.Results

/-!
# Versions that are active at an instant

What a lookup finds at an instant, and what a step of the machine changes about it. This file fixes

* the numbers of the versions of an identifier that are active at an instant (`Layout.HasActive`), of
  which a lookup finds the greatest (`Finds.greatest`);
* that a step changes no lookup before its own tick (`hasActive_before`), and none of another
  identifier (`hasActive_other`), nor one that its result does not tell of (`hasActive_untold`);
* what it makes of its own identifier from its tick on (`Step.greatest`): the version of the result is
  active, unless the result ended it.
-/

namespace RowHistory

open Sql

/-! ## 1. What a lookup finds -/

/-- The greatest number with a property, or nothing if none has it. -/
def Greatest (p : Int → Prop) : Option Int → Prop
  | none => ∀ k, ¬ p k
  | some k => p k ∧ ∀ j, p j → j ≤ k

theorem Greatest.unique {p : Int → Prop} {a b : Option Int} (ha : Greatest p a)
    (hb : Greatest p b) : a = b := by
  cases a with
  | none =>
    cases b with
    | none => rfl
    | some k => exact absurd hb.1 (ha k)
  | some j =>
    cases b with
    | none => exact absurd ha.1 (hb j)
    | some k => rw [le_antisymm (hb.2 j ha.1) (ha.2 k hb.1)]

theorem Greatest.congr {p q : Int → Prop} {a : Option Int} (h : ∀ k, q k ↔ p k)
    (ha : Greatest p a) : Greatest q a := by
  have heq : q = p := funext fun k => propext (h k)
  rwa [heq]

/-- A version that has started and is not active stays so. -/
theorem Version.not_active_later {v : Version} {now later : Instant} (hfrom : v.validFrom ≤ now)
    (hle : now ≤ later) (h : ¬ v.ActiveAt now) : ¬ v.ActiveAt later :=
  fun hactive => h ⟨hfrom, fun e he => le_trans hle (hactive.2 e he)⟩

/-- A version that turns was active before just when it is so afterwards. -/
theorem Version.active_turn_before {v : Version} {status : RowStatus} {now earlier : Instant}
    (hstatus : status ≠ .update) (hactive : v.ActiveAt now) (hlt : earlier < now) :
    (v.turn status now).ActiveAt earlier ↔ v.ActiveAt earlier := by
  have hended : Version.ActiveAt { v with validTo := some now } earlier ↔ v.ActiveAt earlier := by
    refine and_congr_right fun _ => ⟨fun _ e he => ?_, fun _ e he => ?_⟩
    · exact le_of_lt (lt_of_lt_of_le hlt (hactive.2 e he))
    · exact Option.some.inj he ▸ le_of_lt hlt
  cases status with
  | changed | purged => exact hended
  | update => exact absurd rfl hstatus
  | new | outdated | identical | skipped => exact Iff.rfl

namespace Layout

variable {l : Layout} {t : Table} {row w : Row} {now time limit : Instant}
  {horizon : Option Instant} {status : RowStatus} {n k : Int}
  {rows rows' before after : List (List Cell)} {r r' : List Cell} {v v' : Version} {strict : Prop}
  {ticks : List Instant}

/-- A version of an identifier with a number is active at an instant. -/
def HasActive (l : Layout) (t : Table) (rows : List (List Cell)) (w : Row) (now : Instant)
    (k : Int) : Prop :=
  ∃ r ∈ rows, l.identifies t w r = true ∧ ∃ v, l.Shows t r v ∧ v.ActiveAt now ∧ v.number = k

/-- A lookup finds the greatest of the active versions. -/
theorem Finds.greatest {found : Option Record} (h : l.Finds t rows w now found) :
    Greatest (l.HasActive t rows w now) (found.map Record.version) := by
  cases h with
  | none hnone =>
    rintro k ⟨r, hr, hid, v, hv, hactive, -⟩
    exact hnone r hr hid v hv hactive
  | some hr hid hv hactive hmax =>
    refine ⟨⟨_, hr, hid, _, hv, hactive, rfl⟩, ?_⟩
    rintro j ⟨r', hr', hid', v', hv', hactive', rfl⟩
    exact hmax r' hr' hid' v' hv' hactive'

/-! ## 2. What a step changes -/

section Steps

variable (hstep : Step l t row now horizon rows status n rows') (hs : l.Suits t)
  (h : l.Chained t strict ticks rows) (hnow : now.IsStorable)
  (hhorizon : ∀ e ∈ horizon, e.IsStorable)
  (hcolumns : status = .new → ∀ c ∈ l.insertColumns, t.Has c)

include hstep hs h hnow hhorizon hcolumns

/-- **A step changes no lookup before its own tick.** -/
theorem hasActive_before (hstatus : status ≠ .update) (hlt : time < now) :
    l.HasActive t rows' w time k ↔ l.HasActive t rows w time k := by
  have hturned : ∀ {r r'}, l.Turned t row now status r r' → ∀ {v}, l.Shows t r v →
      ∃ v', l.Shows t r' v' ∧ v'.number = v.number ∧ (v'.ActiveAt time ↔ v.ActiveAt time) := by
    intro r r' hr v hv
    refine ⟨_, hr.shows v hv, ?_⟩
    split
    · rename_i hactive
      exact ⟨v.number_turn status now, Version.active_turn_before hstatus hactive.2 hlt⟩
    · exact ⟨rfl, Iff.rfl⟩
  constructor
  · rintro ⟨r', hr', hid, v', hv', hactive, rfl⟩
    obtain ⟨r, hr, hrr'⟩ | ⟨hadds, rfl⟩ := hstep.origin hs h.stored hnow hr'
    · obtain ⟨v, hv⟩ := h.shows r hr
      obtain ⟨u, hu, hnumber, hiff⟩ := hturned hrr' hv
      rw [hu.unique hv'] at hnumber hiff
      exact ⟨r, hr, hrr'.identifies w ▸ hid, v, hv, hiff.mp hactive, hnumber.symm⟩
    · have hfresh : l.Shows t (l.freshRow t row n now horizon) ⟨n, now, horizon⟩ :=
        shows_fresh hs (hstep.columns h.stored hcolumns hadds) hnow hhorizon
      rw [hv'.unique hfresh] at hactive
      exact absurd hactive.1 (not_le.mpr hlt)
  · rintro ⟨r, hr, hid, v, hv, hactive, rfl⟩
    obtain ⟨r', hr', hrr'⟩ := hstep.image hs h.stored hnow hr
    obtain ⟨v', hv', hnumber, hiff⟩ := hturned hrr' hv
    exact ⟨r', hr', (hrr'.identifies w).trans hid, v', hv', hiff.mpr hactive, hnumber⟩

omit hhorizon in
/-- **A step changes no lookup of another identifier.** -/
theorem hasActive_other (hfind : l.Findable t row) (hother : l.sameIdentifier t w row = false) :
    l.HasActive t rows' w time k ↔ l.HasActive t rows w time k := by
  have hsame : ∀ {r r'}, r ∈ rows → l.Turned t row now status r r' → l.identifies t w r = true →
      ∀ {v}, l.Shows t r v → l.Shows t r' v := by
    intro r r' hr hrr' hid v hv
    have hnot : ¬ (l.identifies t row r = true ∧ v.ActiveAt now) := by
      rintro ⟨hrow, -⟩
      rw [identifies_of_found hs (h.stored r hr) hfind hrow, hother] at hid
      cases hid
    have hshow := hrr'.shows v hv
    rwa [if_neg hnot] at hshow
  constructor
  · rintro ⟨r', hr', hid, v', hv', hactive, rfl⟩
    obtain ⟨r, hr, hrr'⟩ | ⟨hadds, rfl⟩ := hstep.origin hs h.stored hnow hr'
    · rw [hrr'.identifies w] at hid
      obtain ⟨v, hv⟩ := h.shows r hr
      have hnew := hsame hr hrr' hid hv
      rw [hv'.unique hnew] at hactive ⊢
      exact ⟨r, hr, hid, v, hv, hactive, rfl⟩
    · have hfresh : l.identifies t w (l.freshRow t row n now horizon) = l.sameIdentifier t w row :=
        identifies_of_cells fun m hm =>
          cell_fresh_id hs (hstep.columns h.stored hcolumns hadds) hm
      rw [hfresh, hother] at hid
      cases hid
  · rintro ⟨r, hr, hid, v, hv, hactive, rfl⟩
    obtain ⟨r', hr', hrr'⟩ := hstep.image hs h.stored hnow hr
    exact ⟨r', hr', (hrr'.identifies w).trans hid, v, hsame hr hrr' hid hv, hactive, rfl⟩

omit hhorizon in
/-- **A step changes no lookup that its result does not tell of.** -/
theorem hasActive_untold (hfind : l.Findable t row)
    (hnot : ¬ (l.sameIdentifier t w row = true ∧ status ≠ .skipped)) :
    l.HasActive t rows' w time k ↔ l.HasActive t rows w time k := by
  by_cases hsame : l.sameIdentifier t w row = true
  · -- Nothing was written for a row that is skipped.
    obtain rfl : status = .skipped := by
      by_contra hne
      exact hnot ⟨hsame, hne⟩
    cases hstep
    exact Iff.rfl
  · rw [Bool.not_eq_true] at hsame
    exact hasActive_other hstep hs h hnow hcolumns hfind hsame

variable (hsame : l.sameIdentifier t w row = true)

include hsame

/-- A version that is added is the latest one from now on. -/
theorem hasActive_added (h' : l.Chained t strict (now :: ticks) rows') (hadds : status.adds = true)
    (hle : now ≤ time) (hopen : ∀ e ∈ horizon, time ≤ e) :
    Greatest (l.HasActive t rows' w time) (some n) := by
  have hcolumns' := hstep.columns h.stored hcolumns hadds
  obtain ⟨kept, hkept, hrows'⟩ := hstep.turned hs h.stored hnow
  rw [if_pos hadds] at hrows'
  subst hrows'
  have hfresh : l.Shows t (l.freshRow t row n now horizon) ⟨n, now, horizon⟩ :=
    shows_fresh hs hcolumns' hnow hhorizon
  have hid : l.identifies t w (l.freshRow t row n now horizon) = true :=
    (identifies_of_cells fun m hm => cell_fresh_id hs hcolumns' hm).trans hsame
  refine ⟨⟨_, List.mem_append_right _ List.mem_cons_self, hid, _, hfresh, ⟨hle, hopen⟩, rfl⟩, ?_⟩
  rintro j ⟨r, hr, hidr, v, hv, -, rfl⟩
  have hchain := h'.chains w
  have hmem : v ∈ ((kept ++ [l.freshRow t row n now horizon]).filter (l.identifies t w)).map
      (l.shown t) := hv.eq_shown ▸ List.mem_map_of_mem (List.mem_filter.mpr ⟨hr, hidr⟩)
  rw [List.filter_append, List.filter_cons_of_pos hid, List.filter_nil, List.map_append,
    List.map_singleton, hfresh.eq_shown] at hchain hmem
  have hlast : n = _ := hchain.number_last
  have hle' := (hchain.number_bounds hmem).2
  rw [List.length_append, List.length_singleton] at hle'
  push_cast at hle'
  omega

end Steps

/-- The active row of an identifier is changed, and stays the one that is active. -/
theorem OneActive.put (hone : l.OneActive t row now before r after v) (hl : l.Distinct)
    (hr : t.IsRow r) {entries : List (String × Cell)}
    (hentries : ∀ e ∈ entries, e.1 ∈ l.names.validTo :: l.updateColumns)
    (hshow : l.Shows t (t.put entries r) v') (hactive : v'.ActiveAt now) :
    l.OneActive t row now before (t.put entries r) after v' :=
  ⟨(identifies_put hl hr hentries).trans hone.identified, hshow, hactive, hone.only⟩

/-- Of an identifier with an active version, no other one is active from now on. -/
theorem OneActive.hasActive (hone : l.OneActive t row now before r after v) (hs : l.Suits t)
    (h : l.Chained t strict ticks (before ++ r :: after)) (hticks : ∀ k ∈ ticks, k ≤ now)
    (hfind : l.Findable t row) (hsame : l.sameIdentifier t w row = true) (hle : now ≤ time) :
    l.HasActive t (before ++ r :: after) w time k ↔ v.ActiveAt time ∧ v.number = k := by
  have hr := mem_middle before after r
  have hw : ∀ r' ∈ before ++ r :: after, l.identifies t w r' = l.identifies t row r' :=
    fun r' hr' => identifies_congr (h.stored r hr) (h.stored r' hr')
      ((identifies_of_found hs (h.stored r hr) hfind hone.identified).trans hsame) hone.identified
  constructor
  · rintro ⟨r', hr', hid, v', hv', hactive, rfl⟩
    rw [hw r' hr'] at hid
    have hcases : r' = r ∨ r' ∈ before ++ after := by
      simp only [List.mem_append, List.mem_cons] at hr' ⊢
      tauto
    obtain rfl | hother := hcases
    · rw [hv'.unique hone.shows] at hactive ⊢
      exact ⟨hactive, rfl⟩
    · obtain ⟨u, hu, hnot⟩ := hone.only r' hother hid
      rw [hu.unique hv'] at hnot
      obtain ⟨j, hj, hfrom⟩ := h.past hr' hid hv'
      exact absurd hactive (Version.not_active_later (le_trans hfrom (hticks j hj)) hle hnot)
  · rintro ⟨hactive, rfl⟩
    exact ⟨r, hr, (hw r hr).trans hone.identified, v, hone.shows, hactive, rfl⟩

/-- If it is active at an instant, it is what is found then. -/
theorem OneActive.greatest (hone : l.OneActive t row now before r after v) (hs : l.Suits t)
    (h : l.Chained t strict ticks (before ++ r :: after)) (hticks : ∀ k ∈ ticks, k ≤ now)
    (hfind : l.Findable t row) (hsame : l.sameIdentifier t w row = true) (hle : now ≤ time)
    (hactive : v.ActiveAt time) :
    Greatest (l.HasActive t (before ++ r :: after) w time) (some v.number) :=
  ⟨(hone.hasActive hs h hticks hfind hsame hle).mpr ⟨hactive, rfl⟩, fun _ hj =>
    le_of_eq ((hone.hasActive hs h hticks hfind hsame hle).mp hj).2.symm⟩

/-- **What a result tells of its identifier is what a lookup finds** from its tick on. -/
theorem Step.greatest (hstep : Step l t row now horizon rows status n rows') (hs : l.Suits t)
    (h : l.Chained t strict ticks rows) (h' : l.Chained t strict (now :: ticks) rows')
    (hticks : ∀ k ∈ ticks, k < now) (hnow : now.IsStorable)
    (hhorizon : ∀ e ∈ horizon, e.IsStorable ∧ limit ≤ e)
    (hcolumns : status = .new → ∀ c ∈ l.insertColumns, t.Has c) (hends : l.Ends t ticks limit rows)
    (hfind : l.Findable t row) (hsame : l.sameIdentifier t w row = true)
    (hstatus : status ≠ .skipped) (hle : now ≤ time) (hlimit : time ≤ limit) :
    Greatest (l.HasActive t rows' w time)
      (if status = .purged ∧ now < time then none else some n) := by
  have hticks' : ∀ k ∈ now :: ticks, k ≤ now :=
    List.forall_mem_cons.mpr ⟨le_refl now, fun k hk => le_of_lt (hticks k hk)⟩
  have hadded : status.adds = true → Greatest (l.HasActive t rows' w time) (some n) := fun hadds =>
    hasActive_added hstep hs h hnow (fun e he => (hhorizon e he).1) hcolumns hsame h' hadds hle
      fun e he => le_trans hlimit (hhorizon e he).2
  cases hstep with
  | new _ => exact hadded rfl
  | outdated _ _ _ _ _ => exact hadded rfl
  | changed _ => exact hadded rfl
  | skipped _ => exact absurd rfl hstatus
  | @update before after r v hone =>
    have hr := h.stored r (mem_middle _ _ r)
    have hopen := hends.open hticks (mem_middle _ _ r) hone.shows hone.active
    have hone' := hone.put hs.names hr.row (l.renewedCells_changes row now)
      (hone.shows.renewed hs hr hnow) ⟨le_refl now, hone.active.2⟩
    rw [if_neg (by rintro ⟨heq, -⟩; cases heq)]
    exact hone'.greatest hs h' hticks' hfind hsame hle
      ⟨hle, fun e he => le_trans hlimit (hopen e he)⟩
  | @identical before after r v hone =>
    have hr := h.stored r (mem_middle _ _ r)
    have hopen := hends.open hticks (mem_middle _ _ r) hone.shows hone.active
    have hone' := hone.put hs.names hr.row (l.seenCells_changes now) (hone.shows.seen hs hr) hone.active
    rw [if_neg (by rintro ⟨heq, -⟩; cases heq)]
    exact hone'.greatest hs h' hticks' hfind hsame hle
      ⟨le_trans hone.active.1 hle, fun e he => le_trans hlimit (hopen e he)⟩
  | @purged before after r v hone =>
    have hr := h.stored r (mem_middle _ _ r)
    have hended : Version.ActiveAt { v with validTo := some now } now :=
      ⟨hone.active.1, fun e he => le_of_eq (Option.some.inj he)⟩
    have hone' := hone.put hs.names hr.row (List.forall_mem_singleton.mpr List.mem_cons_self)
      (hone.shows.ended hs hr hnow) hended
    by_cases hlt : now < time
    · rw [if_pos ⟨rfl, hlt⟩]
      intro j hj
      have hactive := ((hone'.hasActive hs h' hticks' hfind hsame hle).mp hj).1
      exact absurd (hactive.2 now rfl) (not_le.mpr hlt)
    · rw [if_neg (fun hand => hlt hand.2)]
      obtain rfl : now = time := le_antisymm hle (not_lt.mp hlt)
      exact hone'.greatest hs h' hticks' hfind hsame hle hended

end Layout

end RowHistory
