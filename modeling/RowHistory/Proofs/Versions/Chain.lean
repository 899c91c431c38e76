import RowHistory.Proofs.Versions.Stored
import Mathlib.Tactic.Tauto

/-!
# Chains of versions

The versions of an identifier follow each other: they are numbered from one, each starts after the
one before, and each but the last has ended. This file fixes

* chains (`Chain`) and what may be done to them: the last version is changed (`Chain.amend`), one is
  added behind versions that ended (`Chain.push`), and some end (`Chain.sweep`);
* tables whose identifiers all have a chain (`Layout.Chained`);
* that every step of the machine keeps the chains (`Step.chained`), and that a purge does
  (`Chained.sweep`).
-/

namespace RowHistory

open Sql

/-! ## 1. Chains -/

/-- An instant that a tick has reached. -/
def Past (ticks : List Instant) (t : Instant) : Prop :=
  ∃ k ∈ ticks, t ≤ k

/-- A version comes before another: it started before it, and it has ended. Under a strict order it
ended when the other one started, at the latest. -/
structure Version.Precedes (strict : Prop) (ticks : List Instant) (a b : Version) : Prop where
  starts : a.validFrom < b.validFrom
  ends : ∃ e, a.validTo = some e ∧ Past ticks e ∧ (strict → e ≤ b.validFrom)

/-- The versions of an identifier, in the order of their numbers. -/
structure Chain (strict : Prop) (ticks : List Instant) (vs : List Version) : Prop where
  numbers : vs.map Version.number = (List.range vs.length).map fun i : Nat => (i : Int) + 1
  past : ∀ v ∈ vs, Past ticks v.validFrom
  ordered : vs.Pairwise (Version.Precedes strict ticks)

variable {strict : Prop} {ticks ticks' : List Instant} {now : Instant} {v v' : Version}
  {vs vs' : List Version}

theorem Past.mono {t : Instant} (hticks : ticks ⊆ ticks') (h : Past ticks t) : Past ticks' t :=
  h.imp fun _ hk => ⟨hticks hk.1, hk.2⟩

theorem Past.lt {t : Instant} (hticks : ∀ k ∈ ticks, k < now) (h : Past ticks t) : t < now := by
  obtain ⟨k, hk, hle⟩ := h
  exact lt_of_le_of_lt hle (hticks k hk)

theorem past_head (now : Instant) (ticks : List Instant) : Past (now :: ticks) now :=
  ⟨now, List.mem_cons_self, le_refl now⟩

theorem Version.Precedes.mono (hticks : ticks ⊆ ticks') (h : v.Precedes strict ticks v') :
    v.Precedes strict ticks' v' := by
  obtain ⟨e, he, hpast, hle⟩ := h.ends
  exact ⟨h.starts, e, he, hpast.mono hticks, hle⟩

namespace Chain

theorem nil (strict : Prop) (ticks : List Instant) : Chain strict ticks [] :=
  ⟨rfl, List.forall_mem_nil _, .nil⟩

theorem mono (hticks : ticks ⊆ ticks') (h : Chain strict ticks vs) : Chain strict ticks' vs :=
  ⟨h.numbers, fun v hv => (h.past v hv).mono hticks, h.ordered.imp fun hp => hp.mono hticks⟩

theorem numbers_concat : (vs ++ [v]).map Version.number =
    (List.range (vs ++ [v]).length).map (fun i : Nat => (i : Int) + 1) ↔
      vs.map Version.number = (List.range vs.length).map (fun i : Nat => (i : Int) + 1) ∧
        v.number = vs.length + 1 := by
  rw [List.length_append, List.length_singleton, List.range_succ, List.map_append, List.map_append]
  constructor
  · intro h
    obtain ⟨hvs, hv⟩ := List.append_inj h (by simp)
    exact ⟨hvs, List.head_eq_of_cons_eq hv⟩
  · rintro ⟨hvs, hv⟩
    rw [hvs, List.map_singleton, hv]
    rfl

/-- The last version has the greatest number. -/
theorem number_last (h : Chain strict ticks (vs ++ [v])) : v.number = vs.length + 1 :=
  (numbers_concat.mp h.numbers).2

theorem number_bounds (h : Chain strict ticks vs) (hv : v ∈ vs) :
    0 < v.number ∧ v.number ≤ vs.length := by
  have hmem : v.number ∈ vs.map Version.number := List.mem_map_of_mem hv
  rw [h.numbers] at hmem
  obtain ⟨i, hi, heq⟩ := List.mem_map.mp hmem
  have hlt := List.mem_range.mp hi
  omega

/-- The greatest of the numbers is their count. -/
theorem number_greatest (h : Chain strict ticks vs) (hv : v ∈ vs)
    (hmax : ∀ u ∈ vs, u.number ≤ v.number) : v.number = vs.length := by
  have hle := (h.number_bounds hv).2
  obtain ⟨us, u, rfl⟩ : ∃ us u, vs = us ++ [u] :=
    ⟨vs.dropLast, vs.getLast (List.ne_nil_of_mem hv), (List.dropLast_concat_getLast _).symm⟩
  have hlast := h.number_last
  have hge := hmax u (by simp)
  rw [List.length_append, List.length_singleton] at hle ⊢
  omega

/-- **Only the last version can be active** after all ticks. -/
theorem active_last {us : List Version} (h : Chain strict ticks (us ++ v :: vs))
    (hticks : ∀ k ∈ ticks, k < now) (hactive : v.ActiveAt now) : vs = [] := by
  cases vs with
  | nil => rfl
  | cons b vs =>
    exfalso
    have hpair := (List.pairwise_append.mp h.ordered).2.1
    obtain ⟨e, he, hpast, -⟩ := ((List.pairwise_cons.mp hpair).1 b List.mem_cons_self).ends
    exact absurd (hactive.2 e he) (not_le.mpr (hpast.lt hticks))

/-- The last version is changed, and starts no earlier. -/
theorem amend (h : Chain strict ticks (vs ++ [v])) (hticks : ticks ⊆ ticks')
    (hnumber : v'.number = v.number) (hstart : v.validFrom ≤ v'.validFrom)
    (hpast : Past ticks' v'.validFrom) : Chain strict ticks' (vs ++ [v']) := by
  have h' := h.mono hticks
  obtain ⟨hvs, -, hlast⟩ := List.pairwise_append.mp h'.ordered
  refine ⟨?_, ?_, List.pairwise_append.mpr ⟨hvs, List.pairwise_singleton _ _, ?_⟩⟩
  · obtain ⟨hnumbers, hv⟩ := numbers_concat.mp h.numbers
    exact numbers_concat.mpr ⟨hnumbers, hnumber.trans hv⟩
  · intro u hu
    obtain hu | hu := List.mem_append.mp hu
    · exact h'.past u (List.mem_append_left _ hu)
    · rw [List.mem_singleton.mp hu]
      exact hpast
  · intro a ha b hb
    rw [List.mem_singleton.mp hb]
    obtain ⟨hstarts, e, he, hpast, hle⟩ := hlast a ha v List.mem_cons_self
    exact ⟨lt_of_lt_of_le hstarts hstart, e, he, hpast, fun hs => le_trans (hle hs) hstart⟩

/-- A version is added behind versions that have started and ended. -/
theorem push (h : Chain strict ticks vs) (hnumber : v.number = vs.length + 1)
    (hpast : Past ticks v.validFrom)
    (hbefore : ∀ u ∈ vs, u.validFrom < v.validFrom ∧ ∃ e, u.validTo = some e ∧ e ≤ v.validFrom) :
    Chain strict ticks (vs ++ [v]) := by
  refine ⟨numbers_concat.mpr ⟨h.numbers, hnumber⟩, ?_, ?_⟩
  · intro u hu
    obtain hu | hu := List.mem_append.mp hu
    · exact h.past u hu
    · rw [List.mem_singleton.mp hu]
      exact hpast
  · refine List.pairwise_append.mpr ⟨h.ordered, List.pairwise_singleton _ _, fun a ha b hb => ?_⟩
    rw [List.mem_singleton.mp hb]
    obtain ⟨hlt, e, he, hle⟩ := hbefore a ha
    obtain ⟨k, hk, hvk⟩ := hpast
    exact ⟨hlt, e, he, ⟨k, hk, le_trans hle hvk⟩, fun _ => hle⟩

/-- Some versions end at a cutoff. Under a strict order these are versions that have not ended
before now. -/
theorem sweep {α : Type} {xs : List α} {f g : α → Version} {cutoff : Instant}
    (h : Chain strict ticks (xs.map f)) (hticks : ∀ k ∈ ticks, k < now) (hcutoff : cutoff ≤ now)
    (hg : ∀ x ∈ xs, g x = f x ∨ (g x = { f x with validTo := some cutoff } ∧
      (strict → ∀ e ∈ (f x).validTo, now ≤ e))) : Chain strict (now :: ticks) (xs.map g) := by
  have hmono := h.mono (List.subset_cons_self now ticks)
  have hsame : ∀ x ∈ xs, (g x).number = (f x).number ∧ (g x).validFrom = (f x).validFrom := by
    intro x hx
    obtain heq | ⟨heq, -⟩ := hg x hx <;> rw [heq] <;> exact ⟨rfl, rfl⟩
  refine ⟨?_, ?_, ?_⟩
  · have hnumbers : (xs.map g).map Version.number = (xs.map f).map Version.number := by
      rw [List.map_map, List.map_map]
      exact List.map_congr_left fun x hx => (hsame x hx).1
    rw [hnumbers, h.numbers, List.length_map, List.length_map]
  · intro v hv
    obtain ⟨x, hx, rfl⟩ := List.mem_map.mp hv
    rw [(hsame x hx).2]
    exact hmono.past _ (List.mem_map_of_mem hx)
  · rw [List.pairwise_map]
    refine (List.pairwise_map.mp hmono.ordered).imp_of_mem ?_
    intro x y hx hy hpair
    obtain ⟨e, he, hpast, hle⟩ := hpair.ends
    refine ⟨by rw [(hsame x hx).2, (hsame y hy).2]; exact hpair.starts, ?_⟩
    rw [(hsame y hy).2]
    obtain heq | ⟨heq, hopen⟩ := hg x hx
    · rw [heq]
      exact ⟨e, he, hpast, hle⟩
    · rw [heq]
      refine ⟨cutoff, rfl, ⟨now, List.mem_cons_self, hcutoff⟩, fun hstrict => ?_⟩
      -- A version before another has ended, so it is not swept.
      have hlt : (f y).validFrom < now := (h.past _ (List.mem_map_of_mem hy)).lt hticks
      exact absurd (hopen hstrict e he) (not_le.mpr (lt_of_le_of_lt (hle hstrict) hlt))

end Chain

/-! ## 2. What rows show -/

theorem endCell_inj {a b : Option Instant} (ha : ∀ e ∈ a, e.IsStorable) (hb : ∀ e ∈ b, e.IsStorable)
    (h : endCell a = endCell b) : a = b := by
  cases a with
  | none =>
    cases b with
    | none => rfl
    | some e => cases h
  | some d =>
    cases b with
    | none => cases h
    | some e => rw [Instant.storageText_inj (ha d rfl) (hb e rfl) (Cell.text.inj h)]

namespace Layout

variable {l : Layout} {t : Table} {r : List Cell} {row : Row} {horizon : Option Instant}
  {rows : List (List Cell)}

theorem Shows.unique (h : l.Shows t r v) (h' : l.Shows t r v') : v = v' := by
  obtain ⟨number, validFrom, validTo⟩ := v
  obtain ⟨number', validFrom', validTo'⟩ := v'
  have hnumber : number = number' := Cell.integer.inj (h.number.symm.trans h'.number)
  have hfrom : validFrom = validFrom' := Instant.storageText_inj h.storable.1 h'.storable.1
    (Cell.text.inj (h.validFrom.symm.trans h'.validFrom))
  have hto : validTo = validTo' :=
    endCell_inj h.storable.2 h'.storable.2 (h.validTo.symm.trans h'.validTo)
  rw [hnumber, hfrom, hto]

instance : Nonempty Version :=
  ⟨⟨0, Instant.ofSeconds 0, none⟩⟩

/-- The version that a row shows. -/
noncomputable def shown (l : Layout) (t : Table) (r : List Cell) : Version :=
  Classical.epsilon (l.Shows t r)

theorem shows_shown (h : ∃ v, l.Shows t r v) : l.Shows t r (l.shown t r) :=
  Classical.epsilon_spec h

theorem Shows.eq_shown (h : l.Shows t r v) : l.shown t r = v :=
  (shows_shown ⟨v, h⟩).unique h

/-! ## 3. Tables of chains -/

/-- Rows in which every identifier has a chain of versions. -/
structure Chained (l : Layout) (t : Table) (strict : Prop) (ticks : List Instant)
    (rows : List (List Cell)) : Prop where
  stored : ∀ r ∈ rows, l.Stored t r
  shows : ∀ r ∈ rows, ∃ v, l.Shows t r v
  chains : ∀ w, Chain strict ticks ((rows.filter (l.identifies t w)).map (l.shown t))

theorem chained_nil (l : Layout) (t : Table) (strict : Prop) (ticks : List Instant) :
    l.Chained t strict ticks [] :=
  ⟨List.forall_mem_nil _, List.forall_mem_nil _, fun _ => .nil strict ticks⟩

theorem Chained.mono (hticks : ticks ⊆ ticks') (h : l.Chained t strict ticks rows) :
    l.Chained t strict ticks' rows :=
  ⟨h.stored, h.shows, fun w => (h.chains w).mono hticks⟩

/-- A version that is stored has started. -/
theorem Chained.past (h : l.Chained t strict ticks rows) (hr : r ∈ rows)
    (hid : l.identifies t row r = true) (hshow : l.Shows t r v) : Past ticks v.validFrom := by
  rw [← hshow.eq_shown]
  exact (h.chains row).past _ (List.mem_map_of_mem (List.mem_filter.mpr ⟨hr, hid⟩))

/-- A version that is not active after all ticks has ended. -/
theorem Chained.inactive (h : l.Chained t strict ticks rows) (hticks : ∀ k ∈ ticks, k < now)
    (hr : r ∈ rows) (hid : l.identifies t row r = true) (hshow : l.Shows t r v)
    (hnot : ¬ v.ActiveAt now) : v.validFrom < now ∧ ∃ e, v.validTo = some e ∧ e ≤ now := by
  have hlt := (h.past hr hid hshow).lt hticks
  refine ⟨hlt, ?_⟩
  cases hto : v.validTo with
  | none => exact absurd ⟨le_of_lt hlt, fun e he => by rw [hto] at he; cases he⟩ hnot
  | some e =>
    refine ⟨e, rfl, le_of_not_ge fun hge => hnot ⟨le_of_lt hlt, fun d hd => ?_⟩⟩
    rw [hto] at hd
    exact Option.some.inj hd ▸ hge

/-- Rows of an identifier with the same number are one. -/
theorem Chained.eq_of_number {r' : List Cell} (h : l.Chained t strict ticks rows) (hr : r ∈ rows)
    (hr' : r' ∈ rows) (hid : l.identifies t row r = true) (hid' : l.identifies t row r' = true)
    (hshow : l.Shows t r v) (hshow' : l.Shows t r' v') (hnumber : v.number = v'.number) : r = r' := by
  have hnumbers := (h.chains row).numbers
  rw [List.map_map] at hnumbers
  have hnodup : (((rows.filter (l.identifies t row)).map (Version.number ∘ l.shown t))).Nodup := by
    rw [hnumbers]
    exact List.nodup_range.map fun i j (hij : (i : Int) + 1 = j + 1) => by omega
  refine List.inj_on_of_nodup_map hnodup (List.mem_filter.mpr ⟨hr, hid⟩)
    (List.mem_filter.mpr ⟨hr', hid'⟩) ?_
  show (l.shown t r).number = (l.shown t r').number
  rw [hshow.eq_shown, hshow'.eq_shown, hnumber]

variable {before after : List (List Cell)}

/-- The number of the active version is the count of versions. -/
theorem Chained.number_active (h : l.Chained t strict ticks (before ++ r :: after))
    (hticks : ∀ k ∈ ticks, k < now) (hid : l.identifies t row r = true) (hshow : l.Shows t r v)
    (hactive : v.ActiveAt now) :
    v.number = ((before ++ r :: after).filter (l.identifies t row)).length := by
  have hchain := h.chains row
  rw [List.filter_append, List.filter_cons_of_pos hid, List.map_append, List.map_cons,
    hshow.eq_shown] at hchain
  have hlast := hchain.active_last hticks hactive
  rw [hlast] at hchain
  have hnumber := hchain.number_last
  rw [List.filter_append, List.filter_cons_of_pos hid, List.map_eq_nil_iff.mp hlast, hnumber]
  simp

variable (hs : l.Suits t)

include hs

/-- **The active version is changed in place**, and its identifier keeps its chain. -/
theorem Chained.amend (h : l.Chained t strict ticks (before ++ r :: after))
    (hticks : ∀ k ∈ ticks, k < now) (hshow : l.Shows t r v) (hactive : v.ActiveAt now)
    {entries : List (String × Cell)}
    (hentries : ∀ e ∈ entries, e.1 ∈ l.names.validTo :: l.updateColumns)
    (hshow' : l.Shows t (t.put entries r) v') (hnumber : v'.number = v.number)
    (hstart : v.validFrom ≤ v'.validFrom) (hnow : v'.validFrom ≤ now) :
    l.Chained t strict (now :: ticks) (before ++ t.put entries r :: after) := by
  have hmem : ∀ {r' : List Cell}, r' ∈ before ++ t.put entries r :: after →
      r' = t.put entries r ∨ r' ∈ before ++ r :: after := by
    intro r' hr'
    simp only [List.mem_append, List.mem_cons] at hr' ⊢
    tauto
  have hr : r ∈ before ++ r :: after := List.mem_append_right _ List.mem_cons_self
  refine ⟨fun r' hr' => ?_, fun r' hr' => ?_, fun w => ?_⟩
  · obtain rfl | hr' := hmem hr'
    · exact (h.stored r hr).put hs.names hentries
    · exact h.stored r' hr'
  · obtain rfl | hr' := hmem hr'
    · exact ⟨v', hshow'⟩
    · exact h.shows r' hr'
  · have hchain := h.chains w
    have hsame := identifies_put (w := w) hs.names (h.stored r hr).row hentries
    rw [List.filter_append, List.filter_cons] at hchain ⊢
    rw [hsame]
    by_cases hid : l.identifies t w r = true
    · rw [if_pos hid] at hchain ⊢
      rw [List.map_append, List.map_cons, hshow.eq_shown] at hchain
      rw [List.map_append, List.map_cons, hshow'.eq_shown]
      have hlast := hchain.active_last hticks hactive
      rw [hlast] at hchain ⊢
      exact hchain.amend (List.subset_cons_self now ticks) hnumber hstart
        ⟨now, List.mem_cons_self, hnow⟩
    · rw [if_neg hid] at hchain ⊢
      exact hchain.mono (List.subset_cons_self now ticks)

/-- **A version is added** behind versions that have ended. -/
theorem Chained.append (h : l.Chained t strict ticks rows) (hpast : Past ticks now)
    (hcolumns : ∀ c ∈ l.insertColumns, t.Has c) (hfind : l.Findable t row) (hnow : now.IsStorable)
    (hhorizon : ∀ e ∈ horizon, e.IsStorable)
    (hended : ∀ r ∈ rows, l.identifies t row r = true →
      ∃ v, l.Shows t r v ∧ v.validFrom < now ∧ ∃ e, v.validTo = some e ∧ e ≤ now) {number : Int}
    (hnumber : number = (rows.filter (l.identifies t row)).length + 1) :
    l.Chained t strict ticks (rows ++ [l.freshRow t row number now horizon]) := by
  have hstored : l.Stored t (l.freshRow t row number now horizon) := stored_fresh hs hcolumns
  have hshow : l.Shows t (l.freshRow t row number now horizon) ⟨number, now, horizon⟩ :=
    shows_fresh hs hcolumns hnow hhorizon
  refine ⟨fun r hr => ?_, fun r hr => ?_, fun w => ?_⟩
  · obtain hr | hr := List.mem_append.mp hr
    · exact h.stored r hr
    · rw [List.mem_singleton.mp hr]
      exact hstored
  · obtain hr | hr := List.mem_append.mp hr
    · exact h.shows r hr
    · rw [List.mem_singleton.mp hr]
      exact ⟨_, hshow⟩
  · rw [List.filter_append]
    by_cases hw : l.identifies t w (l.freshRow t row number now horizon) = true
    · have hsame : rows.filter (l.identifies t w) = rows.filter (l.identifies t row) :=
        List.filter_congr fun r hr => identifies_congr hstored (h.stored r hr) hw
          (identifies_fresh hs hcolumns hfind)
      rw [List.filter_cons_of_pos hw, List.filter_nil, List.map_append, hsame, List.map_singleton,
        hshow.eq_shown]
      refine (h.chains row).push (by rw [List.length_map]; exact hnumber) hpast fun u hu => ?_
      obtain ⟨r, hr, rfl⟩ := List.mem_map.mp hu
      obtain ⟨hr, hid⟩ := List.mem_filter.mp hr
      obtain ⟨v, hv, hend⟩ := hended r hr hid
      rw [hv.eq_shown]
      exact hend
    · rw [List.filter_cons_of_neg hw, List.filter_nil, List.append_nil]
      exact h.chains w

/-! ## 4. Steps and purges -/

omit hs in
theorem mem_middle (before after : List (List Cell)) (r : List Cell) : r ∈ before ++ r :: after :=
  List.mem_append_right _ List.mem_cons_self

omit hs in
theorem mem_other {r' : List Cell} (h : r' ∈ before ++ after) : r' ∈ before ++ r :: after :=
  ((List.sublist_cons_self r after).append_left before).subset h

/-- The active version ends. -/
theorem Chained.end_active (h : l.Chained t strict ticks (before ++ r :: after))
    (hticks : ∀ k ∈ ticks, k < now) (hnow : now.IsStorable)
    (hone : l.OneActive t row now before r after v) :
    l.Chained t strict (now :: ticks) (before ++ l.endedRow t now r :: after) :=
  h.amend hs hticks hone.shows hone.active (List.forall_mem_singleton.mpr List.mem_cons_self)
    (hone.shows.ended hs (h.stored r (mem_middle _ _ r)) hnow) rfl (le_refl _) hone.active.1

/-- The active version ends, and the next one is added. -/
theorem Chained.replace_active (h : l.Chained t strict ticks (before ++ r :: after))
    (hticks : ∀ k ∈ ticks, k < now) (hnow : now.IsStorable) (hhorizon : ∀ e ∈ horizon, e.IsStorable)
    (hfind : l.Findable t row) (hone : l.OneActive t row now before r after v) :
    l.Chained t strict (now :: ticks)
      (before ++ l.endedRow t now r :: after ++ [l.freshRow t row (v.number + 1) now horizon]) := by
  have hr := h.stored r (mem_middle _ _ r)
  refine (h.end_active hs hticks hnow hone).append hs (past_head now ticks) hr.columns hfind hnow
    hhorizon (fun r' hr' hid => ?_) ?_
  · have hcases : r' = l.endedRow t now r ∨ r' ∈ before ++ after := by
      simp only [List.mem_append, List.mem_cons] at hr' ⊢
      tauto
    obtain rfl | hr' := hcases
    · have hpast := h.past (mem_middle _ _ r) hone.identified hone.shows
      exact ⟨_, hone.shows.ended hs hr hnow, hpast.lt hticks, now, rfl, le_refl now⟩
    · obtain ⟨v', hv', hnot⟩ := hone.only r' hr' hid
      exact ⟨v', hv', h.inactive hticks (mem_other hr') hid hv' hnot⟩
  · -- A row that ended still belongs to the identifier, so the count is as before.
    have hsame : l.identifies t row (l.endedRow t now r) = l.identifies t row r :=
      identifies_put hs.names hr.row (List.forall_mem_singleton.mpr List.mem_cons_self)
    rw [h.number_active hticks hone.identified hone.shows hone.active]
    rw [List.filter_append, List.filter_append, List.filter_cons_of_pos hone.identified,
      List.filter_cons_of_pos (hsame.trans hone.identified)]
    simp only [List.length_append, List.length_cons]

omit hs in
/-- The latest of several versions has their count as its number. -/
theorem Chained.number_latest (h : l.Chained t strict ticks rows) (hr : r ∈ rows)
    (hid : l.identifies t row r = true) (hshow : l.Shows t r v)
    (hmax : ∀ r' ∈ rows, l.identifies t row r' = true →
      ∃ v', l.Shows t r' v' ∧ v'.number ≤ v.number) :
    v.number = (rows.filter (l.identifies t row)).length := by
  have hmem : v ∈ (rows.filter (l.identifies t row)).map (l.shown t) :=
    hshow.eq_shown ▸ List.mem_map_of_mem (List.mem_filter.mpr ⟨hr, hid⟩)
  have hnumber := (h.chains row).number_greatest hmem fun u hu => by
    obtain ⟨r', hr', rfl⟩ := List.mem_map.mp hu
    obtain ⟨hr', hid'⟩ := List.mem_filter.mp hr'
    obtain ⟨v', hv', hle⟩ := hmax r' hr' hid'
    rw [hv'.eq_shown]
    exact hle
  rw [hnumber, List.length_map]

/-- **Every step keeps the chains.** -/
theorem Step.chained {rows' : List (List Cell)} {status : RowStatus} {n : Int}
    (hstep : Step l t row now horizon rows status n rows') (h : l.Chained t strict ticks rows)
    (hticks : ∀ k ∈ ticks, k < now) (hnow : now.IsStorable) (hhorizon : ∀ e ∈ horizon, e.IsStorable)
    (hfind : l.Findable t row) (hcolumns : status = .new → ∀ c ∈ l.insertColumns, t.Has c) :
    l.Chained t strict (now :: ticks) rows' := by
  have hmono := h.mono (List.subset_cons_self now ticks)
  cases hstep with
  | new hnone =>
    have hempty : rows.filter (l.identifies t row) = [] :=
      List.filter_eq_nil_iff.mpr fun r hr => by rw [hnone r hr]; exact Bool.false_ne_true
    refine hmono.append hs (past_head now ticks) (hcolumns rfl) hfind hnow hhorizon
      (fun r hr hid => ?_) (by rw [hempty]; rfl)
    rw [hnone r hr] at hid
    cases hid
  | outdated hr hid hshow hnone hmax =>
    refine hmono.append hs (past_head now ticks) (h.stored _ hr).columns hfind hnow hhorizon
      (fun r' hr' hid' => ?_) (by rw [h.number_latest hr hid hshow hmax])
    obtain ⟨v', hv', hnot⟩ := hnone r' hr' hid'
    exact ⟨v', hv', h.inactive hticks hr' hid' hv' hnot⟩
  | changed hone => exact h.replace_active hs hticks hnow hhorizon hfind hone
  | update hone =>
    exact h.amend hs hticks hone.shows hone.active (l.renewedCells_changes row now)
      (hone.shows.renewed hs (h.stored _ (mem_middle _ _ _)) hnow) rfl hone.active.1 (le_refl now)
  | identical hone =>
    exact h.amend hs hticks hone.shows hone.active (l.seenCells_changes now)
      (hone.shows.seen hs (h.stored _ (mem_middle _ _ _))) rfl (le_refl _) hone.active.1
  | purged hone => exact h.end_active hs hticks hnow hone
  | skipped _ => exact hmono

/-- **A purge keeps the chains**, for it ends rows at a cutoff that has passed. A strict order asks
that it leaves versions alone that have ended. -/
theorem Chained.sweep (h : l.Chained t strict ticks rows) (hticks : ∀ k ∈ ticks, k < now)
    {cutoff : Instant} (hcutoff : cutoff.IsStorable) (hle : cutoff ≤ now) {picked : List Cell → Bool}
    (hpicked : strict → ∀ r ∈ rows, picked r = true → ∀ v, l.Shows t r v → ∀ e ∈ v.validTo, now ≤ e) :
    l.Chained t strict (now :: ticks) (rows.map (l.sweptRow t picked cutoff)) := by
  have hchanges : ∀ e ∈ [(l.names.validTo, Cell.text cutoff.storageText)],
      e.1 ∈ l.names.validTo :: l.updateColumns := List.forall_mem_singleton.mpr List.mem_cons_self
  have hshown : ∀ r ∈ rows, ∀ v, l.Shows t r v → l.Shows t (l.sweptRow t picked cutoff r)
      (if picked r then { v with validTo := some cutoff } else v) := by
    intro r hr v hv
    unfold sweptRow
    split
    · exact hv.ended hs (h.stored r hr) hcutoff
    · exact hv
  refine ⟨fun r' hr' => ?_, fun r' hr' => ?_, fun w => ?_⟩
  · obtain ⟨r, hr, rfl⟩ := List.mem_map.mp hr'
    unfold sweptRow
    split
    · exact (h.stored r hr).put hs.names hchanges
    · exact h.stored r hr
  · obtain ⟨r, hr, rfl⟩ := List.mem_map.mp hr'
    obtain ⟨v, hv⟩ := h.shows r hr
    exact ⟨_, hshown r hr v hv⟩
  · have hsame : rows.filter (l.identifies t w ∘ l.sweptRow t picked cutoff) =
        rows.filter (l.identifies t w) := by
      refine List.filter_congr fun r hr => ?_
      unfold Function.comp sweptRow
      split
      · exact identifies_put hs.names (h.stored r hr).row hchanges
      · rfl
    rw [List.filter_map, hsame, List.map_map]
    refine (h.chains w).sweep hticks hle fun r hr => ?_
    have hr := (List.mem_filter.mp hr).1
    obtain ⟨v, hv⟩ := h.shows r hr
    have hswept : (l.shown t ∘ l.sweptRow t picked cutoff) r =
        if picked r then { v with validTo := some cutoff } else v := (hshown r hr v hv).eq_shown
    rw [hswept, hv.eq_shown]
    by_cases hp : picked r = true
    · rw [if_pos hp]
      exact .inr ⟨rfl, fun hstrict => hpicked hstrict r hr hp v hv⟩
    · rw [if_neg hp]
      exact .inl rfl

end Layout

end RowHistory
