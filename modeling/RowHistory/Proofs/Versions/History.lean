import RowHistory.Proofs.Versions.Runs

/-!
# The versions of an identifier form a history

Whatever sessions do to a table, and whatever requests to the database fail, the versions that are
stored for an identifier are numbered from one without gaps, each starts after the one before, and
each but the last has ended when the next one starts (`versions_form_history`). So no two versions
hold at one instant, and two are active at one instant only where they touch.
-/

namespace RowHistory

open Sql

/-! ## 1. Histories -/

/-- The version holds at an instant: it has started, and it has not ended. -/
def Version.HoldsAt (v : Version) (now : Instant) : Prop :=
  v.validFrom ≤ now ∧ ∀ e ∈ v.validTo, now < e

/-- Versions in the order of their numbers, as they follow each other in time. -/
structure IsHistory (vs : List Version) : Prop where
  /-- The numbers from one on, each once. -/
  numbers : vs.map Version.number = (List.range vs.length).map fun i : Nat => (i : Int) + 1
  starts : vs.Pairwise fun a b => a.validFrom < b.validFrom
  ends : vs.Pairwise fun a b => ∃ e, a.validTo = some e ∧ e ≤ b.validFrom
  /-- At most one version holds at an instant. -/
  single : ∀ now, vs.Pairwise fun a b => ¬ (a.HoldsAt now ∧ b.HoldsAt now)
  /-- Two versions are active at an instant only if one ends then and the next one starts. -/
  touching : ∀ now, vs.Pairwise fun a b => a.ActiveAt now → b.ActiveAt now →
    a.validTo = some now ∧ b.validFrom = now ∧ b.number = a.number + 1

variable {strict : Prop} {ticks : List Instant} {vs : List Version}

theorem Chain.ends (h : Chain strict ticks vs) (hstrict : strict) :
    vs.Pairwise fun a b => ∃ e, a.validTo = some e ∧ e ≤ b.validFrom :=
  h.ordered.imp fun hp => hp.ends.imp fun _ he => ⟨he.1, he.2.2 hstrict⟩

/-- The number at a place. -/
theorem Chain.number_getElem (h : Chain strict ticks vs) {i : Nat} (hi : i < vs.length) :
    vs[i].number = i + 1 := by
  have hget := congrArg (·[i]?) h.numbers
  simpa [hi] using hget

/-- Two versions that touch have no version between them. -/
theorem Chain.adjacent (h : Chain strict ticks vs) (hstrict : strict) {i j : Nat} (hi : i < vs.length)
    (hj : j < vs.length) (hij : i < j) (hto : vs[i].validTo = some vs[j].validFrom) : j = i + 1 := by
  refine Decidable.byContradiction fun hne => ?_
  have hk : i + 1 < vs.length := by omega
  obtain ⟨e, he, hle⟩ := List.pairwise_iff_getElem.mp (h.ends hstrict) i (i + 1) hi hk (by omega)
  have hlt := (List.pairwise_iff_getElem.mp h.ordered (i + 1) j hk hj (by omega)).starts
  rw [hto] at he
  cases he
  exact absurd hlt (not_lt.mpr hle)

/-- **A chain in strict order is a history.** -/
theorem Chain.isHistory (h : Chain strict ticks vs) (hstrict : strict) : IsHistory vs := by
  refine ⟨h.numbers, h.ordered.imp fun hp => hp.starts, h.ends hstrict, fun now => ?_, fun now => ?_⟩
  · refine (h.ends hstrict).imp ?_
    rintro a b ⟨e, he, hle⟩ ⟨ha, hb⟩
    exact absurd hb.1 (not_le.mpr (lt_of_lt_of_le (ha.2 e he) hle))
  · rw [List.pairwise_iff_getElem]
    intro i j hi hj hij ha hb
    obtain ⟨e, he, hle⟩ := List.pairwise_iff_getElem.mp (h.ends hstrict) i j hi hj hij
    have hend : e = now := le_antisymm (le_trans hle hb.1) (ha.2 e he)
    have hstart : vs[j].validFrom = now := le_antisymm hb.1 (hend ▸ hle)
    have hnext : j = i + 1 := h.adjacent hstrict hi hj hij (by rw [he, hend, hstart])
    refine ⟨by rw [he, hend], hstart, ?_⟩
    rw [h.number_getElem hi, h.number_getElem hj, hnext]
    rfl

/-! ## 2. Every table that is reached -/

variable {σ : Type} [Connection σ] [Transactional σ]

/-- The databases of a phase: what was committed, and what an open session sees. -/
def Phase.Sees : Phase σ → Database → Prop
  | .idle c, db => db = Transactional.durable c
  | .busy s, db => db = s.durable ∨ s.isOpen = true ∧ db = s.working

theorem Phase.Holds.hasChains {l : Layout} {t : Table} {p : Phase σ} {db : Database}
    (h : p.Holds l t strict ticks) (hdb : p.Sees db) : l.HasChains t strict ticks db := by
  cases p with
  | idle c =>
    obtain rfl := hdb
    exact h.2
  | busy s =>
    obtain rfl | ⟨hopen, rfl⟩ := hdb
    · exact h.durable
    · exact h.working hopen

/-- **The versions of an identifier form a history**, in every table that runs of sessions reach. -/
theorem versions_form_history {l : Layout} {t : Table} {c₀ : σ} {p : Phase σ} {db : Database}
    (hsound : Transactional.Sound c₀) (hs : l.Suits t) (hempty : t.rows = [])
    (hfind : (Transactional.durable c₀).find? l.table = some t)
    (h : Reaches l t True c₀ p ticks) (hdb : p.Sees db) :
    ∃ rows, db.find? l.table = some { t with rows } ∧
      ∀ w, ∃ vs, List.Forall₂ (l.Shows t) (rows.filter (l.identifies t w)) vs ∧ IsHistory vs := by
  obtain ⟨rows, hrows, hchained⟩ := (h.holds hsound hs hempty hfind).hasChains hdb
  refine ⟨rows, hrows, fun w => ⟨_, ?_, (hchained.chains w).isHistory trivial⟩⟩
  rw [List.forall₂_map_right_iff, List.forall₂_same]
  exact fun r hr => Layout.shows_shown (hchained.shows r (List.mem_filter.mp hr).1)

/-- An item that got another size has two versions. -/
theorem resized_item_forms_history :
    ∃ (s : Session (Traced Store)) (ticks : List Instant) (rows : List (List Cell)),
      Reaches (Sample.sizes "n" none).layout (Sample.items .integer) True Sample.refusing (.busy s)
        ticks ∧
      s.working.find? "items" = some { Sample.items .integer with rows } ∧
      Sample.cells (Sample.item 1 "n" 2) ["v"] s.working = some [[.integer 1], [.integer 2]] ∧
      ∀ w, ∃ vs, List.Forall₂ ((Sample.sizes "n" none).layout.Shows (Sample.items .integer))
        (rows.filter ((Sample.sizes "n" none).layout.identifies (Sample.items .integer) w)) vs ∧
        IsHistory vs := by
  obtain ⟨s, s', ticks, result, hreaches, hyears, hprocess, -, hopen, hcells⟩ :=
    Sample.resized_item True
  have hnext := hreaches.processed (Sample.admissible_items _ (by simp)) hyears hprocess
  obtain ⟨rows, hrows, hversions⟩ := versions_form_history Sample.sound_refusing Sample.suits_items
    rfl Sample.find?_refusing hnext (.inr ⟨hopen, rfl⟩)
  exact ⟨s', _, rows, hnext, hrows, hcells, hversions⟩

/-- A purge of everything. -/
def Sample.widened : Options :=
  { sizes "n" (some "s") with purgeWhere := some "1 = 1) OR (1 = 1" }

/-- There is no history for an identifier that is not found again, where a field has the name of the
version column, and after a purge whose further condition widens it: a version number comes twice, or
is no number of a version, or a version ends after the next one started. -/
theorem versions_without_history :
    (∃ s, Sample.ran (Sample.sizes "n" none) (Sample.itemStore .real [])
        [.row Sample.inexact none, .row Sample.inexact none] = some s ∧
      Sample.cells (Sample.item 9007199254740992 "n" 2) ["v", "t"] s.working =
        some [[.integer 1, .text "2124-01-01 00:00:00.000000"],
          [.integer 1, .text "2124-01-01 00:00:00.000000"]]) ∧
    (∃ s, Sample.ran (Sample.sizes "V" none) (Sample.itemStore .integer []) [] = some s ∧
      Sample.cells (Sample.item 1 "V" 7) ["v"] (s.processAs (Sample.item 1 "V" 7) none).2.working =
        some [[.integer 7]]) ∧
    ∃ s s', Sample.ran (Sample.sizes "n" (some "s")) (Sample.itemStore .integer [])
        [.row (Sample.item 1 "n" 1) none, .row (Sample.item 1 "n" 2) none, .finish] = some s ∧
      Session.begin Sample.widened (Clock.startingAt (Instant.ofSeconds 1704067300)) "sample"
        s.storage.connection = .ok s' ∧
      Sample.cells (Sample.item 1 "n" 1) ["v", "f", "t"] s'.purge.2.working =
        some [[.integer 1, .text "2024-01-01 00:00:00.000001", .text "2024-01-01 00:01:40.000000"],
          [.integer 2, .text "2024-01-01 00:00:00.000002", .text "2024-01-01 00:01:40.000000"]] := by
  refine ⟨?_, ?_, ?_⟩
  · obtain ⟨s, -, -, hran, -, -, hcells, -⟩ := Sample.inexact_identifier
    exact ⟨s, hran, hcells⟩
  · obtain ⟨s, s', result, hran, hprocess, -, -, hcells⟩ := Sample.clashing_names
    exact ⟨s, hran, hprocess ▸ hcells⟩
  · have hcheck : (Sample.ran (Sample.sizes "n" (some "s")) (Sample.itemStore .integer [])
        [.row (Sample.item 1 "n" 1) none, .row (Sample.item 1 "n" 2) none, .finish]).any (fun s =>
        okAnd (Session.begin Sample.widened (Clock.startingAt (Instant.ofSeconds 1704067300)) "sample"
          s.storage.connection) fun s' =>
          decide (Sample.cells (Sample.item 1 "n" 1) ["v", "f", "t"] s'.purge.2.working = some
            [[.integer 1, .text "2024-01-01 00:00:00.000001", .text "2024-01-01 00:01:40.000000"],
              [.integer 2, .text "2024-01-01 00:00:00.000002", .text "2024-01-01 00:01:40.000000"]]))
            = true := by
      rw [Sample.ran, Sample.working_eq, Store.connection_eq Sample.widened]
      decide +kernel
    obtain ⟨s, hran, hs⟩ := (Option.any_eq_true _ _).mp hcheck
    obtain ⟨s', hbegin, hcells⟩ := exists_of_okAnd hs
    exact ⟨s, s', hran, hbegin, of_decide_eq_true hcells⟩

end RowHistory
