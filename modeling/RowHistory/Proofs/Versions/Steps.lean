import RowHistory.Proofs.Versions.Runs

/-!
# Every call with a row takes a step

The statements of a session do what the machine of versions does: after any runs of sessions, a row
that gets a result changed the table that the session sees by one step of the machine, with the next
tick and the horizon of the session, and no other table (`row_takes_step`).
-/

namespace RowHistory

open Sql

variable {σ : Type} [Connection σ] [Transactional σ]

/-- **A row that gets a result took a step of the machine of versions.** No row was removed, and
none changed its identifier, what is compared or its number. -/
theorem row_takes_step {l : Layout} {t : Table} {c₀ : σ} {s s' : Session σ} {ticks : List Instant}
    {row : Row} {forced : Option RowStatus} {result : RowResult}
    (hsound : Transactional.Sound c₀) (hs : l.Suits t) (hempty : t.rows = [])
    (hfind : (Transactional.durable c₀).find? l.table = some t)
    (h : Reaches l t False c₀ (.busy s) ticks) (hyears : s.clock.next.InYears)
    (hcall : s.processAs row forced = (.ok (some result), s')) :
    ∃ rows rows', s.working.find? l.table = some { t with rows } ∧
      l.Step t row s.clock.next s.validTo rows result.status result.version rows' ∧
      s.working.Sets s'.working l.table { t with rows := rows' } ∧
      ∃ kept added, rows' = kept ++ added ∧ l.Lasts t rows kept ∧ added.length ≤ 1 := by
  have hholds : s.Holds l t False ticks := h.holds hsound hs hempty hfind
  have hopen : s.isOpen = true := by
    cases hclosed : s.isOpen with
    | true => rfl
    | false =>
      rw [Session.processAs_closed hclosed] at hcall
      cases hcall
  obtain ⟨rows, hrows, hchained⟩ := hholds.working hopen
  obtain ⟨-, -, hmoved⟩ := Session.answer_moved hholds.fit hopen (.row row forced)
  rw [Session.answer_row hcall] at hmoved
  cases hmoved with
  | applied hp happlied _ _ =>
    obtain rfl := hholds.layout
    obtain ⟨rows', hstep, hsets, -⟩ := happlied.step hp hholds.ids hs hchained hholds.after
      ⟨hholds.whole.next, hyears⟩ hrows
    exact ⟨rows, rows', hrows, hstep, hsets,
      hstep.lasts hs.names fun r hr => (hchained.stored r hr).row⟩
  | closed hreply _ _ _ => exact absurd rfl (hreply _)

/-- An item gets another size. -/
theorem resized_item_takes_step :
    ∃ (s s' : Session (Traced Store)) (ticks : List Instant) (result : RowResult)
      (rows rows' : List (List Cell)),
      Reaches (Sample.sizes "n" none).layout (Sample.items .integer) False Sample.refusing (.busy s)
        ticks ∧
      s.processAs (Sample.item 1 "n" 2) none = (.ok (some result), s') ∧ result.status = .changed ∧
      s.working.find? "items" = some { Sample.items .integer with rows } ∧
      (Sample.sizes "n" none).layout.Step (Sample.items .integer) (Sample.item 1 "n" 2) s.clock.next
        s.validTo rows .changed result.version rows' ∧
      s.working.Sets s'.working "items" { Sample.items .integer with rows := rows' } := by
  obtain ⟨s, s', ticks, result, hreaches, hyears, hprocess, hstatus, -, -⟩ :=
    Sample.resized_item False
  obtain ⟨rows, rows', hrows, hstep, hsets, -⟩ := row_takes_step Sample.sound_refusing
    Sample.suits_items rfl Sample.find?_refusing hreaches hyears hprocess
  rw [hstatus] at hstep
  exact ⟨s, s', ticks, result, rows, rows', hreaches, hprocess, hstatus, hrows, hstep, hsets⟩

/-- No step is taken for an identifier that is not found again, or where a field has the name of the
version column. -/
theorem row_without_step :
    (∃ (s s' : Session (Traced Store)) (result : RowResult),
      Sample.ran (Sample.sizes "n" none) (Sample.itemStore .real [])
        [.row Sample.inexact none, .row Sample.inexact none] = some s ∧
      s.processAs (Sample.item 9007199254740992 "n" 2) none = (.ok (some result), s') ∧
      result.status = .changed ∧
      -- two rows end
      Sample.cells (Sample.item 9007199254740992 "n" 2) ["v", "t"] s.working =
        some [[.integer 1, .text "2124-01-01 00:00:00.000000"],
          [.integer 1, .text "2124-01-01 00:00:00.000000"]] ∧
      Sample.cells (Sample.item 9007199254740992 "n" 2) ["v", "t"] s'.working =
        some [[.integer 1, .text "2024-01-01 00:00:00.000003"],
          [.integer 1, .text "2024-01-01 00:00:00.000003"],
          [.integer 2, .text "2124-01-01 00:00:00.000000"]]) ∧
    ∃ (s s' : Session (Traced Store)) (result : RowResult),
      Sample.ran (Sample.sizes "V" none) (Sample.itemStore .integer []) [] = some s ∧
      s.processAs (Sample.item 1 "V" 7) none = (.ok (some result), s') ∧
      result.status = .new ∧ result.version = 1 ∧
      Sample.cells (Sample.item 1 "V" 7) ["v"] s'.working = some [[.integer 7]] :=
  ⟨Sample.inexact_identifier, Sample.clashing_names⟩

end RowHistory
