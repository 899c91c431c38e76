import RowHistory.Proofs.Session.Batches

/-!
# Failed rows

A row that fails leaves nothing behind: not in the database, and not in the batch. Whoever
recovers gets all rows that were lost with it, once, and decides whether the session survives,
which it can only do after a transient storage error.
-/

namespace RowHistory.Session

variable {σ : Type} [Connection σ] [Transactional σ] {s : Session σ}

theorem isRecoverable_iff {e : Failure} :
    e.isRecoverable = true ↔ ∃ cause, e = .storage cause ∧ cause.code.isTransient = true := by
  cases e with
  | storage cause => exact ⟨fun h => ⟨cause, rfl, h⟩, fun ⟨_, h, ht⟩ => by cases h; exact ht⟩
  | _ => exact ⟨fun h => (nomatch h), fun ⟨_, h, _⟩ => (nomatch h)⟩

/-- The rows that are lost if a row fails: those of the batch, and the row itself if it was to be
written. -/
def lostRows (s : Session σ) (row : Row) (forced : Option RowStatus) : List Row :=
  s.storage.batch.backup ++ (s.tick.2.recordedRow row forced s.clock.next).toList

/-- **A row that fails is undone**, in any open session. -/
theorem processRow_failed (hs : s.Fit) (hopen : s.isOpen = true) (row : Row)
    (forced : Option RowStatus)
    (hfail : ∀ result, (s.processRow row forced).1 ≠ .ok (some result)) :
    let s' := (s.processRow row forced).2
    ∃ e, ((apply row forced s.clock.next).run.run s.tick.2).1 = .error e ∧
      s'.durable = s.durable ∧
      s'.storage.recovered = s.storage.recovered ++ s.handed e (s.lostRows row forced) ∧
      ((Accepts s e (s.lostRows row forced) ∧ e.isRecoverable = true ∧
          (s.processRow row forced).1 = .ok none ∧ s'.isOpen = true ∧
          s'.working = s'.durable ∧ s'.storage.batch = s.storage.batch.clear) ∨
        (¬ (Accepts s e (s.lostRows row forced) ∧ e.isRecoverable = true) ∧
          (s.processRow row forced).1 = .error e ∧ s'.isOpen = false)) := by
  obtain ⟨result, s₁, hrun, -⟩ | ⟨e, s₁, happly, hrun, hfit, hstays, hd, hb⟩ :=
    processRow_cases hs hopen row forced
  · exact absurd (congrArg Prod.fst hrun) (hfail result)
  · have hopen₁ : s₁.isOpen = true := hstays.isOpen.trans hopen
    obtain ⟨-, -, -, hd', -, hcalls, hend⟩ := recover_spec hfit hopen₁ e
    have hrecovery : s₁.storage.recovery = s.storage.recovery := hstays.storage.recovery
    have hlost : s₁.storage.batch.backup = s.lostRows row forced := hb
    have hhanded : s₁.handed e (s.lostRows row forced) = s.handed e (s.lostRows row forced) := by
      unfold handed
      rw [hrecovery]
    have haccepts : Accepts s₁ e (s.lostRows row forced) ↔ Accepts s e (s.lostRows row forced) := by
      unfold Accepts
      rw [hrecovery]
    rw [hlost] at hcalls hend
    rw [hhanded, hstays.storage.recovered] at hcalls
    rw [haccepts] at hend
    rw [hrun]
    refine ⟨e, congrArg Prod.fst happly, hd'.trans hd, hcalls, hend.imp_left ?_⟩
    rintro ⟨ha, he, hreply, hopen₂, hw, hbatch⟩
    exact ⟨ha, he, hreply, hopen₂, hw, hbatch.trans (Batch.clear_eq hstays.storage.size)⟩

/-- **Failed rows are atomic, and a session can survive them.** After any calls, if a row fails at
any point: what was committed is as it was; if the session is still open, its batch is empty and
it sees what was committed; the recovery, if there is one, was called once, with the error and the
rows of the pending writes in order, and this row behind them if it was to be written; and the
session goes on, without a result, exactly if the recovery accepted a transient storage error.
Otherwise it answers with the error and is closed. -/
theorem failed_row_undone {o : Options} {clock : Clock} {id : String} {c : σ} {s₀ : Session σ}
    (hsound : Transactional.Sound c) (hbegin : begin o clock id c = .ok s₀)
    (calls : List Operation) (hopen : (s₀.run calls).2.isOpen = true) (row : Row)
    {forced : Option RowStatus} (hforced : Permitted forced)
    (hfail : ∀ result, ((s₀.run calls).2.processAs row forced).1 ≠ .ok (some result)) :
    let s := (s₀.run calls).2
    let reply := (s.processAs row forced).1
    let s' := (s.processAs row forced).2
    let rows := (pendingWrites o (s₀.run calls).1).map Write.row ++
      (s.tick.2.recordedRow row forced s.clock.next).toList
    s'.durable = s.durable ∧
    (s'.isOpen = true → s'.storage.batch.backup = [] ∧ s'.storage.batch.pending = 0 ∧
      s'.working = s'.durable) ∧
    ∃ e, ((apply row forced s.clock.next).run.run s.tick.2).1 = .error e ∧
      s'.storage.recovered = s.storage.recovered ++
        (s.storage.recovery.map fun _ => (e, rows)).toList ∧
      ((reply = .ok none ∧ s'.isOpen = true) ↔
        (∃ recovery, s.storage.recovery = some recovery ∧ (recovery e rows).1 = true) ∧
        ∃ cause, e = .storage cause ∧ cause.code.isTransient = true) ∧
      (¬ (reply = .ok none ∧ s'.isOpen = true) → reply = .error e ∧ s'.isOpen = false) := by
  obtain ⟨hfit, hoptions, -⟩ := begin_spec hsound hbegin
  obtain ⟨hfit', -⟩ := run_fit hfit calls
  obtain ⟨hgathered, -⟩ := gathered_run hfit (gathered_begin hsound hbegin) calls hopen
  rw [hoptions] at hgathered
  dsimp only
  rw [processAs_permitted hforced] at hfail ⊢
  have hlost : (s₀.run calls).2.lostRows row forced =
      (pendingWrites o (s₀.run calls).1).map Write.row ++
        ((s₀.run calls).2.tick.2.recordedRow row forced (s₀.run calls).2.clock.next).toList := by
    rw [lostRows, hgathered.backup]
  obtain ⟨e, happly, hd, hcalls, hend⟩ := processRow_failed hfit' hopen row forced hfail
  rw [hlost, isRecoverable_iff] at hend
  rw [hlost] at hcalls
  obtain ⟨ha, he, hreply, hopen', hw, hb⟩ | ⟨hnot, hreply, hclosed⟩ := hend
  · refine ⟨hd, fun _ => ⟨by rw [hb]; rfl, by rw [hb]; rfl, hw⟩, e, happly, hcalls, ?_, ?_⟩
    · exact ⟨fun _ => ⟨ha, he⟩, fun _ => ⟨hreply, hopen'⟩⟩
    · exact fun h => absurd ⟨hreply, hopen'⟩ h
  · have hnone : ¬ ((s₀.run calls).2.processRow row forced).2.isOpen = true := by
      rw [hclosed]
      exact Bool.false_ne_true
    refine ⟨hd, fun h => absurd h hnone, e, happly, hcalls, ?_, fun _ => ⟨hreply, hclosed⟩⟩
    exact ⟨fun h => absurd h.2 hnone, fun h => absurd h hnot⟩

/-- One row, with a recovery that accepts every failure. -/
def Sample.oneRow : List Operation :=
  [.recovery Sample.acceptAll, .row (Sample.customer 1 "Ann" "Ulm") none]

/-- The second row of a batch is lost with the first when the automatic commit is refused. -/
theorem failed_row_undone_by_busy_commit :
    ∃ s₀ : Session (Traced Store),
      begin Sample.options Sample.clock "sample" (Sample.store [⟨.commit, 1, Sample.busy⟩]) = .ok s₀ ∧
      let s := (s₀.run Sample.oneRow).2
      let s' := (s.processAs (Sample.customer 2 "Bo" "Bonn") none).2
      s.isOpen = true ∧ s.storage.batch.pending = 1 ∧ s'.isOpen = true ∧
      (s.processAs (Sample.customer 2 "Bo" "Bonn") none).1 = .ok none ∧
      s'.durable = s.durable ∧ s'.storage.batch.pending = 0 ∧ s'.working = s'.durable := by
  have hcheck : okAnd (begin Sample.options Sample.clock "sample"
      (Sample.store [⟨.commit, 1, Sample.busy⟩])) (fun s₀ =>
        let s := (s₀.run Sample.oneRow).2
        let (reply, s') := s.processAs (Sample.customer 2 "Bo" "Bonn") none
        (s.isOpen && s.storage.batch.pending == 1) && s'.isOpen && okAnd reply Option.isNone) = true := by
    rw [Store.connection_eq Sample.options]
    decide +kernel
  obtain ⟨s₀, hbegin, hs₀⟩ := exists_of_okAnd hcheck
  simp only [Bool.and_eq_true, beq_iff_eq] at hs₀
  obtain ⟨⟨⟨hopen, hpending⟩, hopen'⟩, hreply⟩ := hs₀
  obtain ⟨reply, hok, hnone⟩ := exists_of_okAnd hreply
  have hreply' := hok.trans (congrArg Except.ok (Option.isNone_iff_eq_none.mp hnone))
  have hsound := Sample.sound_store [⟨.commit, 1, Sample.busy⟩] (by simp)
  obtain ⟨hd, hempty, -⟩ := failed_row_undone hsound hbegin Sample.oneRow hopen
    (Sample.customer 2 "Bo" "Bonn") (.inl rfl) (fun _ h => nomatch hreply'.symm.trans h)
  obtain ⟨-, hpending', hw⟩ := hempty hopen'
  exact ⟨s₀, hbegin, hopen, hpending, hopen', hreply', hd, hpending', hw⟩

end RowHistory.Session
