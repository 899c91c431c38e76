import RowHistory.Proofs.Session.Calls
import RowHistory.Proofs.Storage.Success

/-!
# Calls that succeed

What a success of a call means, with the number that it answers and the counters that it leaves,
and when a call succeeds on a database that nobody disturbs. This file fixes

* what is counted (`processRow_counters`), and what a purge and an end did if they succeed
  (`purge_ok`, `commitAndClose_ok`, `finish_ok`);
* the sessions whose calls fail only because of their rows (`Session.Ready`);
* that a row is processed if it can be judged and written (`processRow_ready`), and that a purge, an
  end and a start succeed (`purge_ready`, `finish_ready`, `begin_ready`).
-/

namespace RowHistory

open Sql (Answer Database)

namespace Session

variable {σ α β : Type} [Connection σ] [Transactional σ] {s s' : Session σ}

/-! ## 1. What a success means -/

omit [Connection σ] [Transactional σ] in
theorem counters_withStorage (f : Storage.Action σ Failure α) (s : Session σ) :
    ((withStorage f).run.run s).2.counters = s.counters := by
  rw [run_withStorage]
  cases f.run.run s.storage with
  | mk x storage => cases x <;> rfl

omit [Connection σ] [Transactional σ] in
theorem counters_readied (s : Session σ) (reason : Option SkipReason) (m : Mutation) (row : Row) :
    (s.readied reason m row).counters = s.counters := by
  unfold readied
  cases reason <;> cases m.writes <;> rfl

/-- The work on a row counts nothing. -/
theorem apply_counters (hs : s.Fit) {row : Row} {forced : Option RowStatus} {now : Instant}
    {result : RowResult} (h : (apply row forced now).run.run s = (.ok result, s')) :
    s'.counters = s.counters := by
  rw [run_apply] at h
  cases hmissing : missingIdentifier? s.options row with
  | some name =>
    rw [hmissing] at h
    cases h
  | none =>
    rw [hmissing] at h
    cases hjudge : (judge row now).run.run s with
    | mk x s₁ =>
      rw [hjudge] at h
      obtain ⟨-, -, ⟨natural, rfl, hs₁, -⟩ | ⟨⟨e, rfl⟩, -⟩⟩ := does_judge hs row now x s₁ hjudge
      · dsimp only at h
        generalize hready : s₁.readied _ _ _ = s₂ at h
        have hcounters₂ : s₂.counters = s.counters := by
          rw [← hready, counters_readied, hs₁]
        generalize hwrite : (withStorage _).run.run s₂ = written at h
        obtain ⟨y, s₃⟩ := written
        have hcounters₃ : s₃.counters = s₂.counters := by
          rw [← counters_withStorage _ s₂, hwrite]
        cases y with
        | error e => cases h
        | ok u =>
          cases h
          rw [hcounters₃, hcounters₂]
      · cases h

/-- **A row is counted by its status.** -/
theorem processRow_counters (hs : s.Fit) {row : Row} {forced : Option RowStatus} {result : RowResult}
    (h : s.processRow row forced = (.ok (some result), s')) :
    s'.counters = s.counters.map (·.record result.status) := by
  unfold processRow at h
  split at h
  · rw [tick_eq] at h
    dsimp only at h
    cases hrun : (apply row forced s.clock.next).run.run { s with clock := s.clock.tick.2 } with
    | mk x s₁ =>
      rw [hrun] at h
      cases x with
      | ok found =>
        have hcounters : s₁.counters = s.tick.2.counters := apply_counters hs.tick hrun
        cases h
        exact congrArg (Option.map _) hcounters
      | error e =>
        dsimp only at h
        rw [recover_eq] at h
        split at h <;> cases h
  · cases h

/-- **What a purge did that succeeds**: its number is the one of its statement, and it is counted. -/
structure Purged (n : Nat) (s s' : Session σ) : Prop where
  tracks : s.options.names.tracksLastSeen = true
  swept : s.options.layout.swept (Transactional.judge σ) s.start s.clock.next s.options.purgeWhere
    s.working = some (.changed n, s'.working)
  durable : s'.durable = s'.working
  isOpen : s'.isOpen = true
  clock : s'.clock = s.clock.tick.2
  counters : s'.counters = s.counters.map (·.addRejected n)
  fit : s'.Fit
  same : Same s s'

theorem purge_ok (hs : s.Fit) {n : Nat} (h : s.purge = (.ok n, s')) :
    s.isOpen = true ∧ Purged n s s' := by
  cases htracks : s.options.names.tracksLastSeen with
  | false =>
    unfold purge at h
    rw [htracks] at h
    cases h
  | true =>
    cases hopen : s.isOpen with
    | false =>
      unfold purge at h
      rw [htracks, hopen] at h
      cases h
    | true =>
      obtain ⟨hfit, hsame, hclock, -⟩ := purge_cases hs hopen htracks
      have hpurging : s.purging.Fit := hs.tick.logged _
      rw [h] at hfit hsame hclock
      rw [purge_eq hopen htracks] at h
      cases hrun : (Storage.purge s.start s.clock.next s.options.purgeWhere).run.run
          s.purging.storage with
      | mk x storage =>
        rw [hrun] at h
        obtain ⟨-, -, ⟨m, rfl, ⟨answer, hswept, hcount⟩, hd, -⟩ | ⟨⟨e, rfl⟩, -⟩⟩ :=
          Storage.does_purge hpurging.storage s.start s.clock.next s.options.purgeWhere x storage hrun
        · have hlayout : s.purging.storage.layout = s.options.layout := hs.layout
          rw [hlayout] at hswept
          obtain ⟨k, rfl⟩ := Layout.swept_changed hswept
          obtain rfl := hcount k rfl
          cases h
          exact ⟨rfl, htracks, hswept, hd, hopen, hclock, rfl, hfit, hsame⟩
        · cases h

/-- **What an end did that succeeds**: all that was pending is committed. -/
theorem commitAndClose_ok (hs : s.Fit) (hopen : s.isOpen = true)
    (h : s.commitAndClose = (.ok (), s')) :
    s'.durable = s.working ∧ s'.counters = s.counters ∧ s'.isOpen = false ∧ s'.clock = s.clock ∧
      s'.Fit ∧ Same s s' := by
  unfold commitAndClose at h
  cases hrun : Storage.commit.run.run s.storage with
  | mk x storage =>
    rw [hrun] at h
    obtain ⟨hfit, hstays, ⟨u, rfl, hd, -⟩ | ⟨⟨e, rfl⟩, -⟩⟩ :=
      Storage.does_commit hs.storage x storage hrun
    · have hnew : Fit { s with storage } :=
        ⟨hfit, hstays.layout.trans hs.layout, hstays.size.trans hs.size, hs.valid⟩
      have hopen' : (noted { s with storage } .info .sessionFinish []).isOpen = true := hopen
      have hcounters : (noted { s with storage } .info .sessionFinish []).close.2.counters =
          s.counters := by
        unfold close
        rw [if_pos hopen']
        rfl
      obtain ⟨hfit₂, hsame, hclosed, hclock, hd₂, -⟩ := close_spec (hnew.logged _) hopen'
      have hclose : (noted { s with storage } .info .sessionFinish []).close = (.ok (), s') := h
      simp only [noted] at hclose hcounters
      rw [hclose] at hfit₂ hsame hclosed hclock hd₂ hcounters
      exact ⟨hd₂.trans hd, hcounters, hclosed, hclock, hfit₂, hsame.options, hsame.start, hsame.validTo⟩
    · obtain ⟨herror, -⟩ := failWith_spec (α := Unit) (s := { s with storage })
        ⟨hfit, hstays.layout.trans hs.layout, hstays.size.trans hs.size, hs.valid⟩ hopen e
      dsimp only at h
      rw [h] at herror
      cases herror

omit [Transactional σ] in
/-- An end that succeeds purged first, if that is wanted. -/
theorem finish_ok (h : s.finish = (.ok (), s')) :
    s.isOpen = true ∧ if s.options.purge then
      ∃ n s₁, s.purge = (.ok n, s₁) ∧ s₁.commitAndClose = (.ok (), s')
    else s.commitAndClose = (.ok (), s') := by
  unfold finish at h
  cases hopen : s.isOpen with
  | false =>
    rw [hopen] at h
    cases h
  | true =>
    rw [hopen] at h
    refine ⟨rfl, ?_⟩
    by_cases hpurge : s.options.purge = true
    · rw [hpurge] at h ⊢
      cases hrun : s.purge with
      | mk x s₁ =>
        rw [hrun] at h
        cases x with
        | error e => cases h
        | ok n => exact ⟨n, s₁, rfl, h⟩
    · rw [Bool.not_eq_true] at hpurge
      rw [hpurge] at h ⊢
      exact h

/-! ## 2. Sessions that nobody disturbs -/

variable [Steady σ]

/-- An open session whose connection nobody disturbs. -/
structure Ready (s : Session σ) : Prop where
  fit : s.Fit
  storage : s.storage.Ready
  isOpen : s.isOpen = true

/-- A part of the work on a row succeeds, and the storage stays ready. -/
def Gives (f : Action σ α) (s : Session σ) (a : α) : Prop :=
  ∃ s', f.run.run s = (.ok a, s') ∧ s'.storage.Ready

theorem Gives.bind {f : Action σ α} {g : α → Action σ β} {a : α} {b : β} (hf : Gives f s a)
    (hg : ∀ s', f.run.run s = (.ok a, s') → s'.storage.Ready → Gives (g a) s' b) :
    Gives (f >>= g) s b := by
  obtain ⟨s', hrun, hready⟩ := hf
  obtain ⟨s'', hrun', hready'⟩ := hg s' hrun hready
  exact ⟨s'', by rw [run_bind, hrun]; exact hrun', hready'⟩

theorem gives_withStorage {f : Storage.Action σ Failure α} {a : α}
    (h : Storage.Gives f s.storage a) : Gives (withStorage f) s a := by
  obtain ⟨storage, hrun, hready⟩ := h
  refine ⟨{ s with storage }, ?_, hready⟩
  rw [run_withStorage, hrun]

omit [Steady σ] in
/-- What is known of a success by the results that a part of the work can have. -/
theorem Does.ok {f : Action σ α} {Q : α → Session σ → Prop} {a : α} (h : Does f s Q)
    (hrun : f.run.run s = (.ok a, s')) : Stays s s' ∧ Q a s' := by
  obtain ⟨-, hstays, ⟨b, hb, hQ⟩ | ⟨⟨e, he⟩, -⟩⟩ := h _ _ hrun
  · cases hb
    exact ⟨hstays, hQ⟩
  · cases he

/-- **A row is judged as the database says.** -/
theorem gives_judge (hs : s.Ready) {row : Row} {now : Instant} {natural : Outcome}
    (h : Judged s.options.layout row now s.working natural) : Gives (judge row now) s natural := by
  have hlayout := hs.fit.layout
  unfold judge
  cases h with
  | @active answer record natural hrun hrec hagainst =>
    rw [← hlayout] at hrun hrec
    refine (gives_withStorage (Storage.gives_select hs.storage hrun hrec)).bind
      fun s₁ hrun₁ hs₁ => ?_
    obtain ⟨hstays, -⟩ := (does_withStorage (Storage.does_select hs.fit.storage _ _)).ok hrun₁
    refine Gives.bind (a := s₁) ⟨s₁, rfl, hs₁⟩ fun s₂ hrun₂ _ => ?_
    cases hrun₂
    have hfields : s₁.options.fields = s.options.layout.fields := by rw [hstays.options]; rfl
    rw [hfields, hagainst]
    exact ⟨s₁, rfl, hs₁⟩
  | @latest answer answer' latest hrun hrec hrun' hrec' =>
    have hids := hs.fit.ids
    rw [← hlayout] at hrun hrec hrun' hrec'
    refine (gives_withStorage (Storage.gives_select hs.storage hrun hrec)).bind
      fun s₁ hrun₁ hs₁ => ?_
    obtain ⟨hstays, -, -, -, found, hfound, -⟩ :=
      (does_withStorage (Storage.does_select hs.fit.storage _ _)).ok hrun₁
    have hworking : s₁.storage.working = s.working := Layout.run_selection hids (.inr rfl) hfound
    rw [← hworking, ← hstays.storage.layout] at hrun'
    rw [← hstays.storage.layout] at hrec'
    refine (gives_withStorage (Storage.gives_select hs₁ hrun' hrec')).bind fun s₂ _ hs₂ => ?_
    exact ⟨s₂, rfl, hs₂⟩

theorem readied_ready (hs : s.storage.Ready) (reason : Option SkipReason) (m : Mutation) (row : Row) :
    (s.readied reason m row).storage.Ready := by
  unfold readied
  cases reason <;> cases m.writes <;>
    exact ⟨⟨hs.fit.sound, hs.fit.cached⟩, hs.held, hs.free, hs.isOpen⟩

/-- **The work on a row succeeds** if it has an identifier, can be judged, and all of its statements
run. -/
theorem gives_apply (hs : s.Ready) {row : Row} {now : Instant} {natural : Outcome} {db : Database}
    (forced : Option RowStatus) (hidentified : missingIdentifier? s.options row = none)
    (hjudged : Judged s.options.layout row now s.working natural)
    (hwritten : s.options.layout.written
      (stamped s.options s.validTo (force forced natural).1 now row)
      (Storage.statementsOf (Mutation.ofStatus s.options.names.tracksLastSeen
        (force forced natural).1.status)) s.working = some db) :
    Gives (apply row forced now) s (resultOf s.options.names (force forced natural).1
      (force forced natural).2 (stamped s.options s.validTo (force forced natural).1 now row)) := by
  obtain ⟨s₁, hrun₁, hs₁⟩ := gives_judge hs hjudged
  obtain ⟨hstays₁, hs₁eq, hstill, -⟩ := (does_judge hs.fit row now).ok hrun₁
  unfold Gives
  rw [run_apply, hidentified, hrun₁]
  dsimp only
  rw [hstays₁.validTo]
  generalize (force forced natural).2 = reason at hwritten ⊢
  generalize (force forced natural).1 = outcome at hwritten ⊢
  generalize hrow : stamped s.options s.validTo outcome now row = stampedRow at hwritten ⊢
  generalize hm : Mutation.ofStatus s.options.names.tracksLastSeen outcome.status = m at hwritten ⊢
  have hready := readied_ready hs₁ reason m stampedRow
  obtain ⟨-, hstays₂, -, hworking, -⟩ := readied_spec hs₁.fit reason m stampedRow
  have hlayout : (s₁.readied reason m stampedRow).storage.layout = s.options.layout := by
    rw [hstays₂.storage.layout, hstays₁.storage.layout, hs.fit.layout]
  have hids : (s₁.readied reason m stampedRow).storage.layout.fields.names .id ≠ [] := by
    rw [hlayout, ← hs.fit.layout]
    exact hs.fit.ids
  have hwork : (s₁.readied reason m stampedRow).storage.working = s.working :=
    hworking.trans hstill.working
  rw [← hlayout, ← hwork] at hwritten
  obtain ⟨s₃, hrun₃, hs₃⟩ := gives_withStorage (Storage.gives_apply hready hids hwritten)
  rw [hrun₃]
  exact ⟨s₃, rfl, hs₃⟩

/-! ## 3. Calls -/

/-- **A row is processed if it has an identifier, can be judged, and can be written.** -/
theorem processRow_ready (hs : s.Ready) {row : Row} {natural : Outcome} {db : Database}
    (forced : Option RowStatus) (hidentified : missingIdentifier? s.options row = none)
    (hjudged : Judged s.options.layout row s.clock.next s.working natural)
    (hwritten : s.options.layout.written
      (stamped s.options s.validTo (force forced natural).1 s.clock.next row)
      (Storage.statementsOf (Mutation.ofStatus s.options.names.tracksLastSeen
        (force forced natural).1.status)) s.working = some db) :
    (s.processRow row forced).1 = .ok (some (resultOf s.options.names (force forced natural).1
      (force forced natural).2
      (stamped s.options s.validTo (force forced natural).1 s.clock.next row))) ∧
    (s.processRow row forced).2.Ready := by
  have htick : s.tick.2.Ready := ⟨hs.fit.tick, hs.storage, hs.isOpen⟩
  obtain ⟨s₁, hrun₁, hs₁⟩ := gives_apply htick forced hidentified hjudged hwritten
  obtain ⟨-, hstays, -⟩ := apply_cases htick.fit hrun₁
  have hprocess : s.processRow row forced = (.ok (some (resultOf s.options.names
      (force forced natural).1 (force forced natural).2
      (stamped s.options s.validTo (force forced natural).1 s.clock.next row))),
      s₁.counted (·.record (force forced natural).1.status)) := by
    unfold processRow
    rw [if_pos hs.isOpen, tick_eq]
    rw [tick_eq] at hrun₁
    dsimp only at hrun₁ ⊢
    rw [hrun₁]
    rfl
  rw [hprocess]
  exact ⟨rfl, (htick.fit.of_stays hstays hs₁.fit).counted _, hs₁, hstays.isOpen.trans hs.isOpen⟩

/-- **A purge succeeds if its statement does.** -/
theorem purge_ready (hs : s.Ready) {n : Nat} {db : Database}
    (htracks : s.options.names.tracksLastSeen = true)
    (h : s.options.layout.swept (Transactional.judge σ) s.start s.clock.next s.options.purgeWhere
      s.working = some (.changed n, db)) : s.purge.1 = .ok n ∧ s.purge.2.Ready := by
  have hpurging : s.purging.storage.Ready :=
    ⟨(hs.fit.tick.logged _).storage, hs.storage.held, hs.storage.free, hs.storage.isOpen⟩
  rw [← hs.fit.layout] at h
  obtain ⟨storage, hrun, hready⟩ := Storage.gives_purge hpurging h
  obtain ⟨hfit, hsame, -, -⟩ := purge_cases hs.fit hs.isOpen htracks
  have hpurge := purge_eq hs.isOpen htracks
  rw [hrun] at hpurge
  rw [hpurge] at hfit ⊢
  exact ⟨rfl, hfit, ⟨hfit.storage, hready.held, hready.free, hready.isOpen⟩, hs.isOpen⟩

theorem commitAndClose_ready (hs : s.Ready) : s.commitAndClose.1 = .ok () := by
  obtain ⟨storage, hrun, hready⟩ := Storage.gives_commit (ε := Failure) hs.storage
  have hopen : (noted { s with storage } .info .sessionFinish []).isOpen = true := hs.isOpen
  have hready' : (noted { s with storage } .info .sessionFinish []).storage.Ready :=
    ⟨⟨hready.fit.sound, hready.fit.cached⟩, hready.held, hready.free, hready.isOpen⟩
  unfold commitAndClose
  rw [hrun]
  show (noted { s with storage } .info .sessionFinish []).close.1 = .ok ()
  unfold close
  rw [if_pos hopen]
  show Except.mapError Failure.storage (Storage.close _).1 = .ok ()
  rw [Storage.close_ready hready']
  rfl

/-- **The end succeeds** if the purge does that may come first. -/
theorem finish_ready (hs : s.Ready)
    (h : s.options.purge = true → ∃ n db, s.options.layout.swept (Transactional.judge σ) s.start
      s.clock.next s.options.purgeWhere s.working = some (.changed n, db)) : s.finish.1 = .ok () := by
  unfold finish
  rw [hs.isOpen]
  by_cases hpurge : s.options.purge = true
  · obtain ⟨n, db, hswept⟩ := h hpurge
    obtain ⟨hpurged, hready⟩ :=
      purge_ready hs (Options.tracks_of_validate hs.fit.valid hpurge) hswept
    rw [hpurge]
    cases hrun : s.purge with
    | mk x s₁ =>
      rw [hrun] at hpurged hready
      cases hpurged
      exact commitAndClose_ready hready
  · rw [Bool.not_eq_true] at hpurge
    rw [hpurge]
    exact commitAndClose_ready hs

/-- **A session opens** on a database that nobody disturbs, if its options are consistent. -/
theorem begin_ready {o : Options} {clock : Clock} {c : σ} (hc : Steady.Free c)
    {settled : Instant × Clock × Option Instant} (hprepare : prepare o clock = .ok settled)
    (id : String) : ∃ s, begin o clock id c = .ok s ∧ s.Ready := by
  obtain ⟨storage, hconnect, hready⟩ :=
    Storage.connect_ready (ε := Failure) hc o.layout o.commitSize id
  have hbegin : ∃ s, begin o clock id c = .ok s ∧ s.storage = { storage with log := s.storage.log } ∧
      s.isOpen = true := by
    unfold begin
    rw [hprepare, hconnect]
    exact ⟨_, rfl, rfl, rfl⟩
  obtain ⟨s, hs, hstorage, hopen⟩ := hbegin
  obtain ⟨hfit, -⟩ := begin_spec (Steady.sound hc) hs
  have hstorage' : s.storage.Ready := by
    rw [hstorage]
    exact ⟨⟨hready.fit.sound, hready.fit.cached⟩, hready.held, hready.free, hready.isOpen⟩
  exact ⟨s, hs, hfit, hstorage', hopen⟩

end Session

end RowHistory
