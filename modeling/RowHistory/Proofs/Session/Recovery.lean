import RowHistory.Proofs.Session.Atomicity

/-!
# What the recovery is given

A row that fails without ending the session is gone unless the recovery is given it. Whether it is
depends on where the row fails: it is recorded between the lookups, which decide how it is stamped,
and the statements that write it. This file fixes

* the failures of the lookups (`lookupError?`), and what they mean for the judgement of a row
  (`judge_of_lookupError`, `judge_of_found`);
* the two ways in which a row fails by a storage error (`apply_failed`);
* what the recovery is given when the session goes on (`recovered_row_handed`), and that a failed
  lookup keeps the row from it (`busy_lookup_keeps_row`).
-/

namespace RowHistory.Session

variable {σ : Type} [Connection σ] {s : Session σ}

/-! ## 1. Lookups -/

/-- The storage error that ends the lookups of a row: that of the lookup of the active version or,
if there is none, that of the lookup of the latest. -/
def lookupError? (s : Session σ) (row : Row) (now : Instant) : Option StorageError :=
  match (Storage.active row now).run.run s.storage with
  | (.error e, _) => some e
  | (.ok (some _), _) => none
  | (.ok none, storage) => match (Storage.latest row).run.run storage with
    | (.error e, _) => some e
    | (.ok _, _) => none

/-- A row whose lookups fail cannot be judged. -/
theorem judge_of_lookupError {row : Row} {now : Instant} {e : StorageError}
    (h : s.lookupError? row now = some e) : ((judge row now).run.run s).1 = .error (.storage e) := by
  unfold lookupError? at h
  unfold judge
  rw [run_bind, run_withStorage]
  cases hactive : (Storage.active row now).run.run s.storage with
  | mk x storage =>
    rw [hactive] at h
    cases x with
    | error e' =>
      cases h
      rfl
    | ok found =>
      cases found with
      | some record => cases h
      | none =>
        dsimp only at h ⊢
        rw [run_bind, run_withStorage]
        cases hlatest : (Storage.latest row).run.run storage with
        | mk y storage' =>
          rw [hlatest] at h
          cases y with
          | error e' =>
            cases h
            rfl
          | ok latest => cases h

/-- A row whose lookups succeed is judged, unless it cannot be compared. -/
theorem judge_of_found {row : Row} {now : Instant} (h : s.lookupError? row now = none) :
    (∃ natural, ((judge row now).run.run s).1 = .ok natural) ∨
      ∃ e, ((judge row now).run.run s).1 = .error (.typeMismatch e) := by
  unfold lookupError? at h
  unfold judge
  rw [run_bind, run_withStorage]
  cases hactive : (Storage.active row now).run.run s.storage with
  | mk x storage =>
    rw [hactive] at h
    cases x with
    | error e => cases h
    | ok found =>
      cases found with
      | some record =>
        dsimp only
        rw [run_get_bind]
        cases s.options.fields.againstActive row record with
        | ok outcome => exact .inl ⟨outcome, rfl⟩
        | error e => exact .inr ⟨e, rfl⟩
      | none =>
        dsimp only at h ⊢
        rw [run_bind, run_withStorage]
        cases hlatest : (Storage.latest row).run.run storage with
        | mk y storage' =>
          rw [hlatest] at h
          cases y with
          | error e => cases h
          | ok latest => exact .inl ⟨_, rfl⟩

/-! ## 2. Failures -/

/-- A row that writes nothing cannot fail once it is judged. -/
theorem run_apply_none (row : Row) (s : Session σ) :
    (withStorage (Storage.apply .none row)).run.run s = (.ok (), s) := by
  rw [run_withStorage]
  rfl

/-- **A storage error ends the lookups, and then nothing is recorded, or it comes after them, and
then the stamped row is recorded.** -/
theorem apply_failed {row : Row} {forced : Option RowStatus} {now : Instant} {cause : StorageError}
    (h : ((apply row forced now).run.run s).1 = .error (.storage cause)) :
    (s.lookupError? row now = some cause ∧ s.recordedRow row forced now = none) ∨
    (s.lookupError? row now = none ∧ ∃ natural, ((judge row now).run.run s).1 = .ok natural ∧
      s.recordedRow row forced now =
        some (stamped s.options s.validTo (force forced natural).1 now row)) := by
  rw [run_apply] at h
  cases hmissing : missingIdentifier? s.options row with
  | some name =>
    rw [hmissing] at h
    cases h
  | none =>
    rw [hmissing] at h
    cases hjudge : (judge row now).run.run s with
    | mk x s₁ =>
      rw [hjudge] at h
      cases hlookup : s.lookupError? row now with
      | some e =>
        have herror := judge_of_lookupError hlookup
        rw [hjudge] at herror
        obtain rfl : x = .error (.storage e) := herror
        cases h
        exact .inl ⟨rfl, by simp [recordedRow, hmissing, hjudge]⟩
      | none =>
        obtain ⟨natural, hok⟩ | ⟨e, herror⟩ := judge_of_found hlookup
        · rw [hjudge] at hok
          obtain rfl : x = .ok natural := hok
          refine .inr ⟨rfl, natural, rfl, ?_⟩
          simp only [recordedRow, hmissing, hjudge]
          -- Only a mutation that writes can have failed here.
          cases hm : Mutation.ofStatus s.options.names.tracksLastSeen (force forced natural).1.status with
          | none =>
            simp only [hm, run_apply_none] at h
            cases h
          | _ => rfl
        · rw [hjudge] at herror
          obtain rfl : x = .error (.typeMismatch e) := herror
          cases h

/-- A row that has no result, and no failure, was processed by an open session. -/
theorem processAs_none {row : Row} {forced : Option RowStatus}
    (h : (s.processAs row forced).1 = .ok none) : s.isOpen = true ∧ Permitted forced := by
  have hopen : s.isOpen = true := by
    by_contra hclosed
    rw [processAs_closed (Bool.not_eq_true _ ▸ hclosed)] at h
    cases h
  refine ⟨hopen, ?_⟩
  by_contra hnot
  obtain ⟨status, hrun⟩ := processAs_refused hnot hopen row
  rw [hrun] at h
  cases h

variable [Transactional σ]

/-- **What the recovery is given of a row that failed.** After any calls, if a row fails and the
session goes on, the recovery was called once, with a transient storage error. If the lookups of the
row succeeded, it got the rows of the pending writes and, as the last one, this row, stamped as its
judgement asks, whichever statement failed or if the commit did. If a lookup failed, it got the rows
of the pending writes only. -/
theorem recovered_row_handed {o : Options} {clock : Clock} {id : String} {c : σ} {s₀ : Session σ}
    (hsound : Transactional.Sound c) (hbegin : begin o clock id c = .ok s₀)
    (calls : List Operation) (row : Row) (forced : Option RowStatus)
    (hnone : ((s₀.run calls).2.processAs row forced).1 = .ok none) :
    let s := (s₀.run calls).2
    let s' := (s.processAs row forced).2
    let earlier := (pendingWrites o (s₀.run calls).1).map Write.row
    ∃ cause rows, cause.code.isTransient = true ∧
      s'.storage.recovered = s.storage.recovered ++ [(.storage cause, rows)] ∧
      ((s.lookupError? row s.clock.next = none ∧
          ∃ natural, Judged s.options.layout row s.clock.next s.working natural ∧
            rows = earlier ++
              [stamped s.options s.validTo (force forced natural).1 s.clock.next row]) ∨
        (s.lookupError? row s.clock.next = some cause ∧ rows = earlier)) := by
  intro s s' earlier
  obtain ⟨hopen, hforced⟩ := processAs_none hnone
  obtain ⟨hfit₀, hoptions, -⟩ := begin_spec hsound hbegin
  obtain ⟨hfit, -⟩ := run_fit hfit₀ calls
  obtain ⟨hgathered, -⟩ := gathered_run hfit₀ (gathered_begin hsound hbegin) calls hopen
  have hbackup : s.storage.batch.backup = earlier := by rw [hgathered.backup, hoptions]
  have hprocess : s.processAs row forced = s.processRow row forced := processAs_permitted hforced row
  have hreply : (s.processRow row forced).1 = .ok none := hprocess ▸ hnone
  obtain ⟨e, happly, -, hcalls, hend⟩ := processRow_failed hfit hopen row forced
    fun result h => nomatch hreply.symm.trans h
  obtain ⟨⟨recovery, hrecovery, -⟩, hrecoverable, -⟩ | ⟨-, herror, -⟩ := hend
  · obtain ⟨cause, rfl, htransient⟩ := isRecoverable_iff.mp hrecoverable
    have hcalls' : s'.storage.recovered =
        s.storage.recovered ++ [(.storage cause, s.lostRows row forced)] := by
      show (s.processAs row forced).2.storage.recovered = _
      rw [hprocess, hcalls, handed, hrecovery]
      rfl
    refine ⟨cause, s.lostRows row forced, htransient, hcalls', ?_⟩
    unfold lostRows
    rw [hbackup]
    obtain ⟨hlookup, hrecorded⟩ | ⟨hlookup, natural, hjudge, hrecorded⟩ := apply_failed happly
    · exact .inr ⟨hlookup, by rw [hrecorded]; exact List.append_nil _⟩
    · obtain ⟨-, -, ⟨natural', hok, -, -, hjudged⟩ | ⟨⟨e, herror⟩, -⟩⟩ :=
        does_judge hfit.tick row s.clock.next _ _ rfl
      · obtain rfl : natural = natural' := Except.ok.inj (hjudge.symm.trans hok)
        exact .inl ⟨hlookup, natural, hjudged, by rw [hrecorded]; rfl⟩
      · exact nomatch hjudge.symm.trans herror
  · exact nomatch hreply.symm.trans herror

/-- The second row of a batch is handed over behind the first when the automatic commit is refused. -/
theorem busy_commit_hands_row :
    ∃ s₀ : Session (Traced Store),
      begin Sample.options Sample.clock "sample" (Sample.store [⟨.commit, 1, Sample.busy⟩]) = .ok s₀ ∧
      let s := (s₀.run Sample.oneRow).2
      let row := Sample.customer 2 "Bo" "Bonn"
      (s.processAs row none).1 = .ok none ∧
      ∃ cause natural first, cause.code.isTransient = true ∧
        Judged s.options.layout row s.clock.next s.working natural ∧
        (s.processAs row none).2.storage.recovered = [(.storage cause,
          [first, stamped s.options s.validTo (force none natural).1 s.clock.next row])] := by
  have hcheck : okAnd (begin Sample.options Sample.clock "sample"
      (Sample.store [⟨.commit, 1, Sample.busy⟩])) (fun s₀ =>
        let s := (s₀.run Sample.oneRow).2
        let row := Sample.customer 2 "Bo" "Bonn"
        okAnd (s.processAs row none).1 Option.isNone && s.storage.recovered == [] &&
          (s.lookupError? row s.clock.next).isNone &&
          (pendingWrites Sample.options (s₀.run Sample.oneRow).1).length == 1) = true := by
    rw [Store.connection_eq Sample.options]
    decide +kernel
  obtain ⟨s₀, hbegin, hs₀⟩ := exists_of_okAnd hcheck
  simp only [Bool.and_eq_true, beq_iff_eq, Option.isNone_iff_eq_none] at hs₀
  obtain ⟨⟨⟨hreply, hcalls⟩, hlookup⟩, hpending⟩ := hs₀
  obtain ⟨reply, hok, hnone⟩ := exists_of_okAnd hreply
  have hreply' := hok.trans (congrArg Except.ok (Option.isNone_iff_eq_none.mp hnone))
  have hsound := Sample.sound_store [⟨.commit, 1, Sample.busy⟩] (by simp)
  obtain ⟨cause, rows, htransient, hrecovered, ⟨-, natural, hjudged, hrows⟩ | ⟨hfailed, -⟩⟩ :=
    recovered_row_handed hsound hbegin Sample.oneRow (Sample.customer 2 "Bo" "Bonn") none hreply'
  · obtain ⟨w, hw⟩ := List.length_eq_one_iff.mp hpending
    refine ⟨s₀, hbegin, hreply', cause, natural, w.row, htransient, hjudged, ?_⟩
    rw [hrecovered, hcalls, hrows, hw]
    rfl
  · exact nomatch hlookup.symm.trans hfailed

/-- The first row of a session is lost to a busy database at one of its queries: the session goes on, and
the recovery was given no row at all. -/
def Loses (query : Nat) : Prop :=
  ∃ s₀ : Session (Traced Store),
    begin Sample.options Sample.clock "sample" (Sample.store [⟨.query, query, Sample.busy⟩]) = .ok s₀ ∧
    let s := (s₀.run [.recovery Sample.acceptAll]).2
    let (reply, s') := s.processAs (Sample.customer 1 "Ann" "Ulm") none
    reply = .ok none ∧ s'.isOpen = true ∧
    s'.storage.recovered = [(.storage { code := .busy, message := "database is locked" }, [])]

theorem loses_of_check {query : Nat} (h : okAnd (begin Sample.options Sample.clock "sample"
      (Sample.store [⟨.query, query, Sample.busy⟩])) (fun s₀ =>
        let s := (s₀.run [.recovery Sample.acceptAll]).2
        let (reply, s') := s.processAs (Sample.customer 1 "Ann" "Ulm") none
        okAnd reply Option.isNone && s'.isOpen && s'.storage.recovered ==
          [(.storage { code := .busy, message := "database is locked" }, [])]) = true) :
    Loses query := by
  obtain ⟨s₀, hbegin, hs₀⟩ := exists_of_okAnd h
  simp only [Bool.and_eq_true, beq_iff_eq] at hs₀
  obtain ⟨⟨hreply, hopen⟩, hrecovered⟩ := hs₀
  obtain ⟨reply, hok, hnone⟩ := exists_of_okAnd hreply
  exact ⟨s₀, hbegin, hok.trans (congrArg Except.ok (Option.isNone_iff_eq_none.mp hnone)), hopen,
    hrecovered⟩

/-- **A failed lookup keeps a row from the recovery**, be it the lookup of the active version or that of
the latest. -/
theorem busy_lookup_keeps_row : Loses 1 ∧ Loses 2 :=
  ⟨loses_of_check (by rw [Store.connection_eq Sample.options]; decide +kernel),
    loses_of_check (by rw [Store.connection_eq Sample.options]; decide +kernel)⟩

end RowHistory.Session
