import RowHistory.Proofs.Connection.Evaluation
import RowHistory.Proofs.Connection.Store
import RowHistory.Proofs.Session.Steps

/-!
# Runs of calls

A session is asked for one thing after the other. This file fixes

* the calls and their replies (`Operation`, `Reply`), and a run of calls (`Session.run`);
* that the promises of a session hold after every run (`run_fit`);
* what a call can do to an open session (`Moved`), in terms of its reply (`answer_moved`), and what
  a row did that got a result (`told_spec`).
-/

namespace RowHistory

open Sql (Database)

/-- What can be asked of a session. -/
inductive Operation where
  /-- A row is processed, with a status that may be forced on it. -/
  | row (row : Row) (forced : Option RowStatus)
  | purge
  | finish
  | close
  /-- A recovery is set. -/
  | recovery (recovery : Recovery Failure)

/-- What a session answers. -/
inductive Reply where
  | row (r : Except Failure (Option RowResult))
  | purge (r : Except Failure Nat)
  /-- The answer to the end of a session. -/
  | ended (r : Except Failure Unit)
  | recovery (r : Except Failure Unit)

/-- The result that a reply gives. -/
def Reply.result? : Reply → Option RowResult
  | .row (.ok (some result)) => some result
  | _ => none

/-- Two batches of one size are the same once they are empty. -/
theorem Batch.clear_eq {α : Type} {b b' : Batch α} (h : b'.size = b.size) : b'.clear = b.clear := by
  unfold Batch.clear
  rw [h]

namespace Session

variable {σ : Type} [Connection σ]

/-- The answer to a call, and the session after it. -/
def answer (s : Session σ) : Operation → Reply × Session σ
  | .row row forced => (s.processAs row forced).map .row id
  | .purge => s.purge.map .purge id
  | .finish => s.finish.map .ended id
  | .close => s.close.map .ended id
  | .recovery recovery => (s.setRecovery recovery).map .recovery id

theorem answer_row {s s' : Session σ} {row : Row} {forced : Option RowStatus}
    {result : Except Failure (Option RowResult)} (h : s.processAs row forced = (result, s')) :
    s.answer (.row row forced) = (.row result, s') := by
  show (s.processAs row forced).map Reply.row id = _
  rw [h]
  rfl

/-- The answers to calls, one after the other, and the session after them. -/
def run (s : Session σ) : List Operation → List Reply × Session σ
  | [] => ([], s)
  | call :: calls =>
    let (reply, s) := s.answer call
    let (replies, s) := s.run calls
    (reply :: replies, s)

theorem run_cons (s : Session σ) (call : Operation) (calls : List Operation) :
    s.run (call :: calls) = ((s.answer call).1 :: ((s.answer call).2.run calls).1,
      ((s.answer call).2.run calls).2) :=
  rfl

/-- The last call of a run. -/
theorem run_concat (s : Session σ) (calls : List Operation) (call : Operation) :
    s.run (calls ++ [call]) = ((s.run calls).1 ++ [((s.run calls).2.answer call).1],
      ((s.run calls).2.answer call).2) := by
  induction calls generalizing s with
  | nil => rfl
  | cons c cs ih => rw [List.cons_append, run_cons, ih, run_cons, List.cons_append]

theorem length_run (s : Session σ) (calls : List Operation) :
    (s.run calls).1.length = calls.length := by
  induction calls generalizing s with
  | nil => rfl
  | cons c cs ih => rw [run_cons, List.length_cons, ih, List.length_cons]

variable [Transactional σ] {s : Session σ}

/-! ## 1. Rows -/

/-- Statuses that may be forced on a row, or none. -/
def Permitted (forced : Option RowStatus) : Prop :=
  forced = none ∨ forced = some .identical ∨ forced = some .purged

instance (forced : Option RowStatus) : Decidable (Permitted forced) :=
  inferInstanceAs (Decidable (_ ∨ _))

omit [Transactional σ] in
theorem processAs_permitted {forced : Option RowStatus} (h : Permitted forced) (row : Row) :
    s.processAs row forced = s.processRow row forced := by
  rcases h with rfl | rfl | rfl <;> rfl

omit [Transactional σ] in
/-- Any other status closes the session. -/
theorem processAs_status {status : RowStatus} (h : ¬ Permitted (some status)) (hopen : s.isOpen = true)
    (row : Row) : s.processAs row (some status) =
      (.error (.statusNotAllowed status), s.abort (.statusNotAllowed status)) := by
  cases status with
  | identical => exact absurd (.inr (.inl rfl)) h
  | purged => exact absurd (.inr (.inr rfl)) h
  | _ =>
    unfold processAs
    rw [hopen]
    rfl

omit [Transactional σ] in
theorem processAs_refused {forced : Option RowStatus} (h : ¬ Permitted forced)
    (hopen : s.isOpen = true) (row : Row) :
    ∃ status, s.processAs row forced =
      (.error (.statusNotAllowed status), s.abort (.statusNotAllowed status)) := by
  cases forced with
  | none => exact absurd (.inl rfl) h
  | some status => exact ⟨status, processAs_status h hopen row⟩

omit [Transactional σ] in
theorem processAs_closed (hclosed : s.isOpen = false) (row : Row) (forced : Option RowStatus) :
    s.processAs row forced = (.error .sessionClosed, s) := by
  have hrow : ∀ forced, s.processRow row forced = (.error .sessionClosed, s) := by
    intro forced
    unfold processRow
    rw [hclosed]
    rfl
  cases forced with
  | none => exact hrow none
  | some status =>
    cases status with
    | identical => exact hrow _
    | purged => exact hrow _
    | _ =>
      unfold processAs
      rw [hclosed]
      rfl

omit [Transactional σ] in
/-- Only an open session gives results. -/
theorem isOpen_of_told {row : Row} {forced : Option RowStatus} {result : RowResult}
    {s' : Session σ} (h : s.processAs row forced = (.ok (some result), s')) : s.isOpen = true := by
  cases hclosed : s.isOpen with
  | true => rfl
  | false =>
    rw [processAs_closed hclosed] at h
    cases h

omit [Transactional σ] in
/-- A row that gets a result has a status that may be forced on it, or none. -/
theorem processRow_of_result {row : Row} {forced : Option RowStatus} {result : RowResult}
    {s₁ : Session σ}
    (h : s.processAs row forced = (.ok (some result), s₁)) :
    Permitted forced ∧ s.processRow row forced = (.ok (some result), s₁) := by
  by_cases hp : Permitted forced
  · exact ⟨hp, (processAs_permitted hp row).symm.trans h⟩
  · obtain ⟨status, hrefused⟩ := processAs_refused hp (isOpen_of_told h) row
    rw [hrefused] at h
    cases h

omit [Transactional σ] in
/-- A result is the answer to a row. -/
theorem processAs_of_result {call : Operation} (h : (s.answer call).1.result?.isSome = true) :
    ∃ row forced result s₁, call = .row row forced ∧
      s.processAs row forced = (.ok (some result), s₁) := by
  cases call with
  | row row forced =>
    cases hrun : s.processAs row forced with
    | mk x s₁ =>
      rw [answer_row hrun] at h
      match x, h with
      | .ok (some result), _ => exact ⟨row, forced, result, s₁, rfl, hrun⟩
  | purge | finish | close | recovery => cases h

/-! ## 2. What every call keeps -/

omit [Transactional σ] in
/-- A session that is closed stays as it is. -/
theorem answer_closed (hclosed : s.isOpen = false) (call : Operation) : (s.answer call).2 = s := by
  cases call with
  | row row forced =>
    show (s.processAs row forced).2 = s
    rw [processAs_closed hclosed]
  | purge =>
    show s.purge.2 = s
    unfold purge
    rw [hclosed]
    split <;> rfl
  | finish =>
    show s.finish.2 = s
    unfold finish
    rw [hclosed]
    rfl
  | close =>
    show s.close.2 = s
    unfold close
    rw [hclosed]
    rfl
  | recovery recovery =>
    show (s.setRecovery recovery).2 = s
    unfold setRecovery
    rw [hclosed]
    rfl

omit [Transactional σ] in
theorem run_closed (hclosed : s.isOpen = false) (calls : List Operation) : (s.run calls).2 = s := by
  induction calls with
  | nil => rfl
  | cons call calls ih => rw [run_cons, answer_closed hclosed call, ih]

/-- What a call can do to an open session. -/
inductive Moved (s : Session σ) : Operation → Reply → Session σ → Prop
  /-- A row was judged and written. -/
  | applied {row : Row} {forced : Option RowStatus} {result : RowResult} {s' : Session σ} :
      Permitted forced → Applied row forced s.clock.next s result s' → s'.isOpen = true →
      s'.clock = s.clock.tick.2 → Moved s (.row row forced) (.row (.ok (some result))) s'
  /-- A row failed and was undone, and the session goes on. -/
  | undone {row : Row} {forced : Option RowStatus} {s' : Session σ} :
      Permitted forced → s'.durable = s.durable → s'.working = s'.durable →
      s'.storage.batch = s.storage.batch.clear → s'.isOpen = true →
      s'.clock = s.clock.tick.2 → Moved s (.row row forced) (.row (.ok none)) s'
  /-- Rows were purged. -/
  | swept {n : Nat} {s' : Session σ} : Swept s.clock.next s s' → s'.clock = s.clock.tick.2 →
      Moved s .purge (.purge (.ok n)) s'
  /-- A recovery was set. -/
  | set {recovery : Recovery Failure} {s' : Session σ} : s'.durable = s.durable →
      s'.working = s.working → s'.storage.batch = s.storage.batch → s'.isOpen = true →
      s'.clock = s.clock → Moved s (.recovery recovery) (.recovery (.ok ())) s'
  /-- A purge was refused, for nothing is tracked. -/
  | refused {e : Failure} : Moved s .purge (.purge (.error e)) s
  /-- The session was closed, and nothing was committed. -/
  | closed {call : Operation} {reply : Reply} {s' : Session σ} : (∀ r, reply ≠ .row (.ok r)) →
      s'.durable = s.durable → s'.isOpen = false →
      (s'.clock = s.clock ∨ s'.clock = s.clock.tick.2) → Moved s call reply s'
  /-- The session was ended. -/
  | finished {reply : Reply} {s' : Session σ} : (∀ r, reply ≠ .row (.ok r)) →
      (s'.durable = s.working ∨ (s'.clock = s.clock.tick.2 ∧ ∃ answer,
        s.options.layout.swept (Transactional.judge σ) s.start s.clock.next s.options.purgeWhere
          s.working = some (answer, s'.durable))) → s'.isOpen = false →
      (s'.clock = s.clock ∨ s'.clock = s.clock.tick.2) → Moved s .finish reply s'

theorem Applied.counted {row : Row} {forced : Option RowStatus} {now : Instant}
    {result : RowResult} {s' : Session σ} (h : Applied row forced now s.tick.2 result s')
    (f : Counters → Counters) : Applied row forced now s result (s'.counted f) :=
  ⟨h.identified, h.judged, h.written, h.settled⟩

/-- A call takes one tick at most. -/
theorem Moved.clock {call : Operation} {reply : Reply} {s' : Session σ} (h : Moved s call reply s') :
    s'.clock = s.clock ∨ s'.clock = s.clock.tick.2 := by
  cases h with
  | applied _ _ _ hclock => exact .inr hclock
  | undone _ _ _ _ _ hclock => exact .inr hclock
  | swept _ hclock => exact .inr hclock
  | set _ _ _ _ hclock => exact .inl hclock
  | refused => exact .inl rfl
  | closed _ _ _ hclock => exact hclock
  | finished _ _ _ hclock => exact hclock

theorem processRow_moved (hs : s.Fit) (hopen : s.isOpen = true) (row : Row)
    {forced : Option RowStatus} (hp : Permitted forced) :
    (s.processRow row forced).2.Fit ∧ Same s (s.processRow row forced).2 ∧
    Moved s (.row row forced) (.row (s.processRow row forced).1) (s.processRow row forced).2 := by
  obtain ⟨result, s', hrun, hfit, hstays, happlied⟩ | ⟨e, s', -, hrun, hfit, hstays, hd, hb⟩ :=
    processRow_cases hs hopen row forced
  · rw [hrun]
    exact ⟨hfit.counted _, ⟨hstays.options, hstays.start, hstays.validTo⟩,
      .applied hp (happlied.counted _) (hstays.isOpen.trans hopen) hstays.clock⟩
  · rw [hrun]
    have hopen' : s'.isOpen = true := hstays.isOpen.trans hopen
    obtain ⟨hfit', hsame, hclock, hd', -, -, hend⟩ := recover_spec hfit hopen' e
    refine ⟨hfit', ⟨hsame.options.trans hstays.options, hsame.start.trans hstays.start,
      hsame.validTo.trans hstays.validTo⟩, ?_⟩
    obtain ⟨-, -, hreply, hopen₂, hw₂, hb₂⟩ | ⟨-, hreply, hclosed⟩ := hend
    · rw [hreply]
      refine .undone hp (hd'.trans hd) hw₂ ?_ hopen₂ (hclock.trans hstays.clock)
      rw [hb₂]
      exact Batch.clear_eq hstays.storage.size
    · rw [hreply]
      exact .closed (by simp) (hd'.trans hd) hclosed (.inr (hclock.trans hstays.clock))

/-- **Every call keeps the promises of a session**, its options and its bounds, and does one of
few things to it. -/
theorem answer_moved (hs : s.Fit) (hopen : s.isOpen = true) (call : Operation) :
    (s.answer call).2.Fit ∧ Same s (s.answer call).2 ∧
    Moved s call (s.answer call).1 (s.answer call).2 := by
  cases call with
  | row row forced =>
    show (s.processAs row forced).2.Fit ∧ Same s (s.processAs row forced).2 ∧
      Moved s _ (.row (s.processAs row forced).1) (s.processAs row forced).2
    by_cases hp : Permitted forced
    · rw [processAs_permitted hp]
      exact processRow_moved hs hopen row hp
    · obtain ⟨status, hrun⟩ := processAs_refused hp hopen row
      rw [hrun]
      obtain ⟨hfit, hsame, hclosed, hclock, hd, -⟩ := abort_spec hs hopen (.statusNotAllowed status)
      exact ⟨hfit, hsame, .closed (by simp) hd hclosed (.inl hclock)⟩
  | purge =>
    show s.purge.2.Fit ∧ Same s s.purge.2 ∧ Moved s _ (.purge s.purge.1) s.purge.2
    by_cases htracks : s.options.names.tracksLastSeen = true
    · obtain ⟨hfit, hsame, hclock, ⟨n, hreply, hswept⟩ | ⟨e, hreply, hclosed, hd⟩⟩ :=
        purge_cases hs hopen htracks
      · rw [hreply]
        exact ⟨hfit, hsame, .swept hswept hclock⟩
      · rw [hreply]
        exact ⟨hfit, hsame, .closed (by simp) hd hclosed (.inr hclock)⟩
    · have hrun : s.purge = (.error (.config "purge requires field_names.last_seen"), s) := by
        unfold purge
        rw [Bool.not_eq_true] at htracks
        rw [htracks]
        rfl
      rw [hrun]
      exact ⟨hs, .refl s, .refused⟩
  | finish =>
    obtain ⟨hfit, hsame, hclosed, hclock, hd⟩ := finish_cases hs hopen
    refine ⟨hfit, hsame, ?_⟩
    obtain hd | hd := hd
    · exact .closed (fun _ h => nomatch h) hd hclosed hclock
    · exact .finished (fun _ h => nomatch h) hd hclosed hclock
  | close =>
    obtain ⟨hfit, hsame, hclosed, hclock, hd, -⟩ := close_spec hs hopen
    exact ⟨hfit, hsame, .closed (fun _ h => nomatch h) hd hclosed (.inl hclock)⟩
  | recovery recovery =>
    have hrun : s.answer (.recovery recovery) = (.recovery (.ok ()),
        { s with storage := { s.storage with recovery := some recovery } }) := by
      show (s.setRecovery recovery).map Reply.recovery id = _
      unfold setRecovery
      rw [hopen]
      rfl
    rw [hrun]
    exact ⟨⟨⟨hs.storage.sound, hs.storage.cached⟩, hs.layout, hs.size, hs.valid⟩, ⟨rfl, rfl, rfl⟩,
      .set rfl rfl rfl hopen rfl⟩

/-- **A row that gets a result was judged and written.** -/
theorem told_spec (hs : s.Fit) {row : Row} {forced : Option RowStatus} {result : RowResult}
    {s' : Session σ} (h : s.processAs row forced = (.ok (some result), s')) :
    s'.Fit ∧ Same s s' ∧ Permitted forced ∧ Applied row forced s.clock.next s result s' ∧
    s'.isOpen = true ∧ s'.clock = s.clock.tick.2 := by
  obtain ⟨hfit, hsame, hmoved⟩ := answer_moved hs (isOpen_of_told h) (.row row forced)
  rw [answer_row h] at hfit hsame hmoved
  cases hmoved with
  | applied hp happlied hopen hclock => exact ⟨hfit, hsame, hp, happlied, hopen, hclock⟩
  | closed hreply => exact absurd rfl (hreply _)

theorem answer_fit (hs : s.Fit) (call : Operation) :
    (s.answer call).2.Fit ∧ Same s (s.answer call).2 := by
  cases hopen : s.isOpen with
  | false =>
    rw [answer_closed hopen]
    exact ⟨hs, .refl s⟩
  | true =>
    obtain ⟨hfit, hsame, -⟩ := answer_moved hs hopen call
    exact ⟨hfit, hsame⟩

theorem answer_clock (hs : s.Fit) (call : Operation) :
    (s.answer call).2.clock = s.clock ∨ (s.answer call).2.clock = s.clock.tick.2 := by
  cases hopen : s.isOpen with
  | false =>
    rw [answer_closed hopen]
    exact .inl rfl
  | true =>
    obtain ⟨-, -, hmoved⟩ := answer_moved hs hopen call
    exact hmoved.clock

/-- The promises of a session hold after every run. -/
theorem run_fit (hs : s.Fit) (calls : List Operation) : (s.run calls).2.Fit ∧ Same s (s.run calls).2 := by
  induction calls generalizing s with
  | nil => exact ⟨hs, .refl s⟩
  | cons call calls ih =>
    obtain ⟨hfit, hsame⟩ := answer_fit hs call
    obtain ⟨hfit', hsame'⟩ := ih hfit
    exact ⟨hfit', hsame.trans hsame'⟩

end Session

/-! ## 3. A small session -/

namespace Sample

/-- A table of customers, whose names are versioned and whose cities are updated in place. -/
def table : Sql.Table :=
  { name := "customers"
    columns := [⟨"id", .integer, false⟩, ⟨"name", .text, false⟩, ⟨"city", .text, false⟩,
      ⟨"version", .integer, false⟩, ⟨"dateFrom", .text, false⟩, ⟨"dateTo", .text, false⟩,
      ⟨"seen", .text, false⟩] }

/-- Two writes make a transaction. -/
def options : Options :=
  { table := "customers"
    commitSize := 2
    names := { lastSeen := some "seen" }
    fields := ⟨[⟨"id", .id, .integer⟩, ⟨"name", .compare, .string⟩, ⟨"city", .update, .string⟩]⟩ }

def clock : Clock :=
  Clock.startingAt (Instant.ofSeconds 1704067200)

/-- A customer. -/
def customer (id : Int) (name city : String) : Row :=
  ((Row.empty.set "id" (.int64 id)).set "name" (.text name)).set "city" (.text city)

/-- The database, on which some requests fail. -/
def store (triggers : List Trigger) : Traced Store :=
  { inner := { target := .file "customers.db", file := { content := ⟨[table]⟩ } }
    triggers }

/-- Another connection holds a lock. -/
def busy : Fault :=
  .failing { code := .busy, message := "database is locked" }

/-- A recovery that accepts everything. -/
def acceptAll : Recovery Failure :=
  fun _ _ => (true, [])

/-- A store that fails only before a rollback keeps its promises. -/
theorem sound_store (triggers : List Trigger)
    (h : ∀ t ∈ triggers, t.kind = .rollback → t.fault = .disconnect) :
    Transactional.Sound (store triggers) :=
  ⟨⟨rfl, rfl⟩, h⟩

/-- What a session sees of its store. -/
def visible (s : Session (Traced Store)) : Sql.Database :=
  if s.storage.held then s.storage.connection.inner.view else s.storage.connection.inner.file.content

theorem working_eq : (Session.working : Session (Traced Store) → Sql.Database) = visible :=
  rfl

theorem durable_eq : (Session.durable : Session (Traced Store) → Sql.Database) =
    fun s => s.storage.connection.inner.file.content :=
  rfl

end Sample

/-- A success that passes a check. -/
def okAnd {ε α : Type} (x : Except ε α) (p : α → Bool) : Bool :=
  match x with
  | .ok a => p a
  | .error _ => false

theorem exists_of_okAnd {ε α : Type} {x : Except ε α} {p : α → Bool} (h : okAnd x p = true) :
    ∃ a, x = .ok a ∧ p a = true := by
  cases x with
  | ok a => exact ⟨a, rfl, h⟩
  | error e => cases h

end RowHistory
