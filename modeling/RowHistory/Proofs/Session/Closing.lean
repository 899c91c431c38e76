import RowHistory.Proofs.Session.Success

/-!
# Closed sessions

Once a session is closed it is inert: a call is refused and changes nothing at all, neither the
session nor its database. What was pending when the closing call came is lost, unless that call is an
end that got as far as a commit. This file fixes

* the replies of a closed session (`Refused`), to every run of calls (`run_refused`);
* whether an end commits (`endCommits`), and what is committed then (`finish_durable`);
* the main statement (`closed_session_inert`).
-/

namespace RowHistory

open Sql (Database)

/-- How a closed session replies: it has nothing left to close, and everything else is refused. -/
inductive Refused : Operation → Reply → Prop
  | row (row : Row) (forced : Option RowStatus) :
      Refused (.row row forced) (.row (.error .sessionClosed))
  /-- A purge may be refused for another reason. -/
  | purge (e : Failure) : Refused .purge (.purge (.error e))
  | finish : Refused .finish (.ended (.error .sessionClosed))
  | close : Refused .close (.ended (.ok ()))
  | recovery (recovery : Recovery Failure) :
      Refused (.recovery recovery) (.recovery (.error .sessionClosed))

namespace Session

variable {σ : Type} [Connection σ] {s : Session σ}

/-! ## 1. After the close -/

theorem answer_refused (hclosed : s.isOpen = false) (call : Operation) :
    Refused call (s.answer call).1 := by
  cases call with
  | row row forced =>
    rw [answer_row (processAs_closed hclosed row forced)]
    exact .row row forced
  | purge =>
    show Refused .purge (.purge s.purge.1)
    unfold purge
    rw [hclosed]
    split
    · exact .purge _
    · exact .purge _
  | finish =>
    show Refused .finish (.ended s.finish.1)
    unfold finish
    rw [hclosed]
    exact .finish
  | close =>
    show Refused .close (.ended s.close.1)
    unfold close
    rw [hclosed]
    exact .close
  | recovery recovery =>
    show Refused _ (.recovery (s.setRecovery recovery).1)
    unfold setRecovery
    rw [hclosed]
    exact .recovery recovery

/-- **All calls to a closed session are refused.** -/
theorem run_refused (hclosed : s.isOpen = false) (calls : List Operation) :
    List.Forall₂ Refused calls (s.run calls).1 := by
  induction calls with
  | nil => exact .nil
  | cons call calls ih =>
    rw [run_cons, answer_closed hclosed call]
    exact .cons (answer_refused hclosed call) ih

/-! ## 2. The closing call -/

/-- The end of a session gets as far as a commit: that of its purge, or its own. -/
def endCommits (s : Session σ) : Bool :=
  if s.options.purge then s.purge.1.isOk else (Storage.commit.run.run s.storage).1.isOk

/-- What is pending when the end of a session begins, with what its purge ended. -/
def endSees [Transactional σ] (s : Session σ) : Database :=
  if s.options.purge then s.purge.2.working else s.working

variable [Transactional σ]

/-- The last part of an end keeps what was pending exactly if it commits. -/
theorem commitAndClose_durable (hs : s.Fit) (hopen : s.isOpen = true) :
    s.commitAndClose.2.durable =
      if (Storage.commit.run.run s.storage).1.isOk then s.working else s.durable := by
  unfold commitAndClose
  cases hrun : Storage.commit.run.run s.storage with
  | mk x storage =>
    obtain ⟨hfit, hstays, ⟨u, rfl, hd, -, -⟩ | ⟨⟨e, rfl⟩, hcalm⟩⟩ :=
      Storage.does_commit hs.storage x storage hrun
    · have hnew : Fit { s with storage } :=
        ⟨hfit, hstays.layout.trans hs.layout, hstays.size.trans hs.size, hs.valid⟩
      obtain ⟨-, -, -, -, hd₂, -⟩ := close_spec (hnew.logged _) hopen
      exact hd₂.trans hd
    · have hnew : Fit { s with storage } :=
        ⟨hfit, hstays.layout.trans hs.layout, hstays.size.trans hs.size, hs.valid⟩
      obtain ⟨-, -, -, -, -, hd₂⟩ := failWith_spec (α := Unit) hnew hopen e
      exact hd₂.trans hcalm.durable

/-- **What an end leaves behind**: all that it saw if it got as far as a commit, and else what was
committed before. -/
theorem finish_durable (hs : s.Fit) (hopen : s.isOpen = true) :
    s.finish.2.durable = if s.endCommits then s.endSees else s.durable := by
  unfold finish endCommits endSees
  rw [hopen]
  simp only [Bool.not_true, Bool.false_eq_true, ↓reduceIte]
  by_cases hpurge : s.options.purge = true
  · obtain ⟨hfit, -, -, hend⟩ := purge_cases hs hopen (Options.tracks_of_validate hs.valid hpurge)
    simp only [hpurge, ↓reduceIte]
    cases hrun : s.purge with
    | mk x s₁ =>
      rw [hrun] at hfit hend
      obtain ⟨n, rfl, hswept⟩ | ⟨e, rfl, -, hd⟩ := hend
      · -- The purge has committed, so that the last commit adds nothing.
        show s₁.commitAndClose.2.durable = s₁.working
        rw [commitAndClose_durable hfit hswept.isOpen, hswept.durable]
        exact ite_self _
      · exact hd
  · simp only [hpurge, Bool.false_eq_true, ↓reduceIte]
    exact commitAndClose_durable hs hopen

/-- A call that closes a session keeps what was committed, unless it is an end. -/
theorem closed_durable (hs : s.Fit) (hopen : s.isOpen = true) {call : Operation}
    (hclosed : (s.answer call).2.isOpen = false) (hcall : call ≠ .finish) :
    (s.answer call).2.durable = s.durable := by
  obtain ⟨-, -, hmoved⟩ := answer_moved hs hopen call
  generalize (s.answer call).1 = reply at hmoved
  generalize (s.answer call).2 = s₁ at hmoved hclosed ⊢
  cases hmoved with
  | applied _ _ hopen₁ => exact nomatch hclosed.symm.trans hopen₁
  | undone _ _ _ _ hopen₁ => exact nomatch hclosed.symm.trans hopen₁
  | swept hswept => exact nomatch hclosed.symm.trans hswept.isOpen
  | set _ _ _ hopen₁ => exact nomatch hclosed.symm.trans hopen₁
  | refused => rfl
  | closed _ hd => exact hd
  | finished => exact absurd rfl hcall

/-! ## 3. Inert -/

/-- **A closed session is inert.** Whatever call closed it, all later calls are refused and leave
the whole session as it is: its database and connection, its counters, and what was handed to the
recovery. What was pending when the closing call came is lost for good, unless that call is an end
that got as far as a commit, which keeps all that it saw. -/
theorem closed_session_inert {o : Options} {clock : Clock} {id : String} {c : σ} {s₀ : Session σ}
    (hbegin : begin o clock id c = .ok s₀) (before after : List Operation) {call : Operation}
    (hopen : (s₀.run before).2.isOpen = true)
    (hclosed : (s₀.run (before ++ [call])).2.isOpen = false) :
    let s := (s₀.run before).2
    let s₁ := (s₀.run (before ++ [call])).2
    (s₁.run after).2 = s₁ ∧ List.Forall₂ Refused after (s₁.run after).1 ∧
    (Transactional.Sound c →
      (¬ (call = .finish ∧ s.endCommits = true) → (s₁.run after).2.durable = s.durable) ∧
      (call = .finish ∧ s.endCommits = true → (s₁.run after).2.durable = s.endSees)) := by
  dsimp only
  refine ⟨run_closed hclosed after, run_refused hclosed after, fun hc => ?_⟩
  rw [run_closed hclosed after]
  rw [run_concat] at hclosed ⊢
  have hfit := (run_fit (begin_spec hc hbegin).1 before).1
  refine ⟨fun hlost => ?_, fun ⟨hcall, hcommits⟩ => ?_⟩
  · by_cases hcall : call = .finish
    · subst hcall
      exact (finish_durable hfit hopen).trans (if_neg fun hcommits => hlost ⟨rfl, hcommits⟩)
    · exact closed_durable hfit hopen hclosed hcall
  · subst hcall
    exact (finish_durable hfit hopen).trans (if_pos hcommits)

end Session

namespace Sample

/-- A customer who is not committed yet. -/
def oneCustomer : List Operation :=
  [.row (customer 1 "Ann" "Ulm") none]

/-- How many rows the tables of a session have that were committed. -/
def kept (s : Session (Traced Store)) : List Nat :=
  s.durable.tables.map (·.rows.length)

/-- Everything that can be asked for after the close. -/
def tooLate : List Operation :=
  [.row (customer 1 "Ann" "Bonn") none, .row (customer 1 "Ann" "Ulm") (some .purged), .purge, .finish,
    .recovery acceptAll, .close]

/-- A status that may not be forced closes the session, and the row that was pending is lost. -/
theorem refused_status_loses_row :
    ∃ s₀ : Session (Traced Store), Session.begin options clock "sample" (store []) = .ok s₀ ∧
      (s₀.run oneCustomer).2.storage.batch.pending = 1 ∧ (s₀.run oneCustomer).2.isOpen = true ∧
      let s₁ := (s₀.run (oneCustomer ++ [.row (customer 2 "Bo" "Ulm") (some .new)])).2
      s₁.isOpen = false ∧ (s₁.run tooLate).2 = s₁ ∧ List.Forall₂ Refused tooLate (s₁.run tooLate).1 ∧
      kept (s₁.run tooLate).2 = [0] := by
  have hcheck : okAnd (Session.begin options clock "sample" (store [])) (fun s₀ =>
      (s₀.run oneCustomer).2.storage.batch.pending = 1 && (s₀.run oneCustomer).2.isOpen &&
        !(s₀.run (oneCustomer ++ [.row (customer 2 "Bo" "Ulm") (some .new)])).2.isOpen &&
        kept (s₀.run oneCustomer).2 = [0]) = true := by
    rw [Store.connection_eq options]
    decide +kernel
  obtain ⟨s₀, hbegin, hs₀⟩ := exists_of_okAnd hcheck
  simp only [Bool.and_eq_true, decide_eq_true_eq, Bool.not_eq_true'] at hs₀
  obtain ⟨⟨⟨hpending, hopen⟩, hclosed⟩, hkept⟩ := hs₀
  obtain ⟨hsame, hrefused, hdurable⟩ := Session.closed_session_inert hbegin oneCustomer tooLate hopen hclosed
  have hlost := (hdurable (sound_store [] (by simp))).1 (by simp)
  exact ⟨s₀, hbegin, hpending, hopen, hclosed, hsame, hrefused, by rw [kept, hlost]; exact hkept⟩

/-- An end fails after a commit: the row that was pending is kept. -/
def EndKeeps (o : Options) (trigger : Trigger) : Prop :=
  ∃ s₀ : Session (Traced Store), Session.begin o clock "sample" (store [trigger]) = .ok s₀ ∧
    (s₀.run oneCustomer).2.storage.batch.pending = 1 ∧ kept (s₀.run oneCustomer).2 = [0] ∧
    (s₀.run oneCustomer).2.finish.1.isOk = false ∧ (s₀.run oneCustomer).2.finish.2.isOpen = false ∧
    kept (s₀.run oneCustomer).2.finish.2 = [1]

theorem endKeeps_of_check {o : Options} {trigger : Trigger}
    (h : okAnd (Session.begin o clock "sample" (store [trigger])) (fun s₀ =>
      (s₀.run oneCustomer).2.storage.batch.pending = 1 && kept (s₀.run oneCustomer).2 = [0] &&
        !(s₀.run oneCustomer).2.finish.1.isOk && !(s₀.run oneCustomer).2.finish.2.isOpen &&
        kept (s₀.run oneCustomer).2.finish.2 = [1]) = true) : EndKeeps o trigger := by
  obtain ⟨s₀, hbegin, hs₀⟩ := exists_of_okAnd h
  simp only [Bool.and_eq_true, decide_eq_true_eq, Bool.not_eq_true'] at hs₀
  obtain ⟨⟨⟨⟨hpending, hnone⟩, hfailed⟩, hclosed⟩, hkept⟩ := hs₀
  exact ⟨s₀, hbegin, hpending, hnone, hfailed, hclosed, hkept⟩

/-- An end that fails may have kept what was pending: by its commit, before the connection could not
be closed, or by its purge, before its commit was refused. -/
theorem failed_end_keeps_row :
    EndKeeps options ⟨.close, 1, .failing { code := .deviceError, message := "disk I/O error" }⟩ ∧
      EndKeeps { options with purge := true } ⟨.commit, 2, busy⟩ :=
  ⟨endKeeps_of_check (by rw [Store.connection_eq options]; decide +kernel),
    endKeeps_of_check (by rw [Store.connection_eq options]; decide +kernel)⟩

end Sample

end RowHistory
