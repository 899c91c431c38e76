import RowHistory.Connection.Traced
import RowHistory.Proofs.Connection.Judge

/-!
# Stores keep transactions

The tables of a store in a file, with no statements of their own to run on a new connection, are
transactional. So is a traced connection around such a one, whatever calls are made to fail, as
long as a rollback fails only by losing the connection. This file fixes

* what the parts of an access leave alone: only a commit changes the file;
* that a statement which succeeds does to the view of its link what it does by itself
  (`Access.perform_ok`);
* the two instances.
-/

namespace RowHistory

open Sql (Access Answer Cell Command Database File Hold Link Plan SqlError)

/-! ## 1. Plans -/

/-- A plan that does not write leaves the database alone. -/
theorem Sql.Plan.run_of_not_writes {p : Plan} {supplied : List Cell} {db db' : Database}
    {answer : Answer} (hp : p.writes = false) (h : p.run supplied db = .ok (answer, db')) :
    db' = db := by
  cases p with
  | nothing => cases h; rfl
  | constant => cases h; rfl
  | select table condition order =>
    simp only [Plan.run] at h
    split at h
    · cases h
    · split at h <;> (cases h; rfl)
  | insert | update | create => simp [Plan.writes] at hp

/-- An answer that counts comes from a plan that does. -/
theorem Sql.Plan.counts_of_run {p : Plan} {supplied : List Cell} {db db' : Database} {n : Nat}
    (h : p.run supplied db = .ok (.changed n, db')) : p.counts = true := by
  cases p with
  | nothing => cases h
  | constant => cases h
  | create => cases h
  | insert => rfl
  | update => rfl
  | select table condition order =>
    simp only [Plan.run] at h
    split at h
    · cases h
    · split at h <;> cases h

/-! ## 2. Access -/

namespace Sql.Access

variable {a a' : Access} {p : Plan} {c : Command}

@[simp] theorem file_withHold (hold : Hold) : (a.withHold hold).file = a.file := rfl

@[simp] theorem file_begin : a.begin.file = a.file := by
  unfold begin
  split <;> rfl

@[simp] theorem view_begin : a.begin.view = a.view := by
  unfold begin
  split
  · rename_i h
    simp [view, withHold, h]
  · rfl

@[simp] theorem file_counted (n : Nat) : (a.counted p n).file = a.file := by
  unfold counted
  split <;> rfl

@[simp] theorem view_counted (n : Nat) : (a.counted p n).view = a.view := by
  unfold counted
  split <;> rfl

theorem changes_counted (n : Nat) (hp : p.counts = true) : (a.counted p n).link.changes = n := by
  simp [counted, hp]

theorem inform_ok (h : a.inform = .ok a') : a'.file = a.file ∧ a'.view = a.view := by
  unfold inform at h
  split at h
  · cases h; exact ⟨rfl, rfl⟩
  · split at h
    · cases h
    · split at h
      · cases h
      · cases h; exact ⟨rfl, rfl⟩

theorem lockFor_ok (h : a.lockFor p = .ok a') : a'.file = a.file ∧ a'.view = a.view := by
  unfold lockFor at h
  split at h
  · unfold lockReserved at h
    split at h
    · cases h; exact ⟨rfl, rfl⟩
    · rename_i hold _
      split at h
      · cases h
      · split at h
        · cases h
        · cases h
          refine ⟨rfl, ?_⟩
          unfold view withHold
          split <;> simp_all
  · split at h
    · unfold lockShared at h
      split at h
      · cases h; exact ⟨rfl, rfl⟩
      · cases h; exact ⟨rfl, rfl⟩
      · split at h
        · cases h
        · cases h
          refine ⟨rfl, ?_⟩
          unfold view withHold
          split <;> simp_all
    · cases h; exact ⟨rfl, rfl⟩

/-- A plan keeps the file and the view, whether it is found or not. -/
theorem plan_cases (h : a.plan c = (r, a')) :
    a'.file = a.file ∧ a'.view = a.view ∧ (∀ p, r = .ok p → a.view.plan c = .ok p) := by
  unfold plan at h
  split at h
  · split at h
    · cases h
      exact ⟨rfl, rfl, fun p hp => by cases hp⟩
    · rename_i b hb
      obtain ⟨hf, hv⟩ := inform_ok hb
      cases h
      exact ⟨hf, hv, fun p hp => hv ▸ hp⟩
  · cases h
    exact ⟨rfl, rfl, fun p hp => hp⟩

/-- Running a plan keeps the file. If it succeeds, the view is what the plan makes of it. -/
theorem run_cases {supplied : List Cell} (h : a.run supplied p = (r, a')) :
    a'.file = a.file ∧ ∀ answer, r = .ok answer →
      p.run supplied a.view = .ok (answer, a'.view) ∧
        ∀ n, answer = .changed n → a'.link.changes = n := by
  unfold run at h
  split at h
  · cases h
    exact ⟨file_counted 0, fun _ hr => by cases hr⟩
  · rename_i b hb
    obtain ⟨hf, hv⟩ := lockFor_ok hb
    split at h
    · cases h
      exact ⟨(file_counted 0).trans hf, fun _ hr => by cases hr⟩
    · rename_i answer db hrun
      rw [hv] at hrun
      -- What the link sees afterwards is the plan's database in either case.
      have hview : (if p.writes then b.withHold (.writing db) else b).view = db := by
        by_cases hw : p.writes = true
        · simp [hw, view, withHold]
        · simp only [hw, Bool.false_eq_true, ↓reduceIte]
          rw [hv, Plan.run_of_not_writes (by simpa using hw) hrun]
      have hfile : (if p.writes then b.withHold (.writing db) else b).file = a.file := by
        split <;> simpa using hf
      cases answer with
      | changed count =>
        cases h
        refine ⟨by simpa using hfile, fun x hx => ?_⟩
        cases hx
        refine ⟨by simpa [hview] using hrun, fun n hn => ?_⟩
        cases hn
        exact changes_counted _ (Plan.counts_of_run hrun)
      | done =>
        cases h
        refine ⟨hfile, fun x hx => ?_⟩
        cases hx
        exact ⟨by rw [hview]; exact hrun, fun n hn => by cases hn⟩
      | row entries =>
        cases h
        refine ⟨hfile, fun x hx => ?_⟩
        cases hx
        exact ⟨by rw [hview]; exact hrun, fun n hn => by cases hn⟩

/-- **A statement never changes the file**, and if it succeeds, the link sees what the statement
makes of its view. -/
theorem perform_cases {sql : String} {supplied : List Cell} (h : a.perform sql supplied = (r, a')) :
    a'.file = a.file ∧ ∀ answer, r = .ok answer →
      a.view.perform sql supplied = .ok (answer, a'.view) ∧
        ∀ n, answer = .changed n → a'.link.changes = n := by
  cases hread : Command.read sql with
  | error e =>
    simp only [perform, hread, Prod.mk.injEq] at h
    obtain ⟨rfl, rfl⟩ := h
    exact ⟨file_begin, fun _ hr => by cases hr⟩
  | ok reading =>
    simp only [perform, hread] at h
    cases hplan : a.begin.plan reading.command with
    | mk planned b =>
      obtain ⟨hf, hv, hp⟩ := plan_cases hplan
      rw [file_begin] at hf
      rw [view_begin] at hv hp
      cases planned with
      | error e =>
        simp only [hplan, Prod.mk.injEq] at h
        obtain ⟨rfl, rfl⟩ := h
        exact ⟨hf, fun _ hr => by cases hr⟩
      | ok p =>
        simp only [hplan] at h
        by_cases hlen : supplied.length = reading.parameters
        · rw [if_pos hlen] at h
          obtain ⟨hf', hr⟩ := run_cases h
          refine ⟨hf'.trans hf, fun answer he => ?_⟩
          obtain ⟨hrun, hcount⟩ := hr answer he
          refine ⟨?_, hcount⟩
          rw [hv] at hrun
          simp only [Database.perform, hread, hp p rfl, hlen, ↓reduceIte, hrun]
        · rw [if_neg hlen, Prod.mk.injEq] at h
          obtain ⟨rfl, rfl⟩ := h
          exact ⟨hf, fun _ hr => by cases hr⟩

theorem prepare_cases {sql : String} (h : a.prepare sql = (r, a')) :
    a'.file = a.file ∧ a'.view = a.view := by
  unfold prepare at h
  split at h
  · cases h; exact ⟨rfl, rfl⟩
  · split at h
    all_goals
      rename_i hplan
      cases h
      exact ⟨(plan_cases hplan).1, (plan_cases hplan).2.1⟩

/-- A commit makes what the link sees the content of the file, or changes nothing in it. -/
theorem commit_cases (h : a.commit = (r, a')) :
    (∀ e, r = .error e → a'.file.content = a.file.content) ∧
      (r = .ok () → a'.file.content = a.view ∧ a'.view = a.view) := by
  unfold commit at h
  split at h
  · rename_i work hwork
    split at h
    · cases h
      exact ⟨fun _ he => (by cases he), fun _ => by simp [view, withHold, hwork]⟩
    · cases h
      exact ⟨fun _ _ => rfl, fun he => by cases he⟩
  · rename_i hold hno
    cases h
    refine ⟨fun _ he => (by cases he), fun _ => ?_⟩
    have hview : a.view = a.file.content := by
      unfold view
      split
      · rename_i work hw
        exact absurd hw (hno work)
      · rfl
    exact ⟨by simp [hview], by rw [hview]; rfl⟩

end Sql.Access

/-! ## 3. Stores and traces -/

namespace Store

/-- What the connection of a store sees; without one, what a new one would. -/
def view (s : Store) : Database :=
  match s.link with
  | some link => (Access.mk s.file link).view
  | none => s.file.content

/-- The store keeps its file for later connections, and a new one starts with nothing to run. -/
def Lasting (s : Store) : Prop :=
  s.transient = false ∧ s.initSql = none

theorem file_disconnected {s : Store} (h : s.Lasting) : s.disconnected.file = s.file := by
  simp [disconnected, h.1]

/-- What is done with the connection concerns the file and the link only. -/
theorem withLink_cases {α : Type} {s s' : Store} {f : Access → Except StorageError α × Access}
    {r : Except StorageError α} (h : s.withLink f = (r, s')) :
    (s' = s ∧ ∃ e, r = .error e) ∨ ∃ link a', s.link = some link ∧ f ⟨s.file, link⟩ = (r, a') ∧
      s' = s.withAccess a' := by
  unfold withLink at h
  split at h
  · cases h
    exact .inl ⟨rfl, _, rfl⟩
  · rename_i link hlink
    cases hf : f ⟨s.file, link⟩ with
    | mk answer a =>
      simp only [hf, Prod.mk.injEq] at h
      obtain ⟨rfl, rfl⟩ := h
      exact .inr ⟨link, a, hlink, hf, rfl⟩

variable {s s' : Store}

theorem lasting_withLink {α : Type} {f : Access → Except StorageError α × Access} (hs : s.Lasting) :
    (s.withLink f).2.Lasting := by
  cases h : s.withLink f with
  | mk r s' =>
    rcases withLink_cases h with ⟨rfl, _⟩ | ⟨_, _, _, _, rfl⟩
    · exact hs
    · exact hs

/-- With no statements to run, a connection is new or it is refused. -/
theorem connect_cases {r : Except StorageError Unit} (hs : s.Lasting) (h : s.connect = (r, s')) :
    s'.Lasting ∧ s'.file = s.file ∧ s'.view = s.file.content := by
  have hd : s.disconnected.Lasting := hs
  have hf := file_disconnected hs
  unfold connect link? at h
  by_cases hr : s.disconnected.reachable = true
  · simp only [hr, ↓reduceIte, hd.2, Prod.mk.injEq] at h
    obtain ⟨-, rfl⟩ := h
    exact ⟨⟨hs.1, rfl⟩, hf, congrArg File.content hf⟩
  · simp only [hr, Bool.false_eq_true, ↓reduceIte] at h
    split at h
    · cases h
      exact ⟨hd, hf, congrArg File.content hf⟩
    · rename_i heq
      split at heq <;> cases heq

theorem content_withLink {α : Type} {f : Access → Except StorageError α × Access}
    {r : Except StorageError α} (hf : ∀ a r a', f a = (r, a') → a'.file = a.file)
    (h : s.withLink f = (r, s')) : s'.file = s.file := by
  rcases withLink_cases h with ⟨rfl, _⟩ | ⟨link, a', _, ha, rfl⟩
  · rfl
  · exact hf _ _ _ ha

theorem file_prepare {st : Statement} {a a' : Access} {r : Except StorageError Unit}
    (h : prepare st a = (r, a')) : a'.file = a.file ∧ a'.view = a.view := by
  cases hp : a.prepare st.sql with
  | mk answer b =>
    simp only [prepare, hp, Prod.mk.injEq] at h
    obtain ⟨-, rfl⟩ := h
    exact Access.prepare_cases hp

theorem query_cases {st : Statement} {values : List Value} {a a' : Access}
    {r : Except StorageError (Option Row)} (h : query st values a = (r, a')) :
    a'.file = a.file ∧ ∀ row, r = .ok row → ∃ answer, row = answer.row? ∧
      a.view.perform st.sql (cellsOf values) = .ok (answer, a'.view) := by
  cases hp : a.perform st.sql (values.map Cell.ofValue) with
  | mk answer b =>
    obtain ⟨hf, hv⟩ := Access.perform_cases hp
    simp only [query, hp] at h
    cases answer with
    | error e =>
      cases h
      exact ⟨hf, fun _ he => by cases he⟩
    | ok answer =>
      cases answer <;>
      · cases h
        refine ⟨hf, fun row hr => ⟨_, ?_, (hv _ rfl).1⟩⟩
        cases hr
        rfl

theorem execute_cases {st : Statement} {values : List Value} {a a' : Access}
    {r : Except StorageError Nat} (h : execute st values a = (r, a')) :
    a'.file = a.file ∧ ∀ count, r = .ok count → ∃ answer, (∀ n, answer = .changed n → count = n) ∧
      a.view.perform st.sql (cellsOf values) = .ok (answer, a'.view) := by
  cases hp : a.perform st.sql (values.map Cell.ofValue) with
  | mk answer b =>
    obtain ⟨hf, hv⟩ := Access.perform_cases hp
    simp only [execute, hp] at h
    cases answer with
    | error e =>
      cases h
      exact ⟨hf, fun _ he => by cases he⟩
    | ok answer =>
      obtain ⟨hperf, hn⟩ := hv _ rfl
      cases answer with
      | row entries =>
        cases h
        exact ⟨hf, fun _ he => by cases he⟩
      | done | changed =>
        cases h
        refine ⟨hf, fun count hc => ?_⟩
        cases hc
        exact ⟨_, hn, hperf⟩

theorem commit_cases {a a' : Access} {r : Except StorageError Unit} (h : commit a = (r, a')) :
    (∀ e, r = .error e → a'.file.content = a.file.content) ∧
      (r = .ok () → a'.file.content = a.view ∧ a'.view = a.view) := by
  cases hc : a.commit with
  | mk answer b =>
    obtain ⟨he, hok⟩ := Access.commit_cases hc
    simp only [commit, hc, Prod.mk.injEq] at h
    obtain ⟨rfl, rfl⟩ := h
    cases answer with
    | error e => exact ⟨fun _ _ => he e rfl, fun hr => by cases hr⟩
    | ok _ => exact ⟨fun _ hr => (by cases hr), fun _ => hok rfl⟩

theorem view_withAccess (a : Access) : (s.withAccess a).view = a.view := rfl

theorem view_of_link {link : Link} (h : s.link = some link) :
    s.view = (Access.mk s.file link).view := by
  simp [view, h]

/-- A failed request keeps what was committed. -/
theorem content_of_error {α : Type} {r : Request α} {e : StorageError} (hs : s.Lasting)
    (h : Connection.perform r s = (.error e, s')) : s'.file.content = s.file.content := by
  cases r with
  | connect => rw [(connect_cases hs h).2.1]
  | prepare st => rw [content_withLink (fun _ _ _ ha => (file_prepare ha).1) h]
  | query st values => rw [content_withLink (fun _ _ _ ha => (query_cases ha).1) h]
  | execute st values => rw [content_withLink (fun _ _ _ ha => (execute_cases ha).1) h]
  | commit =>
    rcases withLink_cases h with ⟨rfl, _⟩ | ⟨link, a', _, ha, rfl⟩
    · rfl
    · exact (commit_cases ha).1 e rfl
  | rollback =>
    rw [content_withLink (f := fun a => (.ok (), a.rollback)) (fun a _ _ ha => by cases ha; rfl) h]
  | close => cases h

/-- A change that succeeds does what its statement does to what the store sees. -/
theorem execute_view {st : Statement} {values : List Value} {count : Nat}
    (h : Connection.perform (.execute st values) s = (.ok count, s')) :
    s'.file.content = s.file.content ∧ ∃ answer, (∀ n, answer = .changed n → count = n) ∧
      s.view.perform st.sql (cellsOf values) = .ok (answer, s'.view) := by
  rcases withLink_cases h with ⟨_, _, he⟩ | ⟨link, a', hlink, ha, rfl⟩
  · cases he
  · obtain ⟨hf, hv⟩ := execute_cases ha
    exact ⟨congrArg File.content hf, view_of_link hlink ▸ hv _ rfl⟩

/-- **A store in a file keeps transactions.** -/
instance : Transactional Store where
  Sound := Lasting
  durable s := s.file.content
  working := view
  judge := judge
  sound_perform r s hs := by
    cases r with
    | connect => exact (connect_cases hs rfl).1
    | close => exact hs
    | prepare | query | execute | commit | rollback => exact lasting_withLink hs
  sound_release hs := hs
  durable_of_error hs h := content_of_error hs h
  durable_release hs := congrArg File.content (file_disconnected hs)
  working_release hs := congrArg File.content (file_disconnected hs)
  durable_close hs h := by
    cases h
    exact congrArg File.content (file_disconnected hs)
  connect_ok hs h := by
    obtain ⟨_, hf, hv⟩ := connect_cases hs h
    exact ⟨congrArg File.content hf, hv⟩
  prepare_ok _ h := by
    rcases withLink_cases h with ⟨_, _, he⟩ | ⟨link, a', hlink, ha, rfl⟩
    · cases he
    · obtain ⟨hf, hv⟩ := file_prepare ha
      exact ⟨congrArg File.content hf, by rw [view_withAccess, hv, view_of_link hlink]⟩
  query_ok _ _ h := by
    rcases withLink_cases h with ⟨_, _, he⟩ | ⟨link, a', hlink, ha, rfl⟩
    · cases he
    · obtain ⟨hf, hv⟩ := query_cases ha
      exact ⟨congrArg File.content hf, view_of_link hlink ▸ hv _ rfl⟩
  execute_ok _ _ h := execute_view h
  purge_ok _ hst h := by
    obtain ⟨hd, answer, hcount, hperf⟩ := execute_view h
    exact ⟨hd, answer, hcount, by rw [purged_eq hst, hperf]; rfl⟩
  commit_ok _ h := by
    rcases withLink_cases h with ⟨_, _, he⟩ | ⟨link, a', hlink, ha, rfl⟩
    · cases he
    · exact view_of_link hlink ▸ (commit_cases ha).2 rfl
  rollback_open {s} _ ho := by
    obtain ⟨link, hlink⟩ := Option.isSome_iff_exists.mp ho
    have h : Connection.perform .rollback s =
        (.ok (), s.withAccess (Access.mk s.file link).rollback) := by
      simp [Connection.perform, withLink, hlink]
    rw [h]
    exact ⟨rfl, rfl⟩

end Store

namespace Traced

variable {σ : Type} [Connection σ]

open Transactional

/-- A rollback fails only by losing the connection. -/
def RollsBack (t : Traced σ) : Prop :=
  ∀ trigger ∈ t.triggers, trigger.kind = .rollback → trigger.fault = .disconnect

/-- The answer to a request, with the connection that it leaves. -/
theorem answer_cases {α : Type} {t : Traced σ} {r : Request α} {x : Except StorageError α} {c : σ}
    (h : t.answer r = (x, c)) :
    (Connection.perform r t.inner = (x, c)) ∨
      ∃ e, x = .error e ∧ (c = t.inner ∨ c = Connection.release t.inner) := by
  unfold answer at h
  split at h
  · cases h
    exact .inr ⟨_, rfl, .inr rfl⟩
  · cases h
    exact .inr ⟨_, rfl, .inl rfl⟩
  · exact .inl h

theorem perform_eq {α : Type} (t : Traced σ) (r : Request α) {x : Except StorageError α}
    {t' : Traced σ} (h : Connection.perform r t = (x, t')) :
    t.answer r = (x, t'.inner) ∧ t'.triggers = t.triggers := by
  cases ha : t.answer r with
  | mk y c =>
    simp only [Connection.perform, ha, Prod.mk.injEq] at h
    obtain ⟨rfl, rfl⟩ := h
    exact ⟨rfl, rfl⟩

/-- A request that succeeds on the traced connection succeeds on the one inside. -/
theorem inner_of_ok {α : Type} {t t' : Traced σ} {r : Request α} {a : α}
    (h : Connection.perform r t = (.ok a, t')) :
    Connection.perform r t.inner = (.ok a, t'.inner) := by
  rcases answer_cases (perform_eq t r h).1 with h | ⟨e, he, _⟩
  · exact h
  · cases he

/-- **A traced connection keeps transactions as the one inside does.** -/
instance [Transactional σ] : Transactional (Traced σ) where
  Sound t := Sound t.inner ∧ t.RollsBack
  durable t := durable t.inner
  working t := working t.inner
  judge := judge σ
  sound_perform r t h := by
    obtain ⟨ha, ht⟩ := perform_eq t r (rfl : Connection.perform r t = (_, _))
    refine ⟨?_, fun trigger hm hk => h.2 trigger (ht ▸ hm) hk⟩
    rcases answer_cases ha with hp | ⟨_, _, hc | hc⟩
    · have := sound_perform r h.1
      rwa [hp] at this
    · exact hc ▸ h.1
    · exact hc ▸ sound_release h.1
  sound_release h := ⟨sound_release h.1, h.2⟩
  durable_of_error {_ r t t' e} hs h := by
    rcases answer_cases (perform_eq t r h).1 with hp | ⟨_, _, hc | hc⟩
    · exact durable_of_error hs.1 hp
    · exact congrArg durable hc
    · rw [hc, durable_release hs.1]
  durable_release hs := durable_release hs.1
  working_release hs := working_release hs.1
  durable_close hs h := durable_close hs.1 (inner_of_ok h)
  connect_ok hs h := connect_ok hs.1 (inner_of_ok h)
  prepare_ok hs h := prepare_ok hs.1 (inner_of_ok h)
  query_ok hs hst h := query_ok hs.1 hst (inner_of_ok h)
  execute_ok hs hst h := execute_ok hs.1 hst (inner_of_ok h)
  purge_ok hs hst h := purge_ok hs.1 hst (inner_of_ok h)
  commit_ok hs h := commit_ok hs.1 (inner_of_ok h)
  rollback_open {t} hs ho := by
    cases h : Connection.perform .rollback t with
    | mk x t' =>
      have ha := (perform_eq t .rollback h).1
      unfold answer at ha
      split at ha
      · obtain ⟨-, hi⟩ := Prod.mk.inj ha
        exact ⟨hi ▸ durable_release hs.1, hi ▸ working_release hs.1⟩
      · rename_i e hfault
        -- The fault comes from a trigger of rollbacks, and those only lose the connection.
        obtain ⟨trigger, hfind, he⟩ := Option.map_eq_some_iff.mp hfault
        have hkind : trigger.kind = .rollback := by
          have := List.find?_some hfind
          simp only [Bool.and_eq_true, decide_eq_true_eq] at this
          exact this.1
        rw [hs.2 trigger (List.mem_of_find?_eq_some hfind) hkind] at he
        cases he
      · have hr := rollback_open hs.1 ho
        rw [ha] at hr
        exact hr

end Traced

end RowHistory
