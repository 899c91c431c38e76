import RowHistory.Proofs.Sql.Performing
import RowHistory.Storage.Basic

/-!
# What storage actions do

Every action of a storage either succeeds and does what its statements do to the database that
the connection sees, or fails and keeps what was committed and the rows of the batch. This file
fixes

* the effect of a statement and of a row of statements on a database, by itself (`Layout.run`,
  `Layout.written`, `Layout.swept`);
* the databases of a storage (`Storage.durable`, `Storage.working`), what holds of a storage at
  all times (`Storage.Fit`) and what no action changes (`Storage.Stays`);
* the results of an action (`Does`), and one lemma for each action.
-/

namespace RowHistory

open Sql (Answer Cell Database)

/-! ## 1. Statements on a database -/

/-- What the statement of a kind does to a database. -/
def Layout.run (l : Layout) (kind : StatementKind) (b : Binding) (db : Database) :
    Option (Answer × Database) :=
  match l.statement kind with
  | .ok st => (db.perform st.sql (cellsOf (st.bind b))).toOption
  | .error _ => none

theorem Layout.run_some {l : Layout} {kind : StatementKind} {b : Binding} {db : Database}
    {r : Answer × Database} (h : l.run kind b db = some r) :
    ∃ st, l.statement kind = .ok st ∧ db.perform st.sql (cellsOf (st.bind b)) = .ok r := by
  unfold Layout.run at h
  split at h
  · rename_i st hst
    exact ⟨st, hst, Sql.toOption_eq_some.mp h⟩
  · cases h

/-- The database after statements with the values of a row, one after the other. -/
def Layout.written (l : Layout) (row : Row) : List StatementKind → Database → Option Database
  | [], db => some db
  | kind :: kinds, db => (l.run kind { row } db).bind fun (_, db) => l.written row kinds db

/-- What a purge does to a database that judges its condition. -/
def Layout.swept (l : Layout) (judge : Sql.Judge) (cutoff now : Instant) (condition : Option String)
    (db : Database) : Option (Answer × Database) :=
  match l.purge condition with
  | .ok st => l.purged judge condition st.sql
      (cellsOf (st.bind { instant := some now, cutoff := some cutoff })) db
  | .error _ => none

theorem Layout.swept_some {l : Layout} {judge : Sql.Judge} {cutoff now : Instant}
    {condition : Option String} {db : Database} {r : Answer × Database}
    (h : l.swept judge cutoff now condition db = some r) :
    ∃ st, l.purge condition = .ok st ∧ l.purged judge condition st.sql
      (cellsOf (st.bind { instant := some now, cutoff := some cutoff })) db = some r := by
  unfold Layout.swept at h
  split at h
  · rename_i st hst
    exact ⟨st, hst, h⟩
  · cases h

/-- The version that an answer gives. -/
def Sql.Answer.record? (b : Bookkeeping) (answer : Answer) : Except StorageError (Option Record) :=
  match answer.row? with
  | some stored => (Record.ofRow b stored).map some
  | none => .ok none

/-! ## 2. Actions that may fail -/

/-- The steps of an action run one after the other, up to the first that fails. -/
theorem run_bind {ε τ α β : Type} (f : ExceptT ε (StateM τ) α) (g : α → ExceptT ε (StateM τ) β)
    (s : τ) : (f >>= g).run.run s = match f.run.run s with
      | (.ok a, s') => (g a).run.run s'
      | (.error e, s') => (.error e, s') := by
  show (do match (← f.run) with | .ok a => (g a).run | .error e => pure (.error e) : StateM τ _) s = _
  cases h : f.run.run s with
  | mk r s' =>
    have h' : f.run s = (r, s') := h
    cases r <;> simp only [bind, StateT.bind, h'] <;> rfl

theorem run_get_bind {ε τ β : Type} (g : τ → ExceptT ε (StateM τ) β) (s : τ) :
    (get >>= g).run.run s = (g s).run.run s :=
  rfl

theorem run_modify_bind {ε τ β : Type} (f : τ → τ) (g : Unit → ExceptT ε (StateM τ) β) (s : τ) :
    (modify f >>= g).run.run s = (g ()).run.run (f s) :=
  rfl

namespace Storage

variable {σ ε α β : Type} [Connection σ] [Transactional σ] {s s' : Storage σ ε}

/-- What was committed. -/
def durable (s : Storage σ ε) : Database :=
  Transactional.durable s.connection

/-- What the storage sees; without a connection, what was committed. -/
def working (s : Storage σ ε) : Database :=
  if s.held then Transactional.working s.connection else s.durable

/-- The connection keeps its promises, and the prepared statements are those of the layout. -/
structure Fit (s : Storage σ ε) : Prop where
  sound : Transactional.Sound s.connection
  cached : ∀ kind st, s.statements.lookup kind = some st → s.layout.statement kind = .ok st

/-- What no action changes. -/
structure Stays (s s' : Storage σ ε) : Prop where
  layout : s'.layout = s.layout
  held : s'.held = s.held
  size : s'.batch.size = s.batch.size
  recovery : s'.recovery = s.recovery
  recovered : s'.recovered = s.recovered

omit [Connection σ] [Transactional σ] in
theorem Stays.refl (s : Storage σ ε) : Stays s s :=
  ⟨rfl, rfl, rfl, rfl, rfl⟩

omit [Connection σ] [Transactional σ] in
theorem Stays.trans {s'' : Storage σ ε} (h : Stays s s') (h' : Stays s' s'') : Stays s s'' :=
  ⟨h'.layout.trans h.layout, h'.held.trans h.held, h'.size.trans h.size,
    h'.recovery.trans h.recovery, h'.recovered.trans h.recovered⟩

/-- Nothing is committed, and the batch keeps its rows. -/
structure Calm (s s' : Storage σ ε) : Prop where
  durable : s'.durable = s.durable
  backup : s'.batch.backup = s.batch.backup

theorem Calm.refl (s : Storage σ ε) : Calm s s := ⟨rfl, rfl⟩

theorem Calm.trans {s'' : Storage σ ε} (h : Calm s s') (h' : Calm s' s'') : Calm s s'' :=
  ⟨h'.durable.trans h.durable, h'.backup.trans h.backup⟩

/-- What an action can do: it succeeds in a way that is known, or it fails and nothing is
committed. -/
def Does (f : Action σ ε α) (s : Storage σ ε) (Q : α → Storage σ ε → Prop) : Prop :=
  ∀ r s', f.run.run s = (r, s') → s'.Fit ∧ Stays s s' ∧
    ((∃ a, r = .ok a ∧ Q a s') ∨ ((∃ e, r = .error e) ∧ Calm s s'))

theorem Does.bind {f : Action σ ε α} {g : α → Action σ ε β} {P : α → Storage σ ε → Prop}
    {Q : β → Storage σ ε → Prop} (hf : Does f s P)
    (hg : ∀ a s', s'.Fit → Stays s s' → P a s' → Calm s s' ∧ Does (g a) s' Q) :
    Does (f >>= g) s Q := by
  intro r s'' h
  rw [run_bind] at h
  cases hr : f.run.run s with
  | mk x s' =>
    obtain ⟨hfit, hstays, ⟨a, rfl, hP⟩ | ⟨⟨e, rfl⟩, hcalm⟩⟩ := hf x s' hr
    · simp only [hr] at h
      obtain ⟨hcalm, hdoes⟩ := hg a s' hfit hstays hP
      obtain ⟨hfit', hstays', hend⟩ := hdoes r s'' h
      refine ⟨hfit', hstays.trans hstays', hend.imp_right fun ⟨he, hc⟩ => ⟨he, hcalm.trans hc⟩⟩
    · simp only [hr] at h
      obtain ⟨rfl, rfl⟩ := h
      exact ⟨hfit, hstays, .inr ⟨⟨e, rfl⟩, hcalm⟩⟩

/-- An action that cannot fail. -/
def Surely (f : Action σ ε α) (s : Storage σ ε) (Q : α → Storage σ ε → Prop) : Prop :=
  ∃ a s', f.run.run s = (.ok a, s') ∧ s'.Fit ∧ Stays s s' ∧ Q a s'

theorem surely_modify {f : Storage σ ε → Storage σ ε} {Q : Unit → Storage σ ε → Prop}
    (hs : (f s).Fit) (hf : Stays s (f s)) (hQ : Q () (f s)) : Surely (modify f) s Q :=
  ⟨(), f s, rfl, hs, hf, hQ⟩

theorem surely_pure {a : α} {Q : α → Storage σ ε → Prop} (hs : s.Fit) (hQ : Q a s) :
    Surely (pure a) s Q :=
  ⟨a, s, rfl, hs, .refl s, hQ⟩

theorem Surely.bind {f : Action σ ε α} {g : α → Action σ ε β} {P : α → Storage σ ε → Prop}
    {Q : β → Storage σ ε → Prop} (hf : Surely f s P)
    (hg : ∀ a s', s'.Fit → P a s' → Surely (g a) s' Q) : Surely (f >>= g) s Q := by
  obtain ⟨a, s', hrun, hfit, hstays, hP⟩ := hf
  obtain ⟨b, s'', hrun', hfit', hstays', hQ⟩ := hg a s' hfit hP
  exact ⟨b, s'', by simp only [run_bind, hrun, hrun'], hfit', hstays.trans hstays', hQ⟩

/-- After a step that may commit, only steps may follow that cannot fail. -/
theorem Does.bindSurely {f : Action σ ε α} {g : α → Action σ ε β} {P : α → Storage σ ε → Prop}
    {Q : β → Storage σ ε → Prop} (hf : Does f s P)
    (hg : ∀ a s', s'.Fit → Stays s s' → P a s' → Surely (g a) s' Q) : Does (f >>= g) s Q := by
  intro r s'' h
  rw [run_bind] at h
  cases hr : f.run.run s with
  | mk x s' =>
    obtain ⟨hfit, hstays, ⟨a, rfl, hP⟩ | ⟨⟨e, rfl⟩, hcalm⟩⟩ := hf x s' hr
    · obtain ⟨b, t, hrun, hfit', hstays', hQ⟩ := hg a s' hfit hstays hP
      simp only [hr, hrun] at h
      obtain ⟨rfl, rfl⟩ := h
      exact ⟨hfit', hstays.trans hstays', .inl ⟨b, rfl, hQ⟩⟩
    · simp only [hr] at h
      obtain ⟨rfl, rfl⟩ := h
      exact ⟨hfit, hstays, .inr ⟨⟨e, rfl⟩, hcalm⟩⟩

theorem Does.imp {f : Action σ ε α} {P Q : α → Storage σ ε → Prop} (hf : Does f s P)
    (h : ∀ a s', P a s' → Q a s') : Does f s Q := by
  intro r s' hr
  obtain ⟨hfit, hstays, hend⟩ := hf r s' hr
  exact ⟨hfit, hstays, hend.imp_left fun ⟨a, ha, hP⟩ => ⟨a, ha, h a s' hP⟩⟩

theorem does_pure (hs : s.Fit) (a : α) : Does (pure a) s fun b s' => b = a ∧ s' = s := by
  intro r s' h
  cases h
  exact ⟨hs, .refl s, .inl ⟨a, rfl, rfl, rfl⟩⟩

theorem does_get (hs : s.Fit) : Does get s fun b s' => b = s ∧ s' = s := by
  intro r s' h
  cases h
  exact ⟨hs, .refl s, .inl ⟨s, rfl, rfl, rfl⟩⟩

theorem does_modify {f : Storage σ ε → Storage σ ε} (hs : (f s).Fit) (hf : Stays s (f s)) :
    Does (modify f) s fun _ s' => s' = f s := by
  intro r s' h
  cases h
  exact ⟨hs, hf, .inl ⟨(), rfl, rfl⟩⟩

theorem does_ofExcept (hs : s.Fit) (x : Except StorageError α) :
    Does (liftM x) s fun a s' => x = .ok a ∧ s' = s := by
  intro r s' h
  cases x <;> cases h
  · exact ⟨hs, .refl s, .inr ⟨⟨_, rfl⟩, .refl s⟩⟩
  · exact ⟨hs, .refl s, .inl ⟨_, rfl, rfl, rfl⟩⟩

/-! ## 3. Statements -/

theorem Fit.withConnection {c : σ} (hs : s.Fit) (hc : Transactional.Sound c) :
    Fit { s with connection := c } :=
  ⟨hc, hs.cached⟩

/-- A request that succeeds changes the connection only. -/
theorem does_request (hs : s.Fit) (q : Request α) :
    Does (request q) s fun a s' => s.held = true ∧ ∃ c,
      Connection.perform q s.connection = (.ok a, c) ∧ s' = { s with connection := c } := by
  intro r s' h
  by_cases hheld : s.held = true
  · have hrun : (request q).run.run s = ((Connection.perform q s.connection).1,
        { s with connection := (Connection.perform q s.connection).2 }) := by
      simp only [request, run_bind]
      show ((if s.held then _ else _ : Action σ ε α).run.run s) = _
      rw [if_pos hheld]
      cases hp : Connection.perform q s.connection with
      | mk x c => cases x <;> rfl
    have hfit : Fit { s with connection := (Connection.perform q s.connection).2 } :=
      hs.withConnection (Transactional.sound_perform q hs.sound)
    rw [hrun] at h
    cases hp : Connection.perform q s.connection with
    | mk x c =>
      rw [hp] at h hfit
      obtain ⟨rfl, rfl⟩ := Prod.mk.inj h
      refine ⟨hfit, ⟨rfl, rfl, rfl, rfl, rfl⟩, ?_⟩
      cases x with
      | ok a => exact .inl ⟨a, rfl, hheld, c, rfl, rfl⟩
      | error e => exact .inr ⟨⟨e, rfl⟩, Transactional.durable_of_error hs.sound hp, rfl⟩
  · have hrun : (request q).run.run s = (.error .connectionClosed, s) := by
      simp only [request, run_bind]
      show ((if s.held then _ else _ : Action σ ε α).run.run s) = _
      rw [if_neg hheld]
      rfl
    rw [hrun] at h
    obtain ⟨rfl, rfl⟩ := Prod.mk.inj h
    exact ⟨hs, .refl s, .inr ⟨⟨_, rfl⟩, .refl s⟩⟩

theorem does_requireHeld (hs : s.Fit) : Does requireHeld s fun _ s' => s' = s := by
  intro r s' h
  have hrun : (requireHeld : Action σ ε Unit).run.run s =
      (if s.held then .ok () else .error .connectionClosed, s) := by
    simp only [requireHeld, run_bind]
    show ((if s.held then _ else _ : Action σ ε Unit).run.run s) = _
    split <;> rfl
  rw [hrun] at h
  obtain ⟨rfl, rfl⟩ := Prod.mk.inj h
  split
  · exact ⟨hs, .refl s, .inl ⟨(), rfl, rfl⟩⟩
  · exact ⟨hs, .refl s, .inr ⟨⟨_, rfl⟩, .refl s⟩⟩

/-- Only the connection, the statements and the log moved, and what the storage sees is as it
was committed and written before. -/
structure Still (s s' : Storage σ ε) : Prop where
  durable : s'.durable = s.durable
  working : s'.working = s.working
  batch : s'.batch = s.batch

theorem Still.refl (s : Storage σ ε) : Still s s := ⟨rfl, rfl, rfl⟩

theorem Still.calm (h : Still s s') : Calm s s' := ⟨h.durable, by rw [h.batch]⟩

theorem does_prepare (hs : s.Fit) (st : Statement) :
    Does (request (.prepare st)) s fun _ s' => Still s s' ∧ s'.statements = s.statements := by
  refine (does_request hs (.prepare st)).imp ?_
  rintro _ _ ⟨hheld, c, hc, rfl⟩
  obtain ⟨hd, hw⟩ := Transactional.prepare_ok hs.sound hc
  exact ⟨⟨hd, by simp [working, hheld, hw], rfl⟩, rfl⟩

/-- **A statement that is used is the one of the layout**, whether it was prepared before or
not. -/
theorem does_statement (hs : s.Fit) (kind : StatementKind) :
    Does (statement kind) s fun st s' => s.layout.statement kind = .ok st ∧ Still s s' := by
  unfold statement
  refine (does_get hs).bind fun _ s₁ _ _ h => ?_
  obtain ⟨rfl, rfl⟩ := h
  refine ⟨.refl _, ?_⟩
  cases hlookup : s₁.statements.lookup kind with
  | some st =>
    refine (does_pure hs st).imp ?_
    rintro _ _ ⟨rfl, rfl⟩
    exact ⟨hs.cached kind _ hlookup, .refl _⟩
  | none =>
    refine (does_ofExcept hs _).bind fun st s₂ _ _ h => ?_
    obtain ⟨hst, rfl⟩ := h
    refine ⟨.refl _, (does_prepare hs st).bind fun _ s₃ hfit hstays h => ⟨h.1.calm, ?_⟩⟩
    obtain ⟨hstill, hcached⟩ := h
    refine (does_modify ?_ ⟨rfl, rfl, rfl, rfl, rfl⟩).bind fun _ s₄ hfit' _ h => ?_
    · refine ⟨hfit.sound, fun kind' st' h => ?_⟩
      rw [List.lookup_cons] at h
      split at h
      · rename_i heq
        cases h
        rw [beq_iff_eq] at heq
        rw [heq]
        exact hstays.layout ▸ hst
      · exact hfit.cached kind' st' h
    · subst h
      refine ⟨⟨rfl, rfl⟩, (does_pure hfit' st).imp ?_⟩
      rintro _ _ ⟨rfl, rfl⟩
      exact ⟨hst, hstill.durable, hstill.working, hstill.batch⟩

/-- Nothing is committed or counted, and the storage sees what a statement made. -/
structure Ran (s s' : Storage σ ε) (answer : Option (Answer × Database)) : Prop where
  durable : s'.durable = s.durable
  batch : s'.batch = s.batch
  answered : ∃ a, answer = some (a, s'.working)

theorem Ran.calm {answer : Option (Answer × Database)} (h : Ran s s' answer) : Calm s s' :=
  ⟨h.durable, by rw [h.batch]⟩

theorem layout_run_of_perform {l : Layout} {kind : StatementKind} {st : Statement} {b : Binding}
    {db db' : Database} {answer : Answer} (hst : l.statement kind = .ok st)
    (h : db.perform st.sql (cellsOf (st.bind b)) = .ok (answer, db')) :
    l.run kind b db = some (answer, db') := by
  simp [Layout.run, hst, h, Except.toOption]

/-- **A selection that succeeds gives the version that its statement finds.** -/
theorem does_select (hs : s.Fit) (kind : StatementKind) (b : Binding) :
    Does (select kind b) s fun found s' => s'.durable = s.durable ∧ s'.batch = s.batch ∧
      ∃ answer, s.layout.run kind b s.working = some (answer, s'.working) ∧
        answer.record? s.layout.names = .ok found := by
  unfold select
  refine (does_requireHeld hs).bind fun _ s₁ _ _ h => ⟨by rw [h]; exact .refl s, ?_⟩
  subst h
  refine (does_statement hs kind).bind fun st s₂ hfit₂ hstays₂ h => ⟨h.2.calm, ?_⟩
  obtain ⟨hst, hstill⟩ := h
  refine (does_request hfit₂ _).bind fun found s₃ hfit₃ hstays₃ h => ?_
  obtain ⟨hheld, c, hc, rfl⟩ := h
  obtain ⟨hd, answer, rfl, hperf⟩ := Transactional.query_ok hfit₂.sound hst hc
  have hw : s₂.working = Transactional.working s₂.connection := by simp [working, hheld]
  have hw' : working { s₂ with connection := c } = Transactional.working c := by
    simp [working, hheld]
  rw [← hw, ← hw', hstill.working] at hperf
  have hrun := layout_run_of_perform hst hperf
  have hd' : durable { s₂ with connection := c } = s₁.durable := hd.trans hstill.durable
  refine ⟨⟨hd, rfl⟩, ?_⟩
  cases hrow : answer.row? with
  | none =>
    refine (does_pure hfit₃ none).imp ?_
    rintro _ _ ⟨rfl, rfl⟩
    exact ⟨hd', hstill.batch, answer, hrun, by simp [Answer.record?, hrow]⟩
  | some found =>
    refine (does_get hfit₃).bind fun _ s₄ _ _ h => ?_
    obtain ⟨rfl, rfl⟩ := h
    refine ⟨.refl _, (does_ofExcept hfit₃ _).bind fun r s₅ _ _ h => ?_⟩
    obtain ⟨hr, rfl⟩ := h
    refine ⟨.refl _, (does_pure hfit₃ (some r)).imp ?_⟩
    rintro _ _ ⟨rfl, rfl⟩
    refine ⟨hd', hstill.batch, answer, hrun, ?_⟩
    have hnames : s₂.layout.names = s₁.layout.names := by rw [hstays₂.layout]
    rw [Answer.record?, hrow, ← hnames]
    exact congrArg (Except.map some) hr

theorem does_execute (hs : s.Fit) (kind : StatementKind) (row : Row) :
    Does (execute kind row) s fun _ s' => Ran s s' (s.layout.run kind { row } s.working) := by
  unfold execute
  refine (does_requireHeld hs).bind fun _ s₁ _ _ h => ⟨by rw [h]; exact .refl s, ?_⟩
  subst h
  refine (does_statement hs kind).bind fun st s₂ hfit₂ hstays₂ h => ⟨h.2.calm, ?_⟩
  obtain ⟨hst, hstill⟩ := h
  refine (does_request hfit₂ _).bind fun count s₃ hfit₃ hstays₃ h => ?_
  obtain ⟨hheld, c, hc, rfl⟩ := h
  obtain ⟨hd, answer, -, hperf⟩ := Transactional.execute_ok hfit₂.sound hst hc
  have hw : s₂.working = Transactional.working s₂.connection := by simp [working, hheld]
  have hw' : working { s₂ with connection := c } = Transactional.working c := by
    simp [working, hheld]
  rw [← hw, ← hw', hstill.working] at hperf
  refine ⟨⟨hd, rfl⟩, (does_pure hfit₃ ()).imp ?_⟩
  rintro _ _ ⟨-, rfl⟩
  exact ⟨hd.trans hstill.durable, hstill.batch, answer, layout_run_of_perform hst hperf⟩

/-- Nothing is committed or counted, and the storage sees another database. -/
structure Wrote (s s' : Storage σ ε) (db : Option Database) : Prop where
  durable : s'.durable = s.durable
  batch : s'.batch = s.batch
  written : db = some s'.working

theorem Wrote.calm {db : Option Database} (h : Wrote s s' db) : Calm s s' :=
  ⟨h.durable, by rw [h.batch]⟩

/-- The statements of a row run one after the other. -/
theorem does_executeAll (row : Row) : ∀ (kinds : List StatementKind) {s : Storage σ ε}, s.Fit →
    Does (kinds.forM fun kind => execute kind row) s fun _ s' =>
      Wrote s s' (s.layout.written row kinds s.working)
  | [], s, hs => by
    refine (does_pure hs ()).imp ?_
    rintro _ _ ⟨-, rfl⟩
    exact ⟨rfl, rfl, rfl⟩
  | kind :: kinds, s, hs => by
    refine (does_execute hs kind row).bind fun _ s₁ hfit₁ hstays₁ h => ⟨h.calm, ?_⟩
    refine (does_executeAll row kinds hfit₁).imp fun _ s₂ h₂ => ?_
    obtain ⟨hd, hb, answer, hrun⟩ := h
    refine ⟨h₂.durable.trans hd, h₂.batch.trans hb, ?_⟩
    rw [Layout.written, hrun]
    exact hstays₁.layout ▸ h₂.written

/-! ## 4. Transactions -/

/-- **A commit that succeeds keeps what the storage sees**, and the batch is empty. -/
theorem does_commit (hs : s.Fit) :
    Does commit s fun _ s' =>
      s'.durable = s.working ∧ s'.working = s.working ∧ s'.batch = s.batch.clear := by
  unfold commit
  refine (does_get hs).bind fun _ s₁ _ _ h => ?_
  obtain ⟨rfl, rfl⟩ := h
  refine ⟨.refl _, (does_request hs _).bindSurely fun _ s₂ hfit _ h => ?_⟩
  obtain ⟨hheld, c, hc, rfl⟩ := h
  obtain ⟨hd, hw⟩ := Transactional.commit_ok hs.sound hc
  have hw₀ : s₁.working = Transactional.working s₁.connection := by simp [working, hheld]
  -- After the request nothing fails: the batch is cleared, and an entry may be logged.
  refine (surely_modify (Q := fun _ t => t.durable = s₁.working ∧ t.working = s₁.working ∧
    t.batch = s₁.batch.clear) ⟨hfit.sound, hfit.cached⟩ ⟨rfl, rfl, rfl, rfl, rfl⟩ ?_).bind
    fun _ s₃ hfit₃ h => ?_
  · exact ⟨hd.trans hw₀.symm, by simp [working, hheld, hw], rfl⟩
  · split
    · exact surely_modify ⟨hfit₃.sound, hfit₃.cached⟩ ⟨rfl, rfl, rfl, rfl, rfl⟩ h
    · exact surely_pure hfit₃ h

/-- A row was counted: the batch has one more write, or it was full and was committed. -/
def Settled (s s' : Storage σ ε) : Prop :=
  (s.batch.pending + 1 < s.batch.size ∧ s'.durable = s.durable ∧ s'.batch = s.batch.count) ∨
    (s.batch.size ≤ s.batch.pending + 1 ∧ s'.durable = s'.working ∧ s'.batch = s.batch.clear)

theorem does_settle (hs : s.Fit) :
    Does settle s fun _ s' => s'.working = s.working ∧ Settled s s' := by
  unfold settle
  refine (does_modify ⟨hs.sound, hs.cached⟩ ⟨rfl, rfl, rfl, rfl, rfl⟩).bind fun _ s₁ hfit₁ _ h => ?_
  subst h
  refine ⟨⟨rfl, rfl⟩, (does_get hfit₁).bind fun _ s₂ _ _ h => ?_⟩
  obtain ⟨rfl, rfl⟩ := h
  refine ⟨.refl _, ?_⟩
  split
  · rename_i hfull
    exact (does_commit hfit₁).imp fun _ s₃ ⟨hd, hw, hb⟩ =>
      ⟨hw, .inr ⟨of_decide_eq_true hfull, hd.trans hw.symm, hb⟩⟩
  · rename_i hfull
    refine (does_pure hfit₁ ()).imp ?_
    rintro _ _ ⟨-, rfl⟩
    have hnot : s.batch.count.isFull = false := by simpa using hfull
    exact ⟨rfl, .inl ⟨Nat.lt_of_not_le (of_decide_eq_false hnot), rfl, rfl⟩⟩

/-- **A mutation that succeeds writes the whole row**: all of its statements ran, and then it was
counted. One that writes nothing leaves the storage as it was. -/
theorem does_apply (hs : s.Fit) (m : Mutation) (row : Row) :
    Does (apply m row) s fun _ s' =>
      s.layout.written row (statementsOf m) s.working = some s'.working ∧
        if m.writes then Settled s s' else s'.durable = s.durable ∧ s'.batch = s.batch := by
  unfold apply
  refine (does_executeAll row (statementsOf m) hs).bind fun _ s₁ hfit₁ hstays₁ h => ⟨h.calm, ?_⟩
  obtain ⟨hd, hb, hw⟩ := h
  split
  · refine (does_settle hfit₁).imp fun _ s₂ ⟨hw₂, hset⟩ => ⟨hw₂ ▸ hw, ?_⟩
    rw [Settled, hb, hd] at hset
    exact hset
  · refine (does_pure hfit₁ ()).imp ?_
    rintro _ _ ⟨-, rfl⟩
    exact ⟨hw, hd, hb⟩

/-- **A purge that succeeds is committed at once**, with all that was pending. -/
theorem does_purge (hs : s.Fit) (cutoff now : Instant) (condition : Option String) :
    Does (purge cutoff now condition) s fun count s' =>
      (∃ answer, s.layout.swept (Transactional.judge σ) cutoff now condition s.working =
          some (answer, s'.working) ∧ ∀ n, answer = .changed n → count = n) ∧
      s'.durable = s'.working ∧ s'.batch = s.batch.clear := by
  unfold purge
  refine (does_get hs).bind fun _ s₁ _ _ h => ?_
  obtain ⟨rfl, rfl⟩ := h
  refine ⟨.refl _, (does_ofExcept hs _).bind fun st s₂ _ _ h => ?_⟩
  obtain ⟨hst, rfl⟩ := h
  refine ⟨.refl _, (does_prepare hs st).bind fun _ s₃ hfit₃ hstays₃ h => ⟨h.1.calm, ?_⟩⟩
  obtain ⟨hstill, -⟩ := h
  refine (does_request hfit₃ _).bind fun count s₄ hfit₄ hstays₄ h => ?_
  obtain ⟨hheld, c, hc, rfl⟩ := h
  obtain ⟨hd, answer, hcount, hperf⟩ := Transactional.purge_ok hfit₃.sound hst hc
  have hw : s₃.working = Transactional.working s₃.connection := by simp [working, hheld]
  rw [← hw, hstill.working] at hperf
  refine ⟨⟨hd, rfl⟩, (does_commit hfit₄).bindSurely fun _ s₅ hfit₅ _ h => ?_⟩
  obtain ⟨hd₅, hw₅, hb₅⟩ := h
  have hw₄ : working { s₃ with connection := c } = Transactional.working c := by
    simp [working, hheld]
  refine surely_pure hfit₅ ⟨⟨answer, ?_, hcount⟩, hd₅.trans hw₅.symm, ?_⟩
  · have hst' : s₂.layout.purge condition = .ok st := hst
    simp only [Layout.swept, hst']
    rw [hw₅, hw₄]
    exact hperf
  · rw [hb₅]
    exact congrArg Batch.clear hstill.batch

/-! ## 5. Failures and the end -/

/-- **After a failure the storage sees what was committed**, whether the transaction was rolled
back or the connection was replaced or lost. -/
theorem undo_fit (hs : s.Fit) : s.undo.Fit ∧ s.undo.durable = s.durable ∧
    s.undo.working = s.durable ∧ s.undo.layout = s.layout ∧ s.undo.batch = s.batch ∧
    s.undo.recovery = s.recovery ∧ s.undo.recovered = s.recovered := by
  unfold undo
  split
  · rename_i hcon
    obtain ⟨hheld, hopen⟩ := Bool.and_eq_true_iff.mp hcon
    obtain ⟨hd, hw⟩ := Transactional.rollback_open hs.sound hopen
    have hsound := Transactional.sound_perform .rollback hs.sound
    cases hr : Connection.perform .rollback s.connection with
    | mk x c =>
      rw [hr] at hd hw hsound
      cases x <;>
        exact ⟨⟨hsound, hs.cached⟩, hd, by simpa [working, durable, logged, hheld] using hw, rfl, rfl,
          rfl, rfl⟩
  · rename_i hcon
    have hcon' : s.isConnected = false := by simpa using hcon
    have hd := Transactional.durable_release hs.sound
    have hsound := Transactional.sound_release hs.sound
    have hsound' := Transactional.sound_perform .connect hsound
    unfold reconnect disconnect
    have hsame : isConnected { s with statements := [] } = false := hcon'
    simp only [hsame, Bool.false_eq_true, ↓reduceIte]
    cases hr : Connection.perform .connect (Connection.release s.connection) with
    | mk x c =>
      rw [hr] at hsound'
      cases x with
      | ok _ =>
        obtain ⟨hd', hw'⟩ := Transactional.connect_ok hsound hr
        refine ⟨⟨hsound', fun _ _ h => by cases h⟩, hd'.trans hd, ?_, rfl, rfl, rfl, rfl⟩
        simpa [working, durable, logged] using hw'.trans hd
      | error e =>
        have hd' := Transactional.durable_of_error hsound hr
        refine ⟨⟨hsound', fun _ _ h => by cases h⟩, hd'.trans hd, ?_, rfl, rfl, rfl, rfl⟩
        simpa [working, durable, logged] using hd'.trans hd

/-- **A rollback**: the storage sees what was committed, the batch is empty, and the recovery, if
there is one, was called once, with the error and the rows of the batch. -/
theorem rollback_fit [ToString ε] (hs : s.Fit) (e : ε) :
    (s.rollback e).2.Fit ∧ (s.rollback e).2.durable = s.durable ∧
    (s.rollback e).2.working = s.durable ∧ (s.rollback e).2.layout = s.layout ∧
    (s.rollback e).2.batch = s.batch.clear ∧ (s.rollback e).2.recovery = s.recovery ∧
    (s.rollback e).2.recovered =
      s.recovered ++ (s.recovery.map fun _ => (e, s.batch.backup)).toList ∧
    (s.rollback e).1 = s.recovery.any fun recovery => (recovery e s.batch.backup).1 := by
  obtain ⟨hfit, hd, hw, hl, hb, hrec, hcalls⟩ := undo_fit hs
  unfold rollback dropBatch consult
  simp only [logged, hrec, hb, hcalls]
  cases s.recovery with
  | none =>
    exact ⟨⟨hfit.sound, hfit.cached⟩, hd, hw, hl, rfl, rfl, by simp, rfl⟩
  | some recovery =>
    exact ⟨⟨hfit.sound, hfit.cached⟩, hd, hw, hl, rfl, rfl, by simp, by simp⟩

/-- A storage that was closed has nothing but what was committed. -/
theorem close_fit (hs : s.Fit) : s.close.2.Fit ∧ s.close.2.durable = s.durable ∧
    s.close.2.working = s.durable ∧ s.close.2.layout = s.layout ∧ s.close.2.batch = s.batch.clear ∧
    s.close.2.recovery = s.recovery ∧ s.close.2.recovered = s.recovered := by
  -- Whether the connection is closed or only let go, nothing of what was committed is lost.
  obtain ⟨x, c, hlet, hsound, hd⟩ : ∃ x c,
      (if isConnected { s with statements := [], batch := s.batch.clear } then
        Connection.perform .close s.connection else (.ok (), s.connection)) = (x, c) ∧
      Transactional.Sound c ∧ Transactional.durable c = s.durable := by
    split
    · have hsound := Transactional.sound_perform .close hs.sound
      cases hr : Connection.perform .close s.connection with
      | mk x c =>
        rw [hr] at hsound
        cases x with
        | ok _ => exact ⟨_, c, rfl, hsound, Transactional.durable_close hs.sound hr⟩
        | error e => exact ⟨_, c, rfl, hsound, Transactional.durable_of_error hs.sound hr⟩
    · exact ⟨_, s.connection, rfl, hs.sound, rfl⟩
  have hd' : Transactional.durable (Connection.release c) = s.durable :=
    (Transactional.durable_release hsound).trans hd
  have hclose : s.close = (x, { s with
      statements := [], batch := s.batch.clear, connection := Connection.release c, held := false }) := by
    simp only [close, disconnect, hlet]
  rw [hclose]
  exact ⟨⟨Transactional.sound_release hsound, fun _ _ h => by cases h⟩, hd',
    by simpa [working, durable] using hd', rfl, rfl, rfl, rfl⟩

/-- A new storage sees what was committed. -/
theorem connect_fit {layout : Layout} {size : Nat} {session : String} {c : σ}
    (hc : Transactional.Sound c) (h : connect layout size session c = .ok s) :
    s.Fit ∧ s.durable = Transactional.durable c ∧ s.working = Transactional.durable c ∧
    s.layout = layout ∧ s.batch = Batch.ofSize size ∧ s.held = true ∧ s.recovered = [] := by
  unfold connect at h
  split at h
  · rename_i c' hr
    cases h
    obtain ⟨hd, hw⟩ := Transactional.connect_ok hc hr
    have hsound := Transactional.sound_perform .connect hc
    rw [hr] at hsound
    exact ⟨⟨hsound, fun _ _ h => by cases h⟩, hd, by simpa [working] using hw, rfl, rfl, rfl, rfl⟩
  · cases h

/-- A connection that is refused leaves what was committed. -/
theorem connect_error {layout : Layout} {size : Nat} {session : String} {c c' : σ}
    {e : StorageError} (hc : Transactional.Sound c)
    (h : (connect layout size session c : Except _ (Storage σ ε)) = .error (e, c')) :
    Transactional.Sound c' ∧ Transactional.durable c' = Transactional.durable c := by
  unfold connect at h
  split at h
  · cases h
  · rename_i hr
    cases h
    have hsound := Transactional.sound_perform .connect hc
    rw [hr] at hsound
    exact ⟨hsound, Transactional.durable_of_error hc hr⟩

end Storage

end RowHistory
