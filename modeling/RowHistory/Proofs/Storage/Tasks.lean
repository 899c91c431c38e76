import RowHistory.Proofs.Storage.Parallel

/-!
# Runs of a storage

A storage is asked for one thing after the other, and in between something may happen to its database
and its connection. This file fixes

* the tasks (`Storage.Task`), what comes of one (`Storage.perform`) and of several (`Storage.run`);
* connections that are seen through a map (`Connection.SeenAs`): a storage on such a connection does
  what the storage does that is seen (`perform_seen`, `run_seen`).
-/

namespace RowHistory

namespace Storage

/-- What is done with a storage. -/
inductive Task (σ ε : Type) where
  | latest (row : Row)
  | active (row : Row) (now : Instant)
  | apply (m : Mutation) (row : Row)
  | backUp (row : Row)
  | purge (cutoff now : Instant) (condition : Option String)
  | commit
  | rollback (error : ε)
  | close
  /-- A recovery is set. -/
  | recovery (r : Recovery ε)
  /-- Something happens to the database and the connection, which may be lost by it. -/
  | outside (f : σ → σ)

variable {σ τ ε α β : Type} [Connection σ] [Connection τ] [ToString ε]

/-- Whether an action succeeds, and the storage after it. -/
def outcome (f : Action σ ε α) (s : Storage σ ε) : Except StorageError Unit × Storage σ ε :=
  (f.run.run s).map (Except.map fun _ => ()) id

/-- Whether a task succeeds, and the storage after it. -/
def perform (s : Storage σ ε) : Task σ ε → Except StorageError Unit × Storage σ ε
  | .latest row => outcome (latest row) s
  | .active row now => outcome (active row now) s
  | .apply m row => outcome (apply m row) s
  | .backUp row => (.ok (), s.backUp row)
  | .purge cutoff now condition => outcome (purge cutoff now condition) s
  | .commit => outcome commit s
  | .rollback error => (.ok (), (s.rollback error).2)
  | .close => s.close
  | .recovery r => (.ok (), { s with recovery := some r })
  | .outside f => (.ok (), { s with connection := f s.connection })

/-- The storage after tasks, one after the other. -/
def run (s : Storage σ ε) (tasks : List (Task σ ε)) : Storage σ ε :=
  tasks.foldl (fun s task => (s.perform task).2) s

theorem run_cons (s : Storage σ ε) (task : Task σ ε) (tasks : List (Task σ ε)) :
    s.run (task :: tasks) = (s.perform task).2.run tasks :=
  rfl

end Storage

/-! ## 1. Connections that are seen through a map -/

variable {σ τ ε α : Type} [Connection σ] [Connection τ]

/-- What is seen of a connection answers as the connection does. -/
structure Connection.SeenAs (φ : τ → σ) : Prop where
  perform {α : Type} (r : Request α) (c : τ) :
    Connection.perform r (φ c) = ((Connection.perform r c).1, φ (Connection.perform r c).2)
  isOpen (c : τ) : Connection.isOpen (φ c) = Connection.isOpen c
  release (c : τ) : Connection.release (φ c) = φ (Connection.release c)
  describe (c : τ) : Connection.describe (φ c) = Connection.describe c

namespace Storage

/-- What is seen of a storage. -/
def seen (φ : τ → σ) (t : Storage τ ε) : Storage σ ε :=
  { t with connection := φ t.connection }

/-- An action does to what is seen of a storage what it does to the storage. -/
abbrev SeenAlike (φ : τ → σ) (f : Action σ ε α) (g : Action τ ε α) : Prop :=
  InStep (fun s t => s = t.seen φ) Eq f g

variable {φ : τ → σ}

omit [Connection σ] [Connection τ] in
theorem seen_requireHeld : SeenAlike φ (requireHeld : Action σ ε Unit) requireHeld := by
  refine inStep_get_bind fun s t h => ?_
  subst h
  show InStep _ _ (if t.held then _ else _) (if t.held then _ else _)
  split
  · exact inStep_pure rfl
  · exact inStep_throw _

variable (hφ : Connection.SeenAs φ)
include hφ

theorem seen_request (r : Request α) : SeenAlike φ (request r : Action σ ε α) (request r) := by
  rintro s t rfl
  have hperform : Connection.perform r (t.seen φ).connection = _ := hφ.perform r t.connection
  rw [run_request, run_request, hperform]
  show Matching _ (if t.held then _ else _ : _ × _).1 _ ∧ (if t.held then _ else _ : _ × _).2 = _
  split
  · exact ⟨matching_eq _, rfl⟩
  · exact ⟨matching_eq _, rfl⟩

theorem seen_statement (kind : StatementKind) :
    SeenAlike φ (statement kind : Action σ ε Statement) (statement kind) := by
  refine inStep_get_bind fun s t h => ?_
  subst h
  have hstatements : (t.seen φ).statements = t.statements := rfl
  rw [hstatements]
  cases t.statements.lookup kind with
  | some st => exact inStep_pure rfl
  | none =>
    refine (inStep_liftM (matching_eq _)).bind fun st _ hst => ?_
    subst hst
    refine (seen_request hφ _).bind fun _ _ _ => ?_
    exact (inStep_modify fun s t h => by subst h; rfl).bind fun _ _ _ => inStep_pure rfl

theorem seen_select (kind : StatementKind) (b : Binding) :
    SeenAlike φ (select kind b : Action σ ε (Option Record)) (select kind b) := by
  refine seen_requireHeld.bind fun _ _ _ => ?_
  refine (seen_statement hφ kind).bind fun st _ hst => ?_
  subst hst
  refine (seen_request hφ _).bind fun found _ hfound => ?_
  subst hfound
  cases found with
  | none => exact inStep_pure rfl
  | some stored =>
    refine inStep_get_bind fun s t h => ?_
    subst h
    exact (inStep_liftM (matching_eq _)).bind fun record _ hrecord => inStep_pure (congrArg some hrecord)

theorem seen_execute (kind : StatementKind) (row : Row) :
    SeenAlike φ (execute kind row : Action σ ε Unit) (execute kind row) := by
  refine seen_requireHeld.bind fun _ _ _ => ?_
  refine (seen_statement hφ kind).bind fun st _ hst => ?_
  subst hst
  exact (seen_request hφ _).bind fun _ _ _ => inStep_pure rfl

theorem seen_executeAll (row : Row) (kinds : List StatementKind) :
    SeenAlike φ (kinds.forM fun kind => execute kind row : Action σ ε Unit)
      (kinds.forM fun kind => execute kind row) := by
  induction kinds with
  | nil => exact inStep_pure rfl
  | cons kind kinds ih => exact (seen_execute hφ kind row).bind fun _ _ _ => ih

theorem seen_commit : SeenAlike φ (commit : Action σ ε Unit) commit := by
  refine inStep_get_bind fun s t h => ?_
  subst h
  refine (seen_request hφ _).bind fun _ _ _ => ?_
  refine (inStep_modify fun s t h => by subst h; rfl).bind fun _ _ _ => ?_
  show InStep _ _ (if 0 < t.batch.pending then _ else _) (if 0 < t.batch.pending then _ else _)
  split
  · exact inStep_modify fun s t h => by subst h; rfl
  · exact inStep_pure rfl

theorem seen_apply (m : Mutation) (row : Row) :
    SeenAlike φ (apply m row : Action σ ε Unit) (apply m row) := by
  refine (seen_executeAll hφ row _).bind fun _ _ _ => ?_
  split
  · refine (inStep_modify fun s t h => by subst h; rfl).bind fun _ _ _ =>
      inStep_get_bind fun s t h => ?_
    subst h
    show InStep _ _ (if t.batch.isFull then _ else _) (if t.batch.isFull then _ else _)
    split
    · exact seen_commit hφ
    · exact inStep_pure rfl
  · exact inStep_pure rfl

theorem seen_purge (cutoff now : Instant) (condition : Option String) :
    SeenAlike φ (purge cutoff now condition : Action σ ε Nat) (purge cutoff now condition) := by
  refine inStep_get_bind fun s t h => ?_
  subst h
  refine (inStep_liftM (matching_eq _)).bind fun st _ hst => ?_
  subst hst
  refine (seen_request hφ _).bind fun _ _ _ => (seen_request hφ _).bind fun count _ hcount => ?_
  exact (seen_commit hφ).bind fun _ _ _ => inStep_pure hcount

/-! ## 2. Failures and the end -/

theorem isConnected_seen (t : Storage τ ε) : (t.seen φ).isConnected = t.isConnected :=
  congrArg (t.held && ·) (hφ.isOpen t.connection)

theorem disconnect_seen (t : Storage τ ε) :
    (t.seen φ).disconnect = (t.disconnect.1, t.disconnect.2.seen φ) := by
  have hconnection : (t.seen φ).connection = φ t.connection := rfl
  rw [disconnect_eq, disconnect_eq, isConnected_seen hφ, hconnection, hφ.perform]
  dsimp only
  split <;> rw [hφ.release] <;> rfl

theorem reconnect_seen (t : Storage τ ε) : (t.seen φ).reconnect = t.reconnect.seen φ := by
  have hlet : Storage.disconnect { t.seen φ with statements := [] } = _ :=
    disconnect_seen hφ { t with statements := [] }
  unfold reconnect
  rw [hlet]
  generalize Storage.disconnect { t with statements := [] } = d
  obtain ⟨x, t₁⟩ := d
  have hperform : Connection.perform .connect (t₁.seen φ).connection = _ :=
    hφ.perform .connect t₁.connection
  dsimp only
  rw [hperform]
  cases Connection.perform .connect t₁.connection with
  | mk y c =>
    cases y with
    | ok _ =>
      dsimp only
      rw [hφ.describe]
      rfl
    | error e => rfl

theorem undo_seen (t : Storage τ ε) : (t.seen φ).undo = t.undo.seen φ := by
  have hperform : Connection.perform .rollback (t.seen φ).connection = _ :=
    hφ.perform .rollback t.connection
  unfold undo
  rw [isConnected_seen hφ, hperform, reconnect_seen hφ]
  split
  · cases Connection.perform .rollback t.connection with
    | mk x c => cases x <;> rfl
  · rfl

omit [Connection σ] [Connection τ] hφ in
theorem consult_seen (t : Storage τ ε) (error : ε) (rows : List Row) :
    (t.seen φ).consult error rows = ((t.consult error rows).1, (t.consult error rows).2.seen φ) := by
  have hrecovery : (t.seen φ).recovery = t.recovery := rfl
  unfold consult
  rw [hrecovery]
  cases t.recovery <;> rfl

theorem rollback_seen [ToString ε] (t : Storage τ ε) (error : ε) :
    (t.seen φ).rollback error = ((t.rollback error).1, (t.rollback error).2.seen φ) := by
  unfold rollback
  rw [undo_seen hφ]
  exact consult_seen (t.undo.dropBatch error) error t.undo.batch.backup

/-! ## 3. Tasks -/

omit [Connection σ] [Connection τ] hφ in
theorem outcome_seen {f : Action σ ε α} {g : Action τ ε α} (h : SeenAlike φ f g) (t : Storage τ ε) :
    outcome f (t.seen φ) = ((outcome g t).1, (outcome g t).2.seen φ) := by
  obtain ⟨hanswer, hafter⟩ := h _ t rfl
  unfold outcome
  rw [Prod.ext_iff]
  exact ⟨congrArg (Except.map fun _ => ()) hanswer.eq.symm, hafter⟩

/-- A task on the connection behind, where what happens outside happens in a given way. -/
def Task.lifted (lift : (σ → σ) → τ → τ) : Task σ ε → Task τ ε
  | .latest row => .latest row
  | .active row now => .active row now
  | .apply m row => .apply m row
  | .backUp row => .backUp row
  | .purge cutoff now condition => .purge cutoff now condition
  | .commit => .commit
  | .rollback error => .rollback error
  | .close => .close
  | .recovery r => .recovery r
  | .outside f => .outside (lift f)

/-- A new storage on what is seen of a connection is what is seen of a new storage. -/
theorem connect_seen (layout : Layout) (size : Nat) (session : String) (c : τ) :
    (connect layout size session (φ c) : Except _ (Storage σ ε)) =
      ((connect layout size session c).map (seen φ)).mapError fun (e, c) => (e, φ c) := by
  unfold connect
  rw [hφ.perform]
  cases Connection.perform .connect c with
  | mk x c' => cases x <;> rfl

variable [ToString ε] {lift : (σ → σ) → τ → τ} (hlift : ∀ f c, φ (lift f c) = f (φ c))
include hlift

/-- **A task does to what is seen of a storage what it does to the storage.** -/
theorem perform_seen (t : Storage τ ε) (task : Task σ ε) :
    (t.seen φ).perform task =
      ((t.perform (task.lifted lift)).1, (t.perform (task.lifted lift)).2.seen φ) := by
  cases task with
  | latest row => exact outcome_seen (seen_select hφ _ _) t
  | active row now => exact outcome_seen (seen_select hφ _ _) t
  | apply m row => exact outcome_seen (seen_apply hφ m row) t
  | backUp row => rfl
  | purge cutoff now condition => exact outcome_seen (seen_purge hφ cutoff now condition) t
  | commit => exact outcome_seen (seen_commit hφ) t
  | rollback error => exact congrArg (fun r => (Except.ok (), r.2)) (rollback_seen hφ t error)
  | close => exact disconnect_seen hφ { t with statements := [], batch := t.batch.clear }
  | recovery r => rfl
  | outside f =>
    show (_, { t.seen φ with connection := f (φ t.connection) }) = _
    rw [← hlift f t.connection]
    rfl

/-- **Tasks do to what is seen of a storage what they do to the storage.** -/
theorem run_seen (t : Storage τ ε) (tasks : List (Task σ ε)) :
    (t.seen φ).run tasks = (t.run (tasks.map (Task.lifted lift))).seen φ := by
  induction tasks generalizing t with
  | nil => rfl
  | cons task tasks ih =>
    rw [run_cons, perform_seen hφ hlift]
    exact ih _

end Storage

end RowHistory
