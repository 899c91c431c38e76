import RowHistory.Proofs.Connection.Steady
import RowHistory.Proofs.Sql.Performing
import RowHistory.Proofs.Statement.Effects

/-!
# When storage actions succeed

On a connection that nobody disturbs, an action of a storage succeeds whenever its statements do
on the database that the storage sees. This file fixes

* that a statement which writes answers how many rows it changed (`Layout.run_changed`,
  `Layout.swept_changed`);
* the storages whose requests fail only because of their statements (`Storage.Ready`);
* for each action when it succeeds, and with which answer (`Gives`).
-/

namespace RowHistory

open Sql

/-! ## 1. Answers -/

/-- A plan that counts answers with a number. -/
theorem Sql.Plan.changed_of_counts {p : Plan} {supplied : List Cell} {db db' : Database}
    {answer : Answer} (hp : p.counts = true) (h : p.run supplied db = .ok (answer, db')) :
    ∃ n, answer = .changed n := by
  cases p with
  | insert table columns values =>
    simp only [Plan.run] at h
    split at h
    · cases h
    · obtain ⟨t, -, heq⟩ := ok_of_map h
      cases heq
      exact ⟨1, rfl⟩
  | update table assignments condition =>
    simp only [Plan.run] at h
    split at h
    · cases h
    · obtain ⟨⟨t, n⟩, -, heq⟩ := ok_of_map h
      cases heq
      exact ⟨n, rfl⟩
  | nothing | constant | select | create => cases hp

/-- Statements that write. -/
def StatementKind.writes : StatementKind → Bool
  | .latest => false
  | .active => false
  | _ => true

namespace Layout

variable {l : Layout} {db db' : Database} {answer : Answer}

theorem counts_of_plan {c : Command} {p : Plan}
    (hc : (∃ path names values, c = .insert path names values) ∨
      ∃ path sets e, c = .update path sets e)
    (h : db.plan c = .ok p) : p.counts = true := by
  obtain ⟨path, names, values, rfl⟩ | ⟨path, sets, e, rfl⟩ := hc
  · obtain ⟨t, -, h⟩ := ok_of_bind h
    obtain ⟨places, -, h⟩ := ok_of_bind h
    obtain ⟨es, -, h⟩ := ok_of_bind h
    cases h
    rfl
  · obtain ⟨t, -, h⟩ := ok_of_bind h
    obtain ⟨places, -, h⟩ := ok_of_bind h
    obtain ⟨es, -, h⟩ := ok_of_bind h
    cases h
    rfl

/-- **A statement that writes answers how many rows it changed.** -/
theorem run_changed {kind : StatementKind} {b : Binding} (hids : l.fields.names .id ≠ [])
    (hkind : kind.writes = true) (h : l.run kind b db = some (answer, db')) :
    ∃ n, answer = .changed n := by
  obtain ⟨st, hst, hperf⟩ := run_some h
  have hcommand : ∃ r, Command.read st.sql = .ok r ∧
      ((∃ path names values, r.command = .insert path names values) ∨
        ∃ path sets e, r.command = .update path sets e) := by
    by_cases hinsert : kind = .insert
    · subst hinsert
      obtain ⟨p, names, hread, -, -⟩ := read_insertion hst
      exact ⟨_, hread, .inl ⟨p, names, _, rfl⟩⟩
    · have hchange : IsChange kind := by
        cases kind with
        | latest | active => cases hkind
        | insert => exact absurd rfl hinsert
        | update | endActive | touch | purgeOne => simp [IsChange]
      obtain ⟨p, sets, e, hread, -, -, -⟩ := read_change hids hchange hst
      exact ⟨_, hread, .inr ⟨p, sets, some e, rfl⟩⟩
  obtain ⟨r, hread, hr⟩ := hcommand
  obtain ⟨plan, hplan, -, hrun⟩ := Database.perform_ok hread hperf
  exact Plan.changed_of_counts (counts_of_plan hr hplan) hrun

/-- **A purge answers how many rows it ended.** -/
theorem swept_changed {judge : Judge} {cutoff now : Instant} {condition : Option String}
    (h : l.swept judge cutoff now condition db = some (answer, db')) : ∃ n, answer = .changed n := by
  obtain ⟨t, picked, -, -, hanswer, -⟩ := swept_eq h
  exact ⟨_, hanswer⟩

end Layout

/-! ## 2. Actions -/

namespace Storage

variable {σ ε α β : Type} [Connection σ] [Transactional σ] [Steady σ] {s s' : Storage σ ε}

/-- The storage is fit and has an open connection that nobody disturbs. -/
structure Ready (s : Storage σ ε) : Prop where
  fit : s.Fit
  held : s.held = true
  free : Steady.Free s.connection
  isOpen : Connection.isOpen s.connection = true

/-- An action succeeds with an answer, and the storage stays ready. -/
def Gives (f : Action σ ε α) (s : Storage σ ε) (a : α) : Prop :=
  ∃ s', f.run.run s = (.ok a, s') ∧ s'.Ready

theorem Gives.bind {f : Action σ ε α} {g : α → Action σ ε β} {a : α} {b : β} (hf : Gives f s a)
    (hg : ∀ s', f.run.run s = (.ok a, s') → s'.Ready → Gives (g a) s' b) : Gives (f >>= g) s b := by
  obtain ⟨s', hrun, hready⟩ := hf
  obtain ⟨s'', hrun', hready'⟩ := hg s' hrun hready
  exact ⟨s'', by rw [run_bind, hrun]; exact hrun', hready'⟩

theorem gives_pure (hs : s.Ready) (a : α) : Gives (pure a) s a :=
  ⟨s, rfl, hs⟩

omit [Steady σ] in
/-- What is known of a success by the results that an action can have. -/
theorem Does.ok {f : Action σ ε α} {Q : α → Storage σ ε → Prop} {a : α} (h : Does f s Q)
    (hrun : f.run.run s = (.ok a, s')) : Stays s s' ∧ Q a s' := by
  obtain ⟨-, hstays, ⟨b, hb, hQ⟩ | ⟨⟨e, he⟩, -⟩⟩ := h _ _ hrun
  · cases hb
    exact ⟨hstays, hQ⟩
  · cases he

theorem gives_request {q : Request α} {a : α} (hs : s.Ready)
    (h : ∃ c, Connection.perform q s.connection = (.ok a, c) ∧ Connection.isOpen c = true) :
    Gives (request q) s a := by
  obtain ⟨c, hc, hopen⟩ := h
  have hrun : (request q).run.run s = (.ok a, { s with connection := c }) := by
    simp only [request, run_bind]
    show ((if s.held then _ else _ : Action σ ε α).run.run s) = _
    rw [if_pos hs.held, hc]
    rfl
  have hfree := Steady.free_perform q hs.free
  rw [hc] at hfree
  exact ⟨_, hrun, hs.fit.withConnection (Steady.sound hfree), hs.held, hfree, hopen⟩

omit [Steady σ] in
theorem working_of_held (h : s.held = true) : s.working = Transactional.working s.connection := by
  simp [working, h]

theorem gives_requireHeld (hs : s.Ready) : (requireHeld : Action σ ε Unit).run.run s = (.ok (), s) := by
  simp only [requireHeld, run_bind]
  show ((if s.held then _ else _ : Action σ ε Unit).run.run s) = _
  rw [if_pos hs.held]
  rfl

/-- A statement that would succeed is there, prepared before or now. -/
theorem gives_statement {kind : StatementKind} {st : Statement} {supplied : List Cell}
    {r : Answer × Database} (hs : s.Ready) (hst : s.layout.statement kind = .ok st)
    (h : s.working.perform st.sql supplied = .ok r) : Gives (statement kind) s st := by
  unfold statement
  refine Gives.bind ⟨s, rfl, hs⟩ fun s₁ hrun hs₁ => ?_
  cases hrun
  cases hlookup : s.statements.lookup kind with
  | some st' =>
    have heq : st' = st := Except.ok.inj ((hs.fit.cached kind st' hlookup).symm.trans hst)
    subst heq
    exact gives_pure hs st'
  | none =>
    refine Gives.bind (a := st) ⟨s, ?_, hs⟩ fun s₁ hrun hs₁ => ?_
    · show ((liftM (s.layout.statement kind) : Action σ ε Statement)).run.run s = _
      rw [hst]
      rfl
    · obtain ⟨rfl⟩ : s₁ = s := by
        rw [hst] at hrun
        cases hrun
        rfl
      rw [working_of_held hs.held] at h
      refine (gives_request hs (Steady.prepare_free hs.free hs.isOpen hst h)).bind
        fun s₂ hrun₂ hs₂ => ?_
      obtain ⟨hstays, -, -⟩ := (does_prepare hs.fit st).ok hrun₂
      have hfit : ∀ entry, Fit { s₂.logged entry with statements := (kind, st) :: s₂.statements } := by
        refine fun entry => ⟨hs₂.fit.sound, fun kind' st' h => ?_⟩
        rw [List.lookup_cons] at h
        split at h
        · rename_i heq
          cases h
          rw [beq_iff_eq] at heq
          rw [heq]
          exact hstays.layout ▸ hst
        · exact hs₂.fit.cached kind' st' h
      exact ⟨_, rfl, hfit _, hs₂.held, hs₂.free, hs₂.isOpen⟩

/-- **A lookup reads the answer of its statement**, if that succeeds. -/
theorem select_eq {kind : StatementKind} {b : Binding} {answer : Answer} {db : Database} (hs : s.Ready)
    (h : s.layout.run kind b s.working = some (answer, db)) :
    ∃ s', (select kind b).run.run s = (answer.record? s.layout.names, s') ∧ s'.Ready := by
  obtain ⟨st, hst, hperf⟩ := Layout.run_some h
  obtain ⟨s₂, hrun₂, hs₂⟩ := gives_statement hs hst hperf
  obtain ⟨hstays, -, hstill⟩ := (does_statement hs.fit kind).ok hrun₂
  rw [← hstill.working, working_of_held hs₂.held] at hperf
  obtain ⟨s₃, hrun₃, hs₃⟩ := gives_request hs₂ (Steady.query_free hs₂.free hs₂.isOpen hst hperf)
  obtain ⟨hstays₃, -⟩ := (does_request hs₂.fit _).ok hrun₃
  have hnames : s₃.layout.names = s.layout.names := by rw [hstays₃.layout, hstays.layout]
  refine ⟨s₃, ?_, hs₃⟩
  unfold select Answer.record?
  rw [run_bind, gives_requireHeld hs]
  dsimp only
  rw [run_bind, hrun₂]
  dsimp only
  rw [run_bind, hrun₃]
  dsimp only
  cases answer.row? with
  | none => rfl
  | some row =>
    rw [← hnames]
    show ((liftM (Record.ofRow s₃.layout.names row) : Action σ ε Record) >>= fun record =>
      pure (some record)).run.run s₃ = ((Record.ofRow s₃.layout.names row).map some, s₃)
    cases Record.ofRow s₃.layout.names row with
    | error e => rfl
    | ok record => rfl

/-- **A lookup succeeds if its statement does**, and if what it finds is a version. -/
theorem gives_select {kind : StatementKind} {b : Binding} {answer : Answer} {db : Database}
    {found : Option Record} (hs : s.Ready)
    (h : s.layout.run kind b s.working = some (answer, db))
    (hfound : answer.record? s.layout.names = .ok found) : Gives (select kind b) s found := by
  obtain ⟨s', hrun, hready⟩ := select_eq hs h
  rw [hfound] at hrun
  exact ⟨s', hrun, hready⟩

theorem gives_execute {kind : StatementKind} {row : Row} {n : Nat} {db : Database} (hs : s.Ready)
    (h : s.layout.run kind { row } s.working = some (.changed n, db)) :
    Gives (execute kind row) s () := by
  obtain ⟨st, hst, hperf⟩ := Layout.run_some h
  unfold execute
  refine Gives.bind ⟨s, gives_requireHeld hs, hs⟩ fun s₁ hrun _ => ?_
  rw [gives_requireHeld hs] at hrun
  cases hrun
  refine (gives_statement hs hst hperf).bind fun s₂ hrun₂ hs₂ => ?_
  obtain ⟨-, -, hstill⟩ := (does_statement hs.fit kind).ok hrun₂
  rw [← hstill.working, working_of_held hs₂.held] at hperf
  exact (gives_request hs₂ (Steady.execute_free hs₂.free hs₂.isOpen hst hperf)).bind
    fun s₃ _ hs₃ => gives_pure hs₃ ()

theorem gives_executeAll (row : Row) : ∀ (kinds : List StatementKind) {s : Storage σ ε}
    {db : Database}, s.Ready → s.layout.fields.names .id ≠ [] →
    (∀ kind ∈ kinds, kind.writes = true) → s.layout.written row kinds s.working = some db →
    Gives (kinds.forM fun kind => execute kind row) s ()
  | [], s, _, hs, _, _, _ => gives_pure hs ()
  | kind :: kinds, s, db, hs, hids, hkinds, h => by
    obtain ⟨hkind, hkinds⟩ := List.forall_mem_cons.mp hkinds
    obtain ⟨⟨answer, db₁⟩, hrun, hrest⟩ := Option.bind_eq_some_iff.mp h
    obtain ⟨n, rfl⟩ := Layout.run_changed hids hkind hrun
    refine (gives_execute hs hrun).bind fun s₁ hrun₁ hs₁ => ?_
    obtain ⟨hstays, -, -, answer, hrun'⟩ := (does_execute hs.fit kind row).ok hrun₁
    have hdb : s₁.working = db₁ := by
      rw [hrun] at hrun'
      cases hrun'
      rfl
    have hrest' : s₁.layout.written row kinds s₁.working = some db := by
      rw [hstays.layout, hdb]
      exact hrest
    exact gives_executeAll row kinds hs₁ (hstays.layout ▸ hids) hkinds hrest'

/-! ## 3. Transactions -/

theorem gives_commit (hs : s.Ready) : Gives (commit : Action σ ε Unit) s () := by
  unfold commit
  refine Gives.bind ⟨s, rfl, hs⟩ fun s₁ hrun _ => ?_
  cases hrun
  refine (gives_request hs (Steady.commit_free hs.free hs.isOpen)).bind fun s₂ _ hs₂ => ?_
  refine Gives.bind (a := ()) ⟨_, rfl, ?_⟩ fun s₃ _ hs₃ => ?_
  · exact ⟨⟨hs₂.fit.sound, hs₂.fit.cached⟩, hs₂.held, hs₂.free, hs₂.isOpen⟩
  · split
    · exact ⟨_, rfl, ⟨hs₃.fit.sound, hs₃.fit.cached⟩, hs₃.held, hs₃.free, hs₃.isOpen⟩
    · exact gives_pure hs₃ ()

theorem gives_settle (hs : s.Ready) : Gives (settle : Action σ ε Unit) s () := by
  unfold settle
  refine Gives.bind (a := ()) ⟨_, rfl, ?_⟩ fun s₁ _ hs₁ => ?_
  · exact ⟨⟨hs.fit.sound, hs.fit.cached⟩, hs.held, hs.free, hs.isOpen⟩
  · refine Gives.bind ⟨s₁, rfl, hs₁⟩ fun s₂ hrun _ => ?_
    cases hrun
    split
    · exact gives_commit hs₁
    · exact gives_pure hs₁ ()

theorem writes_statementsOf {m : Mutation} {kind : StatementKind} (h : kind ∈ statementsOf m) :
    kind.writes = true := by
  cases m <;> simp_all [statementsOf] <;> rcases h with rfl | rfl <;> rfl

/-- **A mutation succeeds if all of its statements do.** -/
theorem gives_apply {m : Mutation} {row : Row} {db : Database} (hs : s.Ready)
    (hids : s.layout.fields.names .id ≠ [])
    (h : s.layout.written row (statementsOf m) s.working = some db) : Gives (apply m row) s () := by
  unfold apply
  refine (gives_executeAll row _ hs hids (fun _ => writes_statementsOf) h).bind fun s₁ _ hs₁ => ?_
  split
  · exact gives_settle hs₁
  · exact gives_pure hs₁ ()

/-- **A purge succeeds if its statement does**, and answers what that answers. -/
theorem gives_purge {cutoff now : Instant} {condition : Option String} {n : Nat} {db : Database}
    (hs : s.Ready) (h : s.layout.swept (Transactional.judge σ) cutoff now condition s.working =
      some (.changed n, db)) : Gives (purge cutoff now condition) s n := by
  obtain ⟨st, hst, hpurged⟩ := Layout.swept_some h
  unfold purge
  refine Gives.bind ⟨s, rfl, hs⟩ fun s₁ hrun _ => ?_
  cases hrun
  refine Gives.bind (a := st) ⟨s, ?_, hs⟩ fun s₁ hrun _ => ?_
  · show ((liftM (s.layout.purge condition) : Action σ ε Statement)).run.run s = _
    rw [hst]
    rfl
  · obtain ⟨rfl⟩ : s₁ = s := by
      rw [hst] at hrun
      cases hrun
      rfl
    have hprepared := hpurged
    rw [working_of_held hs.held] at hprepared
    refine (gives_request hs (Steady.preparePurge_free hs.free hs.isOpen hst hprepared)).bind
      fun s₂ hrun₂ hs₂ => ?_
    obtain ⟨-, hstill, -⟩ := (does_prepare hs.fit st).ok hrun₂
    rw [← hstill.working, working_of_held hs₂.held] at hpurged
    refine (gives_request hs₂ (Steady.purge_free hs₂.free hs₂.isOpen hst hpurged)).bind
      fun s₃ _ hs₃ => ?_
    exact (gives_commit hs₃).bind fun s₄ _ hs₄ => gives_pure hs₄ n

/-- A storage that is ready can be closed. -/
theorem close_ready (hs : s.Ready) : s.close.1 = .ok () := by
  obtain ⟨c, hc⟩ := Steady.close_free hs.free hs.isOpen
  have hcon : isConnected { s with statements := [], batch := s.batch.clear } = true := by
    simp [isConnected, hs.held, hs.isOpen]
  simp only [close, disconnect, hcon, ↓reduceIte, hc]

/-- A database that nobody disturbs can be connected to. -/
theorem connect_ready {c : σ} (hc : Steady.Free c) (layout : Layout) (size : Nat)
    (session : String) : ∃ s : Storage σ ε, connect layout size session c = .ok s ∧ s.Ready := by
  obtain ⟨c', hc', hopen⟩ := Steady.connect_free hc
  have hfree := Steady.free_perform .connect hc
  rw [hc'] at hfree
  have hrun : (connect layout size session c : Except _ (Storage σ ε)) =
      .ok { layout, connection := c', batch := Batch.ofSize size, session } := by
    unfold connect
    rw [hc']
  refine ⟨_, hrun, ?_⟩
  exact ⟨(connect_fit (Steady.sound hc) hrun).1, rfl, hfree, hopen⟩

end Storage

end RowHistory
