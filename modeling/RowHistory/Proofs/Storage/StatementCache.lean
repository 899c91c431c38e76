import RowHistory.Connection.Scripted
import RowHistory.Connection.Traced
import RowHistory.Proofs.Connection.Journal
import RowHistory.Proofs.Storage.Tasks

/-!
# Prepared statements

A storage keeps the statements that its connection has prepared. What it keeps is what the journal of
the connection says, whatever was asked of the storage and whatever failed or was lost on the way. This
file fixes

* the storages whose statements agree with the journal (`Coherent`);
* what an action adds to the journal and to the log (`Moves`, `Tracks`), with one lemma for each action;
* what a task adds to them (`Accounted`), and that it leaves a coherent storage (`perform_accounted`);
* the main statement (`statements_coherent`).
-/

namespace RowHistory

/-- The log entry that tells of a statement that was prepared to be kept. -/
def Deed.notice? (session : String) : Deed → Option LogEntry
  | .prepared st true => st.kind.map fun kind => .ofEventAt .trace .statementPrepared
      [("session", session), ("kind", kind.name), ("sql", st.sql)]
  | _ => none

/-- The entry tells of a statement that was prepared. -/
def LogEntry.isNotice (e : LogEntry) : Bool :=
  e.event = Event.statementPrepared.name

namespace Storage

open Journal (Used UsedAll)

variable {σ ε α β : Type} {l : Layout} {s s' s'' : Storage (Journaled σ) ε}

/-! ## 1. Coherent storages -/

/-- The statements that are kept are those of the layout that the present connection has prepared,
without a connection none are, and the journal is in order. -/
structure Coherent (l : Layout) (s : Storage (Journaled σ) ε) : Prop where
  layout : s.layout = l
  cached : ∀ kind st, (kind, st) ∈ s.statements ↔
    l.statement kind = .ok st ∧ s.connection.journal.HasPrepared st
  live : s.connection.journal.isLive = s.held
  empty : s.held = false → s.statements = []
  orderly : s.connection.journal.Orderly l

namespace Coherent

/-- A statement that is kept is found, and nothing else is. -/
theorem lookup_eq_some_iff (hs : Coherent l s) {kind : StatementKind} {st : Statement} :
    s.statements.lookup kind = some st ↔
      l.statement kind = .ok st ∧ s.connection.journal.HasPrepared st := by
  have hfound : ∀ {st}, s.statements.lookup kind = some st → (kind, st) ∈ s.statements := by
    intro st hlookup
    obtain ⟨before, after, heq, -⟩ := List.lookup_eq_some_iff.mp hlookup
    exact heq ▸ List.mem_append_right _ List.mem_cons_self
  rw [← hs.cached]
  refine ⟨hfound, fun hmem => ?_⟩
  have hsome : (s.statements.lookup kind).isSome = true :=
    List.lookup_isSome_iff.mpr ⟨_, hmem, beq_self_eq_true kind⟩
  obtain ⟨st', hlookup⟩ := Option.isSome_iff_exists.mp hsome
  have hst := ((hs.cached kind st).mp hmem).1
  rw [((hs.cached kind st').mp (hfound hlookup)).1] at hst
  cases hst
  exact hlookup

/-- A statement that is not kept is not prepared. -/
theorem not_hasPrepared_of_lookup (hs : Coherent l s) {kind : StatementKind}
    (h : s.statements.lookup kind = none) {st : Statement} (hst : l.statement kind = .ok st) :
    ¬ s.connection.journal.HasPrepared st := by
  intro hprepared
  rw [hs.lookup_eq_some_iff.mpr ⟨hst, hprepared⟩] at h
  cases h

/-- Only these parts of a storage matter. -/
theorem congr (hs : Coherent l s) (hlayout : s'.layout = s.layout)
    (hstatements : s'.statements = s.statements) (hheld : s'.held = s.held)
    (hjournal : s'.connection.journal = s.connection.journal) : Coherent l s' := by
  refine ⟨hlayout.trans hs.layout, ?_, ?_, ?_, ?_⟩
  · rw [hstatements, hjournal]
    exact hs.cached
  · rw [hjournal, hheld]
    exact hs.live
  · rw [hstatements, hheld]
    exact hs.empty
  · rw [hjournal]
    exact hs.orderly

variable {c : σ} {st : Statement} {values : List Value} {done : Bool}

/-- A prepared statement runs. -/
theorem ran (hs : Coherent l s) (hheld : s.held = true) (hprepared : s.connection.journal.HasPrepared st) :
    Coherent l { s with connection := ⟨c, .ran st values done :: s.connection.journal⟩ } where
  layout := hs.layout
  cached kind st' := by
    rw [Journal.hasPrepared_ran]
    exact hs.cached kind st'
  live := hs.live
  empty := hs.empty
  orderly := ⟨⟨hs.live.trans hheld, hprepared, fun _ => hs.orderly.statement_eq hprepared⟩, hs.orderly⟩

/-- A statement of the layout that the connection has not prepared may be prepared. -/
theorem inOrder_prepared (hs : Coherent l s) (hheld : s.held = true) {kind : StatementKind}
    (hst : l.statement kind = .ok st) (hnew : ¬ s.connection.journal.HasPrepared st) :
    Journal.InOrder l s.connection.journal (.prepared st done) := by
  refine ⟨hs.live.trans hheld, fun kind' hkind' => ?_⟩
  obtain rfl : kind = kind' := Option.some.inj ((Layout.kind_statement hst).symm.trans hkind')
  refine ⟨hst, fun st' hkind hprepared => hnew ?_⟩
  have hst' := hs.orderly.statement_eq hprepared hkind
  rw [hst] at hst'
  cases hst'
  exact hprepared

/-- A statement is not prepared after all. -/
theorem refused (hs : Coherent l s)
    (horder : Journal.InOrder l s.connection.journal (.prepared st false)) :
    Coherent l { s with connection := ⟨c, .prepared st false :: s.connection.journal⟩ } where
  layout := hs.layout
  cached kind st' := by
    rw [Journal.hasPrepared_prepared, or_iff_right fun h => Bool.false_ne_true h.2]
    exact hs.cached kind st'
  live := hs.live
  empty := hs.empty
  orderly := ⟨horder, hs.orderly⟩

/-- A statement without a kind is prepared and not kept. -/
theorem preparedOnce (hs : Coherent l s) (hheld : s.held = true) (hst : st.kind = none) :
    Coherent l { s with connection := ⟨c, .prepared st true :: s.connection.journal⟩ } where
  layout := hs.layout
  cached kind st' := by
    rw [Journal.hasPrepared_prepared, hs.cached kind st']
    refine and_congr_right fun hst' => (or_iff_right fun h => ?_).symm
    rw [h.1] at hst'
    exact nomatch hst.symm.trans (Layout.kind_statement hst')
  live := hs.live
  empty := hs.empty
  orderly := ⟨⟨hs.live.trans hheld, fun _ hkind => nomatch hst.symm.trans hkind⟩, hs.orderly⟩

/-- The statement of a kind is prepared and kept. -/
theorem kept (hs : Coherent l s) (hheld : s.held = true) {kind : StatementKind}
    (hst : l.statement kind = .ok st) (hnew : ¬ s.connection.journal.HasPrepared st) :
    Coherent l { s with
      connection := ⟨c, .prepared st true :: s.connection.journal⟩
      statements := (kind, st) :: s.statements } where
  layout := hs.layout
  cached kind' st' := by
    rw [List.mem_cons, Prod.mk.injEq, hs.cached kind' st', Journal.hasPrepared_prepared]
    constructor
    · rintro (⟨rfl, rfl⟩ | ⟨hst', hprepared⟩)
      · exact ⟨hst, .inl ⟨rfl, rfl⟩⟩
      · exact ⟨hst', .inr hprepared⟩
    · rintro ⟨hst', ⟨rfl, -⟩ | hprepared⟩
      · have hkind := (Layout.kind_statement hst').symm.trans (Layout.kind_statement hst)
        exact .inl ⟨Option.some.inj hkind, rfl⟩
      · exact .inr ⟨hst', hprepared⟩
  live := hs.live
  empty hempty := nomatch hheld.symm.trans hempty
  orderly := ⟨hs.inOrder_prepared hheld hst hnew, hs.orderly⟩

/-- The connection is let go, and nothing is kept. -/
theorem released (hs : Coherent l s) : Coherent l { s with
    connection := ⟨c, .released :: s.connection.journal⟩
    held := false
    statements := [] } where
  layout := hs.layout
  cached _ _ := ⟨nofun, fun h => absurd h.2 Journal.not_hasPrepared_released⟩
  live := rfl
  empty _ := rfl
  orderly := ⟨trivial, hs.orderly⟩

/-- A storage that keeps nothing connects. -/
theorem connected (hs : Coherent l s) (hempty : s.statements = []) : Coherent l { s with
    connection := ⟨c, .connected :: s.connection.journal⟩
    held := true } where
  layout := hs.layout
  cached kind st := by
    rw [hempty]
    exact ⟨nofun, fun h => absurd h.2 Journal.not_hasPrepared_connected⟩
  live := rfl
  empty := nofun
  orderly := ⟨trivial, hs.orderly⟩

end Coherent

/-! ## 2. Actions -/

/-- A coherent storage comes from another one by deeds, of which the log tells. -/
structure Moves (l : Layout) (s : Storage (Journaled σ) ε) (deeds : List Deed)
    (s' : Storage (Journaled σ) ε) : Prop where
  coherent : Coherent l s'
  journal : s'.connection.journal = deeds ++ s.connection.journal
  told : ∃ own, s'.log = s.log ++ own ∧
    own.filter LogEntry.isNotice = deeds.reverse.filterMap (Deed.notice? s.session)
  session : s'.session = s.session

theorem Moves.refl (hs : Coherent l s) : Moves l s [] s :=
  ⟨hs, rfl, ⟨[], (List.append_nil _).symm, rfl⟩, rfl⟩

theorem Moves.trans {deeds more : List Deed} (h : Moves l s deeds s') (h' : Moves l s' more s'') :
    Moves l s (more ++ deeds) s'' := by
  obtain ⟨own, hlog, hown⟩ := h.told
  obtain ⟨own', hlog', hown'⟩ := h'.told
  refine ⟨h'.coherent, ?_, ⟨own ++ own', ?_, ?_⟩, h'.session.trans h.session⟩
  · rw [h'.journal, h.journal, List.append_assoc]
  · rw [hlog', hlog, List.append_assoc]
  · rw [List.filter_append, hown, hown', List.reverse_append, List.filterMap_append, h.session]

/-- An action moves a storage and keeps or lacks its connection, and something is known of its deeds and
its answer. -/
def Tracks (l : Layout) (f : Action (Journaled σ) ε α) (s : Storage (Journaled σ) ε)
    (Q : List Deed → Except StorageError α → Prop) : Prop :=
  ∃ deeds, Moves l s deeds (f.run.run s).2 ∧ (f.run.run s).2.held = s.held ∧ Q deeds (f.run.run s).1

theorem Tracks.imp {f : Action (Journaled σ) ε α} {P Q : List Deed → Except StorageError α → Prop}
    (h : Tracks l f s P) (himp : ∀ deeds r, P deeds r → Q deeds r) : Tracks l f s Q := by
  obtain ⟨deeds, hmoves, hheld, hP⟩ := h
  exact ⟨deeds, hmoves, hheld, himp _ _ hP⟩

theorem Tracks.bind {f : Action (Journaled σ) ε α} {g : α → Action (Journaled σ) ε β}
    {P : List Deed → Except StorageError α → Prop} {Q : List Deed → Except StorageError β → Prop}
    (hf : Tracks l f s P) (herror : ∀ deeds e, P deeds (.error e) → Q deeds (.error e))
    (hg : ∀ deeds a s', Moves l s deeds s' → s'.held = s.held → P deeds (.ok a) →
      Tracks l (g a) s' fun more r => Q (more ++ deeds) r) : Tracks l (f >>= g) s Q := by
  obtain ⟨deeds, hmoves, hheld, hP⟩ := hf
  unfold Tracks
  rw [run_bind]
  cases hrun : f.run.run s with
  | mk r s' =>
    rw [hrun] at hmoves hheld hP
    cases r with
    | error e => exact ⟨deeds, hmoves, hheld, herror deeds e hP⟩
    | ok a =>
      obtain ⟨more, hmoves', hheld', hQ⟩ := hg deeds a s' hmoves hheld hP
      exact ⟨more ++ deeds, hmoves.trans hmoves', hheld'.trans hheld, hQ⟩

/-- What fails at once goes no further. -/
theorem Tracks.fails {f : Action (Journaled σ) ε α} {g : α → Action (Journaled σ) ε β} {e : StorageError}
    (h : Tracks l f s fun deeds r => deeds = [] ∧ r = .error e) :
    Tracks l (f >>= g) s fun deeds r => deeds = [] ∧ r = .error e :=
  h.bind (fun _ _ h => ⟨h.1, congrArg Except.error (Except.error.inj h.2)⟩) fun _ _ _ _ _ h => nomatch h.2

theorem tracks_pure (hs : Coherent l s) (a : α) {Q : List Deed → Except StorageError α → Prop}
    (hQ : Q [] (.ok a)) : Tracks l (pure a) s Q :=
  ⟨[], .refl hs, rfl, hQ⟩

theorem tracks_get_bind {g : Storage (Journaled σ) ε → Action (Journaled σ) ε α}
    {Q : List Deed → Except StorageError α → Prop} (h : Tracks l (g s) s Q) : Tracks l (get >>= g) s Q :=
  h

theorem tracks_liftM (hs : Coherent l s) (x : Except StorageError α) :
    Tracks l (liftM x) s fun deeds r => deeds = [] ∧ r = x := by
  cases x <;> exact ⟨[], .refl hs, rfl, rfl, rfl⟩

/-- Something else of the storage changes, and an entry may be logged that tells of no statement. -/
theorem tracks_modify {f : Storage (Journaled σ) ε → Storage (Journaled σ) ε}
    (hcoherent : Coherent l (f s)) (hjournal : (f s).connection.journal = s.connection.journal)
    (hheld : (f s).held = s.held) (hsession : (f s).session = s.session)
    (htold : ∃ own, (f s).log = s.log ++ own ∧ own.filter LogEntry.isNotice = []) :
    Tracks l (modify f) s fun deeds _ => deeds = [] :=
  ⟨[], ⟨hcoherent, hjournal, htold, hsession⟩, hheld, rfl⟩

/-- What a storage does without logging. -/
theorem Moves.quietly {deeds : List Deed} (h : Coherent l s')
    (hjournal : s'.connection.journal = deeds ++ s.connection.journal) (hlog : s'.log = s.log)
    (hdeeds : deeds.filterMap (Deed.notice? s.session) = []) (hsession : s'.session = s.session) :
    Moves l s deeds s' := by
  refine ⟨h, hjournal, ⟨[], ?_, ?_⟩, hsession⟩
  · rw [hlog, List.append_nil]
  · rw [List.filterMap_reverse, hdeeds]
    rfl

variable [Connection σ]

/-- A request writes itself down. -/
theorem run_request_journaled (r : Request α) (hheld : s.held = true) :
    ∃ answer c, (request r).run.run s = (answer,
      { s with connection := ⟨c, (r.deed? answer.isOk).toList ++ s.connection.journal⟩ }) := by
  rw [run_request, if_pos hheld, perform_journaled]
  exact ⟨_, _, rfl⟩

/-- A request that has nothing to do with statements. -/
theorem tracks_request (hs : Coherent l s) {r : Request α} (hr : ∀ done, r.deed? done = none) :
    Tracks l (request r) s fun deeds _ => deeds = [] := by
  unfold Tracks
  by_cases hheld : s.held = true
  · obtain ⟨answer, c, hrun⟩ := run_request_journaled r hheld
    rw [hrun, hr]
    exact ⟨[], .quietly (hs.congr rfl rfl rfl rfl) rfl rfl rfl rfl, rfl, rfl⟩
  · rw [run_request, if_neg hheld]
    exact ⟨[], .refl hs, rfl, rfl⟩

/-- A prepared statement is run. -/
theorem tracks_run (hs : Coherent l s) (hheld : s.held = true) {r : Request α} {st : Statement}
    {values : List Value} (hr : ∀ done, r.deed? done = some (.ran st values done))
    (hprepared : s.connection.journal.HasPrepared st) :
    Tracks l (request r) s fun deeds answer => deeds = [.ran st values answer.isOk] := by
  obtain ⟨answer, c, hrun⟩ := run_request_journaled r hheld
  unfold Tracks
  rw [hrun, hr]
  exact ⟨_, .quietly (hs.ran hheld hprepared) rfl rfl rfl rfl, rfl, rfl⟩

/-- The statement of a kind as the journal has it: it is there, or it is prepared now. -/
inductive Fetched (l : Layout) (j : Journal) (kind : StatementKind) :
    List Deed → Except StorageError Statement → Prop
  | unbuilt {e : StorageError} : l.statement kind = .error e → Fetched l j kind [] (.error e)
  | refused {st : Statement} (e : StorageError) : l.statement kind = .ok st → ¬ j.HasPrepared st →
      Fetched l j kind [.prepared st false] (.error e)
  | first {st : Statement} : l.statement kind = .ok st → ¬ j.HasPrepared st →
      Fetched l j kind [.prepared st true] (.ok st)
  | again {st : Statement} : l.statement kind = .ok st → j.HasPrepared st → Fetched l j kind [] (.ok st)

namespace Fetched

variable {j : Journal} {kind : StatementKind} {b : Binding} {deeds : List Deed} {st : Statement}

theorem not_used {e : StorageError} (h : Fetched l j kind deeds (.error e)) : Used l j kind b deeds false := by
  cases h with
  | unbuilt hst => exact .unbuilt hst
  | refused _ hst hnew => exact .refused hst hnew

theorem used (h : Fetched l j kind deeds (.ok st)) (done : Bool) :
    Used l j kind b (.ran st (st.bind b) done :: deeds) done := by
  cases h with
  | first hst hnew => exact .first done hst hnew
  | again hst hprepared => exact .again done hst hprepared

/-- What is fetched is prepared. -/
theorem hasPrepared (h : Fetched l j kind deeds (.ok st)) : Journal.HasPrepared (deeds ++ j) st := by
  cases h with
  | first hst hnew => exact Journal.hasPrepared_prepared.mpr (.inl ⟨rfl, rfl⟩)
  | again hst hprepared => exact hprepared

end Fetched

/-- A statement that is not kept is prepared, and then logged and kept. -/
theorem run_statement_new {kind : StatementKind} {st : Statement}
    (hlookup : s.statements.lookup kind = none) (hst : s.layout.statement kind = .ok st) :
    (statement kind).run.run s = (request (.prepare st) >>= fun _ =>
      modify (fun s' => { s'.logged (.ofEventAt .trace .statementPrepared
        (s.fields [("kind", kind.name), ("sql", st.sql)])) with
          statements := (kind, st) :: s'.statements }) >>= fun _ =>
      pure st : Action (Journaled σ) ε Statement).run.run s := by
  unfold statement
  rw [run_get_bind, hlookup, hst]
  rfl

/-- **A statement is prepared just if the connection has not prepared it.** -/
theorem tracks_statement (hs : Coherent l s) (hheld : s.held = true) (kind : StatementKind) :
    Tracks l (statement kind) s (Fetched l s.connection.journal kind) := by
  unfold Tracks
  cases hlookup : s.statements.lookup kind with
  | some st =>
    obtain ⟨hst, hprepared⟩ := hs.lookup_eq_some_iff.mp hlookup
    have hrun : (statement kind).run.run s = (.ok st, s) := by
      unfold statement
      rw [run_get_bind, hlookup]
      rfl
    rw [hrun]
    exact ⟨[], .refl hs, rfl, .again hst hprepared⟩
  | none =>
    cases hst : l.statement kind with
    | error e =>
      have hrun : (statement kind).run.run s = (.error e, s) := by
        unfold statement
        rw [run_get_bind, hlookup, hs.layout, hst]
        rfl
      rw [hrun]
      exact ⟨[], .refl hs, rfl, .unbuilt hst⟩
    | ok st =>
      have hnew := hs.not_hasPrepared_of_lookup hlookup hst
      obtain ⟨answer, c, hrun⟩ := run_request_journaled (.prepare st) hheld
      rw [run_statement_new hlookup (hs.layout ▸ hst), run_bind, hrun]
      cases answer with
      | error e =>
        have hcoherent := hs.refused (c := c) (hs.inOrder_prepared hheld hst hnew)
        exact ⟨_, .quietly hcoherent rfl rfl rfl rfl, rfl, .refused e hst hnew⟩
      | ok _ =>
        have hnotice : Deed.notice? s.session (.prepared st true) =
            some (.ofEventAt .trace .statementPrepared (s.fields [("kind", kind.name), ("sql", st.sql)])) := by
          simp only [Deed.notice?, Layout.kind_statement hst]
          rfl
        refine ⟨[.prepared st true], ⟨(hs.kept (c := c) hheld hst hnew).congr rfl rfl rfl rfl, rfl,
          ⟨_, rfl, ?_⟩, rfl⟩, rfl, .first hst hnew⟩
        rw [List.reverse_singleton, List.filterMap_cons_some hnotice]
        rfl

/-! ## 3. Lookups and mutations -/

omit [Connection σ] in
theorem run_requireHeld (s : Storage (Journaled σ) ε) :
    (requireHeld : Action (Journaled σ) ε Unit).run.run s =
      (if s.held then .ok () else .error .connectionClosed, s) := by
  unfold requireHeld
  rw [run_get_bind]
  split <;> rfl

omit [Connection σ] in
theorem tracks_held (hheld : s.held = true) {g : Unit → Action (Journaled σ) ε α}
    {Q : List Deed → Except StorageError α → Prop} (h : Tracks l (g ()) s Q) :
    Tracks l (requireHeld >>= g) s Q := by
  unfold Tracks
  rw [run_bind, run_requireHeld, if_pos hheld]
  exact h

omit [Connection σ] in
/-- Without a connection nothing is asked. -/
theorem tracks_unheld (hs : Coherent l s) (hheld : s.held = false) (g : Unit → Action (Journaled σ) ε α) :
    Tracks l (requireHeld >>= g) s fun deeds r => deeds = [] ∧ r = .error .connectionClosed := by
  refine Tracks.fails ?_
  unfold Tracks
  rw [run_requireHeld, if_neg (Bool.eq_false_iff.mp hheld)]
  exact ⟨[], .refl hs, rfl, rfl, rfl⟩

/-- **The statement of a kind is used**, and then something is done for which it is not needed. -/
theorem tracks_used (hs : Coherent l s) (hheld : s.held = true) {kind : StatementKind} {b : Binding}
    {r : Statement → Request α} {g : α → Action (Journaled σ) ε β} {P : Except StorageError β → Prop}
    (hr : ∀ st done, (r st).deed? done = some (.ran st (st.bind b) done))
    (hg : ∀ a s', Coherent l s' → Tracks l (g a) s' fun deeds answer => deeds = [] ∧ P answer) :
    Tracks l (requireHeld >>= fun _ => statement kind >>= fun st => request (r st) >>= g) s
      fun deeds answer => ∃ done, Used l s.connection.journal kind b deeds done ∧
        (done = false → answer.isOk = false) ∧ (done = true → P answer) := by
  refine tracks_held hheld ((tracks_statement hs hheld kind).bind ?_ ?_)
  · intro deeds e hfetched
    exact ⟨false, hfetched.not_used, fun _ => rfl, nofun⟩
  · intro deeds st s₁ hmoves hheld₁ hfetched
    have hprepared : s₁.connection.journal.HasPrepared st := hmoves.journal ▸ hfetched.hasPrepared
    refine (tracks_run hmoves.coherent (hheld₁.trans hheld) (hr st) hprepared).bind ?_ ?_
    · rintro _ e rfl
      exact ⟨false, hfetched.used false, fun _ => rfl, nofun⟩
    · rintro _ a s₂ hmoves₂ - rfl
      refine (hg a s₂ hmoves₂.coherent).imp ?_
      rintro _ answer ⟨rfl, hP⟩
      exact ⟨true, hfetched.used true, nofun, fun _ => hP⟩

/-- **A lookup uses the statement of its kind.** -/
theorem tracks_select (hs : Coherent l s) (hheld : s.held = true) (kind : StatementKind) (b : Binding) :
    Tracks l (select kind b) s fun deeds answer => ∃ done,
      Used l s.connection.journal kind b deeds done ∧ (done = false → answer.isOk = false) := by
  unfold select
  refine (tracks_used hs hheld (P := fun _ => True) (fun _ _ => rfl) fun found s' hs' => ?_).imp
    fun deeds answer ⟨done, hused, hfalse, _⟩ => ⟨done, hused, hfalse⟩
  cases found with
  | none => exact tracks_pure hs' none ⟨rfl, trivial⟩
  | some stored =>
    refine tracks_get_bind ((tracks_liftM hs' _).bind (fun _ _ h => ⟨h.1, trivial⟩) ?_)
    rintro _ record s'' hmoves - ⟨rfl, -⟩
    exact tracks_pure hmoves.coherent (some record) ⟨rfl, trivial⟩

theorem tracks_execute (hs : Coherent l s) (hheld : s.held = true) (kind : StatementKind) (row : Row) :
    Tracks l (execute kind row) s fun deeds answer =>
      Used l s.connection.journal kind { row } deeds answer.isOk := by
  unfold execute
  refine (tracks_used hs hheld (P := fun answer => answer.isOk = true) (fun _ _ => rfl)
    fun _ s' hs' => tracks_pure hs' () ⟨rfl, rfl⟩).imp fun deeds answer ⟨done, hused, hfalse, htrue⟩ => ?_
  cases done with
  | false => exact hfalse rfl ▸ hused
  | true => exact htrue rfl ▸ hused

/-- What a mutation wants of a row. -/
def usesOf (row : Row) (kinds : List StatementKind) : List (StatementKind × Binding) :=
  kinds.map fun kind => (kind, { row })

/-- **The statements of a row are used one after the other**, up to the first that fails. -/
theorem tracks_executeAll (row : Row) (kinds : List StatementKind) (hs : Coherent l s)
    (hheld : s.held = true) : Tracks l (kinds.forM fun kind => execute kind row) s fun deeds answer =>
      UsedAll l s.connection.journal (usesOf row kinds) deeds answer.isOk := by
  induction kinds generalizing s with
  | nil => exact tracks_pure hs () .nil
  | cons kind kinds ih =>
    refine (tracks_execute hs hheld kind row).bind (fun deeds e hused => .stop hused) ?_
    intro deeds _ s' hmoves hheld' hused
    refine (ih hmoves.coherent (hheld'.trans hheld)).imp fun more answer hall => ?_
    rw [hmoves.journal] at hall
    exact .cons hused hall

/-! ## 4. Other actions -/

/-- An action that has nothing to do with statements. -/
abbrev Quiet (l : Layout) (f : Action (Journaled σ) ε α) (s : Storage (Journaled σ) ε) : Prop :=
  Tracks l f s fun deeds _ => deeds = []

omit [Connection σ] in
theorem Quiet.bind {f : Action (Journaled σ) ε α} {g : α → Action (Journaled σ) ε β} (hf : Quiet l f s)
    (hg : ∀ a s', Coherent l s' → Quiet l (g a) s') : Quiet l (f >>= g) s := by
  refine Tracks.bind hf (fun _ _ h => h) ?_
  rintro _ a s' hmoves - rfl
  exact (hg a s' hmoves.coherent).imp fun _ _ h => by rw [h, List.append_nil]

theorem quiet_commit (hs : Coherent l s) : Quiet l commit s := by
  refine tracks_get_bind (Quiet.bind (tracks_request hs fun _ => rfl) fun _ s₁ hs₁ => ?_)
  refine Quiet.bind (tracks_modify (hs₁.congr rfl rfl rfl rfl) rfl rfl rfl
    ⟨[], (List.append_nil _).symm, rfl⟩) fun _ s₂ hs₂ => ?_
  split
  · exact tracks_modify (hs₂.congr rfl rfl rfl rfl) rfl rfl rfl ⟨_, rfl, rfl⟩
  · exact tracks_pure hs₂ () rfl

theorem quiet_settle (hs : Coherent l s) : Quiet l settle s := by
  refine Quiet.bind (tracks_modify (hs.congr rfl rfl rfl rfl) rfl rfl rfl
    ⟨[], (List.append_nil _).symm, rfl⟩) fun _ s₁ hs₁ => tracks_get_bind ?_
  split
  · exact quiet_commit hs₁
  · exact tracks_pure hs₁ () rfl

theorem quiet_settleIf (hs : Coherent l s) (writes : Bool) :
    Quiet l (if writes then settle else pure ()) s := by
  split
  · exact quiet_settle hs
  · exact tracks_pure hs () rfl

/-- **A mutation uses its statements**, and then commits if the batch is full. -/
theorem tracks_apply (hs : Coherent l s) (hheld : s.held = true) (m : Mutation) (row : Row) :
    Tracks l (apply m row) s fun deeds answer => ∃ done,
      UsedAll l s.connection.journal (usesOf row (statementsOf m)) deeds done ∧
        (done = false → answer.isOk = false) := by
  refine (tracks_executeAll row (statementsOf m) hs hheld).bind ?_ ?_
  · intro deeds e hall
    exact ⟨false, hall, fun _ => rfl⟩
  · intro deeds _ s₁ hmoves _ hall
    refine (quiet_settleIf hmoves.coherent m.writes).imp ?_
    rintro _ answer rfl
    exact ⟨true, hall, nofun⟩

/-- Without a connection a mutation does nothing, and fails if it wants something. -/
theorem tracks_apply_unheld (hs : Coherent l s) (hheld : s.held = false) (m : Mutation) (row : Row) :
    Tracks l (apply m row) s fun deeds answer => deeds = [] ∧
      (usesOf row (statementsOf m) ≠ [] → answer = .error .connectionClosed) := by
  unfold apply
  cases statementsOf m with
  | nil => exact (quiet_settleIf hs m.writes).imp fun deeds answer h => ⟨h, fun huses => absurd rfl huses⟩
  | cons kind kinds =>
    have hexecute : Tracks l (execute kind row) s fun deeds answer =>
        deeds = [] ∧ answer = .error .connectionClosed := tracks_unheld hs hheld _
    have hall : Tracks l ((kind :: kinds).forM fun kind => execute kind row) s fun deeds answer =>
        deeds = [] ∧ answer = .error .connectionClosed := hexecute.fails
    exact hall.fails.imp fun _ _ h => ⟨h.1, fun _ => h.2⟩

/-- A statement without a kind is prepared. -/
theorem tracks_prepare (hs : Coherent l s) {st : Statement} (hst : st.kind = none) :
    Tracks l (request (.prepare st)) s fun deeds answer => (∀ d ∈ deeds, d.kind? = none) ∧
      (answer.isOk = true → s.held = true ∧ deeds = [.prepared st true]) := by
  unfold Tracks
  by_cases hheld : s.held = true
  · obtain ⟨answer, c, hrun⟩ := run_request_journaled (.prepare st) hheld
    have hkind : ∀ done, ∀ d ∈ [Deed.prepared st done], d.kind? = none := by
      intro done d hd
      rw [List.mem_singleton.mp hd]
      exact hst
    have hnotice : ∀ done, [Deed.prepared st done].filterMap (Deed.notice? s.session) = [] := by
      intro done
      cases done <;> simp [Deed.notice?, hst]
    rw [hrun]
    cases answer with
    | error e =>
      have horder : Journal.InOrder l s.connection.journal (.prepared st false) :=
        ⟨hs.live.trans hheld, fun _ hkind => nomatch hst.symm.trans hkind⟩
      exact ⟨_, .quietly (hs.refused horder) rfl rfl (hnotice false) rfl, rfl, hkind false, nofun⟩
    | ok _ =>
      exact ⟨_, .quietly (hs.preparedOnce hheld hst) rfl rfl (hnotice true) rfl, rfl, hkind true,
        fun _ => ⟨hheld, rfl⟩⟩
  · rw [run_request, if_neg hheld]
    exact ⟨[], .refl hs, rfl, nofun, nofun⟩

/-- **A purge** prepares its statement each time, and uses none of a kind. -/
theorem tracks_purge (hs : Coherent l s) (cutoff now : Instant) (condition : Option String) :
    Tracks l (purge cutoff now condition) s fun deeds _ => ∀ d ∈ deeds, d.kind? = none := by
  refine tracks_get_bind ((tracks_liftM hs _).bind (fun _ _ h => h.1 ▸ nofun) ?_)
  rintro _ st s₁ hmoves - ⟨rfl, hst⟩
  have hkind := Layout.kind_purge hst.symm
  refine (tracks_prepare hmoves.coherent hkind).bind (fun _ _ h => by simpa using h.1) ?_
  intro deeds _ s₂ hmoves₂ hheld₂ h
  obtain ⟨hheld, rfl⟩ := h.2 rfl
  have hprepared : s₂.connection.journal.HasPrepared st :=
    hmoves₂.journal ▸ Journal.hasPrepared_prepared.mpr (.inl ⟨rfl, rfl⟩)
  have hnone : ∀ values done, ∀ d ∈ [Deed.ran st values done, .prepared st true], d.kind? = none := by
    simpa [Deed.kind?] using hkind
  refine (tracks_run hmoves₂.coherent (hheld₂.trans hheld) (fun _ => rfl) hprepared).bind ?_ ?_
  · rintro _ e rfl
    exact hnone _ _
  · rintro _ count s₃ hmoves₃ - rfl
    refine (Quiet.bind (quiet_commit hmoves₃.coherent) fun _ s₄ hs₄ => tracks_pure hs₄ count rfl).imp ?_
    rintro _ answer rfl
    exact hnone _ _

/-! ## 5. Failures and the end -/

/-- A storage lets its connection go. -/
theorem disconnect_journaled (s : Storage (Journaled σ) ε) : ∃ c, s.disconnect.2 =
    { s with connection := ⟨c, .released :: s.connection.journal⟩, held := false } := by
  rw [disconnect_eq]
  split <;> exact ⟨_, rfl⟩

/-- A lost connection is replaced, or is gone. -/
theorem moves_reconnect (hs : Coherent l s) :
    (∃ deeds, Moves l s deeds s.reconnect ∧ ∀ d ∈ deeds, d.kind? = none) ∧
      s.reconnect.batch = s.batch ∧ s.reconnect.recovery = s.recovery := by
  obtain ⟨c, hlet⟩ := disconnect_journaled { s with statements := [] }
  have hreleased := hs.released (c := c)
  unfold reconnect
  generalize Storage.disconnect { s with statements := [] } = d at hlet
  obtain ⟨x, s₁⟩ := d
  obtain rfl : s₁ = _ := hlet
  dsimp only
  rw [perform_journaled]
  cases Connection.perform .connect c with
  | mk y c' =>
    cases y with
    | ok _ =>
      refine ⟨⟨[.connected, .released], ⟨?_, rfl, ⟨_, rfl, rfl⟩, rfl⟩, by decide⟩, rfl, rfl⟩
      exact (hreleased.connected (c := c') rfl).congr rfl rfl rfl rfl
    | error e =>
      refine ⟨⟨[.released], ⟨?_, rfl, ⟨_, rfl, rfl⟩, rfl⟩, by decide⟩, rfl, rfl⟩
      exact hreleased.congr rfl rfl rfl rfl

theorem moves_undo (hs : Coherent l s) :
    (∃ deeds, Moves l s deeds s.undo ∧ ∀ d ∈ deeds, d.kind? = none) ∧
      s.undo.batch = s.batch ∧ s.undo.recovery = s.recovery := by
  unfold undo
  split
  · rw [perform_journaled]
    cases Connection.perform .rollback s.connection.inner with
    | mk x c =>
      cases x with
      | ok _ => exact ⟨⟨[], .quietly (hs.congr rfl rfl rfl rfl) rfl rfl rfl rfl, nofun⟩, rfl, rfl⟩
      | error e =>
        exact ⟨⟨[], ⟨hs.congr rfl rfl rfl rfl, rfl, ⟨_, rfl, rfl⟩, rfl⟩, nofun⟩, rfl, rfl⟩
  · exact moves_reconnect hs

omit [Connection σ] in
theorem moves_dropBatch [ToString ε] (hs : Coherent l s) (error : ε) : Moves l s [] (s.dropBatch error) :=
  ⟨hs.congr rfl rfl rfl rfl, rfl, ⟨_, rfl, rfl⟩, rfl⟩

/-- What a recovery, if there is one, writes into the log. -/
def remarks (recovery : Option (Recovery ε)) (error : ε) (rows : List Row) : List LogEntry :=
  recovery.elim [] fun recovery => (recovery error rows).2

omit [Connection σ] in
theorem consult_journaled (hs : Coherent l s) (error : ε) (rows : List Row) :
    Coherent l (s.consult error rows).2 ∧
      (s.consult error rows).2.connection.journal = s.connection.journal ∧
      (s.consult error rows).2.log = s.log ++ remarks s.recovery error rows := by
  unfold consult
  cases s.recovery with
  | none => exact ⟨hs, rfl, (List.append_nil _).symm⟩
  | some recovery => exact ⟨hs.congr rfl rfl rfl rfl, rfl, rfl⟩

/-- **A rollback** lets go of what was prepared if the connection is replaced; then the recovery may
write into the log. -/
theorem rollback_journaled [ToString ε] (hs : Coherent l s) (error : ε) :
    ∃ deeds s₁, Moves l s deeds s₁ ∧ (∀ d ∈ deeds, d.kind? = none) ∧
      Coherent l (s.rollback error).2 ∧
      (s.rollback error).2.connection.journal = s₁.connection.journal ∧
      (s.rollback error).2.log = s₁.log ++ remarks s.recovery error s.batch.backup := by
  obtain ⟨⟨deeds, hmoves, hkinds⟩, hbatch, hrecovery⟩ := moves_undo hs
  have hdrop := moves_dropBatch hmoves.coherent error
  have hconsult := consult_journaled hdrop.coherent error s.undo.batch.backup
  have hsame : (s.undo.dropBatch error).recovery = s.recovery := hrecovery
  rw [hsame, hbatch] at hconsult
  refine ⟨deeds, s.undo.dropBatch error, hmoves.trans hdrop, hkinds, ?_⟩
  unfold rollback
  dsimp only
  rw [hbatch]
  exact hconsult

/-- **A storage that is closed** keeps nothing. -/
theorem moves_close (hs : Coherent l s) : Moves l s [.released] s.close.2 := by
  obtain ⟨c, hlet⟩ := disconnect_journaled { s with statements := [], batch := s.batch.clear }
  unfold close
  rw [hlet]
  exact ⟨(hs.released (c := c)).congr rfl rfl rfl rfl, rfl, ⟨[], (List.append_nil _).symm, rfl⟩, rfl⟩

/-! ## 6. Tasks -/

/-- The statements that a task wants. -/
def Task.uses : Task σ ε → List (StatementKind × Binding)
  | .latest row => [(.latest, { row })]
  | .active row now => [(.active, { row, instant := some now })]
  | .apply m row => usesOf row (statementsOf m)
  | _ => []

/-- What others than the storage write into the log during a task. -/
def Task.remarks (s : Storage σ ε) : Task σ ε → List LogEntry
  | .rollback error => Storage.remarks s.recovery error s.batch.backup
  | _ => []

/-- What a task adds to the journal and to the log. With a connection, of the statements with a kind the
task uses those that it wants, and it succeeds only if they do; without one, none. The log tells of
every statement with a kind that was prepared, once, and of no other. -/
structure Accounted (l : Layout) (s : Storage (Journaled σ) ε) (task : Task (Journaled σ) ε)
    (answer : Except StorageError Unit) (s' : Storage (Journaled σ) ε) (deeds : List Deed)
    (own : List LogEntry) : Prop where
  journal : s'.connection.journal = deeds ++ s.connection.journal
  log : s'.log = s.log ++ own ++ task.remarks s
  told : own.filter LogEntry.isNotice = deeds.reverse.filterMap (Deed.notice? s.session)
  used : s.held = true → ∃ done,
    UsedAll l s.connection.journal task.uses (deeds.filter fun d => d.kind?.isSome) done ∧
      (done = false → answer.isOk = false)
  unheld : s.held = false → (deeds.filter fun d => d.kind?.isSome) = [] ∧
    (task.uses ≠ [] → answer = .error .connectionClosed)

variable {task : Task (Journaled σ) ε}

omit [Connection σ] in
/-- A task that wants no statement and does nothing with those of a kind. -/
theorem accounted_of_moves {answer : Except StorageError Unit} {deeds : List Deed} (huses : task.uses = [])
    (hmoves : Moves l s deeds s') (hkinds : ∀ d ∈ deeds, d.kind? = none)
    (hjournal : s''.connection.journal = s'.connection.journal)
    (hlog : s''.log = s'.log ++ task.remarks s) :
    ∃ deeds own, Accounted l s task answer s'' deeds own := by
  obtain ⟨own, hown, htold⟩ := hmoves.told
  have hfilter : (deeds.filter fun d => d.kind?.isSome) = [] :=
    List.filter_eq_nil_iff.mpr fun d hd => by simp [hkinds d hd]
  refine ⟨deeds, own, hjournal.trans hmoves.journal, hlog.trans (hown ▸ rfl), htold, fun _ => ?_,
    fun _ => ⟨hfilter, fun h => absurd huses h⟩⟩
  rw [hfilter, huses]
  exact ⟨true, .nil, nofun⟩

omit [Connection σ] in
/-- A task that wants statements. -/
theorem accounted_of_tracks {f : Action (Journaled σ) ε α} (hremarks : task.remarks s = [])
    (hused : s.held = true → Tracks l f s fun deeds answer => ∃ done,
      UsedAll l s.connection.journal task.uses deeds done ∧ (done = false → answer.isOk = false))
    (hunheld : s.held = false → Tracks l f s fun deeds answer => deeds = [] ∧
      (task.uses ≠ [] → answer = .error .connectionClosed)) :
    Coherent l (outcome f s).2 ∧
      ∃ deeds own, Accounted l s task (outcome f s).1 (outcome f s).2 deeds own := by
  cases hheld : s.held with
  | true =>
    obtain ⟨deeds, hmoves, -, done, hall, hdone⟩ := hused hheld
    obtain ⟨own, hown, htold⟩ := hmoves.told
    refine ⟨hmoves.coherent, deeds, own, hmoves.journal, ?_, htold, fun _ => ⟨done, ?_, fun h => ?_⟩,
      fun h => nomatch hheld.symm.trans h⟩
    · rw [hremarks, List.append_nil]
      exact hown
    · rwa [List.filter_eq_self.mpr hall.hasKind]
    · have herror := hdone h
      unfold outcome
      cases hrun : (f.run.run s).1 with
      | ok a =>
        rw [hrun] at herror
        cases herror
      | error e =>
        rw [Prod.map_fst, hrun]
        rfl
  | false =>
    obtain ⟨deeds, hmoves, -, rfl, hclosed⟩ := hunheld hheld
    obtain ⟨own, hown, htold⟩ := hmoves.told
    refine ⟨hmoves.coherent, [], own, hmoves.journal, ?_, htold, (fun h => nomatch hheld.symm.trans h),
      fun _ => ⟨rfl, fun huses => ?_⟩⟩
    · rw [hremarks, List.append_nil]
      exact hown
    · unfold outcome
      rw [Prod.map_fst, hclosed huses]
      rfl

variable [ToString ε]

/-- **Every task leaves a coherent storage**, and is accounted for. -/
theorem perform_accounted (hs : Coherent l s) (task : Task σ ε) :
    Coherent l (s.perform (task.lifted Journaled.outside)).2 ∧
      ∃ deeds own, Accounted l s (task.lifted Journaled.outside)
        (s.perform (task.lifted Journaled.outside)).1 (s.perform (task.lifted Journaled.outside)).2
        deeds own := by
  have hlookup : ∀ kind b, s.held = true → Tracks l (select kind b) s fun deeds answer => ∃ done,
      UsedAll l s.connection.journal [(kind, b)] deeds done ∧ (done = false → answer.isOk = false) :=
    fun kind b hheld => (tracks_select hs hheld kind b).imp
      fun _ _ ⟨done, hused, hdone⟩ => ⟨done, hused.all, hdone⟩
  have hclosed : ∀ kind b, s.held = false → Tracks l (select kind b) s fun deeds answer => deeds = [] ∧
      ([(kind, b)] ≠ [] → answer = .error .connectionClosed) :=
    fun kind b hheld => (tracks_unheld hs hheld _).imp fun _ _ h => ⟨h.1, fun _ => h.2⟩
  cases task with
  | latest row => exact accounted_of_tracks rfl (hlookup _ _) (hclosed _ _)
  | active row now => exact accounted_of_tracks rfl (hlookup _ _) (hclosed _ _)
  | apply m row =>
    exact accounted_of_tracks rfl (fun hheld => tracks_apply hs hheld m row)
      fun hheld => tracks_apply_unheld hs hheld m row
  | purge cutoff now condition =>
    obtain ⟨deeds, hmoves, -, hkinds⟩ := tracks_purge hs cutoff now condition
    exact ⟨hmoves.coherent, accounted_of_moves rfl hmoves hkinds rfl (List.append_nil _).symm⟩
  | commit =>
    obtain ⟨deeds, hmoves, -, rfl⟩ := quiet_commit hs
    exact ⟨hmoves.coherent, accounted_of_moves rfl hmoves nofun rfl (List.append_nil _).symm⟩
  | rollback error =>
    obtain ⟨deeds, s₁, hmoves, hkinds, hcoherent, hjournal, hlog⟩ := rollback_journaled hs error
    exact ⟨hcoherent, accounted_of_moves rfl hmoves hkinds hjournal hlog⟩
  | close =>
    exact ⟨(moves_close hs).coherent,
      accounted_of_moves rfl (moves_close hs) (by decide) rfl (List.append_nil _).symm⟩
  | backUp row | recovery r | outside f =>
    exact ⟨hs.congr rfl rfl rfl rfl,
      accounted_of_moves rfl (.refl hs) nofun rfl (List.append_nil _).symm⟩

/-- **Every run leaves a coherent storage.** -/
theorem run_coherent (hs : Coherent l s) (tasks : List (Task σ ε)) :
    Coherent l (s.run (tasks.map (Task.lifted Journaled.outside))) := by
  induction tasks generalizing s with
  | nil => exact hs
  | cons task tasks ih => exact ih (perform_accounted hs task).1

omit [ToString ε] in
/-- A new storage is coherent. -/
theorem connect_coherent {size : Nat} {session : String} {c : σ}
    (h : connect l size session { inner := c } = .ok s) : Coherent l s := by
  unfold connect at h
  rw [perform_journaled] at h
  cases hperform : Connection.perform .connect c with
  | mk x c' =>
    simp only [hperform] at h
    cases x with
    | error e => cases h
    | ok _ =>
      cases h
      exact ⟨rfl, fun _ _ => ⟨nofun, fun h => absurd h.2 Journal.not_hasPrepared_connected⟩, rfl, nofun,
        trivial, trivial⟩

/-- A connection with a journal is seen as the one inside of it. -/
theorem journaled_seenAs : Connection.SeenAs (Journaled.inner : Journaled σ → σ) where
  perform _ _ := rfl
  isOpen _ := rfl
  release _ := rfl
  describe _ := rfl

/-- **Prepared statements.** A storage may be run on a connection with a journal instead, which changes
nothing. After any tasks, whatever failed or was lost, the statements that it keeps are exactly those of
its layout that the present connection has prepared, none are kept without a connection, and the journal
is in order; and every further task uses the statements that the layout has for it, prepares each of them
just if the connection has not, and logs that once. -/
theorem statements_coherent {size : Nat} {session : String} {c : σ} {s₀ : Storage σ ε}
    (h : connect l size session c = .ok s₀) :
    ∃ t₀ : Storage (Journaled σ) ε, connect l size session { inner := c } = .ok t₀ ∧
      ∀ tasks : List (Task σ ε),
        let t := t₀.run (tasks.map (Task.lifted Journaled.outside))
        t.seen Journaled.inner = s₀.run tasks ∧ Coherent l t ∧
        ∀ task : Task σ ε,
          let next := task.lifted Journaled.outside
          ∃ deeds own, Accounted l t next ((s₀.run tasks).perform task).1 (t.perform next).2 deeds own := by
  have hseen := connect_seen (ε := ε) journaled_seenAs l size session { inner := c }
  rw [h] at hseen
  cases hconnect : (connect l size session { inner := c } : Except _ (Storage (Journaled σ) ε)) with
  | error e =>
    rw [hconnect] at hseen
    cases hseen
  | ok t₀ =>
    rw [hconnect] at hseen
    obtain rfl : s₀ = t₀.seen Journaled.inner := Except.ok.inj hseen
    refine ⟨t₀, rfl, fun tasks => ?_⟩
    have hcoherent := run_coherent (connect_coherent hconnect) tasks
    have hrun := run_seen journaled_seenAs Journaled.inner_outside t₀ tasks
    refine ⟨hrun.symm, hcoherent, fun task => ?_⟩
    rw [hrun, perform_seen journaled_seenAs Journaled.inner_outside]
    exact (perform_accounted hcoherent task).2

namespace Sample

/-- Customers by their number. -/
def customers : Layout :=
  { table := "customers", fields := ⟨[⟨"id", .id, .integer⟩]⟩ }

def latest : Statement :=
  customers.statementOf (some .latest) customers.latestLines

def active : Statement :=
  customers.statementOf (some .active) customers.activeLines

def customer : Row :=
  Row.empty.set "id" (.int64 7)

/-- A connection on which the second statement is not prepared, that is lost at the second query, and
that is not made again at once. -/
def unsteady : Traced Scripted :=
  let busy := .failing { code := .busy, message := "database is locked" }
  { inner := { name := "scripted" }
    triggers := [⟨.prepare, 2, busy⟩, ⟨.query, 2, .disconnect⟩, ⟨.connect, 2, busy⟩] }

def interrupted : List (Task (Traced Scripted) String) :=
  [.latest customer, .active customer (.ofSeconds 0), .latest customer, .rollback "lost", .rollback "gone"]

end Sample

/-- A statement was prepared, and is prepared again on the connection that replaces the lost one. -/
theorem prepared_again_after_loss :
    ∃ (s₀ : Storage (Traced Scripted) String) (t₀ : Storage (Journaled (Traced Scripted)) String),
      connect Sample.customers 10 "sample" Sample.unsteady = .ok s₀ ∧
      let t := t₀.run (Sample.interrupted.map (Task.lifted Journaled.outside))
      t.seen Journaled.inner = s₀.run Sample.interrupted ∧ Coherent Sample.customers t ∧
      t.connection.journal = [.connected, .released, .released, .ran Sample.latest [.int64 7] false,
        .prepared Sample.active false, .ran Sample.latest [.int64 7] true, .prepared Sample.latest true,
        .connected] ∧
      ∃ own, Accounted Sample.customers t (.latest Sample.customer) (.ok ())
        (t.perform (.latest Sample.customer)).2
        [.ran Sample.latest [.int64 7] true, .prepared Sample.latest true] own := by
  obtain ⟨t₀, hconnect, hrun⟩ := statements_coherent (ε := String)
    (rfl : connect Sample.customers 10 "sample" Sample.unsteady = .ok _)
  obtain ⟨hseen, hcoherent, hnext⟩ := hrun Sample.interrupted
  obtain ⟨deeds, own, haccounted⟩ := hnext (.latest Sample.customer)
  cases hconnect
  have hdeeds : deeds = [.ran Sample.latest [.int64 7] true, .prepared Sample.latest true] :=
    List.append_cancel_right (haccounted.journal.symm.trans (by decide +kernel))
  exact ⟨_, _, rfl, hseen, hcoherent, by decide +kernel, own, hdeeds ▸ haccounted⟩

end Storage

end RowHistory
