import RowHistory.Proofs.Statement.Effects
import Mathlib.Data.List.Forall2
import Mathlib.Data.Option.Basic

/-!
# Storages side by side

Two storages are asked for the same things with rows that differ only where no statement looks. Their
connections get the same requests, so that the storages stay side by side, answer the same and fail
alike. This file fixes

* the fields of a row that a statement reads (`Layout.field_of_statement`, `Layout.ReadAlike`);
* actions that keep two states in a relation (`InStep`), step by step;
* connections that answer alike (`Connection.Parallel`), and storages on them, at the same point
  (`Storage.Level`) and with the same at stake (`Storage.Parallel`);
* that every action keeps two storages side by side, and so does their end.
-/

namespace RowHistory

/-! ## 1. Values that statements read -/

section Statements

variable {l : Layout} {kind : StatementKind} {st : Statement} {row row' : Row} {name : String}

/-- The values of a statement depend on the fields of the row that it reads. -/
theorem Statement.bind_congr {b b' : Binding} (hinstant : b'.instant = b.instant)
    (hcutoff : b'.cutoff = b.cutoff)
    (hrow : ∀ name, .field name ∈ st.parameters → b'.row.value name = b.row.value name) :
    st.bind b' = st.bind b := by
  unfold Statement.bind
  refine List.map_congr_left fun p hp => ?_
  cases p with
  | field name => exact hrow name hp
  | instant => exact congrArg Value.ofInstant? hinstant
  | cutoff => exact congrArg Value.ofInstant? hcutoff

namespace Layout

theorem mem_fields_map {names : List String} :
    Parameter.field name ∈ names.map Parameter.field ↔ name ∈ names := by
  simp

/-- **A lookup reads the identifier only.** -/
theorem field_of_lookup (hkind : kind = .latest ∨ kind = .active) (hst : l.statement kind = .ok st)
    (h : .field name ∈ st.parameters) : name ∈ l.fields.names .id := by
  have hne : kind ≠ .insert := by
    rintro rfl
    exact hkind.elim nofun nofun
  rw [parameters_statement hne hst] at h
  obtain rfl | rfl := hkind <;>
    simpa [setParameters, conditionParameters, idParameters, furtherParameters] using h

/-- A lookup asks the same of rows with the same identifier. -/
theorem bind_lookup (hkind : kind = .latest ∨ kind = .active) (hst : l.statement kind = .ok st)
    (hids : ∀ name ∈ l.fields.names .id, row'.value name = row.value name) (instant : Option Instant) :
    st.bind { row := row', instant } = st.bind { row, instant } :=
  Statement.bind_congr rfl rfl fun name hname => hids name (field_of_lookup hkind hst hname)

/-- **A statement reads only columns that a new version has.** -/
theorem field_of_statement (hst : l.statement kind = .ok st) (h : .field name ∈ st.parameters) :
    name ∈ l.insertColumns := by
  by_cases hkind : kind = .insert
  · subst hkind
    rw [parameters_insert hst] at h
    exact mem_fields_map.mp h
  · rw [parameters_statement hkind hst, conditionParameters, List.mem_append, List.mem_append] at h
    unfold insertColumns
    obtain hset | hid | hfurther := h
    · cases kind with
      | insert => exact absurd rfl hkind
      | latest | active => cases hset
      | update =>
        simp only [setParameters, mem_fields_map, updateColumns] at hset
        grind
      | touch =>
        simp only [setParameters, mem_fields_map] at hset
        grind
      | endActive | purgeOne =>
        cases List.mem_singleton.mp hset
        simp
    · rw [idParameters, mem_fields_map] at hid
      grind
    · cases kind with
      | insert => exact absurd rfl hkind
      | latest => cases hfurther
      | active => simp [furtherParameters] at hfurther
      | update | touch | endActive | purgeOne =>
        cases List.mem_singleton.mp hfurther
        simp

/-- Two rows have the same values in all columns of a new version. -/
def ReadAlike (l : Layout) (row row' : Row) : Prop :=
  ∀ name ∈ l.insertColumns, row'.value name = row.value name

theorem ReadAlike.bind (h : l.ReadAlike row row') (hst : l.statement kind = .ok st) :
    st.bind { row := row' } = st.bind { row } :=
  Statement.bind_congr rfl rfl fun name hname => h name (field_of_statement hst hname)

end Layout

end Statements

/-! ## 2. Actions on two states -/

section InStep

variable {ε α β γ δ S T : Type}

/-- Two results: successes whose answers stand in a relation, or the same error. -/
inductive Matching (Q : α → β → Prop) : Except ε α → Except ε β → Prop
  | ok {a : α} {b : β} : Q a b → Matching Q (.ok a) (.ok b)
  | error (e : ε) : Matching Q (.error e) (.error e)

theorem Matching.eq {x y : Except ε α} (h : Matching Eq x y) : y = x := by
  cases h with
  | ok h => rw [h]
  | error e => rfl

theorem matching_eq (x : Except ε α) : Matching Eq x x := by
  cases x with
  | ok a => exact .ok rfl
  | error e => exact .error e

/-- Two actions keep two states in a relation, and their answers stand in another one. -/
def InStep (P : S → T → Prop) (Q : α → β → Prop) (f : ExceptT ε (StateM S) α)
    (g : ExceptT ε (StateM T) β) : Prop :=
  ∀ s t, P s t → Matching Q (f.run.run s).1 (g.run.run t).1 ∧ P (f.run.run s).2 (g.run.run t).2

variable {P : S → T → Prop} {Q : α → β → Prop}

theorem InStep.bind {Q' : γ → δ → Prop} {f : ExceptT ε (StateM S) α} {g : ExceptT ε (StateM T) β}
    {f' : α → ExceptT ε (StateM S) γ} {g' : β → ExceptT ε (StateM T) δ} (h : InStep P Q f g)
    (h' : ∀ a b, Q a b → InStep P Q' (f' a) (g' b)) : InStep P Q' (f >>= f') (g >>= g') := by
  intro s t hst
  obtain ⟨hanswer, hafter⟩ := h s t hst
  rw [run_bind, run_bind]
  cases hf : f.run.run s with
  | mk x s₁ =>
    cases hg : g.run.run t with
    | mk y t₁ =>
      rw [hf, hg] at hanswer hafter
      cases hanswer with
      | ok hab => exact h' _ _ hab s₁ t₁ hafter
      | error e => exact ⟨.error e, hafter⟩

theorem inStep_get_bind {f : S → ExceptT ε (StateM S) α} {g : T → ExceptT ε (StateM T) β}
    (h : ∀ s t, P s t → InStep P Q (f s) (g t)) : InStep P Q (get >>= f) (get >>= g) := by
  intro s t hst
  rw [run_get_bind, run_get_bind]
  exact h s t hst s t hst

theorem inStep_pure {a : α} {b : β} (h : Q a b) :
    InStep P Q (pure a : ExceptT ε (StateM S) α) (pure b) :=
  fun _ _ hst => ⟨.ok h, hst⟩

theorem inStep_throw (e : ε) :
    InStep P Q (throw e : ExceptT ε (StateM S) α) (throw e : ExceptT ε (StateM T) β) :=
  fun _ _ hst => ⟨.error e, hst⟩

theorem inStep_liftM {x : Except ε α} {y : Except ε β} (h : Matching Q x y) :
    InStep P Q (liftM x : ExceptT ε (StateM S) α) (liftM y : ExceptT ε (StateM T) β) := by
  intro s t hst
  cases h with
  | ok hab => exact ⟨.ok hab, hst⟩
  | error e => exact ⟨.error e, hst⟩

theorem inStep_modify {f : S → S} {g : T → T} (h : ∀ s t, P s t → P (f s) (g t)) :
    InStep P Eq (modify f : ExceptT ε (StateM S) Unit) (modify g) :=
  fun s t hst => ⟨.ok rfl, h s t hst⟩

end InStep

/-! ## 3. Side by side -/

variable {σ τ ε α : Type} [Connection σ] [Connection τ]

/-- Databases that answer alike, as long as no new connection is opened. -/
structure Connection.Parallel (R : σ → τ → Prop) : Prop where
  perform {α : Type} {r : Request α} {c : σ} {d : τ} : R c d → r.kind ≠ .connect →
    (Connection.perform r d).1 = (Connection.perform r c).1 ∧
      R (Connection.perform r c).2 (Connection.perform r d).2
  isOpen {c : σ} {d : τ} : R c d → Connection.isOpen d = Connection.isOpen c
  release {c : σ} {d : τ} : R c d → R (Connection.release c) (Connection.release d)

/-- Databases that answer alike when a new connection is opened, too. -/
def Connection.Reconnects (R : σ → τ → Prop) : Prop :=
  ∀ c d, R c d → (Connection.perform .connect d).1 = (Connection.perform .connect c).1 ∧
    R (Connection.perform .connect c).2 (Connection.perform .connect d).2

/-- A database answers as it does. -/
theorem Connection.parallel_eq : Connection.Parallel (Eq : σ → σ → Prop) where
  perform h _ := by
    subst h
    exact ⟨rfl, rfl⟩
  isOpen h := by rw [h]
  release h := by rw [h]

theorem Connection.reconnects_eq : Connection.Reconnects (Eq : σ → σ → Prop) := by
  intro c d h
  subst h
  exact ⟨rfl, rfl⟩

/-- Recoveries that accept the same errors for rows that are alike. -/
def Recovery.Alike (l : Layout) (r r' : Recovery ε) : Prop :=
  ∀ e rows rows', List.Forall₂ l.ReadAlike rows rows' → (r' e rows').1 = (r e rows).1

namespace Storage

/-- Two storages of one table at the same point. What they keep for a failure may differ: the rows of
the batch, and the recovery. -/
structure Level (R : σ → τ → Prop) (l : Layout) (s : Storage σ ε) (t : Storage τ ε) : Prop where
  layout : s.layout = l
  layout' : t.layout = l
  connection : R s.connection t.connection
  held : t.held = s.held
  statements : t.statements = s.statements
  cached : ∀ kind st, s.statements.lookup kind = some st → l.statement kind = .ok st
  size : t.batch.size = s.batch.size
  pending : t.batch.pending = s.batch.pending

/-- Two storages of one table that were asked for the same things. -/
structure Parallel (R : σ → τ → Prop) (l : Layout) (s : Storage σ ε) (t : Storage τ ε) : Prop
    extends Level R l s t where
  backup : List.Forall₂ l.ReadAlike s.batch.backup t.batch.backup
  recovery : Option.Rel (Recovery.Alike l) s.recovery t.recovery

variable {R : σ → τ → Prop} {l : Layout} {s : Storage σ ε} {t : Storage τ ε} {row row' : Row}

omit [Connection σ] [Connection τ] in
theorem Parallel.logged (h : Parallel R l s t) (e e' : LogEntry) :
    Parallel R l (s.logged e) (t.logged e') :=
  { h with }

omit [Connection σ] [Connection τ] in
theorem Parallel.clear (h : Parallel R l s t) :
    Parallel R l { s with batch := s.batch.clear } { t with batch := t.batch.clear } :=
  { h with pending := rfl, backup := .nil }

omit [Connection σ] [Connection τ] in
theorem Parallel.backUp (h : Parallel R l s t) (hrow : l.ReadAlike row row') :
    Parallel R l (s.backUp row) (t.backUp row') :=
  { h with backup := List.rel_append h.backup (.cons hrow .nil) }

omit [Connection σ] [Connection τ] in
theorem Parallel.forget (h : Parallel R l s t) :
    Parallel R l { s with statements := [] } { t with statements := [] } :=
  { h with statements := rfl, cached := fun _ _ hlookup => by cases hlookup }

/-- What a storage keeps for a failure. -/
def stake (s : Storage σ ε) : List Row × Option (Recovery ε) :=
  (s.batch.backup, s.recovery)

/-- A relation of storages at the same point that depends on nothing more than on what they keep for a
failure. -/
structure Follows (R : σ → τ → Prop) (l : Layout) (P : Storage σ ε → Storage τ ε → Prop) : Prop where
  level {s : Storage σ ε} {t : Storage τ ε} : P s t → Level R l s t
  step {s s' : Storage σ ε} {t t' : Storage τ ε} : P s t → Level R l s' t' → s'.stake = s.stake →
    t'.stake = t.stake → P s' t'
  clear {s : Storage σ ε} {t : Storage τ ε} : P s t →
    P { s with batch := s.batch.clear } { t with batch := t.batch.clear }

omit [Connection σ] [Connection τ] in
theorem follows_level : Follows R l (Level (ε := ε) R l) where
  level h := h
  step _ h _ _ := h
  clear h := { h with pending := rfl }

omit [Connection σ] [Connection τ] in
theorem follows_parallel : Follows R l (Parallel (ε := ε) R l) where
  level h := h.toLevel
  step h hlevel hstake hstake' := by
    obtain ⟨hbackup, hrecovery⟩ := Prod.mk.inj hstake
    obtain ⟨hbackup', hrecovery'⟩ := Prod.mk.inj hstake'
    exact { hlevel with
      backup := by rw [hbackup, hbackup']; exact h.backup
      recovery := by rw [hrecovery, hrecovery']; exact h.recovery }
  clear h := h.clear

/-! ## 4. Actions -/

theorem run_request (r : Request α) (s : Storage σ ε) :
    (request r).run.run s = if s.held then ((Connection.perform r s.connection).1,
        { s with connection := (Connection.perform r s.connection).2 })
      else (.error .connectionClosed, s) := by
  unfold request
  rw [run_get_bind]
  split
  · cases Connection.perform r s.connection with
    | mk x c => cases x <;> rfl
  · rfl

section Actions

variable {P : Storage σ ε → Storage τ ε → Prop} (hP : Follows R l P)
include hP

omit [Connection σ] [Connection τ] in
theorem inStep_requireHeld : InStep P Eq requireHeld requireHeld := by
  refine inStep_get_bind fun s t h => ?_
  rw [(hP.level h).held]
  split
  · exact inStep_pure rfl
  · exact inStep_throw _

variable (hR : Connection.Parallel R)
include hR

theorem inStep_request {r : Request α} (hr : r.kind ≠ .connect) :
    InStep P Eq (request r) (request r) := by
  intro s t h
  have hlevel := hP.level h
  obtain ⟨hanswer, hconnection⟩ := hR.perform hlevel.connection hr
  rw [run_request, run_request]
  by_cases hheld : s.held = true
  · rw [if_pos hheld, if_pos (hlevel.held.trans hheld), hanswer]
    exact ⟨matching_eq _, hP.step h { hlevel with connection := hconnection } rfl rfl⟩
  · rw [if_neg hheld, if_neg (hlevel.held ▸ hheld)]
    exact ⟨.error _, h⟩

theorem inStep_statement (kind : StatementKind) :
    InStep P (fun st st' => st' = st ∧ l.statement kind = .ok st)
      (statement kind) (statement kind) := by
  refine inStep_get_bind fun s t h => ?_
  have hlevel := hP.level h
  rw [hlevel.statements, hlevel.layout, hlevel.layout']
  cases hlookup : s.statements.lookup kind with
  | some st => exact inStep_pure ⟨rfl, hlevel.cached kind st hlookup⟩
  | none =>
    cases hst : l.statement kind with
    | error e => exact inStep_throw e
    | ok st =>
      refine (inStep_request hP hR (r := .prepare st) nofun).bind fun _ _ _ => ?_
      refine (inStep_modify fun s t h => ?_).bind fun _ _ _ => inStep_pure ⟨rfl, rfl⟩
      have hlevel := hP.level h
      refine hP.step h { hlevel with
        statements := congrArg _ hlevel.statements
        cached := fun kind' st' hlookup' => ?_ } rfl rfl
      change ((kind, st) :: s.statements).lookup kind' = some st' at hlookup'
      rw [List.lookup_cons] at hlookup'
      split at hlookup'
      · rename_i heq
        cases hlookup'
        rw [beq_iff_eq.mp heq]
        exact hst
      · exact hlevel.cached kind' st' hlookup'

theorem inStep_select {kind : StatementKind} {b b' : Binding}
    (hbind : ∀ st, l.statement kind = .ok st → st.bind b' = st.bind b) :
    InStep P Eq (select kind b) (select kind b') := by
  refine (inStep_requireHeld hP).bind fun _ _ _ => ?_
  refine (inStep_statement hP hR kind).bind fun st st' hst => ?_
  obtain ⟨rfl, hst⟩ := hst
  rw [hbind st' hst]
  refine (inStep_request hP hR (r := .query st' _) (by nofun)).bind fun found _ hfound => ?_
  subst hfound
  cases found with
  | none => exact inStep_pure rfl
  | some stored =>
    refine inStep_get_bind fun s t h => ?_
    rw [(hP.level h).layout, (hP.level h).layout']
    refine (inStep_liftM (matching_eq _)).bind fun record _ hrecord => ?_
    subst hrecord
    exact inStep_pure rfl

theorem inStep_execute {kind : StatementKind}
    (hbind : ∀ st, l.statement kind = .ok st → st.bind { row := row' } = st.bind { row }) :
    InStep P Eq (execute kind row) (execute kind row') := by
  refine (inStep_requireHeld hP).bind fun _ _ _ => ?_
  refine (inStep_statement hP hR kind).bind fun st st' hst => ?_
  obtain ⟨rfl, hst⟩ := hst
  rw [hbind st' hst]
  exact (inStep_request hP hR (r := .execute st' _) (by nofun)).bind fun _ _ _ => inStep_pure rfl

theorem inStep_executeAll {kinds : List StatementKind}
    (hbind : ∀ kind ∈ kinds, ∀ st, l.statement kind = .ok st → st.bind { row := row' } = st.bind { row }) :
    InStep P Eq (kinds.forM fun kind => execute kind row)
      (kinds.forM fun kind => execute kind row') := by
  induction kinds with
  | nil => exact inStep_pure rfl
  | cons kind kinds ih =>
    obtain ⟨hkind, hkinds⟩ := List.forall_mem_cons.mp hbind
    exact (inStep_execute hP hR hkind).bind fun _ _ _ => ih hkinds

theorem inStep_commit : InStep P Eq commit commit := by
  refine inStep_get_bind fun s t h => ?_
  rw [(hP.level h).pending]
  refine (inStep_request hP hR (r := .commit) nofun).bind fun _ _ _ => ?_
  refine (inStep_modify fun _ _ h => hP.clear h).bind fun _ _ _ => ?_
  split
  · exact inStep_modify fun _ _ h => hP.step h { hP.level h with } rfl rfl
  · exact inStep_pure rfl

theorem inStep_settle : InStep P Eq settle settle := by
  refine (inStep_modify fun s t h => ?_).bind fun _ _ _ => inStep_get_bind fun s t h => ?_
  · have hlevel := hP.level h
    exact hP.step h { hlevel with pending := congrArg (· + 1) hlevel.pending } rfl rfl
  · have hfull : t.batch.isFull = s.batch.isFull := by
      unfold Batch.isFull
      rw [(hP.level h).size, (hP.level h).pending]
    rw [hfull]
    split
    · exact inStep_commit hP hR
    · exact inStep_pure rfl

/-- **A mutation with rows that are the same to its statements.** -/
theorem inStep_apply {m : Mutation} (hbind : ∀ kind ∈ statementsOf m, ∀ st, l.statement kind = .ok st →
    st.bind { row := row' } = st.bind { row }) : InStep P Eq (apply m row) (apply m row') := by
  refine (inStep_executeAll hP hR hbind).bind fun _ _ _ => ?_
  split
  · exact inStep_settle hP hR
  · exact inStep_pure rfl

theorem inStep_purge (cutoff now : Instant) (condition : Option String) :
    InStep P Eq (purge cutoff now condition) (purge cutoff now condition) := by
  refine inStep_get_bind fun s t h => ?_
  rw [(hP.level h).layout, (hP.level h).layout']
  refine (inStep_liftM (matching_eq _)).bind fun st _ hst => ?_
  subst hst
  refine (inStep_request hP hR (r := .prepare st) nofun).bind fun _ _ _ => ?_
  refine (inStep_request hP hR (r := .execute st _) (by nofun)).bind fun count _ hcount => ?_
  subst hcount
  exact (inStep_commit hP hR).bind fun _ _ _ => inStep_pure rfl

end Actions

variable (hR : Connection.Parallel R)
include hR

/-! ## 5. Failures and the end -/

theorem Parallel.isConnected (h : Parallel R l s t) : t.isConnected = s.isConnected := by
  unfold Storage.isConnected
  rw [h.held, hR.isOpen h.connection]

omit [Connection τ] hR in
theorem disconnect_eq (s : Storage σ ε) : s.disconnect =
    let closed :=
      if s.isConnected then Connection.perform .close s.connection else (.ok (), s.connection)
    (closed.1, { s with connection := Connection.release closed.2, held := false }) :=
  rfl

theorem Parallel.disconnect (h : Parallel R l s t) :
    t.disconnect.1 = s.disconnect.1 ∧ Parallel R l s.disconnect.2 t.disconnect.2 := by
  rw [disconnect_eq, disconnect_eq, h.isConnected hR]
  split
  · obtain ⟨hanswer, hconnection⟩ := hR.perform (r := .close) h.connection nofun
    exact ⟨hanswer, { h with connection := hR.release hconnection, held := rfl }⟩
  · exact ⟨rfl, { h with connection := hR.release h.connection, held := rfl }⟩

theorem Parallel.close (h : Parallel R l s t) :
    t.close.1 = s.close.1 ∧ Parallel R l s.close.2 t.close.2 :=
  h.clear.forget.disconnect hR

variable (hnew : Connection.Reconnects R)
include hnew

theorem Parallel.reconnect (h : Parallel R l s t) : Parallel R l s.reconnect t.reconnect := by
  obtain ⟨-, hlet⟩ := h.forget.disconnect hR
  unfold Storage.reconnect
  generalize Storage.disconnect { s with statements := [] } = d at hlet
  generalize Storage.disconnect { t with statements := [] } = d' at hlet
  obtain ⟨x, s₁⟩ := d
  obtain ⟨x', t₁⟩ := d'
  obtain ⟨hanswer, hconnection⟩ := hnew _ _ hlet.connection
  dsimp only at hlet hanswer hconnection ⊢
  cases hperform : Connection.perform .connect s₁.connection with
  | mk y c =>
    cases hperform' : Connection.perform .connect t₁.connection with
    | mk y' c' =>
      rw [hperform, hperform'] at hanswer hconnection
      obtain rfl : y' = y := hanswer
      cases y' with
      | ok _ => exact { hlet with connection := hconnection, held := rfl }
      | error e => exact { hlet with connection := hconnection, held := rfl }

theorem Parallel.undo (h : Parallel R l s t) : Parallel R l s.undo t.undo := by
  unfold Storage.undo
  rw [h.isConnected hR]
  split
  · obtain ⟨hanswer, hconnection⟩ := hR.perform (r := .rollback) h.connection nofun
    cases hperform : Connection.perform .rollback s.connection with
    | mk x c =>
      cases hperform' : Connection.perform .rollback t.connection with
      | mk x' c' =>
        rw [hperform, hperform'] at hanswer hconnection
        obtain rfl : x' = x := hanswer
        cases x' with
        | ok _ => exact { h with connection := hconnection }
        | error e => exact { h with connection := hconnection }
  · exact h.reconnect hR hnew

omit [Connection σ] [Connection τ] hR hnew in
/-- The recoveries are asked for rows that are alike, and decide the same. -/
theorem Parallel.consult (h : Parallel R l s t) (e : ε) {rows rows' : List Row}
    (hrows : List.Forall₂ l.ReadAlike rows rows') :
    (t.consult e rows').1 = (s.consult e rows).1 ∧
      Parallel R l (s.consult e rows).2 (t.consult e rows').2 := by
  unfold Storage.consult
  cases hr : s.recovery with
  | none =>
    cases hr' : t.recovery with
    | none => exact ⟨rfl, h⟩
    | some r' => exact nomatch hr ▸ hr' ▸ h.recovery
  | some r =>
    cases hr' : t.recovery with
    | none => exact nomatch hr ▸ hr' ▸ h.recovery
    | some r' =>
      have hrecovery := h.recovery
      rw [hr, hr'] at hrecovery
      cases hrecovery with
      | some hsame => exact ⟨hsame e _ _ hrows, { h with recovery := .some hsame }⟩

/-- **A rollback** of both transactions. -/
theorem Parallel.rollback [ToString ε] (h : Parallel R l s t) (e : ε) :
    (t.rollback e).1 = (s.rollback e).1 ∧ Parallel R l (s.rollback e).2 (t.rollback e).2 :=
  have hundo := h.undo hR hnew
  (hundo.clear.logged _ _).consult e hundo.backup

end Storage

end RowHistory
