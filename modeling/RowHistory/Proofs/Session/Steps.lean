import RowHistory.Proofs.Sql.Performing
import RowHistory.Proofs.Statement.Commands
import RowHistory.Proofs.Storage.Steps
import RowHistory.Session

/-!
# What sessions do with a row

A row is judged, stamped and written, and every part may fail. This file fixes

* what holds of a session at all times (`Session.Fit`), and what no work on a row changes
  (`Session.Stays`);
* what a judgement means for the database (`Judged`), and the row that is recorded before it is
  written (`recordedRow`);
* the results of the work on a row (`apply_cases`), and of a call (`processRow_cases`).
-/

namespace RowHistory

open Sql (Answer Database)

/-! ## 1. Lookups -/

/-- **A lookup changes nothing.** -/
theorem Layout.run_selection {l : Layout} {kind : StatementKind} {b : Binding} {db db' : Database}
    {answer : Answer} (hids : l.fields.names .id ≠ []) (hkind : kind = .latest ∨ kind = .active)
    (h : l.run kind b db = some (answer, db')) : db' = db := by
  obtain ⟨st, hst, hperf⟩ := Layout.run_some h
  obtain ⟨p, e, o, hread, -⟩ := Sql.read_selection hids hkind hst
  obtain ⟨plan, hplan, -, hrun⟩ := Database.perform_ok hread hperf
  obtain ⟨_, _, _, -, -, -, -, hdb, -⟩ := Database.select_ok hplan hrun
  exact hdb

/-- Options that are consistent have fields without a fault, one of which identifies a row. -/
theorem Options.fields_of_validate {o : Options} (h : o.validate = .ok ()) :
    Classification.fault? o.names [] o.fields.fields = none ∧ o.fields.ofKind .id ≠ [] := by
  unfold Options.validate at h
  split at h
  · cases h
  · split at h
    · cases h
    · cases hfields : o.fields.validate o.names with
      | error e =>
        rw [hfields] at h
        cases h
      | ok u =>
        unfold Classification.validate at hfields
        split at hfields
        · cases hfields
        · rename_i hfault
          split at hfields
          · cases hfields
          · rename_i hne
            exact ⟨hfault, hne⟩

/-- Options that are consistent name an identifier. -/
theorem Options.ids_of_validate {o : Options} (h : o.validate = .ok ()) :
    o.fields.names .id ≠ [] :=
  fun hnil => (Options.fields_of_validate h).2 (List.map_eq_nil_iff.mp hnil)

/-- Options that are consistent have batches of one write at least. -/
theorem Options.size_of_validate {o : Options} (h : o.validate = .ok ()) : 0 < o.commitSize := by
  unfold Options.validate at h
  split at h
  · cases h
  · split at h
    · cases h
    · omega

/-- Options that are consistent purge only with a last-seen column. -/
theorem Options.tracks_of_validate {o : Options} (h : o.validate = .ok ())
    (hpurge : o.purge = true) : o.names.tracksLastSeen = true := by
  unfold Options.validate at h
  split at h
  · cases h
  · split at h
    · cases h
    · split at h
      · cases h
      · split at h
        · cases h
        · rename_i hnot
          rw [hpurge] at hnot
          simpa using hnot

namespace Session

variable {σ α β : Type} [Connection σ] [Transactional σ] {s s' : Session σ}

/-! ## 2. Sessions -/

/-- What was committed. -/
def durable (s : Session σ) : Database :=
  s.storage.durable

/-- What the session sees. -/
def working (s : Session σ) : Database :=
  s.storage.working

/-- The storage is fit, and it is the one of the options, which are consistent. -/
structure Fit (s : Session σ) : Prop where
  storage : s.storage.Fit
  layout : s.storage.layout = s.options.layout
  size : s.storage.batch.size = s.options.commitSize
  valid : s.options.validate = .ok ()

/-- What no work on a row changes. -/
structure Stays (s s' : Session σ) : Prop where
  options : s'.options = s.options
  isOpen : s'.isOpen = s.isOpen
  clock : s'.clock = s.clock
  start : s'.start = s.start
  validTo : s'.validTo = s.validTo
  storage : s.storage.Stays s'.storage

omit [Connection σ] [Transactional σ] in
theorem Stays.refl (s : Session σ) : Stays s s :=
  ⟨rfl, rfl, rfl, rfl, rfl, .refl _⟩

omit [Connection σ] [Transactional σ] in
theorem Stays.trans {s'' : Session σ} (h : Stays s s') (h' : Stays s' s'') : Stays s s'' :=
  ⟨h'.options.trans h.options, h'.isOpen.trans h.isOpen, h'.clock.trans h.clock,
    h'.start.trans h.start, h'.validTo.trans h.validTo, h.storage.trans h'.storage⟩

theorem Fit.of_stays (hs : s.Fit) (h : Stays s s') (hfit : s'.storage.Fit) : s'.Fit :=
  ⟨hfit, by rw [h.storage.layout, hs.layout, h.options],
    by rw [h.storage.size, hs.size, h.options], by rw [h.options, hs.valid]⟩

theorem Fit.ids (hs : s.Fit) : s.storage.layout.fields.names .id ≠ [] := by
  rw [hs.layout]
  exact Options.ids_of_validate hs.valid

omit [Connection σ] [Transactional σ] in
/-- Work with the storage is work of the session. -/
theorem run_withStorage (f : Storage.Action σ Failure α) (s : Session σ) :
    (withStorage f).run.run s = match f.run.run s.storage with
      | (.ok a, storage) => (.ok a, { s with storage })
      | (.error e, storage) => (.error (.storage e), { s with storage }) := by
  unfold withStorage
  rw [run_get_bind]
  cases f.run.run s.storage with
  | mk x storage => cases x <;> rfl

/-- What a part of the work on a row can do: it succeeds in a way that is known, or it fails and
nothing is committed or recorded. -/
def Does (f : Action σ α) (s : Session σ) (Q : α → Session σ → Prop) : Prop :=
  ∀ r s', f.run.run s = (r, s') → s'.storage.Fit ∧ Stays s s' ∧
    ((∃ a, r = .ok a ∧ Q a s') ∨ ((∃ e, r = .error e) ∧ s.storage.Calm s'.storage))

theorem does_withStorage {f : Storage.Action σ Failure α} {Q : α → Storage σ Failure → Prop}
    (h : Storage.Does f s.storage Q) :
    Does (withStorage f) s fun a s' => s' = { s with storage := s'.storage } ∧ Q a s'.storage := by
  intro r s' hrun
  rw [run_withStorage] at hrun
  cases hf : f.run.run s.storage with
  | mk x storage =>
    rw [hf] at hrun
    obtain ⟨hfit, hstays, ⟨a, rfl, hQ⟩ | ⟨⟨e, rfl⟩, hcalm⟩⟩ := h x storage hf
    · cases hrun
      exact ⟨hfit, ⟨rfl, rfl, rfl, rfl, rfl, hstays⟩, .inl ⟨a, rfl, rfl, hQ⟩⟩
    · cases hrun
      exact ⟨hfit, ⟨rfl, rfl, rfl, rfl, rfl, hstays⟩, .inr ⟨⟨_, rfl⟩, hcalm⟩⟩

theorem Does.bind {f : Action σ α} {g : α → Action σ β} {P : α → Session σ → Prop}
    {Q : β → Session σ → Prop} (hf : Does f s P)
    (hg : ∀ a s', s'.storage.Fit → Stays s s' → P a s' →
      s.storage.Calm s'.storage ∧ Does (g a) s' Q) : Does (f >>= g) s Q := by
  intro r s'' h
  rw [run_bind] at h
  cases hr : f.run.run s with
  | mk x s' =>
    obtain ⟨hfit, hstays, ⟨a, rfl, hP⟩ | ⟨⟨e, rfl⟩, hcalm⟩⟩ := hf x s' hr
    · simp only [hr] at h
      obtain ⟨hcalm, hdoes⟩ := hg a s' hfit hstays hP
      obtain ⟨hfit', hstays', hend⟩ := hdoes r s'' h
      exact ⟨hfit', hstays.trans hstays',
        hend.imp_right fun ⟨he, hc⟩ => ⟨he, hcalm.trans hc⟩⟩
    · simp only [hr] at h
      obtain ⟨rfl, rfl⟩ := h
      exact ⟨hfit, hstays, .inr ⟨⟨e, rfl⟩, hcalm⟩⟩

theorem does_pure (hs : s.storage.Fit) (a : α) : Does (pure a) s fun b s' => b = a ∧ s' = s := by
  intro r s' h
  cases h
  exact ⟨hs, .refl s, .inl ⟨a, rfl, rfl, rfl⟩⟩

theorem does_get (hs : s.storage.Fit) : Does get s fun b s' => b = s ∧ s' = s := by
  intro r s' h
  cases h
  exact ⟨hs, .refl s, .inl ⟨s, rfl, rfl, rfl⟩⟩

theorem does_throw (hs : s.storage.Fit) (e : Failure) (Q : α → Session σ → Prop) :
    Does (throw e) s Q := by
  intro r s' h
  cases h
  exact ⟨hs, .refl s, .inr ⟨⟨e, rfl⟩, .refl _⟩⟩

theorem Does.imp {f : Action σ α} {P Q : α → Session σ → Prop} (hf : Does f s P)
    (h : ∀ a s', P a s' → Q a s') : Does f s Q := by
  intro r s' hr
  obtain ⟨hfit, hstays, hend⟩ := hf r s' hr
  exact ⟨hfit, hstays, hend.imp_left fun ⟨a, ha, hP⟩ => ⟨a, ha, h a s' hP⟩⟩

/-! ## 3. Judgements -/

/-- What a database says of a row at an instant: how it stands to the active version of its
identifier, or, if there is none, to the latest. -/
inductive Judged (l : Layout) (row : Row) (now : Instant) (db : Database) : Outcome → Prop
  /-- There is an active version. -/
  | active {answer : Answer} {record : Record} {natural : Outcome} :
      l.run .active { row, instant := some now } db = some (answer, db) →
      answer.record? l.names = .ok (some record) →
      l.fields.againstActive row record = .ok natural → Judged l row now db natural
  /-- There is none. -/
  | latest {answer answer' : Answer} {latest : Option Record} :
      l.run .active { row, instant := some now } db = some (answer, db) →
      answer.record? l.names = .ok none →
      l.run .latest { row } db = some (answer', db) →
      answer'.record? l.names = .ok latest → Judged l row now db (.withoutActive latest)

/-- **A row that is judged is judged by what the session sees**, and nothing changes. -/
theorem does_judge (hs : s.Fit) (row : Row) (now : Instant) :
    Does (judge row now) s fun natural s' =>
      s' = { s with storage := s'.storage } ∧ s.storage.Still s'.storage ∧
        Judged s.options.layout row now s.working natural := by
  have hids := hs.ids
  unfold judge
  refine (does_withStorage (Storage.does_select hs.storage .active _)).bind ?_
  rintro found s₁ hfit₁ hstays₁ ⟨hs₁, hd₁, hb₁, answer, hrun, hrec⟩
  rw [hs.layout] at hids hrun hrec
  have hw₁ : s₁.storage.working = s.storage.working := Layout.run_selection hids (.inr rfl) hrun
  have hrun₁ : s.options.layout.run .active { row, instant := some now } s.storage.working =
      some (answer, s.storage.working) := by rw [hrun, hw₁]
  refine ⟨⟨hd₁, by rw [hb₁]⟩, ?_⟩
  cases found with
  | some active =>
    refine (does_get hfit₁).bind ?_
    rintro _ s₂ hfit₂ _ ⟨rfl, rfl⟩
    refine ⟨.refl _, ?_⟩
    have hfields : s₂.options.fields = s.options.layout.fields := by rw [hstays₁.options]; rfl
    cases hagainst : s₂.options.fields.againstActive row active with
    | error e => exact does_throw hfit₁ _ _
    | ok outcome =>
      refine (does_pure hfit₁ outcome).imp ?_
      rintro _ _ ⟨rfl, rfl⟩
      rw [hfields] at hagainst
      exact ⟨hs₁, ⟨hd₁, hw₁, hb₁⟩, .active hrun₁ hrec hagainst⟩
  | none =>
    refine (does_withStorage (Storage.does_select hfit₁ .latest _)).bind ?_
    rintro found s₂ hfit₂ hstays₂ ⟨hs₂, hd₂, hb₂, answer', hrun', hrec'⟩
    rw [hstays₁.storage.layout, hs.layout, hw₁] at hrun'
    rw [hstays₁.storage.layout, hs.layout] at hrec'
    have hw₂ : s₂.storage.working = s.storage.working :=
      Layout.run_selection hids (.inl rfl) hrun'
    refine ⟨⟨hd₂, by rw [hb₂]⟩, (does_pure hfit₂ _).imp ?_⟩
    rintro _ _ ⟨rfl, rfl⟩
    rw [hw₂] at hrun'
    refine ⟨?_, ⟨hd₂.trans hd₁, hw₂, hb₂.trans hb₁⟩, .latest hrun₁ hrec hrun' hrec'⟩
    rw [hs₂, hs₁]

/-! ## 4. Rows -/

/-- The session in which a row is written: a skipped one is noted, and one that is to be written
is recorded. -/
def readied (s : Session σ) (reason : Option SkipReason) (m : Mutation) (row : Row) : Session σ :=
  let s := match reason with
    | some reason => s.noted .trace .rowSkipped [("reason", reason.name)]
    | none => s
  if m.writes then { s with storage := s.storage.backUp row } else s

omit [Connection σ] [Transactional σ] in
theorem run_write (f : Storage.Action σ Failure Unit) (a : α) (s : Session σ) :
    (do withStorage f; pure a : Action σ α).run.run s = match (withStorage f).run.run s with
      | (.ok (), s') => (.ok a, s')
      | (.error e, s') => (.error e, s') := by
  rw [run_bind]
  cases (withStorage f).run.run s with
  | mk x s' => cases x <;> rfl

/-- The row that a call records before it writes it: none if the identifier is missing, if the row
cannot be judged, or if nothing is to be written. -/
def recordedRow (s : Session σ) (row : Row) (forced : Option RowStatus) (now : Instant) :
    Option Row :=
  match missingIdentifier? s.options row, ((judge row now).run.run s).1 with
  | none, .ok natural =>
    let outcome := (force forced natural).1
    if (Mutation.ofStatus s.options.names.tracksLastSeen outcome.status).writes then
      some (stamped s.options s.validTo outcome now row)
    else none
  | _, _ => none

omit [Transactional σ] in
/-- The work on a row, step by step. -/
theorem run_apply (s : Session σ) (row : Row) (forced : Option RowStatus) (now : Instant) :
    (apply row forced now).run.run s = match missingIdentifier? s.options row with
      | some name => (.error (.missingIdentifier name), s)
      | none => match (judge row now).run.run s with
        | (.error e, s₁) => (.error e, s₁)
        | (.ok natural, s₁) =>
          let outcome := (force forced natural).1
          let reason := (force forced natural).2
          let stamped := stamped s.options s₁.validTo outcome now row
          let m := Mutation.ofStatus s.options.names.tracksLastSeen outcome.status
          match (withStorage (Storage.apply m stamped)).run.run (s₁.readied reason m stamped) with
          | (.ok (), s₂) => (.ok (resultOf s.options.names outcome reason stamped), s₂)
          | (.error e, s₂) => (.error e, s₂) := by
  unfold apply
  rw [run_get_bind]
  dsimp only
  cases missingIdentifier? s.options row with
  | some name => rfl
  | none =>
    dsimp only
    rw [run_bind]
    cases hjudge : (judge row now).run.run s with
    | mk x s₁ =>
      cases x with
      | error e => rfl
      | ok natural =>
        dsimp only
        generalize force forced natural = forcing
        obtain ⟨outcome, reason⟩ := forcing
        -- Both ways of noting and of recording end in the same write.
        cases reason <;>
          by_cases hw : (Mutation.ofStatus s.options.names.tracksLastSeen outcome.status).writes = true <;>
          simp only [readied, hw, Bool.false_eq_true, ↓reduceIte, run_get_bind, run_modify_bind,
            run_write] <;> rfl

/-- What became of a row: how it was judged, what was told of it, and that all of its statements
ran. A row that wrote something is recorded, or its batch was full and is committed. -/
structure Applied (row : Row) (forced : Option RowStatus) (now : Instant) (s : Session σ)
    (result : RowResult) (s' : Session σ) : Prop where
  identified : missingIdentifier? s.options row = none
  judged : ∃ natural, Judged s.options.layout row now s.working natural ∧
    result = resultOf s.options.names (force forced natural).1 (force forced natural).2
      (stamped s.options s.validTo (force forced natural).1 now row)
  written : s.options.layout.written result.row (Storage.statementsOf
    (Mutation.ofStatus s.options.names.tracksLastSeen result.status)) s.working = some s'.working
  settled : if (Mutation.ofStatus s.options.names.tracksLastSeen result.status).writes then
      (s.storage.batch.pending + 1 < s.options.commitSize ∧ s'.durable = s.durable ∧
        s'.storage.batch = (s.storage.batch.keep result.row).count) ∨
      (s.options.commitSize ≤ s.storage.batch.pending + 1 ∧ s'.durable = s'.working ∧
        s'.storage.batch = s.storage.batch.clear)
    else s'.durable = s.durable ∧ s'.storage.batch = s.storage.batch

/-- A row commits nothing, or all that the session sees. -/
theorem Applied.committed {row : Row} {forced : Option RowStatus} {now : Instant} {result : RowResult}
    (h : Applied row forced now s result s') : s'.durable = s.durable ∨ s'.durable = s'.working := by
  have hsettled := h.settled
  split at hsettled
  · exact hsettled.imp (fun hsmall => hsmall.2.1) fun hfull => hfull.2.1
  · exact .inl hsettled.1

theorem readied_spec (hs : s.storage.Fit) (reason : Option SkipReason) (m : Mutation) (row : Row) :
    (s.readied reason m row).storage.Fit ∧ Stays s (s.readied reason m row) ∧
    (s.readied reason m row).durable = s.durable ∧ (s.readied reason m row).working = s.working ∧
    (s.readied reason m row).storage.batch =
      if m.writes then s.storage.batch.keep row else s.storage.batch := by
  unfold readied
  cases reason <;> cases hw : m.writes <;>
    exact ⟨⟨hs.sound, hs.cached⟩, ⟨rfl, rfl, rfl, rfl, rfl, ⟨rfl, rfl, rfl, rfl, rfl⟩⟩, rfl, rfl, rfl⟩

/-- **The work on a row** succeeds and writes all of it, or fails, and then nothing is committed and
the batch holds at most that row more. -/
theorem apply_cases (hs : s.Fit) {row : Row} {forced : Option RowStatus} {now : Instant}
    {r : Except Failure RowResult} (h : (apply row forced now).run.run s = (r, s')) :
    s'.storage.Fit ∧ Stays s s' ∧
    ((∃ result, r = .ok result ∧ Applied row forced now s result s') ∨
      ((∃ e, r = .error e) ∧ s'.durable = s.durable ∧
        s'.storage.batch.backup = s.storage.batch.backup ++ (s.recordedRow row forced now).toList)) := by
  rw [run_apply] at h
  cases hmissing : missingIdentifier? s.options row with
  | some name =>
    rw [hmissing] at h
    cases h
    exact ⟨hs.storage, .refl s, .inr ⟨⟨_, rfl⟩, rfl, by simp [recordedRow, hmissing]⟩⟩
  | none =>
    rw [hmissing] at h
    cases hjudge : (judge row now).run.run s with
    | mk x s₁ =>
      rw [hjudge] at h
      obtain ⟨hfit₁, hstays₁, ⟨natural, rfl, hs₁, hstill, hjudged⟩ | ⟨⟨e, rfl⟩, hcalm⟩⟩ :=
        does_judge hs row now x s₁ hjudge
      · dsimp only at h
        generalize hforcing : force forced natural = forcing at h
        obtain ⟨outcome, reason⟩ := forcing
        dsimp only at h
        rw [hstays₁.validTo] at h
        generalize hrow : stamped s.options s.validTo outcome now row = stampedRow at h
        generalize hm : Mutation.ofStatus s.options.names.tracksLastSeen outcome.status = m at h
        obtain ⟨hfit₂, hstays₂, hd₂, hw₂, hb₂⟩ := readied_spec hfit₁ reason m stampedRow
        have hrecorded : s.recordedRow row forced now = if m.writes then some stampedRow else none := by
          simp [recordedRow, hmissing, hjudge, hforcing, hrow, hm]
        cases hwrite : (withStorage (Storage.apply m stampedRow)).run.run
            (s₁.readied reason m stampedRow) with
        | mk y s₃ =>
          rw [hwrite] at h
          obtain ⟨hfit₃, hstays₃, ⟨u, rfl, -, hwritten, hsettled⟩ | ⟨⟨e, rfl⟩, hcalm⟩⟩ :=
            does_withStorage (Storage.does_apply hfit₂ m stampedRow) y s₃ hwrite
          · cases h
            have hwork : (s₁.readied reason m stampedRow).storage.working = s.working :=
              hw₂.trans hstill.working
            have hlayout : (s₁.readied reason m stampedRow).storage.layout = s.options.layout := by
              rw [hstays₂.storage.layout, hstays₁.storage.layout, hs.layout]
            refine ⟨hfit₃, hstays₁.trans (hstays₂.trans hstays₃), .inl ⟨_, rfl, hmissing, ?_, ?_, ?_⟩⟩
            · exact ⟨natural, hjudged, by rw [hforcing, ← hrow]⟩
            · rw [hlayout, hwork] at hwritten
              exact hm ▸ hwritten
            · show if (Mutation.ofStatus s.options.names.tracksLastSeen outcome.status).writes then _ else _
              rw [hm]
              cases hw : m.writes with
              | true =>
                simp only [hw, ↓reduceIte] at hsettled hb₂ ⊢
                rw [Storage.Settled, hb₂, hstill.batch] at hsettled
                refine hsettled.imp ?_ ?_
                · rintro ⟨hsize, hd₃, hb₃⟩
                  exact ⟨hs.size ▸ hsize, hd₃.trans (hd₂.trans hstill.durable), hb₃⟩
                · rintro ⟨hsize, hd₃, hb₃⟩
                  exact ⟨hs.size ▸ hsize, hd₃, hb₃⟩
              | false =>
                simp only [hw, Bool.false_eq_true, ↓reduceIte] at hsettled hb₂ ⊢
                exact ⟨hsettled.1.trans (hd₂.trans hstill.durable),
                  hsettled.2.trans (hb₂.trans hstill.batch)⟩
          · cases h
            refine ⟨hfit₃, hstays₁.trans (hstays₂.trans hstays₃), .inr ⟨⟨e, rfl⟩, ?_, ?_⟩⟩
            · exact hcalm.durable.trans (hd₂.trans hstill.durable)
            · rw [hcalm.backup, hb₂, hrecorded, ← hstill.batch]
              split <;> simp [Batch.keep]
      · cases h
        refine ⟨hfit₁, hstays₁, .inr ⟨⟨e, rfl⟩, hcalm.durable, ?_⟩⟩
        simp [recordedRow, hmissing, hjudge, hcalm.backup]

/-! ## 5. Calls -/

/-- What a call may change beside the storage: the clock, the counters, and whether the session is
open. -/
structure Same (s s' : Session σ) : Prop where
  options : s'.options = s.options
  start : s'.start = s.start
  validTo : s'.validTo = s.validTo

omit [Connection σ] [Transactional σ] in
theorem Same.refl (s : Session σ) : Same s s := ⟨rfl, rfl, rfl⟩

omit [Connection σ] [Transactional σ] in
theorem Same.trans {s'' : Session σ} (h : Same s s') (h' : Same s' s'') : Same s s'' :=
  ⟨h'.options.trans h.options, h'.start.trans h.start, h'.validTo.trans h.validTo⟩

theorem Fit.logged (hs : s.Fit) (e : LogEntry) : (s.logged e).Fit :=
  ⟨⟨hs.storage.sound, hs.storage.cached⟩, hs.layout, hs.size, hs.valid⟩

/-- **A session that is closed has nothing but what was committed.** -/
theorem close_spec (hs : s.Fit) (hopen : s.isOpen = true) :
    s.close.2.Fit ∧ Same s s.close.2 ∧ s.close.2.isOpen = false ∧ s.close.2.clock = s.clock ∧
    s.close.2.durable = s.durable ∧ s.close.2.storage.recovery = s.storage.recovery ∧
    s.close.2.storage.recovered = s.storage.recovered := by
  obtain ⟨hfit, hd, -, hl, hb, hrecovery, hcalls⟩ := Storage.close_fit hs.storage
  have hclose : s.close = (s.storage.close.1.mapError .storage,
      noted { s with storage := s.storage.close.2, isOpen := false } .info .sessionClosed []) := by
    rw [close, if_pos hopen]
  rw [hclose]
  refine ⟨⟨⟨hfit.sound, hfit.cached⟩, hl.trans hs.layout, ?_, hs.valid⟩, ⟨rfl, rfl, rfl⟩, rfl, rfl, hd,
    hrecovery, hcalls⟩
  show s.storage.close.2.batch.size = _
  rw [hb]
  exact hs.size

theorem abort_spec (hs : s.Fit) (hopen : s.isOpen = true) (e : Failure) :
    (s.abort e).Fit ∧ Same s (s.abort e) ∧ (s.abort e).isOpen = false ∧ (s.abort e).clock = s.clock ∧
    (s.abort e).durable = s.durable ∧ (s.abort e).storage.recovery = s.storage.recovery ∧
    (s.abort e).storage.recovered = s.storage.recovered := by
  have hnoted : (s.noted .fatal .sessionAborted [("error", e.message)]).Fit := hs.logged _
  obtain ⟨hfit, hsame, hrest⟩ := close_spec hnoted hopen
  exact ⟨hfit, ⟨hsame.options, hsame.start, hsame.validTo⟩, hrest⟩

omit [Transactional σ] in
theorem recover_eq (s : Session σ) (e : Failure) : s.recover e =
    if (s.storage.rollback e).1 && e.isRecoverable then
      (.ok none, noted { s with storage := (s.storage.rollback e).2 } .warn .rowRecovered
        [("error", e.message)])
    else (.error e, abort { s with storage := (s.storage.rollback e).2 } e) :=
  rfl

/-- The recovery accepts an error for the rows that are lost. -/
def Accepts (s : Session σ) (e : Failure) (rows : List Row) : Prop :=
  ∃ recovery, s.storage.recovery = some recovery ∧ (recovery e rows).1 = true

/-- The calls of the recovery after a failure: one, with the error and the rows, if there is a
recovery. -/
def handed (s : Session σ) (e : Failure) (rows : List Row) : List (Failure × List Row) :=
  (s.storage.recovery.map fun _ => (e, rows)).toList

/-- **A failed row is undone.** The session goes on with an empty batch and what was committed if
the recovery accepts a failure that can be recovered from; otherwise it is closed. -/
theorem recover_spec (hs : s.Fit) (hopen : s.isOpen = true) (e : Failure) :
    let rows := s.storage.batch.backup
    (s.recover e).2.Fit ∧ Same s (s.recover e).2 ∧ (s.recover e).2.clock = s.clock ∧
    (s.recover e).2.durable = s.durable ∧ (s.recover e).2.storage.recovery = s.storage.recovery ∧
    (s.recover e).2.storage.recovered = s.storage.recovered ++ s.handed e rows ∧
    ((Accepts s e rows ∧ e.isRecoverable = true ∧ (s.recover e).1 = .ok none ∧
        (s.recover e).2.isOpen = true ∧ (s.recover e).2.working = (s.recover e).2.durable ∧
        (s.recover e).2.storage.batch = s.storage.batch.clear) ∨
      (¬ (Accepts s e rows ∧ e.isRecoverable = true) ∧ (s.recover e).1 = .error e ∧
        (s.recover e).2.isOpen = false)) := by
  obtain ⟨hfit, hd, hw, hl, hb, hrecovery, hcalls, haccepted⟩ := Storage.rollback_fit hs.storage e
  have hfit' : Fit { s with storage := (s.storage.rollback e).2 } :=
    ⟨hfit, hl.trans hs.layout, by show (s.storage.rollback e).2.batch.size = _; rw [hb]; exact hs.size,
      hs.valid⟩
  have haccepts : (s.storage.rollback e).1 = true ↔ Accepts s e s.storage.batch.backup := by
    rw [haccepted, Option.any_eq_true]
    exact Iff.rfl
  by_cases hgo : (s.storage.rollback e).1 = true ∧ e.isRecoverable = true
  · have hrecover : s.recover e = (.ok none,
        noted { s with storage := (s.storage.rollback e).2 } .warn .rowRecovered
          [("error", e.message)]) := by
      rw [recover_eq, if_pos (Bool.and_eq_true_iff.mpr hgo)]
    rw [hrecover]
    exact ⟨hfit'.logged _, ⟨rfl, rfl, rfl⟩, rfl, hd, hrecovery, hcalls,
      .inl ⟨haccepts.mp hgo.1, hgo.2, rfl, hopen, hw.trans hd.symm, hb⟩⟩
  · have hrecover : s.recover e =
        (.error e, abort { s with storage := (s.storage.rollback e).2 } e) := by
      rw [recover_eq, if_neg fun h => hgo (Bool.and_eq_true_iff.mp h)]
    obtain ⟨hfit₂, hsame, hclosed, hclock, hd₂, hrecovery₂, hcalls₂⟩ := abort_spec hfit' hopen e
    rw [hrecover]
    exact ⟨hfit₂, ⟨hsame.options, hsame.start, hsame.validTo⟩, hclock, hd₂.trans hd,
      hrecovery₂.trans hrecovery, hcalls₂.trans hcalls,
      .inr ⟨fun h => hgo ⟨haccepts.mpr h.1, h.2⟩, rfl, hclosed⟩⟩

omit [Connection σ] [Transactional σ] in
theorem tick_eq (s : Session σ) : s.tick = (s.clock.next, { s with clock := s.clock.tick.2 }) :=
  rfl

theorem Fit.tick (hs : s.Fit) : s.tick.2.Fit :=
  ⟨hs.storage, hs.layout, hs.size, hs.valid⟩

theorem Fit.counted (hs : s.Fit) (f : Counters → Counters) : (s.counted f).Fit :=
  ⟨hs.storage, hs.layout, hs.size, hs.valid⟩

/-- **A call with a row** writes all of it, or it fails, and then it is undone. -/
theorem processRow_cases (hs : s.Fit) (hopen : s.isOpen = true) (row : Row)
    (forced : Option RowStatus) :
    (∃ result s', s.processRow row forced =
        (.ok (some result), s'.counted (·.record result.status)) ∧
      s'.Fit ∧ Stays s.tick.2 s' ∧ Applied row forced s.clock.next s.tick.2 result s') ∨
    (∃ e s', (apply row forced s.clock.next).run.run s.tick.2 = (.error e, s') ∧
      s.processRow row forced = s'.recover e ∧ s'.Fit ∧ Stays s.tick.2 s' ∧
      s'.durable = s.durable ∧ s'.storage.batch.backup = s.storage.batch.backup ++
        (s.tick.2.recordedRow row forced s.clock.next).toList) := by
  unfold processRow
  rw [if_pos hopen, tick_eq]
  dsimp only
  cases hrun : (apply row forced s.clock.next).run.run { s with clock := s.clock.tick.2 } with
  | mk x s' =>
    obtain ⟨hfit, hstays, ⟨result, rfl, happlied⟩ | ⟨⟨e, rfl⟩, hd, hb⟩⟩ := apply_cases hs.tick hrun
    · exact .inl ⟨result, s', rfl, hs.tick.of_stays hstays hfit, hstays, happlied⟩
    · exact .inr ⟨e, s', rfl, rfl, hs.tick.of_stays hstays hfit, hstays, hd, hb⟩

/-- A storage error closes the session, and what was committed stays. -/
theorem failWith_spec (hs : s.Fit) (hopen : s.isOpen = true) (e : StorageError) :
    (s.failWith e : Except Failure α × Session σ).1 = .error (.storage e) ∧
    (s.failWith e : Except Failure α × Session σ).2.Fit ∧
    Same s (s.failWith e : Except Failure α × Session σ).2 ∧
    (s.failWith e : Except Failure α × Session σ).2.isOpen = false ∧
    (s.failWith e : Except Failure α × Session σ).2.clock = s.clock ∧
    (s.failWith e : Except Failure α × Session σ).2.durable = s.durable := by
  obtain ⟨hfit, hd, hw, hl, hb, -⟩ := Storage.rollback_fit hs.storage (.storage e)
  have hfit' : Fit { s with storage := (s.storage.rollback (.storage e)).2 } :=
    ⟨hfit, hl.trans hs.layout,
      by show (s.storage.rollback (.storage e)).2.batch.size = _; rw [hb]; exact hs.size, hs.valid⟩
  obtain ⟨hfit₂, hsame, hclosed, hclock, hd₂, -⟩ := abort_spec hfit' hopen (.storage e)
  exact ⟨rfl, hfit₂, ⟨hsame.options, hsame.start, hsame.validTo⟩, hclosed, hclock, hd₂.trans hd⟩

/-- What a purge leaves behind: all that was pending and what it ended are committed. -/
structure Swept (now : Instant) (s s' : Session σ) : Prop where
  swept : ∃ answer, s.options.layout.swept (Transactional.judge σ) s.start now s.options.purgeWhere
    s.working = some (answer, s'.working)
  durable : s'.durable = s'.working
  batch : s'.storage.batch = s.storage.batch.clear
  isOpen : s'.isOpen = true

/-- The session in which a purge runs. -/
def purging (s : Session σ) : Session σ :=
  s.tick.2.logged s.tick.2.purgeScope.begun

omit [Transactional σ] in
theorem purge_eq (hopen : s.isOpen = true) (htracks : s.options.names.tracksLastSeen = true) :
    s.purge =
      match (Storage.purge s.start s.clock.next s.options.purgeWhere).run.run s.purging.storage with
      | (.ok closed, storage) => (.ok closed, (logged { s.purging with storage }
          (s.purging.purgeScope.completed [("closed", String.ofList (Text.digits closed))] 0)).counted
            (·.addRejected closed))
      | (.error e, storage) =>
        (logged { s.purging with storage } (s.purging.purgeScope.failed e.text)).failWith e := by
  unfold purge
  rw [htracks, hopen]
  rfl

/-- **A purge** ends rows and commits, or it fails, and then the session is closed. -/
theorem purge_cases (hs : s.Fit) (hopen : s.isOpen = true)
    (htracks : s.options.names.tracksLastSeen = true) :
    s.purge.2.Fit ∧ Same s s.purge.2 ∧ s.purge.2.clock = s.clock.tick.2 ∧
    ((∃ n, s.purge.1 = .ok n ∧ Swept s.clock.next s s.purge.2) ∨
      (∃ e, s.purge.1 = .error e ∧ s.purge.2.isOpen = false ∧ s.purge.2.durable = s.durable)) := by
  have hfit : s.purging.Fit := hs.tick.logged _
  rw [purge_eq hopen htracks]
  cases hrun : (Storage.purge s.start s.clock.next s.options.purgeWhere).run.run
      s.purging.storage with
  | mk x storage =>
    obtain ⟨hfit', hstays, ⟨n, rfl, ⟨answer, hswept, -⟩, hd, hb⟩ | ⟨⟨e, rfl⟩, hcalm⟩⟩ :=
      Storage.does_purge hfit.storage s.start s.clock.next s.options.purgeWhere x storage hrun
    · have hnew : Fit { s.purging with storage } :=
        ⟨hfit', hstays.layout.trans hs.layout, hstays.size.trans hs.size, hs.valid⟩
      have hlayout : s.purging.storage.layout = s.options.layout := hs.layout
      rw [hlayout] at hswept
      exact ⟨(hnew.logged _).counted _, ⟨rfl, rfl, rfl⟩, rfl,
        .inl ⟨n, rfl, ⟨answer, hswept⟩, hd, hb, hopen⟩⟩
    · have hnew : Fit { s.purging with storage } :=
        ⟨hfit', hstays.layout.trans hs.layout, hstays.size.trans hs.size, hs.valid⟩
      obtain ⟨hfailed, hfit₂, hsame, hclosed, hclock, hd₂⟩ :=
        failWith_spec (α := Nat) (hnew.logged (s.purging.purgeScope.failed e.text)) hopen e
      exact ⟨hfit₂, ⟨hsame.options, hsame.start, hsame.validTo⟩, hclock,
        .inr ⟨_, hfailed, hclosed, hd₂.trans hcalm.durable⟩⟩

/-- The end of a session commits what is pending, or fails and commits nothing. -/
theorem commitAndClose_spec (hs : s.Fit) (hopen : s.isOpen = true) :
    s.commitAndClose.2.Fit ∧ Same s s.commitAndClose.2 ∧ s.commitAndClose.2.isOpen = false ∧
    s.commitAndClose.2.clock = s.clock ∧
    (s.commitAndClose.2.durable = s.durable ∨ s.commitAndClose.2.durable = s.working) := by
  unfold commitAndClose
  cases hrun : Storage.commit.run.run s.storage with
  | mk x storage =>
    obtain ⟨hfit, hstays, ⟨u, rfl, hd, hw, hb⟩ | ⟨⟨e, rfl⟩, hcalm⟩⟩ :=
      Storage.does_commit hs.storage x storage hrun
    · have hnew : Fit { s with storage } :=
        ⟨hfit, hstays.layout.trans hs.layout, hstays.size.trans hs.size, hs.valid⟩
      obtain ⟨hfit₂, hsame, hclosed, hclock, hd₂, -⟩ := close_spec (hnew.logged _) hopen
      exact ⟨hfit₂, ⟨hsame.options, hsame.start, hsame.validTo⟩, hclosed, hclock, .inr (hd₂.trans hd)⟩
    · have hnew : Fit { s with storage } :=
        ⟨hfit, hstays.layout.trans hs.layout, hstays.size.trans hs.size, hs.valid⟩
      obtain ⟨-, hfit₂, hsame, hclosed, hclock, hd₂⟩ := failWith_spec (α := Unit) hnew hopen e
      exact ⟨hfit₂, ⟨hsame.options, hsame.start, hsame.validTo⟩, hclosed, hclock,
        .inl (hd₂.trans hcalm.durable)⟩

/-- **The end of a session**: it is closed, and what was committed is as it was, or has all that
was pending, perhaps with the rows that a purge ended. -/
theorem finish_cases (hs : s.Fit) (hopen : s.isOpen = true) :
    s.finish.2.Fit ∧ Same s s.finish.2 ∧ s.finish.2.isOpen = false ∧
    (s.finish.2.clock = s.clock ∨ s.finish.2.clock = s.clock.tick.2) ∧
    (s.finish.2.durable = s.durable ∨ s.finish.2.durable = s.working ∨
      (s.finish.2.clock = s.clock.tick.2 ∧ ∃ answer, s.options.layout.swept (Transactional.judge σ)
        s.start s.clock.next s.options.purgeWhere s.working = some (answer, s.finish.2.durable))) := by
  unfold finish
  rw [hopen]
  simp only [Bool.not_true, Bool.false_eq_true, ↓reduceIte]
  by_cases hpurge : s.options.purge = true
  · rw [if_pos hpurge]
    have htracks := Options.tracks_of_validate hs.valid hpurge
    obtain ⟨hfit, hsame, hclock, hend⟩ := purge_cases hs hopen htracks
    cases hrun : s.purge with
    | mk x s' =>
      rw [hrun] at hfit hsame hclock hend
      obtain ⟨n, rfl, hswept⟩ | ⟨e, rfl, hclosed, hd⟩ := hend
      · obtain ⟨hfit₂, hsame₂, hclosed, hclock₂, hd₂⟩ := commitAndClose_spec hfit hswept.isOpen
        refine ⟨hfit₂, hsame.trans hsame₂, hclosed, .inr (hclock₂.trans hclock), .inr (.inr ?_)⟩
        obtain ⟨answer, hanswer⟩ := hswept.swept
        have hdw : s'.commitAndClose.2.durable = s'.working :=
          hd₂.elim (fun h => h.trans hswept.durable) id
        exact ⟨hclock₂.trans hclock, answer, hanswer.trans (by rw [hdw])⟩
      · exact ⟨hfit, hsame, hclosed, .inr hclock, .inl hd⟩
  · rw [if_neg hpurge]
    obtain ⟨hfit, hsame, hclosed, hclock, hd⟩ := commitAndClose_spec hs hopen
    exact ⟨hfit, hsame, hclosed, .inl hclock, hd.imp_right .inl⟩

/-- A session that opens sees what was committed, and its batch is empty. -/
theorem begin_spec {o : Options} {clock : Clock} {id : String} {c : σ}
    (hc : Transactional.Sound c) (h : begin o clock id c = .ok s) :
    s.Fit ∧ s.options = o ∧ s.isOpen = true ∧ s.durable = Transactional.durable c ∧
    s.working = Transactional.durable c ∧ s.storage.batch = Batch.ofSize o.commitSize ∧
    s.storage.recovered = [] ∧ prepare o clock = .ok (s.start, s.clock, s.validTo) := by
  unfold begin at h
  cases hprepare : prepare o clock with
  | error e =>
    rw [hprepare] at h
    cases h
  | ok settled =>
    obtain ⟨start, clock', validTo⟩ := settled
    have hvalid : o.validate = .ok () := by
      obtain ⟨u, hu, -⟩ := Sql.ok_of_bind hprepare
      exact hu
    simp only [hprepare] at h
    cases hconnect : (Storage.connect o.layout o.commitSize id c :
        Except (StorageError × σ) (Storage σ Failure)) with
    | error e =>
      simp only [hconnect] at h
      cases h
    | ok storage =>
      simp only [hconnect] at h
      obtain ⟨hfit, hd, hw, hl, hb, -, hcalls⟩ := Storage.connect_fit hc hconnect
      cases h
      refine ⟨⟨⟨hfit.sound, hfit.cached⟩, hl, ?_, hvalid⟩, rfl, rfl, hd, hw, hb, hcalls, rfl⟩
      show storage.batch.size = o.commitSize
      rw [hb]
      exact Nat.max_eq_left (Options.size_of_validate hvalid)

/-- A session that is refused leaves what was committed. -/
theorem begin_error {o : Options} {clock : Clock} {id : String} {c c' : σ} {e : Failure}
    (hc : Transactional.Sound c) (h : begin o clock id c = .error (e, c')) :
    Transactional.Sound c' ∧ Transactional.durable c' = Transactional.durable c := by
  unfold begin at h
  cases hprepare : prepare o clock with
  | error e =>
    rw [hprepare] at h
    cases h
    exact ⟨hc, rfl⟩
  | ok settled =>
    obtain ⟨start, clock', validTo⟩ := settled
    simp only [hprepare] at h
    cases hconnect : (Storage.connect o.layout o.commitSize id c :
        Except (StorageError × σ) (Storage σ Failure)) with
    | error r =>
      simp only [hconnect] at h
      cases h
      exact Storage.connect_error hc hconnect
    | ok storage =>
      simp only [hconnect] at h
      cases h

end Session

end RowHistory
