import RowHistory.Proofs.Session.Parallel
import RowHistory.Proofs.Session.Success
import RowHistory.Proofs.Versions.Activity
import RowHistory.Proofs.Versions.Agreement

/-!
# Forced statuses

A status that is forced on a row applies to the active version of its identifier as it is stored. The
row is compared with that version all the same, so that a value which cannot be read fails the call.
Apart from this only the identifier counts. This file fixes

* two actions that stay in step unless one of them meets such a value (`InStepOrMismatch`);
* where the value stands (`Classification.Unreadable`), and what is forced on a row
  (`force_againstActive`, `force_withoutActive`);
* two sessions at the same point (`Session.Level`), and forced calls that keep them there
  (`apply_orMismatch`);
* how a single call is answered (`Session.Forced`), as long as the stored versions leave room for the
  next one in 64 bits (`Layout.HasRoom`), and the main statement (`forced_by_identifier`).
-/

namespace RowHistory

open Sql (Database Table)

/-! ## 1. In step, or a mismatch -/

/-- A value could not be read as the declared type of its field. -/
def Mismatches {α : Type} (x : Except Failure α) : Prop :=
  ∃ e, x = .error (.typeMismatch e)

section InStep

variable {α β γ δ S T : Type} {P : S → T → Prop} {Q : α → β → Prop}

/-- Two actions stay in step, unless one of them meets a value that it cannot read. -/
def InStepOrMismatch (P : S → T → Prop) (Q : α → β → Prop) (f : ExceptT Failure (StateM S) α)
    (g : ExceptT Failure (StateM T) β) : Prop :=
  ∀ s t, P s t → Mismatches (f.run.run s).1 ∨ Mismatches (g.run.run t).1 ∨
    (Matching Q (f.run.run s).1 (g.run.run t).1 ∧ P (f.run.run s).2 (g.run.run t).2)

theorem InStep.orMismatch {f : ExceptT Failure (StateM S) α} {g : ExceptT Failure (StateM T) β}
    (h : InStep P Q f g) : InStepOrMismatch P Q f g :=
  fun s t hst => .inr (.inr (h s t hst))

theorem InStepOrMismatch.bind {Q' : γ → δ → Prop} {f : ExceptT Failure (StateM S) α}
    {g : ExceptT Failure (StateM T) β} {f' : α → ExceptT Failure (StateM S) γ}
    {g' : β → ExceptT Failure (StateM T) δ} (h : InStepOrMismatch P Q f g)
    (h' : ∀ a b, Q a b → InStepOrMismatch P Q' (f' a) (g' b)) :
    InStepOrMismatch P Q' (f >>= f') (g >>= g') := by
  intro s t hst
  have hfirst := h s t hst
  rw [run_bind, run_bind]
  cases hf : f.run.run s with
  | mk x s₁ =>
    cases hg : g.run.run t with
    | mk y t₁ =>
      rw [hf, hg] at hfirst
      rcases hfirst with ⟨e, hx⟩ | ⟨e, hy⟩ | ⟨hanswer, hafter⟩
      · cases hx
        exact .inl ⟨e, rfl⟩
      · cases hy
        exact .inr (.inl ⟨e, rfl⟩)
      · cases hanswer with
        | ok hab => exact h' _ _ hab s₁ t₁ hafter
        | error e => exact .inr (.inr ⟨.error e, hafter⟩)

theorem orMismatch_get_bind {f : S → ExceptT Failure (StateM S) α} {g : T → ExceptT Failure (StateM T) β}
    (h : ∀ s t, P s t → InStepOrMismatch P Q (f s) (g t)) :
    InStepOrMismatch P Q (get >>= f) (get >>= g) := by
  intro s t hst
  rw [run_get_bind, run_get_bind]
  exact h s t hst s t hst

end InStep

/-! ## 2. Comparisons -/

section Comparison

variable {c : Classification} {row stored : Row} {active : Record} {natural : Outcome} {e : TypeMismatch}

theorem anyFieldDiffers_error {fields : List Field} (h : anyFieldDiffers row stored fields = .error e) :
    ∃ f ∈ fields, f.equal row stored = .error e := by
  induction fields with
  | nil => cases h
  | cons f fields ih =>
    unfold anyFieldDiffers at h
    split at h
    · rename_i hf
      cases h
      exact ⟨f, List.mem_cons_self, hf⟩
    · cases h
    · obtain ⟨g, hg, hequal⟩ := ih h
      exact ⟨g, List.mem_cons_of_mem f hg, hequal⟩

/-- The value of a field that is compared or updated cannot be read, in the row or as it is stored. -/
def Classification.Unreadable (c : Classification) (row stored : Row) (e : TypeMismatch) : Prop :=
  ∃ f ∈ c.fields, (f.kind = .compare ∨ f.kind = .update) ∧
    (f.type.normalize f.name (row.value f.name) = .error e ∨
      f.type.normalize f.name (stored.value f.name) = .error e)

theorem Classification.unreadable_of_anyDiffers {kind : FieldKind}
    (hkind : kind = .compare ∨ kind = .update) (h : c.anyDiffers kind row stored = .error e) :
    c.Unreadable row stored e := by
  obtain ⟨f, hf, hequal⟩ := anyFieldDiffers_error h
  obtain ⟨hmem, hfkind⟩ := List.mem_filter.mp hf
  rw [← of_decide_eq_true hfkind] at hkind
  refine ⟨f, hmem, hkind, ?_⟩
  unfold Field.equal FieldType.equal at hequal
  split at hequal
  · rename_i hleft
    cases hequal
    exact .inl hleft
  · split at hequal
    · rename_i hright
      cases hequal
      exact .inr hright
    · cases hequal

/-- **A comparison fails only for a value that cannot be read.** -/
theorem Classification.unreadable_of_againstActive (h : c.againstActive row active = .error e) :
    c.Unreadable row active.row e := by
  unfold Classification.againstActive at h
  split at h
  · rename_i hcompare
    cases h
    exact unreadable_of_anyDiffers (.inl rfl) hcompare
  · cases h
  · split at h
    · rename_i hupdate
      cases h
      exact unreadable_of_anyDiffers (.inr rfl) hupdate
    · cases h
    · cases h

namespace Session

/-- Whatever the comparison said, the status applies to the version that is stored: where it said
that the row is one version past it, this is undone. -/
theorem force_againstActive (status : RowStatus) (h : c.againstActive row active = .ok natural) :
    force (some status) natural = (⟨status, active.version⟩, none) := by
  rcases Classification.againstActive_ok h with rfl | rfl | rfl
  · simp [force, SkipReason.ofNatural?, Outcome.activeVersion]
  · rfl
  · rfl

theorem force_withoutActive (status : RowStatus) (latest : Option Record) :
    ∃ version reason, force (some status) (.withoutActive latest) =
      (⟨.skipped, version⟩, some reason) := by
  cases latest with
  | none => exact ⟨_, _, rfl⟩
  | some record => exact ⟨_, _, rfl⟩

/-- A status is forced on a row, or the row is skipped. -/
theorem status_force (status : RowStatus) (natural : Outcome) :
    (force (some status) natural).1.status = status ∨
      (force (some status) natural).1.status = .skipped := by
  cases hreason : SkipReason.ofNatural? natural.status with
  | none => exact .inl (by simp [force, hreason])
  | some reason => exact .inr (by simp [force, hreason])

end Session

end Comparison

/-! ## 3. Two sessions -/

/-- **A touch and an end read the identifier and the bookkeeping only.** -/
theorem Layout.field_of_mark {l : Layout} {kind : StatementKind} {st : Statement} {name : String}
    (hkind : kind = .touch ∨ kind = .purgeOne) (hst : l.statement kind = .ok st)
    (h : .field name ∈ st.parameters) : name ∈ l.fields.names .id ∨ name ∈ l.names.all := by
  have hne : kind ≠ .insert := by
    rcases hkind with rfl | rfl <;> exact nofun
  rw [parameters_statement hne hst, conditionParameters, List.mem_append, List.mem_append] at h
  rcases h with hset | hid | hfurther
  · right
    rcases hkind with rfl | rfl <;> simp [setParameters, Bookkeeping.all] at hset ⊢ <;> grind
  · exact .inl (mem_fields_map.mp hid)
  · right
    rcases hkind with rfl | rfl <;> simp [furtherParameters, Bookkeeping.all] at hfurther ⊢ <;> grind

namespace Session

/-- A forced status calls for a touch or an end, or for nothing. -/
theorem mark_of_status {tracks : Bool} {status : RowStatus} {kind : StatementKind}
    (hstatus : status = .identical ∨ status = .purged ∨ status = .skipped)
    (hkind : kind ∈ Storage.statementsOf (Mutation.ofStatus tracks status)) :
    kind = .touch ∨ kind = .purgeOne := by
  rcases hstatus with rfl | rfl | rfl
  · cases tracks with
    | false => cases hkind
    | true => exact .inl (List.mem_singleton.mp hkind)
  · exact .inr (List.mem_singleton.mp hkind)
  · cases hkind

variable {σ α β : Type} [Connection σ]

/-- Two sessions at the same point of one table. -/
structure Level (o : Options) (s t : Session σ) : Prop where
  options : s.options = o
  options' : t.options = o
  storage : Storage.Level Eq o.layout s.storage t.storage
  validTo : t.validTo = s.validTo

variable {o : Options} {s t : Session σ} {row row' : Row} {status : RowStatus}

omit [Connection σ] in
theorem inStep_level {Q : α → β → Prop} {f : Storage.Action σ Failure α}
    {g : Storage.Action σ Failure β} (h : InStep (Storage.Level Eq o.layout) Q f g) :
    InStep (Level o) Q (withStorage f) (withStorage g) :=
  inStep_withStorage (fun _ _ hst => hst.storage)
    (fun _ _ _ _ hst hstorage => { hst with storage := hstorage }) h

variable (hids : ∀ name ∈ o.fields.names .id, row'.value name = row.value name)
include hids

theorem level_lookup {kind : StatementKind} (hkind : kind = .latest ∨ kind = .active)
    (instant : Option Instant) :
    InStep (Level o) Eq (withStorage (Storage.select kind { row, instant } : Storage.Action σ Failure _))
      (withStorage (Storage.select kind { row := row', instant })) :=
  inStep_level (Storage.inStep_select Storage.follows_level Connection.parallel_eq
    fun _ hst => Layout.bind_lookup hkind hst hids instant)

/-- **The same is forced on rows with the same identifier**, unless one of them cannot be compared. -/
theorem judge_orMismatch (status : RowStatus) (now : Instant) :
    InStepOrMismatch (Level (σ := σ) o)
      (fun natural natural' => force (some status) natural' = force (some status) natural)
      (judge row now) (judge row' now) := by
  refine (level_lookup hids (.inr rfl) (some now)).orMismatch.bind fun found _ hfound => ?_
  subst hfound
  cases found with
  | some active =>
    refine orMismatch_get_bind fun s t h => ?_
    rw [h.options, h.options']
    cases hrow : o.fields.againstActive row active with
    | error e => exact fun _ _ _ => .inl ⟨e, rfl⟩
    | ok natural =>
      cases hrow' : o.fields.againstActive row' active with
      | error e => exact fun _ _ _ => .inr (.inl ⟨e, rfl⟩)
      | ok natural' =>
        refine (inStep_pure ?_).orMismatch
        rw [force_againstActive status hrow, force_againstActive status hrow']
  | none =>
    refine (level_lookup hids (.inl rfl) none).orMismatch.bind fun latest _ hlatest => ?_
    subst hlatest
    refine InStep.orMismatch (inStep_pure ?_)
    rfl

/-- What is written for a status that can be forced is the same for both rows. -/
theorem inStep_mark {outcome : Outcome}
    (hstatus : outcome.status = .identical ∨ outcome.status = .purged ∨ outcome.status = .skipped)
    (reason : Option SkipReason) (now : Instant) :
    InStep (Level (σ := σ) o) (SameTold o row row') (writeOut o outcome reason now row)
      (writeOut o outcome reason now row') := by
  refine inStep_stamped (fun _ _ h => h.validTo) (fun _ _ _ h => ?_) (fun horizon => ?_) reason
  · exact { h with storage := { h.storage with } }
  · refine inStep_level (Storage.inStep_apply Storage.follows_level Connection.parallel_eq
      fun kind hkind st hst => ?_)
    refine Statement.bind_congr rfl rfl fun name hname => ?_
    rcases Layout.field_of_mark (mark_of_status hstatus hkind) hst hname with hid | hbook
    · exact stamped_congr horizon outcome now (hids name hid)
    · exact stamped_bookkeeping horizon outcome now row row' hbook

/-- **Forced calls with one identifier stay in step**, unless one of the rows cannot be compared. -/
theorem apply_orMismatch (hstatus : status = .identical ∨ status = .purged) (now : Instant) :
    InStepOrMismatch (Level (σ := σ) o) (SameTold o row row') (apply row (some status) now)
      (apply row' (some status) now) := by
  refine orMismatch_get_bind fun s t h => ?_
  rw [h.options, h.options']
  dsimp only
  rw [missing_congr hids]
  cases missingIdentifier? o row with
  | some name => exact fun _ _ h => .inr (.inr ⟨.error _, h⟩)
  | none =>
    refine (judge_orMismatch hids status now).bind fun natural natural' hsame => ?_
    rw [hsame]
    have hforced : (force (some status) natural).1.status = .identical ∨
        (force (some status) natural).1.status = .purged ∨
        (force (some status) natural).1.status = .skipped := by
      rcases status_force status natural with h | h
      · rw [h]
        exact hstatus.imp_right .inl
      · exact .inr (.inr h)
    generalize force (some status) natural = forcing at hforced
    obtain ⟨outcome, reason⟩ := forcing
    cases reason with
    | none => exact (inStep_mark hids hforced none now).orMismatch
    | some reason =>
      refine InStep.orMismatch ((inStep_modify fun _ _ h => ?_).bind fun _ _ _ =>
        inStep_mark hids hforced (some reason) now)
      exact { h with storage := { h.storage with } }

end Session

/-! ## 4. Calls -/

/-- What a call tells of a row, apart from the row: its status, its version, and why it was skipped. -/
def told : Except Failure (Option RowResult) → Option (RowStatus × Int × Option SkipReason)
  | .ok (some result) => some (result.status, result.version, result.skipReason)
  | .ok none => none
  | .error _ => none

/-- What is found in a database for the identifier of a row at an instant. -/
def Layout.LooksUp (l : Layout) (row : Row) (now : Instant) (db : Database) (found : Option Record) :
    Prop :=
  ∃ answer db', l.run .active { row, instant := some now } db = some (answer, db') ∧
    answer.record? l.names = .ok found

/-- The version that a lookup finds, if it succeeds and finds one. -/
def Layout.found? (l : Layout) (kind : StatementKind) (b : Binding) (db : Database) : Option Record :=
  (l.run kind b db).bind fun answered => (answered.1.record? l.names).toOption.join

/-- The version after this one is a 64-bit integer, too. -/
def Record.HasNext (record : Record) : Prop :=
  Text.int64Min ≤ record.version ∧ record.version < Text.int64Max

/-- The versions that are looked up for a row at an instant can be counted on in 64 bits. -/
def Layout.HasRoom (l : Layout) (row : Row) (now : Instant) (db : Database) : Prop :=
  (∀ record ∈ l.found? .active { row, instant := some now } db, record.HasNext) ∧
    ∀ record ∈ l.found? .latest { row } db, record.HasNext

/-- All rows of a table are versions. -/
structure Layout.HoldsVersions (l : Layout) (t : Table) : Prop where
  kept : l.Kept t
  shows : ∀ r ∈ t.rows, ∃ v, l.Shows t r v

section Versions

variable {l : Layout} {t : Table} {now : Instant} {db : Database} {row : Row}

theorem Layout.found?_eq {kind : StatementKind} {b : Binding} {answer : Sql.Answer} {db' : Database}
    {record : Record} (hrun : l.run kind b db = some (answer, db'))
    (hrecord : answer.record? l.names = .ok (some record)) : l.found? kind b db = some record := by
  unfold found?
  rw [hrun, Option.bind_some, hrecord]
  rfl

/-- The same is found for rows with the same identifier. -/
theorem Layout.found?_congr {row' : Row} {kind : StatementKind} {instant : Option Instant}
    (hkind : kind = .latest ∨ kind = .active)
    (hids : ∀ name ∈ l.fields.names .id, row'.value name = row.value name) :
    l.found? kind { row := row', instant } db = l.found? kind { row, instant } db := by
  unfold found? run
  cases hst : l.statement kind with
  | error e => rfl
  | ok st => simp only [bind_lookup hkind hst hids instant]

theorem Layout.HasRoom.congr {row' : Row} (h : l.HasRoom row now db)
    (hids : ∀ name ∈ l.fields.names .id, row'.value name = row.value name) :
    l.HasRoom row' now db := by
  unfold HasRoom
  rw [found?_congr (.inr rfl) hids, found?_congr (.inl rfl) hids]
  exact h

/-- Tables that sessions lead to hold versions. -/
theorem Layout.Chained.holdsVersions {strict : Prop} {ticks : List Instant}
    {rows : List (List Sql.Cell)} (h : l.Chained t strict ticks rows) (hs : l.Suits t) :
    l.HoldsVersions { t with rows } where
  kept := h.kept hs
  shows r hr := by
    obtain ⟨v, hv⟩ := h.shows r hr
    exact ⟨v, hv.number, hv.validFrom, hv.validTo, hv.storable⟩

/-- Tables that sessions lead to have room, as long as their rows can be counted in 64 bits. -/
theorem Layout.Chained.hasRoom {strict : Prop} {ticks : List Instant} {rows : List (List Sql.Cell)}
    (h : l.Chained t strict ticks rows) (hs : l.Suits t) (hids : l.fields.names .id ≠ [])
    (hfind : db.find? l.table = some { t with rows }) (hfew : (rows.length : Int) < Text.int64Max) :
    l.HasRoom row now db := by
  have hnext : ∀ kind b record, kind = .latest ∨ kind = .active →
      l.found? kind b db = some record → record.HasNext := by
    intro kind b record hkind hfound
    obtain ⟨⟨answer, db'⟩, hrun, hread⟩ := Option.bind_eq_some_iff.mp hfound
    have hrecord : answer.record? l.names = .ok (some record) :=
      Sql.toOption_eq_some.mp (Option.join_eq_some_iff.mp hread)
    obtain ⟨hnone, -⟩ | ⟨r, hr, v, hpicked, hshow, hversion, -⟩ := h.select hids hs hfind hkind hrun
    · cases hnone.symm.trans hrecord
    · obtain ⟨_, ⟨⟩, hnumber⟩ := hversion _ hrecord
      rw [picks_eq] at hpicked
      have hmem : v ∈ (rows.filter (l.identifies t b.row)).map (l.shown t) := by
        rw [← hshow.eq_shown]
        exact List.mem_map_of_mem (List.mem_filter.mpr ⟨hr, (Bool.and_eq_true_iff.mp hpicked).1⟩)
      obtain ⟨hpos, hle⟩ := (h.chains b.row).number_bounds hmem
      have hcount : (rows.filter (l.identifies t b.row)).length ≤ rows.length :=
        List.length_filter_le _ _
      rw [List.length_map] at hle
      have hmin : Text.int64Min ≤ 0 := by decide
      unfold Record.HasNext
      omega
  exact ⟨fun record => hnext _ _ record (.inr rfl), fun record => hnext _ _ record (.inl rfl)⟩

/-- A version that a lookup finds is read as a record. -/
theorem Layout.HoldsVersions.record (h : l.HoldsVersions t) (hspelled : l.Spelled t)
    (hids : l.fields.names .id ≠ []) (hfind : db.find? l.table = some t) {kind : StatementKind}
    (hkind : kind = .latest ∨ kind = .active) {b : Binding} {answer : Sql.Answer} {db' : Database}
    (hrun : l.run kind b db = some (answer, db')) : ∃ found, answer.record? l.names = .ok found := by
  obtain ⟨hnone, -⟩ | ⟨r, hr, -, hrow, -⟩ := select_shown hids h.kept h.shows hfind hkind hrun
  · exact ⟨none, hnone⟩
  · rw [ofRow_stored hspelled h.kept.distinct (h.kept.rows r hr) (shows_shown (h.shows r hr))] at hrow
    exact ⟨_, hrow⟩

/-- **What is found is the active version of the identifier**, the latest if there are several. -/
theorem Layout.LooksUp.greatest {found : Option Record} (h : l.LooksUp row now db found)
    (hids : l.fields.names .id ≠ []) (hfind : db.find? l.table = some t) (hversions : l.HoldsVersions t)
    (hnow : now.IsStorable) : Greatest (l.HasActive t t.rows row now) (found.map Record.version) := by
  obtain ⟨answer, db', hrun, hrecord⟩ := h
  obtain ⟨hnone, hpicked⟩ | ⟨r, hr, hpicked, hrow, hmax⟩ :=
    select_shown hids hversions.kept hversions.shows hfind (.inr rfl) hrun
  · cases hnone.symm.trans hrecord
    rintro k ⟨r, hr, hid, v, hv, hactive, -⟩
    exact Bool.false_ne_true ((hpicked r hr).symm.trans ((picks_active hv hnow).mpr ⟨hid, hactive⟩))
  · rw [hrow] at hrecord
    obtain ⟨record, hread, rfl⟩ := Sql.ok_of_map hrecord
    have hshow := shows_shown (hversions.shows r hr)
    obtain ⟨hid, hactive⟩ := (picks_active hshow hnow).mp hpicked
    have hversion : record.version = (l.shown t r).number :=
      version_record hversions.kept.distinct hshow hread
    refine ⟨⟨r, hr, hid, _, hshow, hactive, hversion.symm⟩, ?_⟩
    rintro j ⟨r', hr', hid', v', hv', hactive', rfl⟩
    have hle := hmax r' hr' ((picks_active hv' hnow).mpr ⟨hid', hactive'⟩)
    rw [hv'.eq_shown, ← hversion] at hle
    exact hle

end Versions

theorem result_of_told {x : Except Failure (Option RowResult)} {status : RowStatus} {version : Int}
    {reason : Option SkipReason} (h : told x = some (status, version, reason)) :
    ¬ Mismatches x ∧ ∃ result, x = .ok (some result) ∧ result.status = status ∧
      result.version = version := by
  cases x with
  | error e => cases h
  | ok told =>
    cases told with
    | none => cases h
    | some result =>
      cases h
      exact ⟨nofun, result, rfl, rfl, rfl⟩

namespace Session

variable {σ α : Type} [Connection σ] [Transactional σ] {s t : Session σ} {o : Options} {row row' : Row}
  {status : RowStatus}

theorem Level.refl (hs : s.Fit) : Level s.options s s where
  options := rfl
  options' := rfl
  storage :=
    { layout := hs.layout
      layout' := hs.layout
      connection := rfl
      held := rfl
      statements := rfl
      cached := fun kind st h => hs.layout ▸ hs.storage.cached kind st h
      size := rfl
      pending := rfl }
  validTo := rfl

/-- Sessions at the same point see the same, and have committed the same. -/
theorem Level.tables (h : Level o s t) : t.working = s.working ∧ t.durable = s.durable := by
  have hdurable : t.durable = s.durable :=
    congrArg Transactional.durable h.storage.connection.symm
  refine ⟨?_, hdurable⟩
  unfold working Storage.working
  rw [h.storage.held, h.storage.connection]
  exact congrArg (if s.storage.held then _ else ·) hdurable

theorem working_close (hs : s.storage.Fit) (hopen : s.isOpen = true) : s.close.2.working = s.durable := by
  obtain ⟨-, -, hworking, -⟩ := Storage.close_fit hs
  rw [close, if_pos hopen]
  exact hworking

theorem working_abort (hs : s.storage.Fit) (hopen : s.isOpen = true) (e : Failure) :
    (s.abort e).working = s.durable :=
  working_close (s := s.noted .fatal .sessionAborted [("error", e.message)])
    ⟨hs.sound, hs.cached⟩ hopen

/-- After a failure nothing but what was committed is left, whether the session goes on or not. -/
theorem tables_recover (hs : s.Fit) (hopen : s.isOpen = true) (e : Failure) :
    (s.recover e).2.working = s.durable ∧ (s.recover e).2.durable = s.durable := by
  obtain ⟨-, -, -, hdurable, -⟩ := recover_spec hs hopen e
  refine ⟨?_, hdurable⟩
  obtain ⟨hfit, hd, hw, -⟩ := Storage.rollback_fit hs.storage e
  rw [recover_eq]
  split
  · exact hw
  · have hclosed := working_abort (s := { s with storage := (s.storage.rollback e).2 }) hfit hopen e
    exact hclosed.trans hd

omit [Transactional σ] in
theorem told_recover (s : Session σ) (e : Failure) : told (s.recover e).1 = none := by
  rw [recover_eq]
  split <;> rfl

omit [Transactional σ] in
/-- A mismatch is never accepted. -/
theorem recover_mismatch (s : Session σ) (e : TypeMismatch) :
    (s.recover (.typeMismatch e)).1 = .error (.typeMismatch e) := by
  rw [recover_eq, if_neg (by simp [Failure.isRecoverable])]

/-- **Rows with the same identifier are told the same and leave the same tables.** -/
theorem forced_alike (hs : s.Fit) (hopen : s.isOpen = true)
    (hids : ∀ name ∈ s.options.fields.names .id, row'.value name = row.value name)
    (hstatus : status = .identical ∨ status = .purged)
    (hread : ¬ Mismatches (s.processRow row (some status)).1)
    (hread' : ¬ Mismatches (s.processRow row' (some status)).1) :
    told (s.processRow row' (some status)).1 = told (s.processRow row (some status)).1 ∧
    (s.processRow row' (some status)).2.working = (s.processRow row (some status)).2.working ∧
    (s.processRow row' (some status)).2.durable = (s.processRow row (some status)).2.durable := by
  have hwork := apply_orMismatch hids hstatus s.clock.next s.tick.2 s.tick.2 (Level.refl hs.tick)
  rw [processRow_open hopen] at hread hread' ⊢
  rw [processRow_open hopen]
  cases hrun : (apply row (some status) s.clock.next).run.run s.tick.2 with
  | mk x s₁ =>
    cases hrun' : (apply row' (some status) s.clock.next).run.run s.tick.2 with
    | mk x' s₁' =>
      rw [hrun, hrun'] at hwork
      rw [hrun] at hread
      rw [hrun'] at hread'
      rcases hwork with ⟨e, hx⟩ | ⟨e, hx'⟩ | ⟨hanswer, hafter⟩
      · cases hx
        exact absurd ⟨e, recover_mismatch s₁ e⟩ hread
      · cases hx'
        exact absurd ⟨e, recover_mismatch s₁' e⟩ hread'
      · cases hanswer with
        | ok htold =>
          obtain ⟨horizon, outcome, reason, now, rfl, rfl⟩ := htold
          exact ⟨rfl, hafter.tables⟩
        | error e =>
          -- The recovery sees other rows on the two sides, and may decide differently.
          obtain ⟨hfit, hstays, -⟩ := apply_cases hs.tick hrun
          obtain ⟨hfit', hstays', -⟩ := apply_cases hs.tick hrun'
          obtain ⟨hw, hd⟩ := tables_recover (hs.tick.of_stays hstays hfit) (hstays.isOpen.trans hopen) e
          obtain ⟨hw', hd'⟩ := tables_recover (hs.tick.of_stays hstays' hfit')
            (hstays'.isOpen.trans hopen) e
          have hsame : s₁'.durable = s₁.durable := hafter.tables.2
          exact ⟨(told_recover s₁' e).trans (told_recover s₁ e).symm,
            hw'.trans (hsame.trans hw.symm), hd'.trans (hsame.trans hd.symm)⟩

omit [Connection σ] [Transactional σ] in
/-- Work with the storage fails with an error of the storage. -/
theorem error_withStorage {f : Storage.Action σ Failure α} {e : Failure} {s' : Session σ}
    (h : (withStorage f).run.run s = (.error e, s')) : ∃ e', e = .storage e' := by
  rw [run_withStorage] at h
  cases hf : f.run.run s.storage with
  | mk x storage =>
    rw [hf] at h
    cases x with
    | ok a => cases h
    | error e' =>
      cases h
      exact ⟨e', rfl⟩

/-- A mismatch arises where a row is compared with the active version. -/
theorem judge_mismatch (hs : s.Fit) {now : Instant} {e : TypeMismatch} {s' : Session σ}
    (h : (judge row now).run.run s = (.error (.typeMismatch e), s')) :
    ∃ record, s.options.layout.LooksUp row now s.working (some record) ∧
      s.options.fields.againstActive row record = .error e := by
  unfold judge at h
  rw [run_bind] at h
  cases hlook : (withStorage (Storage.active row now)).run.run s with
  | mk x s₁ =>
    rw [hlook] at h
    cases x with
    | error e' =>
      cases h
      obtain ⟨e', he⟩ := error_withStorage hlook
      cases he
    | ok found =>
      obtain ⟨hstays, -, -, -, answer, hrun, hrecord⟩ :=
        (does_withStorage (Storage.does_select hs.storage .active _)).ok hlook
      rw [hs.layout] at hrun hrecord
      cases found with
      | none =>
        dsimp only at h
        rw [run_bind] at h
        cases hlatest : (withStorage (Storage.latest row)).run.run s₁ with
        | mk y s₂ =>
          rw [hlatest] at h
          cases y with
          | ok latest => cases h
          | error e' =>
            cases h
            obtain ⟨e', he⟩ := error_withStorage hlatest
            cases he
      | some record =>
        refine ⟨record, ⟨answer, _, hrun, hrecord⟩, ?_⟩
        dsimp only at h
        rw [run_get_bind, hstays.options] at h
        cases hagainst : s.options.fields.againstActive row record with
        | ok natural =>
          rw [hagainst] at h
          cases h
        | error e' =>
          rw [hagainst] at h
          cases h
          rfl

theorem apply_mismatch (hs : s.Fit) {forced : Option RowStatus} {now : Instant} {e : TypeMismatch}
    {s' : Session σ} (h : (apply row forced now).run.run s = (.error (.typeMismatch e), s')) :
    ∃ record, s.options.layout.LooksUp row now s.working (some record) ∧
      s.options.fields.Unreadable row record.row e := by
  rw [run_apply] at h
  cases hmissing : missingIdentifier? s.options row with
  | some name =>
    rw [hmissing] at h
    cases h
  | none =>
    rw [hmissing] at h
    cases hjudge : (judge row now).run.run s with
    | mk x s₁ =>
      rw [hjudge] at h
      cases x with
      | error e' =>
        cases h
        obtain ⟨record, hlooks, hagainst⟩ := judge_mismatch hs hjudge
        exact ⟨record, hlooks, Classification.unreadable_of_againstActive hagainst⟩
      | ok natural =>
        dsimp only at h
        split at h
        · cases h
        · rename_i hwrite
          cases h
          obtain ⟨e', he⟩ := error_withStorage hwrite
          cases he

/-- What is forced on a row that was judged, by what was found for it. -/
theorem Judged.forced {l : Layout} {now : Instant} {db : Database} {natural : Outcome}
    (h : Judged l row now db natural) (status : RowStatus) :
    (∃ record, l.LooksUp row now db (some record) ∧
      force (some status) natural = (⟨status, record.version⟩, none)) ∨
    (l.LooksUp row now db none ∧ ∃ version reason,
      force (some status) natural = (⟨.skipped, version⟩, some reason)) := by
  cases h with
  | active hrun hrecord hagainst =>
    exact .inl ⟨_, ⟨_, _, hrun, hrecord⟩, force_againstActive status hagainst⟩
  | latest hrun hrecord hrun' hrecord' =>
    exact .inr ⟨⟨_, _, hrun, hrecord⟩, force_withoutActive status _⟩

/-- **A judgement counts in 64 bits**, and undoing the step to the next version does, too. -/
theorem Judged.counts {l : Layout} {now : Instant} {db : Database} {natural : Outcome}
    (h : Judged l row now db natural) (hroom : l.HasRoom row now db) :
    Text.InInt64 natural.version ∧ Text.InInt64 natural.activeVersion := by
  cases h with
  | active hrun hrecord hagainst =>
    obtain ⟨hmin, hmax⟩ := hroom.1 _ (Layout.found?_eq hrun hrecord)
    obtain rfl | rfl | rfl := Classification.againstActive_ok hagainst <;>
      simp only [Text.InInt64, Outcome.activeVersion] <;> omega
  | @latest _ _ latest hrun hrecord hrun' hrecord' =>
    cases latest with
    | none => exact ⟨by decide, by decide⟩
    | some record =>
      obtain ⟨hmin, hmax⟩ := hroom.2 _ (Layout.found?_eq hrun' hrecord')
      simp only [Text.InInt64, Outcome.activeVersion, Outcome.withoutActive]
      omega

/-- The table takes what a forced status writes for a version. -/
def Takes (s : Session σ) (status : RowStatus) (row : Row) (version : Int) : Prop :=
  ∃ db, s.options.layout.written (stamped s.options s.validTo ⟨status, version⟩ s.clock.next row)
    (Storage.statementsOf (Mutation.ofStatus s.options.names.tracksLastSeen status)) s.working = some db

/-- How a session answers a call with a forced status. -/
structure Forced [Steady σ] (s : Session σ) (status : RowStatus) (row : Row) : Prop where
  /-- The numbers that the comparison leads to are 64-bit integers. -/
  counts : ∀ natural, Judged s.options.layout row s.clock.next s.working natural →
    Text.InInt64 natural.version ∧ Text.InInt64 natural.activeVersion
  /-- There is an active version, and a value of the row or of the version cannot be read. -/
  mismatch : ∀ e, (s.processAs row (some status)).1 = .error (.typeMismatch e) →
    ∃ record, s.options.layout.LooksUp row s.clock.next s.working (some record) ∧
      s.options.fields.Unreadable row record.row e
  /-- The row is skipped just if no version is found, and otherwise the status applies to the one
  that is found. -/
  result : ∀ result, (s.processAs row (some status)).1 = .ok (some result) →
    ∃ found, s.options.layout.LooksUp row s.clock.next s.working found ∧
      (result.status = .skipped ↔ found = none) ∧
      ∀ record ∈ found, result.status = status ∧ result.version = record.version
  /-- In a table of versions the one that is found is the active version of the identifier. -/
  active : ∀ t, s.working.find? s.options.layout.table = some t → s.options.layout.HoldsVersions t →
    s.clock.next.IsStorable → ∀ found, s.options.layout.LooksUp row s.clock.next s.working found →
    Greatest (s.options.layout.HasActive t t.rows row s.clock.next) (found.map Record.version)
  /-- If nobody disturbs the database, there is a result, unless the version that is found cannot be
  compared with the row, or the table does not take the change. -/
  succeeds : ∀ t, s.working.find? s.options.layout.table = some t → s.options.layout.HoldsVersions t →
    s.options.layout.Spelled t → s.options.layout.InMain → s.Ready →
    (∀ name ∈ s.options.fields.names .id, row.value name ≠ .null) →
    ∃ found, s.options.layout.LooksUp row s.clock.next s.working found ∧
      ((∀ record ∈ found, (∀ e, ¬ s.options.fields.Unreadable row record.row e) ∧
        s.Takes status row record.version) →
        ∃ result, (s.processAs row (some status)).1 = .ok (some result))

section Calls

variable (hs : s.Fit) (hopen : s.isOpen = true)
include hs hopen

theorem forced_mismatch {forced : Option RowStatus} {e : TypeMismatch}
    (h : (s.processRow row forced).1 = .error (.typeMismatch e)) :
    ∃ record, s.options.layout.LooksUp row s.clock.next s.working (some record) ∧
      s.options.fields.Unreadable row record.row e := by
  obtain ⟨result, s', hprocess, -⟩ | ⟨e', s', hrun, hprocess, -⟩ := processRow_cases hs hopen row forced
  · rw [hprocess] at h
    cases h
  · rw [hprocess, recover_eq] at h
    split at h
    · cases h
    · cases h
      exact apply_mismatch hs.tick hrun

theorem forced_result (hstatus : status ≠ .skipped) {result : RowResult}
    (h : (s.processRow row (some status)).1 = .ok (some result)) :
    ∃ found, s.options.layout.LooksUp row s.clock.next s.working found ∧
      (result.status = .skipped ↔ found = none) ∧
      ∀ record ∈ found, result.status = status ∧ result.version = record.version := by
  obtain ⟨result', s', hprocess, -, -, happlied⟩ | ⟨e, s', -, hprocess, -⟩ :=
    processRow_cases hs hopen row (some status)
  · rw [hprocess] at h
    cases h
    obtain ⟨natural, hjudged, hresult⟩ := happlied.judged
    rcases hjudged.forced status with ⟨record, hlooks, hforce⟩ | ⟨hlooks, version, reason, hforce⟩
    · rw [hforce] at hresult
      refine ⟨some record, hlooks, ?_, ?_⟩
      · rw [hresult]
        exact ⟨fun hskipped => absurd hskipped hstatus, nofun⟩
      · rintro _ ⟨⟩
        rw [hresult]
        exact ⟨rfl, rfl⟩
    · rw [hforce] at hresult
      refine ⟨none, hlooks, ?_, nofun⟩
      rw [hresult]
      exact ⟨fun _ => rfl, fun _ => rfl⟩
  · rw [hprocess, recover_eq] at h
    split at h <;> cases h

end Calls

theorem result_of_force [Steady σ] (hs : s.Ready) {natural outcome : Outcome} {reason : Option SkipReason}
    {db : Database} (hpresent : missingIdentifier? s.options row = none)
    (hjudged : Judged s.options.layout row s.clock.next s.working natural)
    (hforce : force (some status) natural = (outcome, reason))
    (hwritten : s.options.layout.written (stamped s.options s.validTo outcome s.clock.next row)
      (Storage.statementsOf (Mutation.ofStatus s.options.names.tracksLastSeen outcome.status))
      s.working = some db) :
    ∃ result, (s.processRow row (some status)).1 = .ok (some result) := by
  have houtcome : (force (some status) natural).1 = outcome := congrArg Prod.fst hforce
  rw [← houtcome] at hwritten
  exact ⟨_, (processRow_ready hs (some status) hpresent hjudged hwritten).1⟩

/-- **A forced status succeeds** if the lookups, the comparison and the change do. -/
theorem forced_succeeds [Steady σ] (hs : s.Ready) {t : Table} {l : Layout} (hl : s.options.layout = l)
    (hfind : s.working.find? l.table = some t) (hversions : l.HoldsVersions t)
    (hspelled : l.Spelled t) (hmain : l.InMain)
    (hidentified : ∀ name ∈ s.options.fields.names .id, row.value name ≠ .null) :
    ∃ found, l.LooksUp row s.clock.next s.working found ∧
      ((∀ record ∈ found, (∀ e, ¬ s.options.fields.Unreadable row record.row e) ∧
        s.Takes status row record.version) →
        ∃ result, (s.processRow row (some status)).1 = .ok (some result)) := by
  subst hl
  have hids : s.options.layout.fields.names .id ≠ [] := hs.fit.layout ▸ hs.fit.ids
  have hcolumns : ∀ c ∈ s.options.layout.insertColumns, t.Has c := fun c hc => hspelled.has hc
  have hpresent : missingIdentifier? s.options row = none := by
    refine List.find?_eq_none.mpr fun name hname hnull => hidentified name hname ?_
    cases hvalue : row.value name <;> rw [hvalue] at hnull <;> first | rfl | cases hnull
  obtain ⟨answer, hrun⟩ := Layout.run_selects hids hmain hcolumns (.inr rfl) hfind
    { row, instant := some s.clock.next }
  obtain ⟨found, hrecord⟩ := hversions.record hspelled hids hfind (.inr rfl) hrun
  refine ⟨found, ⟨answer, _, hrun, hrecord⟩, fun hfound => ?_⟩
  cases found with
  | none =>
    -- Nothing is written for a row that is skipped.
    obtain ⟨answer', hrun'⟩ := Layout.run_selects hids hmain hcolumns (.inl rfl) hfind { row }
    obtain ⟨latest, hrecord'⟩ := hversions.record hspelled hids hfind (.inl rfl) hrun'
    obtain ⟨version, reason, hforce⟩ := force_withoutActive status latest
    exact result_of_force hs hpresent (.latest hrun hrecord hrun' hrecord') hforce rfl
  | some record =>
    obtain ⟨hreadable, db, hwritten⟩ := hfound record rfl
    cases hagainst : s.options.fields.againstActive row record with
    | error e => exact absurd (Classification.unreadable_of_againstActive hagainst) (hreadable e)
    | ok natural =>
      exact result_of_force hs hpresent (.active hrun hrecord hagainst)
        (force_againstActive status hagainst) hwritten

theorem forced_spec [Steady σ] (hs : s.Fit) (hopen : s.isOpen = true)
    (hstatus : status = .identical ∨ status = .purged)
    (hroom : s.options.layout.HasRoom row s.clock.next s.working) : s.Forced status row := by
  have hpermitted : Permitted (some status) := by
    rcases hstatus with rfl | rfl <;> decide
  have hne : status ≠ .skipped := by
    rcases hstatus with rfl | rfl <;> exact nofun
  have hcall := processAs_permitted (s := s) hpermitted row
  refine ⟨fun natural h => h.counts hroom, ?_, ?_, ?_, ?_⟩
  · intro e h
    exact forced_mismatch hs hopen (hcall ▸ h)
  · intro result h
    exact forced_result hs hopen hne (hcall ▸ h)
  · intro t hfind hversions hnow found hlooks
    exact hlooks.greatest (hs.layout ▸ hs.ids) hfind hversions hnow
  · intro t hfind hversions hspelled hmain hready hidentified
    rw [hcall]
    exact forced_succeeds hready rfl hfind hversions hspelled hmain hidentified

/-- **A forced status depends on the identifier only.** Two calls with rows of one identifier tell the
same and leave the same tables, unless a value cannot be read; and each is answered by the active
version that is stored. What is stored for the identifier leaves room for the next version. -/
theorem forced_by_identifier [Steady σ] {clock : Clock} {id : String} {c : σ} {s₀ : Session σ}
    (hsound : Transactional.Sound c) (hbegin : begin o clock id c = .ok s₀) (calls : List Operation)
    (hopen : (s₀.run calls).2.isOpen = true)
    (hids : ∀ name ∈ o.fields.names .id, row'.value name = row.value name)
    (hstatus : status = .identical ∨ status = .purged)
    (hroom : o.layout.HasRoom row (s₀.run calls).2.clock.next (s₀.run calls).2.working) :
    let s := (s₀.run calls).2
    (¬ Mismatches (s.processAs row (some status)).1 → ¬ Mismatches (s.processAs row' (some status)).1 →
      told (s.processAs row' (some status)).1 = told (s.processAs row (some status)).1 ∧
      (s.processAs row' (some status)).2.working = (s.processAs row (some status)).2.working ∧
      (s.processAs row' (some status)).2.durable = (s.processAs row (some status)).2.durable) ∧
    s.Forced status row ∧ s.Forced status row' := by
  obtain ⟨hfit₀, hoptions₀, -⟩ := begin_spec hsound hbegin
  obtain ⟨hfit, hsame⟩ := run_fit hfit₀ calls
  have hoptions : (s₀.run calls).2.options = o := hsame.options.trans hoptions₀
  generalize (s₀.run calls).2 = s at hopen hfit hoptions hroom
  subst hoptions
  have hpermitted : Permitted (some status) := by
    rcases hstatus with rfl | rfl <;> decide
  dsimp only
  refine ⟨?_, forced_spec hfit hopen hstatus hroom, forced_spec hfit hopen hstatus (hroom.congr hids)⟩
  rw [processAs_permitted hpermitted row, processAs_permitted hpermitted row']
  exact forced_alike hfit hopen hids hstatus

end Session

namespace Sample

/-- A session in which a customer has come. -/
def greeted (s₀ : Session (Traced Store)) : Session (Traced Store) :=
  (s₀.run [.row (customer 1 "Ann" "Ulm") none]).2

end Sample

/-- A customer is purged by rows with other names and cities, and it is the version that is active. -/
theorem renamed_customers_purged :
    ∃ (s₀ : Session (Traced Store)) (rows : List (List Sql.Cell)),
      Session.begin Sample.options Sample.clock "sample" (Sample.store []) = .ok s₀ ∧
      told ((Sample.greeted s₀).processAs (Sample.customer 1 "Bob" "Bonn") (some .purged)).1 =
        some (.purged, 1, none) ∧
      told ((Sample.greeted s₀).processAs (Sample.customer 1 "Zoe" "Kiel") (some .purged)).1 =
        some (.purged, 1, none) ∧
      ((Sample.greeted s₀).processAs (Sample.customer 1 "Zoe" "Kiel") (some .purged)).2.working =
        ((Sample.greeted s₀).processAs (Sample.customer 1 "Bob" "Bonn") (some .purged)).2.working ∧
      (Sample.greeted s₀).working.find? "customers" = some { Sample.table with rows } ∧
      Greatest (Sample.options.layout.HasActive { Sample.table with rows } rows
        (Sample.customer 1 "Bob" "Bonn") (Sample.greeted s₀).clock.next) (some 1) := by
  have hcheck : okAnd (Session.begin Sample.options Sample.clock "sample" (Sample.store [])) (fun s₀ =>
      decide ((s₀.start.InYears ∧ ∀ e ∈ s₀.validTo, e.InYears) ∧
        (∀ k ∈ s₀.clock.ticks 2, k.InYears) ∧ (Sample.greeted s₀).isOpen = true ∧
        ((Sample.greeted s₀).working.find? "customers").map (·.rows.length) = some 1) &&
      decide (told ((Sample.greeted s₀).processAs (Sample.customer 1 "Bob" "Bonn") (some .purged)).1 =
        some (.purged, 1, none)) &&
      decide (told ((Sample.greeted s₀).processAs (Sample.customer 1 "Zoe" "Kiel") (some .purged)).1 =
        some (.purged, 1, none))) = true := by
    unfold Sample.greeted
    rw [Sample.working_eq, Store.connection_eq Sample.options]
    decide +kernel
  obtain ⟨s₀, hbegin, hs₀⟩ := exists_of_okAnd hcheck
  obtain ⟨hfirst, hzoe⟩ := Bool.and_eq_true_iff.mp hs₀
  obtain ⟨hopening, hbob⟩ := Bool.and_eq_true_iff.mp hfirst
  obtain ⟨⟨hstart, hhorizon⟩, hticks, hopen, hlength⟩ := of_decide_eq_true hopening
  obtain ⟨hread, result, hresult, hstatus, hversion⟩ := result_of_told (of_decide_eq_true hbob)
  obtain ⟨hread', -⟩ := result_of_told (of_decide_eq_true hzoe)
  have hsound := Sample.sound_store [] (List.forall_mem_nil _)
  have hids : ∀ name ∈ Sample.options.fields.names .id, (Sample.customer 1 "Zoe" "Kiel").value name =
      (Sample.customer 1 "Bob" "Bonn").value name := by decide +kernel
  -- The first row of the session has left a table of versions.
  have hfit := (Session.begin_spec hsound hbegin).1
  have hreaches : Reaches Sample.options.layout Sample.table False (Sample.store [])
      (.busy (Sample.greeted s₀)) _ :=
    Reaches.run (.opened .start rfl False.elim (Clock.isWhole_startingAt _) hbegin hstart hhorizon
      (List.forall_mem_nil _)) (fun row forced hrow => by
        obtain rfl : row = Sample.customer 1 "Ann" "Ulm" := by simp_all
        decide +kernel) fun k hk => hticks k (s₀.clock.ticks_subset_succ _
          (Session.runTicks_subset hfit _ hk))
  have hholds : (Sample.greeted s₀).Holds Sample.options.layout Sample.table False _ :=
    hreaches.holds hsound Sample.suits_table rfl (by decide +kernel)
  obtain ⟨rows, hfind, hchained⟩ := hholds.working hopen
  have hone : rows.length = 1 := by
    rw [show "customers" = Sample.options.layout.table from rfl, hfind] at hlength
    exact Option.some.inj hlength
  have hroom : Sample.options.layout.HasRoom (Sample.customer 1 "Bob" "Bonn")
      (Sample.greeted s₀).clock.next (Sample.greeted s₀).working :=
    hchained.hasRoom Sample.suits_table (by decide +kernel) hfind (by rw [hone]; decide)
  obtain ⟨halike, hforced, -⟩ :
      _ ∧ (Sample.greeted s₀).Forced .purged (Sample.customer 1 "Bob" "Bonn") ∧ _ :=
    Session.forced_by_identifier hsound hbegin _ hopen hids (.inr rfl) hroom
  obtain ⟨htold, hworking, -⟩ := halike hread hread'
  have hnow : (Sample.greeted s₀).clock.next.IsStorable :=
    ⟨hholds.whole.next, hticks _ (Session.next_run hfit _)⟩
  obtain ⟨found, hlooks, hskipped, hrecord⟩ := hforced.result result hresult
  have hactive := hforced.active
  rw [hholds.layout] at hactive hlooks
  have hgreatest := hactive _ hfind (hchained.holdsVersions Sample.suits_table) hnow found hlooks
  cases found with
  | none =>
    rw [hstatus] at hskipped
    cases hskipped.mpr rfl
  | some record =>
    have hfirst : record.version = 1 := (hrecord record rfl).2.symm.trans hversion
    rw [Option.map_some, hfirst] at hgreatest
    exact ⟨s₀, rows, hbegin, of_decide_eq_true hbob, htold.trans (of_decide_eq_true hbob), hworking,
      hfind, hgreatest⟩

/-- **A row that cannot be compared is not purged**, and it closes the session: a name that is no text
fails the call, where another row of the same identifier ends the version. -/
theorem unreadable_customer_not_purged :
    ∃ s₀ : Session (Traced Store),
      Session.begin Sample.options Sample.clock "sample" (Sample.store []) = .ok s₀ ∧
      (Sample.greeted s₀).isOpen = true ∧
      (∀ name ∈ Sample.options.fields.names .id, ((Sample.customer 1 "Bob" "Bonn").set "name"
        (.bool true)).value name = (Sample.customer 1 "Bob" "Bonn").value name) ∧
      told ((Sample.greeted s₀).processAs (Sample.customer 1 "Bob" "Bonn") (some .purged)).1 =
        some (.purged, 1, none) ∧
      ((Sample.greeted s₀).processAs ((Sample.customer 1 "Bob" "Bonn").set "name" (.bool true))
        (some .purged)).1 = .error (.typeMismatch ⟨"name", .string, "bool"⟩) ∧
      ((Sample.greeted s₀).processAs ((Sample.customer 1 "Bob" "Bonn").set "name" (.bool true))
        (some .purged)).2.isOpen = false := by
  have hcheck : okAnd (Session.begin Sample.options Sample.clock "sample" (Sample.store [])) (fun s₀ =>
      decide ((Sample.greeted s₀).isOpen = true ∧
        told ((Sample.greeted s₀).processAs (Sample.customer 1 "Bob" "Bonn") (some .purged)).1 =
          some (.purged, 1, none) ∧
        ((Sample.greeted s₀).processAs ((Sample.customer 1 "Bob" "Bonn").set "name" (.bool true))
          (some .purged)).1 = .error (.typeMismatch ⟨"name", .string, "bool"⟩) ∧
        ((Sample.greeted s₀).processAs ((Sample.customer 1 "Bob" "Bonn").set "name" (.bool true))
          (some .purged)).2.isOpen = false)) = true := by
    unfold Sample.greeted
    rw [Store.connection_eq Sample.options]
    decide +kernel
  obtain ⟨s₀, hbegin, hs₀⟩ := exists_of_okAnd hcheck
  obtain ⟨hopen, hcalls⟩ := of_decide_eq_true hs₀
  exact ⟨s₀, hbegin, hopen, by decide +kernel, hcalls⟩

end RowHistory
