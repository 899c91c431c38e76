import RowHistory.Proofs.Instant.Order
import RowHistory.Proofs.Rows
import RowHistory.Proofs.Session.Calls
import RowHistory.Proofs.Storage.Parallel
import Mathlib.Data.List.Find

/-!
# Sessions side by side

Two sessions of one table get the same calls, with rows that agree in all fields which are not
ignored. A field that is ignored, or that the classification does not name, is nowhere read: not by
the check of the identifier, nor by a lookup or a comparison, and a bookkeeping column is stamped
before a statement reads it. So the sessions stay side by side. This file fixes

* rows that agree (`Classification.Agree`), and what of them is the same (`stamped_alike`);
* clocks that tick alike (`Clock.Alike`) and sessions side by side (`Session.Parallel`);
* that every part of the work on a row keeps them so (`Parallel.apply`), and every call
  (`Parallel.answer`);
* the main statement (`unused_fields_invisible`).
-/

namespace RowHistory

open Sql (Database)

/-! ## 1. Rows -/

/-- Two rows agree in all fields that are not ignored. -/
def Classification.Agree (c : Classification) (row row' : Row) : Prop :=
  ∀ f ∈ c.fields, f.kind ≠ .ignore → row'.value f.name = row.value f.name

section Rows

variable {c : Classification} {o : Options} {row row' : Row} {name : String}

theorem Classification.Agree.refl (c : Classification) (row : Row) : c.Agree row row :=
  fun _ _ _ => rfl

theorem Classification.Agree.of_mem (h : c.Agree row row') {kind : FieldKind}
    (hname : name ∈ c.names kind) (hkind : kind ≠ .ignore) : row'.value name = row.value name := by
  obtain ⟨f, hf, rfl⟩ := List.mem_map.mp hname
  obtain ⟨hmem, hk⟩ := List.mem_filter.mp hf
  exact h f hmem (by rw [of_decide_eq_true hk]; exact hkind)

/-- Of rows with the same identifier the same field is missing. -/
theorem Session.missing_congr (h : ∀ name ∈ o.fields.names .id, row'.value name = row.value name) :
    missingIdentifier? o row' = missingIdentifier? o row := by
  unfold missingIdentifier?
  refine List.find?_congr fun name hname => ?_
  rw [h name hname]

theorem Classification.Agree.anyDiffers (h : c.Agree row row') (kind : FieldKind)
    (hkind : kind ≠ .ignore) (stored : Row) :
    c.anyDiffers kind row' stored = c.anyDiffers kind row stored :=
  anyFieldDiffers_congr fun _ hf => ⟨h.of_mem (List.mem_map_of_mem hf) hkind, rfl⟩

/-- The rows are judged the same, and fail to be judged alike. -/
theorem Classification.Agree.againstActive (h : c.Agree row row') (active : Record) :
    c.againstActive row' active = c.againstActive row active := by
  unfold Classification.againstActive
  rw [h.anyDiffers .compare nofun, h.anyDiffers .update nofun]

namespace Session

/-- A field with one value in both rows has one value in both when they are stamped. -/
theorem stamped_congr (horizon : Option Instant) (outcome : Outcome) (now : Instant)
    (h : row'.value name = row.value name) :
    (stamped o horizon outcome now row').value name = (stamped o horizon outcome now row).value name := by
  unfold stamped stamp
  cases o.names.lastSeen with
  | none => by_cases hp : outcome.status = .purged <;> simp [hp, Row.value_set, h]
  | some seen => by_cases hp : outcome.status = .purged <;> simp [hp, Row.value_set, h]

/-- A bookkeeping column has the value with which the row was stamped, whatever it was before. -/
theorem stamped_bookkeeping (horizon : Option Instant) (outcome : Outcome) (now : Instant)
    (row row' : Row) (h : name ∈ o.names.all) :
    (stamped o horizon outcome now row').value name = (stamped o horizon outcome now row).value name := by
  unfold stamped stamp
  cases hseen : o.names.lastSeen with
  | none =>
    simp only [Bookkeeping.all, hseen] at h
    by_cases hp : outcome.status = .purged <;> simp [hp, Row.value_set] <;> grind
  | some seen =>
    simp only [Bookkeeping.all, hseen] at h
    by_cases hp : outcome.status = .purged <;> simp [hp, Row.value_set] <;> grind

/-- **Rows that agree are alike once they are stamped.** -/
theorem stamped_alike (h : o.fields.Agree row row') (horizon : Option Instant) (outcome : Outcome)
    (now : Instant) :
    o.layout.ReadAlike (stamped o horizon outcome now row) (stamped o horizon outcome now row') := by
  intro name hname
  have hcases : name ∈ o.names.all ∨ ∃ kind, kind ≠ FieldKind.ignore ∧ name ∈ o.fields.names kind := by
    simp only [Layout.insertColumns, Options.layout, List.mem_append, List.mem_cons, Option.mem_toList]
      at hname
    simp only [Bookkeeping.all, List.mem_append, List.mem_cons, Option.mem_toList]
    grind
  obtain hbook | ⟨kind, hkind, hfield⟩ := hcases
  · exact stamped_bookkeeping horizon outcome now row row' hbook
  · exact stamped_congr horizon outcome now (h.of_mem hfield hkind)

end Session

end Rows

/-! ## 2. Answers -/

/-- Two results tell the same, apart from the row. -/
structure RowResult.Alike (r r' : RowResult) : Prop where
  status : r'.status = r.status
  version : r'.version = r.version
  validFrom : r'.validFrom = r.validFrom
  validTo : r'.validTo = r.validTo
  skipReason : r'.skipReason = r.skipReason

/-- Two replies tell the same, apart from the rows in them. -/
inductive Reply.Alike : Reply → Reply → Prop
  | told {r r' : RowResult} : r.Alike r' → Reply.Alike (.row (.ok (some r))) (.row (.ok (some r')))
  | same (reply : Reply) : Reply.Alike reply reply

theorem Reply.Alike.of_eq {reply reply' : Reply} (h : reply' = reply) : reply.Alike reply' :=
  h ▸ .same reply

/-- Two calls ask the same for rows that agree. -/
inductive Operation.Alike (l : Layout) : Operation → Operation → Prop
  | row {row row' : Row} (forced : Option RowStatus) : l.fields.Agree row row' →
      Operation.Alike l (.row row forced) (.row row' forced)
  | purge : Operation.Alike l .purge .purge
  | finish : Operation.Alike l .finish .finish
  | close : Operation.Alike l .close .close
  | recovery {r r' : Recovery Failure} : Recovery.Alike l r r' →
      Operation.Alike l (.recovery r) (.recovery r')

namespace Session

theorem resultOf_alike (o : Options) (horizon : Option Instant) (outcome : Outcome)
    (reason : Option SkipReason) (now : Instant) (row row' : Row) :
    (resultOf o.names outcome reason (stamped o horizon outcome now row)).Alike
      (resultOf o.names outcome reason (stamped o horizon outcome now row')) where
  status := rfl
  version := rfl
  validFrom := congrArg Value.asInstant?
    (stamped_bookkeeping horizon outcome now row row' (by simp [Bookkeeping.all]))
  validTo := congrArg Value.asInstant?
    (stamped_bookkeeping horizon outcome now row row' (by simp [Bookkeeping.all]))
  skipReason := rfl

end Session

/-! ## 3. Side by side -/

/-- Clocks that tick alike from now on. -/
def Clock.Alike (c c' : Clock) : Prop :=
  ∀ n, c'.ticks n = c.ticks n

theorem Clock.Alike.refl (c : Clock) : c.Alike c :=
  fun _ => rfl

theorem Clock.Alike.next {c c' : Clock} (h : c.Alike c') : c'.next = c.next :=
  (List.cons.inj (h 1)).1

theorem Clock.Alike.tick {c c' : Clock} (h : c.Alike c') : c.tick.2.Alike c'.tick.2 :=
  fun n => (List.cons.inj (h (n + 1))).2

namespace Session

variable {σ τ α β : Type} [Connection σ] [Connection τ]

/-- Two sessions with the same options that got the same calls. -/
structure Parallel (R : σ → τ → Prop) (o : Options) (s : Session σ) (t : Session τ) : Prop where
  options : s.options = o
  options' : t.options = o
  storage : Storage.Parallel R o.layout s.storage t.storage
  isOpen : t.isOpen = s.isOpen
  counters : t.counters = s.counters
  clock : s.clock.Alike t.clock
  start : t.start = s.start
  validTo : t.validTo = s.validTo

variable {R : σ → τ → Prop} {o : Options} {s : Session σ} {t : Session τ} {row row' : Row}

omit [Connection σ] [Connection τ] in
theorem Parallel.logged (h : Parallel R o s t) (e e' : LogEntry) :
    Parallel R o (s.logged e) (t.logged e') :=
  { h with storage := h.storage.logged e e' }

omit [Connection σ] [Connection τ] in
theorem Parallel.tick (h : Parallel R o s t) : Parallel R o s.tick.2 t.tick.2 :=
  { h with clock := h.clock.tick }

omit [Connection σ] [Connection τ] in
theorem Parallel.counted (h : Parallel R o s t) (f : Counters → Counters) :
    Parallel R o (s.counted f) (t.counted f) :=
  { h with counters := congrArg (Option.map f) h.counters }

omit [Connection σ] [Connection τ] in
/-- Work with the storages is work of the sessions, in any relation that rests on one of storages. -/
theorem inStep_withStorage {P : Storage σ Failure → Storage τ Failure → Prop}
    {P' : Session σ → Session τ → Prop} (hstorage : ∀ s t, P' s t → P s.storage t.storage)
    (hwith : ∀ s t storage storage', P' s t → P storage storage' →
      P' { s with storage } { t with storage := storage' })
    {Q : α → β → Prop} {f : Storage.Action σ Failure α} {g : Storage.Action τ Failure β}
    (h : InStep P Q f g) : InStep P' Q (withStorage f) (withStorage g) := by
  intro s t hst
  obtain ⟨hanswer, hafter⟩ := h _ _ (hstorage s t hst)
  rw [run_withStorage, run_withStorage]
  cases hf : f.run.run s.storage with
  | mk x s₁ =>
    cases hg : g.run.run t.storage with
    | mk y t₁ =>
      rw [hf, hg] at hanswer hafter
      cases hanswer with
      | ok hab => exact ⟨.ok hab, hwith s t s₁ t₁ hst hafter⟩
      | error e => exact ⟨.error _, hwith s t s₁ t₁ hst hafter⟩

omit [Connection σ] [Connection τ] in
theorem inStep_parallel {Q : α → β → Prop} {f : Storage.Action σ Failure α}
    {g : Storage.Action τ Failure β} (h : InStep (Storage.Parallel R o.layout) Q f g) :
    InStep (Parallel R o) Q (withStorage f) (withStorage g) :=
  inStep_withStorage (fun _ _ hst => hst.storage)
    (fun _ _ _ _ hst hstorage => { hst with storage := hstorage }) h

variable (hR : Connection.Parallel R)
include hR

/-- A lookup reads the identifier, which is the same in both rows. -/
theorem inStep_lookup (hrow : o.fields.Agree row row') {kind : StatementKind}
    (hkind : kind = .latest ∨ kind = .active) (instant : Option Instant) :
    InStep (Parallel R o) Eq (withStorage (Storage.select kind { row, instant }))
      (withStorage (Storage.select kind { row := row', instant })) := by
  refine inStep_parallel (Storage.inStep_select Storage.follows_parallel hR fun st hst => ?_)
  exact Layout.bind_lookup hkind hst (fun name hname => hrow.of_mem hname nofun) instant

/-- **Rows that agree are judged the same.** -/
theorem inStep_judge (hrow : o.fields.Agree row row') (now : Instant) :
    InStep (Parallel R o) Eq (judge row now) (judge row' now) := by
  refine (inStep_lookup hR hrow (.inr rfl) (some now)).bind fun found _ hfound => ?_
  subst hfound
  cases found with
  | some active =>
    refine inStep_get_bind fun s t h => ?_
    rw [h.options, h.options', hrow.againstActive]
    cases o.fields.againstActive row active with
    | ok outcome => exact inStep_pure rfl
    | error e => exact inStep_throw _
  | none =>
    refine (inStep_lookup hR hrow (.inl rfl) none).bind fun latest _ hlatest => ?_
    subst hlatest
    exact inStep_pure rfl

omit [Connection τ] hR in
/-- The last part of the work on a row. -/
def writeOut (o : Options) (outcome : Outcome) (reason : Option SkipReason) (now : Instant) (row : Row) :
    Action σ RowResult := do
  let row := stamped o (← get).validTo outcome now row
  let mutation := Mutation.ofStatus o.names.tracksLastSeen outcome.status
  if mutation.writes then
    modify fun s => { s with storage := s.storage.backUp row }
  withStorage (Storage.apply mutation row)
  return resultOf o.names outcome reason row

/-- Two results that tell the same of a row each. -/
def SameTold (o : Options) (row row' : Row) (r r' : RowResult) : Prop :=
  ∃ horizon outcome reason now,
    r = resultOf o.names outcome reason (stamped o horizon outcome now row) ∧
    r' = resultOf o.names outcome reason (stamped o horizon outcome now row')

omit hR in
/-- A row is stamped and written, in any relation that survives the parts of it. -/
theorem inStep_stamped {P : Session σ → Session τ → Prop} {outcome : Outcome} {now : Instant}
    (hvalidTo : ∀ s t, P s t → t.validTo = s.validTo)
    (hbackUp : ∀ horizon s t, P s t →
      P { s with storage := s.storage.backUp (stamped o horizon outcome now row) }
        { t with storage := t.storage.backUp (stamped o horizon outcome now row') })
    (happly : ∀ horizon, InStep P Eq
      (withStorage (Storage.apply (Mutation.ofStatus o.names.tracksLastSeen outcome.status)
        (stamped o horizon outcome now row)))
      (withStorage (Storage.apply (Mutation.ofStatus o.names.tracksLastSeen outcome.status)
        (stamped o horizon outcome now row')))) (reason : Option SkipReason) :
    InStep P (SameTold o row row') (writeOut o outcome reason now row)
      (writeOut o outcome reason now row') := by
  refine inStep_get_bind fun s t h => ?_
  rw [hvalidTo s t h]
  dsimp only
  have hend : InStep P (SameTold o row row')
      (do withStorage (Storage.apply (Mutation.ofStatus o.names.tracksLastSeen outcome.status)
            (stamped o s.validTo outcome now row))
          pure (resultOf o.names outcome reason (stamped o s.validTo outcome now row)))
      (do withStorage (Storage.apply (Mutation.ofStatus o.names.tracksLastSeen outcome.status)
            (stamped o s.validTo outcome now row'))
          pure (resultOf o.names outcome reason (stamped o s.validTo outcome now row'))) :=
    (happly s.validTo).bind fun _ _ _ => inStep_pure ⟨s.validTo, outcome, reason, now, rfl, rfl⟩
  split
  · exact (inStep_modify (hbackUp s.validTo)).bind fun _ _ _ => hend
  · exact hend

theorem inStep_writeOut (hrow : o.fields.Agree row row') (outcome : Outcome) (reason : Option SkipReason)
    (now : Instant) :
    InStep (Parallel R o) (SameTold o row row') (writeOut o outcome reason now row)
      (writeOut o outcome reason now row') := by
  refine inStep_stamped (fun _ _ h => h.validTo) (fun horizon _ _ h => ?_) (fun horizon => ?_) reason
  · exact { h with storage := h.storage.backUp (stamped_alike hrow horizon outcome now) }
  · exact inStep_parallel (Storage.inStep_apply Storage.follows_parallel hR
      fun _ _ _ hst => (stamped_alike hrow horizon outcome now).bind hst)

/-- **Rows that agree are written the same.** -/
theorem inStep_apply (hrow : o.fields.Agree row row') (forced : Option RowStatus) (now : Instant) :
    InStep (Parallel R o) (SameTold o row row') (apply row forced now) (apply row' forced now) := by
  refine inStep_get_bind fun s t h => ?_
  rw [h.options, h.options']
  dsimp only
  rw [missing_congr fun name hname => hrow.of_mem hname nofun]
  cases missingIdentifier? o row with
  | some name => exact fun s t h => ⟨.error _, h⟩
  | none =>
    refine (inStep_judge hR hrow now).bind fun natural _ hnatural => ?_
    subst hnatural
    generalize force forced natural = forcing
    obtain ⟨outcome, reason⟩ := forcing
    cases reason with
    | none => exact inStep_writeOut hR hrow outcome none now
    | some reason =>
      exact (inStep_modify fun _ _ h => h.logged _ _).bind fun _ _ _ =>
        inStep_writeOut hR hrow outcome (some reason) now

/-! ## 4. Calls -/

theorem Parallel.close (h : Parallel R o s t) :
    t.close.1 = s.close.1 ∧ Parallel R o s.close.2 t.close.2 := by
  obtain ⟨hanswer, hstorage⟩ := h.storage.close hR
  unfold Session.close
  rw [h.isOpen]
  split
  · exact ⟨congrArg (Except.mapError Failure.storage) hanswer,
      { h with storage := hstorage.logged _ _, isOpen := rfl }⟩
  · exact ⟨rfl, h⟩

theorem Parallel.abort (h : Parallel R o s t) (e : Failure) : Parallel R o (s.abort e) (t.abort e) :=
  ((h.logged _ _).close hR).2

omit [Connection σ] [Connection τ] hR in
/-- Of one row they tell the same. -/
theorem SameTold.eq {r r' : RowResult} (h : SameTold o row row r r') : r' = r := by
  obtain ⟨horizon, outcome, reason, now, rfl, rfl⟩ := h
  rfl

omit [Connection τ] hR in
theorem processRow_open (hopen : s.isOpen = true) (row : Row) (forced : Option RowStatus) :
    s.processRow row forced = match (apply row forced s.clock.next).run.run s.tick.2 with
      | (.ok result, s) => (.ok (some result), s.counted (·.record result.status))
      | (.error e, s) => s.recover e := by
  unfold processRow
  rw [if_pos hopen]
  rfl

/-- The work on a row at the next tick. -/
theorem Parallel.applied (h : Parallel R o s t) (hrow : o.fields.Agree row row')
    (forced : Option RowStatus) :
    let work := (apply row forced s.clock.next).run.run s.tick.2
    let work' := (apply row' forced t.clock.next).run.run t.tick.2
    Matching (SameTold o row row') work.1 work'.1 ∧ Parallel R o work.2 work'.2 := by
  rw [h.clock.next]
  exact inStep_apply hR hrow forced s.clock.next _ _ h.tick

/-- **A row that succeeds on one side succeeds on the other**, even if no new connection could be
opened there. -/
theorem Parallel.processRow_ok (h : Parallel R o s t) (hrow : o.fields.Agree row row')
    {forced : Option RowStatus} {result : RowResult} {s₁ : Session σ}
    (hrun : s.processRow row forced = (.ok (some result), s₁)) :
    ∃ result' t₁, t.processRow row' forced = (.ok (some result'), t₁) ∧
      SameTold o row row' result result' ∧ Parallel R o s₁ t₁ := by
  have hopen : s.isOpen = true := by
    cases hopen : s.isOpen with
    | true => rfl
    | false =>
      unfold processRow at hrun
      rw [hopen] at hrun
      cases hrun
  obtain ⟨hanswer, hafter⟩ := h.applied hR hrow forced
  rw [processRow_open hopen] at hrun
  rw [processRow_open (h.isOpen.trans hopen)]
  cases hs : (apply row forced s.clock.next).run.run s.tick.2 with
  | mk x s₂ =>
    cases ht : (apply row' forced t.clock.next).run.run t.tick.2 with
    | mk y t₂ =>
      rw [hs] at hanswer hafter hrun
      rw [ht] at hanswer hafter
      cases hanswer with
      | ok htold =>
        cases hrun
        have htold' := htold
        obtain ⟨_, _, _, _, rfl, rfl⟩ := htold'
        exact ⟨_, _, rfl, htold, hafter.counted _⟩
      | error e =>
        change s₂.recover e = _ at hrun
        rw [recover_eq] at hrun
        split at hrun <;> cases hrun

/-- **A run in which every row gets a result** gives the same results on the other side. -/
theorem Parallel.run_told (h : Parallel R o s t) {calls : List Operation}
    (htold : ∀ reply ∈ (s.run calls).1, reply.result?.isSome = true) :
    (t.run calls).1 = (s.run calls).1 ∧ Parallel R o (s.run calls).2 (t.run calls).2 := by
  induction calls generalizing s t with
  | nil => exact ⟨rfl, h⟩
  | cons call calls ih =>
    rw [run_cons] at htold
    obtain ⟨hhead, htail⟩ := List.forall_mem_cons.mp htold
    obtain ⟨row, forced, result, s₁, rfl, hrun⟩ := processAs_of_result hhead
    obtain ⟨hp, hrun'⟩ := processRow_of_result hrun
    obtain ⟨result', t₁, hrun₂, htold₂, hafter⟩ := h.processRow_ok hR (.refl _ row) hrun'
    have hsame : result' = result := htold₂.eq
    rw [hsame, ← processAs_permitted hp] at hrun₂
    rw [answer_row hrun] at htail
    obtain ⟨hreplies, hend⟩ := ih hafter htail
    rw [run_cons, run_cons, answer_row hrun, answer_row hrun₂]
    exact ⟨congrArg _ hreplies, hend⟩

variable (hnew : Connection.Reconnects R)
include hnew

/-- What two sessions answer for a row each: the same of both rows, or the same failure. -/
def Answers (o : Options) (row row' : Row) :
    Except Failure (Option RowResult) → Except Failure (Option RowResult) → Prop :=
  Matching (Option.Rel (SameTold o row row'))

theorem Parallel.recover (h : Parallel R o s t) (e : Failure) :
    Answers o row row' (s.recover e).1 (t.recover e).1 ∧ Parallel R o (s.recover e).2 (t.recover e).2 := by
  obtain ⟨hanswer, hstorage⟩ := h.storage.rollback hR hnew e
  have hback : Parallel R o { s with storage := (s.storage.rollback e).2 }
      { t with storage := (t.storage.rollback e).2 } := { h with storage := hstorage }
  rw [recover_eq, recover_eq, hanswer]
  split
  · exact ⟨.ok .none, hback.logged _ _⟩
  · exact ⟨.error e, hback.abort hR e⟩

theorem Parallel.processRow (h : Parallel R o s t) (hrow : o.fields.Agree row row')
    (forced : Option RowStatus) :
    Answers o row row' (s.processRow row forced).1 (t.processRow row' forced).1 ∧
      Parallel R o (s.processRow row forced).2 (t.processRow row' forced).2 := by
  cases hopen : s.isOpen with
  | false =>
    unfold Session.processRow
    rw [h.isOpen, hopen]
    exact ⟨.error _, h⟩
  | true =>
    obtain ⟨hanswer, hafter⟩ := h.applied hR hrow forced
    rw [processRow_open hopen, processRow_open (h.isOpen.trans hopen)]
    cases hs : (apply row forced s.clock.next).run.run s.tick.2 with
    | mk x s₁ =>
      cases ht : (apply row' forced t.clock.next).run.run t.tick.2 with
      | mk y t₁ =>
        rw [hs, ht] at hanswer hafter
        cases hanswer with
        | ok htold =>
          have htold' := htold
          obtain ⟨_, _, _, _, rfl, rfl⟩ := htold'
          exact ⟨.ok (.some htold), hafter.counted _⟩
        | error e => exact hafter.recover hR hnew e

/-- **A call with rows that agree** is answered the same. -/
theorem Parallel.processAs (h : Parallel R o s t) (hrow : o.fields.Agree row row')
    (forced : Option RowStatus) :
    Answers o row row' (s.processAs row forced).1 (t.processAs row' forced).1 ∧
      Parallel R o (s.processAs row forced).2 (t.processAs row' forced).2 := by
  by_cases hp : Permitted forced
  · rw [processAs_permitted hp, processAs_permitted hp]
    exact h.processRow hR hnew hrow forced
  · cases hopen : s.isOpen with
    | false =>
      rw [processAs_closed hopen, processAs_closed (h.isOpen.trans hopen)]
      exact ⟨.error _, h⟩
    | true =>
      cases forced with
      | none => exact absurd (.inl rfl) hp
      | some status =>
        rw [processAs_status hp hopen, processAs_status hp (h.isOpen.trans hopen)]
        exact ⟨.error _, h.abort hR _⟩

theorem Parallel.failWith (h : Parallel R o s t) (e : StorageError) :
    (t.failWith e : Except Failure α × Session τ).1 = (s.failWith e : Except Failure α × Session σ).1 ∧
      Parallel R o (s.failWith e : Except Failure α × Session σ).2
        (t.failWith e : Except Failure α × Session τ).2 := by
  obtain ⟨-, hstorage⟩ := h.storage.rollback hR hnew (.storage e)
  have hback : Parallel R o { s with storage := (s.storage.rollback (.storage e)).2 }
      { t with storage := (t.storage.rollback (.storage e)).2 } := { h with storage := hstorage }
  exact ⟨rfl, hback.abort hR (.storage e)⟩

theorem Parallel.purge (h : Parallel R o s t) :
    t.purge.1 = s.purge.1 ∧ Parallel R o s.purge.2 t.purge.2 := by
  cases htracks : o.names.tracksLastSeen with
  | false =>
    unfold Session.purge
    rw [h.options, h.options', htracks]
    exact ⟨rfl, h⟩
  | true =>
    cases hopen : s.isOpen with
    | false =>
      unfold Session.purge
      rw [h.options, h.options', h.isOpen, hopen, htracks]
      exact ⟨rfl, h⟩
    | true =>
      have hpurging : Parallel R o s.purging t.purging := h.tick.logged _ _
      obtain ⟨hanswer, hstorage⟩ := Storage.inStep_purge Storage.follows_parallel hR s.start s.clock.next
        o.purgeWhere _ _ hpurging.storage
      rw [purge_eq hopen (h.options ▸ htracks), purge_eq (h.isOpen.trans hopen) (h.options' ▸ htracks),
        h.options, h.options', h.start, h.clock.next]
      cases hs : (Storage.purge s.start s.clock.next o.purgeWhere).run.run s.purging.storage with
      | mk x s₁ =>
        cases ht : (Storage.purge s.start s.clock.next o.purgeWhere).run.run t.purging.storage with
        | mk y t₁ =>
          rw [hs, ht] at hanswer hstorage
          obtain rfl := hanswer.eq
          have hnext : Parallel R o { s.purging with storage := s₁ } { t.purging with storage := t₁ } :=
            { hpurging with storage := hstorage }
          cases y with
          | ok closed => exact ⟨rfl, (hnext.logged _ _).counted _⟩
          | error e => exact (hnext.logged _ _).failWith hR hnew e

theorem Parallel.commitAndClose (h : Parallel R o s t) :
    t.commitAndClose.1 = s.commitAndClose.1 ∧ Parallel R o s.commitAndClose.2 t.commitAndClose.2 := by
  obtain ⟨hanswer, hstorage⟩ := Storage.inStep_commit Storage.follows_parallel hR _ _ h.storage
  unfold Session.commitAndClose
  cases hs : Storage.commit.run.run s.storage with
  | mk x s₁ =>
    cases ht : Storage.commit.run.run t.storage with
    | mk y t₁ =>
      rw [hs, ht] at hanswer hstorage
      obtain rfl := hanswer.eq
      have hnext : Parallel R o { s with storage := s₁ } { t with storage := t₁ } :=
        { h with storage := hstorage }
      cases y with
      | ok _ => exact (hnext.logged _ _).close hR
      | error e => exact hnext.failWith hR hnew e

theorem Parallel.finish (h : Parallel R o s t) :
    t.finish.1 = s.finish.1 ∧ Parallel R o s.finish.2 t.finish.2 := by
  unfold Session.finish
  rw [h.isOpen, h.options, h.options']
  split
  · exact ⟨rfl, h⟩
  · split
    · obtain ⟨hanswer, hafter⟩ := h.purge hR hnew
      cases hs : s.purge with
      | mk x s₁ =>
        cases ht : t.purge with
        | mk y t₁ =>
          rw [hs, ht] at hanswer hafter
          obtain rfl : y = x := hanswer
          cases y with
          | ok n => exact hafter.commitAndClose hR hnew
          | error e => exact ⟨rfl, hafter⟩
    · exact h.commitAndClose hR hnew

omit [Connection σ] [Connection τ] hR hnew in
theorem Parallel.setRecovery (h : Parallel R o s t) {r r' : Recovery Failure}
    (hsame : Recovery.Alike o.layout r r') :
    (t.setRecovery r').1 = (s.setRecovery r).1 ∧ Parallel R o (s.setRecovery r).2 (t.setRecovery r').2 := by
  have hset : Parallel R o { s with storage := { s.storage with recovery := some r } }
      { t with storage := { t.storage with recovery := some r' } } :=
    { h with storage := { h.storage with recovery := .some hsame } }
  unfold Session.setRecovery
  by_cases hopen : s.isOpen = true
  · rw [if_pos hopen, if_pos (h.isOpen.trans hopen)]
    exact ⟨rfl, hset⟩
  · rw [if_neg hopen, if_neg (h.isOpen ▸ hopen)]
    exact ⟨rfl, h⟩

omit [Connection σ] [Connection τ] hR hnew in
theorem Answers.alike {x y : Except Failure (Option RowResult)} (h : Answers o row row' x y) :
    Reply.Alike (.row x) (.row y) := by
  cases h with
  | error e => exact .same _
  | ok hab =>
    cases hab with
    | none => exact .same _
    | some htold =>
      obtain ⟨horizon, outcome, reason, now, rfl, rfl⟩ := htold
      exact .told (resultOf_alike o horizon outcome reason now row row')

/-- **Calls that ask the same** are answered alike, and the sessions stay side by side. -/
theorem Parallel.answer (h : Parallel R o s t) {call call' : Operation}
    (hcall : Operation.Alike o.layout call call') :
    Reply.Alike (s.answer call).1 (t.answer call').1 ∧
      Parallel R o (s.answer call).2 (t.answer call').2 := by
  cases hcall with
  | row forced hrow =>
    obtain ⟨hanswer, hafter⟩ := h.processAs hR hnew hrow forced
    exact ⟨hanswer.alike, hafter⟩
  | purge =>
    obtain ⟨hanswer, hafter⟩ := h.purge hR hnew
    exact ⟨.of_eq (congrArg Reply.purge hanswer), hafter⟩
  | finish =>
    obtain ⟨hanswer, hafter⟩ := h.finish hR hnew
    exact ⟨.of_eq (congrArg Reply.ended hanswer), hafter⟩
  | close =>
    obtain ⟨hanswer, hafter⟩ := h.close hR
    exact ⟨.of_eq (congrArg Reply.ended hanswer), hafter⟩
  | recovery hsame =>
    obtain ⟨hanswer, hafter⟩ := h.setRecovery hsame
    exact ⟨.of_eq (congrArg Reply.recovery hanswer), hafter⟩

theorem Parallel.run (h : Parallel R o s t) {calls calls' : List Operation}
    (hcalls : List.Forall₂ (Operation.Alike o.layout) calls calls') :
    List.Forall₂ Reply.Alike (s.run calls).1 (t.run calls').1 ∧
      Parallel R o (s.run calls).2 (t.run calls').2 := by
  induction hcalls generalizing s t with
  | nil => exact ⟨.nil, h⟩
  | cons hcall _ ih =>
    obtain ⟨hreply, hafter⟩ := h.answer hR hnew hcall
    obtain ⟨hreplies, hend⟩ := ih hafter
    exact ⟨.cons hreply hreplies, hend⟩

end Session

/-! ## 5. Fields that are not used -/

namespace Session

variable {σ : Type} [Connection σ]

/-- What a session is when it was opened. -/
theorem begin_eq {o : Options} {clock : Clock} {id : String} {c : σ} {s : Session σ}
    (h : begin o clock id c = .ok s) :
    ∃ c₁ entry, Connection.perform .connect c = (.ok (), c₁) ∧
      prepare o clock = .ok (s.start, s.clock, s.validTo) ∧
      s = { options := o, clock := s.clock, start := s.start, validTo := s.validTo,
            storage := { layout := o.layout, connection := c₁, batch := Batch.ofSize o.commitSize,
                         session := id, log := [entry] } } := by
  unfold begin at h
  split at h
  · cases h
  · rename_i hprepare
    unfold Storage.connect at h
    split at h
    · cases h
    · rename_i hconnect
      split at hconnect
      · rename_i hperform
        cases hconnect
        cases h
        exact ⟨_, _, hperform, hprepare, rfl⟩
      · cases hconnect

/-- Two sessions that were opened on databases which answer alike, with clocks that do. -/
theorem parallel_begin {τ : Type} [Connection τ] {R : σ → τ → Prop} {o : Options} {clock clock' : Clock}
    {id id' : String} {c : σ} {d : τ} {s : Session σ} {t : Session τ}
    (hs : begin o clock id c = .ok s) (ht : begin o clock' id' d = .ok t)
    (hR : R s.storage.connection t.storage.connection) (hclock : s.clock.Alike t.clock)
    (hstart : t.start = s.start) (hvalidTo : t.validTo = s.validTo) : Parallel R o s t := by
  obtain ⟨c₁, entry, -, -, hs⟩ := begin_eq hs
  obtain ⟨d₁, entry', -, -, ht⟩ := begin_eq ht
  rw [hs] at hR hclock hstart hvalidTo ⊢
  rw [ht] at hR hclock hstart hvalidTo ⊢
  have hcached : ∀ kind st, List.lookup kind [] = some st → o.layout.statement kind = .ok st :=
    fun _ _ hlookup => by cases hlookup
  exact ⟨rfl, rfl, ⟨⟨rfl, rfl, hR, rfl, rfl, hcached, rfl, rfl⟩, .nil, .none⟩, rfl, rfl, hclock, hstart,
    hvalidTo⟩

variable [Transactional σ]

/-- **Fields that are ignored or not classified are invisible**, bookkeeping names included: two runs
whose rows agree elsewhere get the same answers and the same errors, and after every call the tables
are the same, the one that the session sees and the one that was committed. -/
theorem unused_fields_invisible {o : Options} {clock : Clock} {id : String} {c : σ} {s₀ : Session σ}
    (hbegin : begin o clock id c = .ok s₀) {calls calls' : List Operation}
    (hcalls : List.Forall₂ (Operation.Alike o.layout) calls calls') :
    List.Forall₂ Reply.Alike (s₀.run calls).1 (s₀.run calls').1 ∧
    ∀ n, (s₀.run (calls'.take n)).2.working = (s₀.run (calls.take n)).2.working ∧
      (s₀.run (calls'.take n)).2.durable = (s₀.run (calls.take n)).2.durable := by
  have hstart : Parallel Eq o s₀ s₀ := parallel_begin hbegin hbegin rfl (.refl _) rfl rfl
  refine ⟨(hstart.run Connection.parallel_eq Connection.reconnects_eq hcalls).1, fun n => ?_⟩
  obtain ⟨-, hend⟩ := hstart.run Connection.parallel_eq Connection.reconnects_eq (List.forall₂_take n hcalls)
  have hdurable : (s₀.run (calls'.take n)).2.durable = (s₀.run (calls.take n)).2.durable :=
    congrArg Transactional.durable hend.storage.connection.symm
  refine ⟨?_, hdurable⟩
  unfold working Storage.working
  rw [hend.storage.held, hend.storage.connection]
  exact congrArg (if (s₀.run (calls.take n)).2.storage.held then _ else ·) hdurable

end Session

/-- Whether two rows agree can be decided. -/
instance (c : Classification) (row row' : Row) : Decidable (c.Agree row row') :=
  inferInstanceAs (Decidable (∀ f ∈ c.fields, f.kind ≠ .ignore → row'.value f.name = row.value f.name))

namespace Sample

/-- A customer with a note and with bookkeeping of its own. -/
def annotated (row : Row) : Row :=
  ((row.set "note" (.text "by phone")).set "version" (.text "last")).set "dateTo" (.bool true)

/-- A customer comes, changes its name, is confirmed, and all that was not seen is purged. -/
def arrivals (f : Row → Row) : List Operation :=
  [.row (f (customer 1 "Ann" "Ulm")) none, .row (f (customer 1 "Anna" "Ulm")) none,
    .row (f (customer 1 "Anna" "Bonn")) (some .identical), .row (f (customer 2 "Bo" "Ulm")) none,
    .purge, .finish]

end Sample

/-- Rows with bookkeeping of their own leave the same versions as rows without it. -/
theorem noted_customers_invisible :
    ∃ s₀ : Session (Traced Store),
      Session.begin Sample.options Sample.clock "sample" (Sample.store []) = .ok s₀ ∧
      (s₀.run (Sample.arrivals id)).2.durable.tables.map (·.rows.length) = [3] ∧
      List.Forall₂ Reply.Alike (s₀.run (Sample.arrivals id)).1 (s₀.run (Sample.arrivals Sample.annotated)).1 ∧
      (s₀.run (Sample.arrivals Sample.annotated)).2.durable = (s₀.run (Sample.arrivals id)).2.durable := by
  have hcheck : okAnd (Session.begin Sample.options Sample.clock "sample" (Sample.store [])) (fun s₀ =>
      (s₀.run (Sample.arrivals id)).2.storage.connection.inner.file.content.tables.map (·.rows.length) =
        [3]) = true := by
    rw [Store.connection_eq Sample.options]
    decide +kernel
  obtain ⟨s₀, hbegin, hs₀⟩ := exists_of_okAnd hcheck
  have hcalls : List.Forall₂ (Operation.Alike Sample.options.layout) (Sample.arrivals id)
      (Sample.arrivals Sample.annotated) :=
    .cons (.row none (by decide +kernel)) (.cons (.row none (by decide +kernel))
      (.cons (.row _ (by decide +kernel)) (.cons (.row none (by decide +kernel))
        (.cons .purge (.cons .finish .nil)))))
  obtain ⟨hreplies, htables⟩ := Session.unused_fields_invisible hbegin hcalls
  exact ⟨s₀, hbegin, of_decide_eq_true hs₀, hreplies, (htables 6).2⟩

end RowHistory
