import RowHistory.Proofs.Connection.Store

/-!
# Connections that nobody disturbs

Any request may fail while others use the database. On a database that nobody else uses, a request
fails only because of its statement. This file fixes

* the connections of which that is true (`Steady`);
* that a store in a file that is not shared is such a one, and so is a traced connection around it
  on which no call is made to fail.
-/

namespace RowHistory

open Sql (Access Answer Cell Command Database Hold Link Plan SqlError)

/-- A connection whose requests fail only because of their statements. -/
class Steady (σ : Type) [Connection σ] [Transactional σ] where
  /-- Nobody else uses the database, which can be opened and written. -/
  Free : σ → Prop
  sound {c : σ} : Free c → Transactional.Sound c
  free_perform {α : Type} (r : Request α) {c : σ} : Free c → Free (Connection.perform r c).2
  connect_free {c : σ} : Free c →
    ∃ c', Connection.perform .connect c = (.ok (), c') ∧ Connection.isOpen c' = true
  /-- A statement of a layout that would succeed can be prepared. -/
  prepare_free {l : Layout} {kind : StatementKind} {st : Statement} {supplied : List Cell}
      {r : Answer × Database} {c : σ} : Free c → Connection.isOpen c = true →
    l.statement kind = .ok st → (Transactional.working c).perform st.sql supplied = .ok r →
    ∃ c', Connection.perform (.prepare st) c = (.ok (), c') ∧ Connection.isOpen c' = true
  query_free {l : Layout} {kind : StatementKind} {st : Statement} {values : List Value}
      {answer : Answer} {db : Database} {c : σ} : Free c → Connection.isOpen c = true →
    l.statement kind = .ok st →
    (Transactional.working c).perform st.sql (cellsOf values) = .ok (answer, db) →
    ∃ c', Connection.perform (.query st values) c = (.ok answer.row?, c') ∧
      Connection.isOpen c' = true
  execute_free {l : Layout} {kind : StatementKind} {st : Statement} {values : List Value} {n : Nat}
      {db : Database} {c : σ} : Free c → Connection.isOpen c = true → l.statement kind = .ok st →
    (Transactional.working c).perform st.sql (cellsOf values) = .ok (.changed n, db) →
    ∃ c', Connection.perform (.execute st values) c = (.ok n, c') ∧ Connection.isOpen c' = true
  /-- A purge that would succeed can be prepared and run. -/
  preparePurge_free {l : Layout} {condition : Option String} {st : Statement} {supplied : List Cell}
      {r : Answer × Database} {c : σ} : Free c → Connection.isOpen c = true →
    l.purge condition = .ok st → l.purged (Transactional.judge σ) condition st.sql supplied
      (Transactional.working c) = some r →
    ∃ c', Connection.perform (.prepare st) c = (.ok (), c') ∧ Connection.isOpen c' = true
  purge_free {l : Layout} {condition : Option String} {st : Statement} {values : List Value} {n : Nat}
      {db : Database} {c : σ} : Free c → Connection.isOpen c = true → l.purge condition = .ok st →
    l.purged (Transactional.judge σ) condition st.sql (cellsOf values) (Transactional.working c) =
      some (.changed n, db) →
    ∃ c', Connection.perform (.execute st values) c = (.ok n, c') ∧ Connection.isOpen c' = true
  commit_free {c : σ} : Free c → Connection.isOpen c = true →
    ∃ c', Connection.perform .commit c = (.ok (), c') ∧ Connection.isOpen c' = true
  close_free {c : σ} : Free c → Connection.isOpen c = true →
    ∃ c', Connection.perform .close c = (.ok (), c')

/-! ## 1. Access -/

namespace Sql.Access

variable {a : Access}

/-- Nobody else uses the file, and the link may write. -/
structure Alone (a : Access) : Prop where
  outside : a.file.outside = .none
  foreign : a.file.foreign = false
  writable : a.link.readOnly = false

theorem begin_alone (ha : a.Alone) : a.begin.Alone := by
  unfold begin
  split <;> exact ⟨ha.outside, ha.foreign, ha.writable⟩

theorem counted_alone {p : Plan} {n : Nat} (ha : a.Alone) : (a.counted p n).Alone := by
  unfold counted
  split <;> exact ⟨ha.outside, ha.foreign, ha.writable⟩

theorem inform_alone (ha : a.Alone) : ∃ a', a.inform = .ok a' ∧ a'.Alone := by
  unfold inform
  rw [ha.foreign, ha.outside]
  split
  · exact ⟨a, rfl, ha⟩
  · exact ⟨_, rfl, ha.outside, ha.foreign, ha.writable⟩

/-- What is planned is what the view gives, whatever else comes of it. -/
theorem plan_alone (ha : a.Alone) (c : Command) : ∃ a', a.plan c = (a.view.plan c, a') ∧ a'.Alone := by
  unfold plan
  split
  · obtain ⟨a', hinform, ha'⟩ := inform_alone ha
    rw [hinform, ← (inform_ok hinform).2]
    exact ⟨a', rfl, ha'⟩
  · exact ⟨a, rfl, ha⟩

theorem lockFor_alone (ha : a.Alone) (p : Plan) : ∃ a', a.lockFor p = .ok a' ∧ a'.Alone := by
  unfold lockFor
  split
  · unfold lockReserved
    rw [ha.writable, ha.outside]
    split
    · exact ⟨a, rfl, ha⟩
    · exact ⟨_, rfl, ha.outside, ha.foreign, ha.writable⟩
  · split
    · unfold lockShared
      rw [ha.outside]
      split
      · exact ⟨a, rfl, ha⟩
      · exact ⟨a, rfl, ha⟩
      · exact ⟨_, rfl, ha.outside, ha.foreign, ha.writable⟩
    · exact ⟨a, rfl, ha⟩

theorem run_alone (ha : a.Alone) (supplied : List Cell) (p : Plan) :
    ∃ a', a.run supplied p = ((p.run supplied a.view).map Prod.fst, a') ∧ a'.Alone := by
  obtain ⟨b, hlock, hb⟩ := lockFor_alone ha p
  have hview := (lockFor_ok hlock).2
  unfold run
  rw [hlock]
  dsimp only
  rw [hview]
  cases hrun : p.run supplied a.view with
  | error e => exact ⟨_, rfl, counted_alone hb⟩
  | ok r =>
    obtain ⟨answer, db⟩ := r
    have hnew : (if p.writes then b.withHold (.writing db) else b).Alone := by
      split
      · exact ⟨hb.outside, hb.foreign, hb.writable⟩
      · exact hb
    cases answer with
    | changed n => exact ⟨_, rfl, counted_alone hnew⟩
    | done => exact ⟨_, rfl, hnew⟩
    | row entries => exact ⟨_, rfl, hnew⟩

/-- **A statement on a link that is alone gives what its view gives.** -/
theorem perform_alone (ha : a.Alone) (sql : String) (supplied : List Cell) :
    ∃ a', a.perform sql supplied = ((a.view.perform sql supplied).map Prod.fst, a') ∧ a'.Alone := by
  have hbegin := begin_alone ha
  unfold perform Database.perform
  cases Command.read sql with
  | error e => exact ⟨_, rfl, hbegin⟩
  | ok r =>
    dsimp only
    obtain ⟨b, hplan, hb⟩ := plan_alone hbegin r.command
    rw [view_begin] at hplan
    rw [hplan]
    have hview := (plan_cases hplan).2.1
    rw [view_begin] at hview
    cases hp : a.view.plan r.command with
    | error e => exact ⟨b, rfl, hb⟩
    | ok p =>
      dsimp only
      split
      · obtain ⟨b', hrun, hb'⟩ := run_alone hb supplied p
        exact ⟨b', by rw [hrun, hview], hb'⟩
      · exact ⟨b, rfl, hb⟩

/-- A statement that would succeed can be prepared, and the link stays alone in any case. -/
theorem prepare_alone (ha : a.Alone) (sql : String) :
    (a.prepare sql).2.Alone ∧ ∀ supplied r, a.view.perform sql supplied = .ok r →
      (a.prepare sql).1 = .ok () := by
  unfold prepare Database.perform
  cases Command.read sql with
  | error e => exact ⟨ha, fun _ _ h => by cases h⟩
  | ok reading =>
    dsimp only
    obtain ⟨b, hplan, hb⟩ := plan_alone ha reading.command
    rw [hplan]
    cases hp : a.view.plan reading.command with
    | error e => exact ⟨hb, fun _ _ h => by cases h⟩
    | ok p => exact ⟨hb, fun _ _ _ => rfl⟩

theorem commit_alone (ha : a.Alone) : ∃ a', a.commit = (.ok (), a') ∧ a'.Alone := by
  unfold commit
  rw [ha.outside]
  split
  · exact ⟨_, rfl, ha.outside, ha.foreign, ha.writable⟩
  · exact ⟨_, rfl, ha.outside, ha.foreign, ha.writable⟩

end Sql.Access

/-! ## 2. Stores -/

namespace Store

/-- A store in a file that nobody else uses, which can be opened and written. -/
structure Unshared (s : Store) : Prop where
  lasting : s.Lasting
  reachable : s.reachable = true
  writable : s.readOnly = false
  outside : s.file.outside = .none
  foreign : s.file.foreign = false
  link : ∀ link, s.link = some link → link.readOnly = false

variable {s : Store}

theorem Unshared.alone {link : Link} (hs : s.Unshared) (hlink : s.link = some link) :
    (Access.mk s.file link).Alone :=
  ⟨hs.outside, hs.foreign, hs.link link hlink⟩

theorem Unshared.withAccess {a : Access} (hs : s.Unshared) (ha : a.Alone) :
    (s.withAccess a).Unshared :=
  ⟨hs.lasting, hs.reachable, hs.writable, ha.outside, ha.foreign, fun _ h => by cases h; exact ha.writable⟩

theorem Unshared.disconnected (hs : s.Unshared) : s.disconnected.Unshared := by
  have hfile := file_disconnected hs.lasting
  exact ⟨hs.lasting, hs.reachable, hs.writable, by rw [hfile, hs.outside], by rw [hfile, hs.foreign],
    fun _ h => by cases h⟩

theorem connect_unshared (hs : s.Unshared) :
    s.connect = (.ok (), { s.disconnected with link := some {} }) := by
  have hreachable : s.disconnected.reachable = true := hs.reachable
  have hwritable : s.disconnected.readOnly = false := hs.writable
  have hinit : s.disconnected.initSql = none := hs.lasting.2
  simp only [connect, link?, hreachable, hwritable, ↓reduceIte, hinit]

/-- What is done with the connection keeps the store unshared if it keeps the link alone. -/
theorem withLink_unshared {α : Type} {f : Access → Except StorageError α × Access} (hs : s.Unshared)
    (hf : ∀ a : Access, a.Alone → (f a).2.Alone) : (s.withLink f).2.Unshared := by
  unfold withLink
  split
  · exact hs
  · rename_i link hlink
    exact hs.withAccess (hf _ (hs.alone hlink))

theorem withLink_some {α : Type} {f : Access → Except StorageError α × Access} {link : Link}
    (hlink : s.link = some link) :
    s.withLink f = ((f ⟨s.file, link⟩).1, s.withAccess (f ⟨s.file, link⟩).2) := by
  simp only [withLink, hlink]

theorem query_alone {a : Access} (ha : a.Alone) (st : Statement) (values : List Value) :
    (query st values a).2.Alone ∧ ∀ answer db,
      a.view.perform st.sql (cellsOf values) = .ok (answer, db) →
        (query st values a).1 = .ok answer.row? := by
  obtain ⟨a', hperf, ha'⟩ := Access.perform_alone ha st.sql (cellsOf values)
  have hperf' : a.perform st.sql (values.map Cell.ofValue) = _ := hperf
  unfold query
  rw [hperf']
  cases hview : a.view.perform st.sql (cellsOf values) with
  | error e => exact ⟨ha', fun _ _ h => by cases h⟩
  | ok r =>
    obtain ⟨answer, db⟩ := r
    refine ⟨by cases answer <;> exact ha', fun answer' db' h => ?_⟩
    cases h
    cases answer <;> rfl

theorem execute_alone {a : Access} (ha : a.Alone) (st : Statement) (values : List Value) :
    (execute st values a).2.Alone ∧ ∀ n db,
      a.view.perform st.sql (cellsOf values) = .ok (.changed n, db) →
        (execute st values a).1 = .ok n := by
  obtain ⟨a', hperf, ha'⟩ := Access.perform_alone ha st.sql (cellsOf values)
  obtain ⟨-, hcount⟩ := Access.perform_cases hperf
  have hperf' : a.perform st.sql (values.map Cell.ofValue) = _ := hperf
  unfold execute
  rw [hperf']
  cases hview : a.view.perform st.sql (cellsOf values) with
  | error e => exact ⟨ha', fun _ _ h => by cases h⟩
  | ok r =>
    obtain ⟨answer, db⟩ := r
    rw [hview] at hcount
    refine ⟨by cases answer <;> exact ha', fun n db' h => ?_⟩
    cases h
    exact congrArg Except.ok ((hcount _ rfl).2 n rfl)

theorem commit_alone {a : Access} (ha : a.Alone) : (commit a).1 = .ok () ∧ (commit a).2.Alone := by
  obtain ⟨a', hcommit, ha'⟩ := Access.commit_alone ha
  unfold commit
  rw [hcommit]
  exact ⟨rfl, ha'⟩

theorem prepare_alone {a : Access} (ha : a.Alone) (st : Statement) :
    (prepare st a).2.Alone ∧ ∀ supplied r, a.view.perform st.sql supplied = .ok r →
      (prepare st a).1 = .ok () := by
  obtain ⟨halone, hok⟩ := Access.prepare_alone ha st.sql
  refine ⟨halone, fun supplied r h => ?_⟩
  show (a.prepare st.sql).1.mapError _ = .ok ()
  rw [hok supplied r h]
  rfl

theorem prepare_unshared {st : Statement} {supplied : List Cell} {r : Answer × Database}
    (hs : s.Unshared) (ho : Connection.isOpen s = true) (h : s.view.perform st.sql supplied = .ok r) :
    ∃ s', Connection.perform (.prepare st) s = (.ok (), s') ∧ Connection.isOpen s' = true := by
  obtain ⟨link, hlink⟩ := Option.isSome_iff_exists.mp ho
  refine ⟨_, (withLink_some hlink).trans (Prod.ext ?_ rfl), rfl⟩
  rw [view_of_link hlink] at h
  exact (prepare_alone (hs.alone hlink) _).2 supplied r h

theorem execute_unshared {st : Statement} {values : List Value} {n : Nat} {db : Database}
    (hs : s.Unshared) (ho : Connection.isOpen s = true)
    (h : s.view.perform st.sql (cellsOf values) = .ok (.changed n, db)) :
    ∃ s', Connection.perform (.execute st values) s = (.ok n, s') ∧ Connection.isOpen s' = true := by
  obtain ⟨link, hlink⟩ := Option.isSome_iff_exists.mp ho
  refine ⟨_, (withLink_some hlink).trans (Prod.ext ?_ rfl), rfl⟩
  rw [view_of_link hlink] at h
  exact (execute_alone (hs.alone hlink) _ _).2 _ _ h

/-- What a store makes of a purge is what it makes of its statement. -/
theorem perform_of_purged {l : Layout} {condition : Option String} {st : Statement}
    {supplied : List Cell} {r : Answer × Database} (hst : l.purge condition = .ok st)
    (h : l.purged (Transactional.judge Store) condition st.sql supplied s.view = some r) :
    s.view.perform st.sql supplied = .ok r :=
  Sql.toOption_eq_some.mp ((purged_eq hst supplied s.view).symm.trans h)

/-- **A store that is not shared is steady.** -/
instance : Steady Store where
  Free := Unshared
  sound hs := hs.lasting
  free_perform r s hs := by
    cases r with
    | connect =>
      show s.connect.2.Unshared
      rw [connect_unshared hs]
      have hd := hs.disconnected
      exact ⟨hd.lasting, hd.reachable, hd.writable, hd.outside, hd.foreign, fun _ h => by cases h; rfl⟩
    | close => exact hs.disconnected
    | prepare st => exact withLink_unshared hs fun _ ha => (prepare_alone ha st).1
    | query st values => exact withLink_unshared hs fun _ ha => (query_alone ha st values).1
    | execute st values => exact withLink_unshared hs fun _ ha => (execute_alone ha st values).1
    | commit => exact withLink_unshared hs fun _ ha => (commit_alone ha).2
    | rollback =>
      exact withLink_unshared hs fun _ ha => ⟨ha.outside, ha.foreign, ha.writable⟩
  connect_free hs := ⟨_, connect_unshared hs, rfl⟩
  prepare_free hs ho _ h := prepare_unshared hs ho h
  query_free {_ _ _ _ _ _ s} hs ho _ h := by
    obtain ⟨link, hlink⟩ := Option.isSome_iff_exists.mp ho
    refine ⟨_, (withLink_some hlink).trans (Prod.ext ?_ rfl), rfl⟩
    have hview : s.view.perform _ _ = _ := h
    rw [view_of_link hlink] at hview
    exact (query_alone (hs.alone hlink) _ _).2 _ _ hview
  execute_free hs ho _ h := execute_unshared hs ho h
  preparePurge_free hs ho hst h := prepare_unshared hs ho (perform_of_purged hst h)
  purge_free hs ho hst h := execute_unshared hs ho (perform_of_purged hst h)
  commit_free {s} hs ho := by
    obtain ⟨link, hlink⟩ := Option.isSome_iff_exists.mp ho
    refine ⟨_, (withLink_some hlink).trans (Prod.ext ?_ rfl), rfl⟩
    exact (commit_alone (hs.alone hlink)).1
  close_free _ _ := ⟨_, rfl⟩

end Store

/-! ## 3. Traces -/

namespace Traced

variable {σ : Type} [Connection σ]

open Connection

/-- A request that is not made to fail is answered by the connection inside. -/
theorem perform_untriggered {α : Type} {t : Traced σ} (ht : t.triggers = []) (r : Request α) :
    ∃ t', perform r t = ((perform r t.inner).1, t') ∧ t'.inner = (perform r t.inner).2 ∧
      t'.triggers = [] := by
  have hanswer : t.answer r = perform r t.inner := by
    simp only [answer, fault?, ht, List.find?_nil, Option.map_none]
  have hperform : perform r t = ((t.answer r).1, { t with
      inner := (t.answer r).2, made := r.kind :: t.made,
      calls := r.call (t.answer r).1 :: t.calls }) := rfl
  rw [hperform, hanswer]
  exact ⟨_, rfl, rfl, ht⟩

/-- A success inside is a success outside, and leaves the connection open as the one inside. -/
theorem perform_of_inner {α : Type} {t : Traced σ} {r : Request α} {a : α} {c : σ}
    (ht : t.triggers = []) (h : perform r t.inner = (.ok a, c)) (hopen : isOpen c = true) :
    ∃ t', perform r t = (.ok a, t') ∧ isOpen t' = true := by
  obtain ⟨t', hperf, hinner, -⟩ := perform_untriggered ht r
  rw [h] at hperf hinner
  exact ⟨t', hperf, (congrArg isOpen hinner).trans hopen⟩

/-- **A traced connection on which no call is made to fail is steady as the one inside is.** -/
instance [Transactional σ] [Steady σ] : Steady (Traced σ) where
  Free t := Steady.Free t.inner ∧ t.triggers = []
  sound ht := ⟨Steady.sound ht.1, fun trigger hm => by rw [ht.2] at hm; cases hm⟩
  free_perform r t ht := by
    obtain ⟨t', hperf, hinner, htriggers⟩ := perform_untriggered ht.2 r
    rw [hperf]
    exact ⟨hinner ▸ Steady.free_perform r ht.1, htriggers⟩
  connect_free ht := by
    obtain ⟨c, hc, ho⟩ := Steady.connect_free ht.1
    exact perform_of_inner ht.2 hc ho
  prepare_free ht ho hst h := by
    obtain ⟨c, hc, ho'⟩ := Steady.prepare_free ht.1 ho hst h
    exact perform_of_inner ht.2 hc ho'
  query_free ht ho hst h := by
    obtain ⟨c, hc, ho'⟩ := Steady.query_free ht.1 ho hst h
    exact perform_of_inner ht.2 hc ho'
  execute_free ht ho hst h := by
    obtain ⟨c, hc, ho'⟩ := Steady.execute_free ht.1 ho hst h
    exact perform_of_inner ht.2 hc ho'
  preparePurge_free ht ho hst h := by
    obtain ⟨c, hc, ho'⟩ := Steady.preparePurge_free ht.1 ho hst h
    exact perform_of_inner ht.2 hc ho'
  purge_free ht ho hst h := by
    obtain ⟨c, hc, ho'⟩ := Steady.purge_free ht.1 ho hst h
    exact perform_of_inner ht.2 hc ho'
  commit_free ht ho := by
    obtain ⟨c, hc, ho'⟩ := Steady.commit_free ht.1 ho
    exact perform_of_inner ht.2 hc ho'
  close_free ht ho := by
    obtain ⟨c, hc⟩ := Steady.close_free ht.1 ho
    obtain ⟨t', hperf, -⟩ := perform_untriggered ht.2 (.close : Request Unit)
    exact ⟨t', by rw [hperf, hc]⟩

end Traced

end RowHistory
