import RowHistory.Proofs.Session.Success

/-!
# The size of batches

How many writes make a transaction decides only when they are committed. Two sessions that differ
in nothing else see the same database at every call, so that they answer the same and end with the
same table. This file fixes

* the replies that are successes (`Reply.Succeeds`), and what is seen of a run (`Session.observed`);
* sessions that differ only in how they batch (`Session.Twins`), which every call that succeeds on
  both keeps so (`Twins.answer`);
* that a call which succeeds on one succeeds on the other if nobody disturbs it
  (`Twins.succeeds`);
* the main statement (`commit_size_unobserved`).
-/

namespace RowHistory

open Sql (Database)

/-- A reply is a success: a row was processed, rows were purged, or something was done. -/
def Reply.Succeeds : Reply → Prop
  | .row (.ok (some _)) => True
  | .purge (.ok _) => True
  | .ended (.ok _) => True
  | .recovery (.ok _) => True
  | _ => False

instance : DecidablePred Reply.Succeeds := fun reply =>
  match reply with
  | .row (.ok (some _)) | .purge (.ok _) | .ended (.ok _) | .recovery (.ok _) => isTrue trivial
  | .row (.ok none) | .row (.error _) | .purge (.error _) | .ended (.error _)
  | .recovery (.error _) => isFalse id

/-- The options with another size of batches. -/
def Options.resized (o : Options) (size : Nat) : Options :=
  { o with commitSize := size }

theorem Options.validate_resized {o : Options} {size : Nat} (h : o.validate = .ok ())
    (hsize : 0 < size) : (o.resized size).validate = .ok () := by
  unfold validate at h ⊢
  split at h
  · cases h
  · rename_i hname
    rw [if_neg (show ¬ Text.allBlank (o.resized size).table from hname),
      if_neg (show ¬ (o.resized size).commitSize = 0 from Nat.ne_of_gt hsize)]
    split at h
    · cases h
    · exact h

namespace Session

variable {σ : Type} [Connection σ]

/-- The start, the clock and the horizon do not depend on the size of batches. -/
theorem prepare_resized {o : Options} {clock : Clock} {size : Nat}
    {settled : Instant × Clock × Option Instant} (h : prepare o clock = .ok settled)
    (hsize : 0 < size) : prepare (o.resized size) clock = .ok settled := by
  obtain ⟨u, hvalid, hrest⟩ := Sql.ok_of_bind h
  show ((o.resized size).validate >>= fun _ => _) = _
  rw [Options.validate_resized hvalid hsize]
  exact hrest

/-- The session with counters. -/
def counting (s : Session σ) (counters : Option Counters) : Session σ :=
  { s with counters }

variable [Transactional σ] {s t s' t' : Session σ}

/-- What is seen of a run: the replies, the counters, and what was committed in the end. -/
def observed (s : Session σ) (calls : List Operation) :
    List Reply × Option Counters × Database :=
  ((s.run calls).1, (s.run calls).2.counters, (s.run calls).2.durable)

/-! ## 1. Successes -/

theorem Judged.unique {l : Layout} {row : Row} {now : Instant} {db : Database} {a b : Outcome}
    (ha : Judged l row now db a) (hb : Judged l row now db b) : a = b := by
  cases ha with
  | active hrun hrec hagainst =>
    cases hb with
    | active hrun' hrec' hagainst' =>
      cases hrun.symm.trans hrun'
      cases hrec.symm.trans hrec'
      exact Except.ok.inj (hagainst.symm.trans hagainst')
    | latest hrun' hrec' =>
      cases hrun.symm.trans hrun'
      cases hrec.symm.trans hrec'
  | latest hrun hrec hlatest hfound =>
    cases hb with
    | active hrun' hrec' =>
      cases hrun.symm.trans hrun'
      cases hrec.symm.trans hrec'
    | latest hrun' hrec' hlatest' hfound' =>
      cases hlatest.symm.trans hlatest'
      cases hfound.symm.trans hfound'
      rfl

omit [Transactional σ] in
/-- A row that succeeds was processed with a status that may be forced. -/
theorem permitted_of_succeeds {row : Row} {forced : Option RowStatus}
    (h : (s.answer (.row row forced)).1.Succeeds) :
    Permitted forced ∧ s.isOpen = true ∧ ∃ result s', s.processRow row forced = (.ok (some result), s') ∧
      s.answer (.row row forced) = (.row (.ok (some result)), s') := by
  cases hprocess : s.processAs row forced with
  | mk x s' =>
    rw [answer_row hprocess] at h
    match x, h with
    | .ok (some result), _ =>
      obtain ⟨hp, hrun⟩ := processRow_of_result hprocess
      exact ⟨hp, isOpen_of_told hprocess, result, s', hrun, answer_row hprocess⟩

omit [Transactional σ] in
theorem answer_purge {x : Except Failure Nat} (h : s.purge = (x, s')) :
    s.answer .purge = (.purge x, s') := by
  show s.purge.map Reply.purge id = _
  rw [h]
  rfl

omit [Transactional σ] in
theorem purge_of_succeeds (h : (s.answer .purge).1.Succeeds) :
    ∃ n s', s.purge = (.ok n, s') ∧ s.answer .purge = (.purge (.ok n), s') := by
  cases hrun : s.purge with
  | mk x s' =>
    have hanswer := answer_purge hrun
    rw [hanswer] at h
    match x, h with
    | .ok n, _ => exact ⟨n, s', rfl, hanswer⟩

omit [Transactional σ] in
theorem finish_of_succeeds (h : (s.answer .finish).1.Succeeds) :
    ∃ s', s.finish = (.ok (), s') ∧ s.answer .finish = (.ended (.ok ()), s') := by
  cases hrun : s.finish with
  | mk x s' =>
    have hanswer : s.answer .finish = (.ended x, s') := by
      show s.finish.map Reply.ended id = _
      rw [hrun]
      rfl
    rw [hanswer] at h
    match x, h with
    | .ok (), _ => exact ⟨s', rfl, hanswer⟩

omit [Transactional σ] in
theorem answer_recovery (hopen : s.isOpen = true) (recovery : Recovery Failure) :
    s.answer (.recovery recovery) = (.recovery (.ok ()),
      { s with storage := { s.storage with recovery := some recovery } }) := by
  show (s.setRecovery recovery).map Reply.recovery id = _
  unfold setRecovery
  rw [hopen]
  rfl

omit [Transactional σ] in
theorem open_of_answer {call : Operation} (h : (s.answer call).2.isOpen = true) : s.isOpen = true := by
  cases hopen : s.isOpen with
  | true => rfl
  | false =>
    rw [answer_closed hopen, hopen] at h
    cases h

/-- An end and a close leave no open session. -/
theorem closed_of_ended (hs : s.Fit) {call : Operation} (hcall : call = .finish ∨ call = .close) :
    (s.answer call).2.isOpen = false := by
  cases hopen : s.isOpen with
  | false => rw [answer_closed hopen, hopen]
  | true =>
    obtain rfl | rfl := hcall
    · exact (finish_cases hs hopen).2.2.1
    · exact (close_spec hs hopen).2.2.1

omit [Transactional σ] in
/-- Only an open session can be ended with success. -/
theorem open_of_ended {calls : List Operation}
    (h : ∀ reply ∈ (s.run (calls ++ [.finish])).1, reply.Succeeds) : s.isOpen = true := by
  cases hopen : s.isOpen with
  | true => rfl
  | false =>
    rw [run_concat, run_closed hopen] at h
    obtain ⟨s', hfinish, -⟩ := finish_of_succeeds (h _ (List.mem_append_right _ List.mem_cons_self))
    rw [(finish_ok hfinish).1] at hopen
    cases hopen

/-! ## 2. Twins -/

/-- Two sessions that differ only in how they batch. -/
structure Twins (s t : Session σ) : Prop where
  options : t.options = s.options.resized t.options.commitSize
  working : t.working = s.working
  clock : t.clock = s.clock
  start : t.start = s.start
  validTo : t.validTo = s.validTo
  counters : t.counters = s.counters

namespace Twins

theorem layout (h : Twins s t) : t.options.layout = s.options.layout := by
  rw [h.options]
  rfl

theorem purgeWhere (h : Twins s t) : t.options.purgeWhere = s.options.purgeWhere := by
  rw [h.options]
  rfl

theorem stamped (h : Twins s t) (outcome : Outcome) (now : Instant) (row : Row) :
    stamped t.options t.validTo outcome now row = Session.stamped s.options s.validTo outcome now row := by
  rw [h.options, h.validTo]
  rfl

/-- What both keep of their options and bounds, they keep in common. -/
theorem of_same (h : Twins s t) (hs : Same s s') (ht : Same t t') (hworking : t'.working = s'.working)
    (hclock : t'.clock = s'.clock) (hcounters : t'.counters = s'.counters) : Twins s' t' :=
  ⟨by rw [ht.options, hs.options]; exact h.options, hworking, hclock,
    by rw [ht.start, hs.start, h.start], by rw [ht.validTo, hs.validTo, h.validTo], hcounters⟩

/-- **A row is judged, told and written the same.** -/
theorem applied (h : Twins s t) {row : Row} {forced : Option RowStatus} {now : Instant}
    {result result' : RowResult} (hs : Applied row forced now s result s')
    (ht : Applied row forced now t result' t') : result' = result ∧ t'.working = s'.working := by
  obtain ⟨natural, hjudged, hresult⟩ := hs.judged
  obtain ⟨natural', hjudged', hresult'⟩ := ht.judged
  rw [h.layout, h.working] at hjudged'
  obtain rfl := hjudged.unique hjudged'
  have hsame : result' = result := by
    rw [hresult, hresult', h.stamped, h.options]
    rfl
  have hwritten := ht.written
  rw [hsame, h.layout, h.working, h.options] at hwritten
  exact ⟨hsame, Option.some.inj (hwritten.symm.trans hs.written)⟩

/-- **A call that succeeds on both answers the same**, and the sessions stay twins. -/
theorem answer (h : Twins s t) (hs : s.Fit) (ht : t.Fit) {call : Operation}
    (hok : (s.answer call).1.Succeeds) (hok' : (t.answer call).1.Succeeds)
    (hopen : (s.answer call).2.isOpen = true) :
    (t.answer call).1 = (s.answer call).1 ∧ Twins (s.answer call).2 (t.answer call).2 := by
  obtain ⟨-, hsame⟩ := answer_fit hs call
  obtain ⟨-, hsame'⟩ := answer_fit ht call
  cases call with
  | row row forced =>
    obtain ⟨hp, -, result, s₁, hrun, hanswer⟩ := permitted_of_succeeds hok
    obtain ⟨-, -, result', t₁, hrun', hanswer'⟩ := permitted_of_succeeds hok'
    obtain ⟨-, -, -, happlied, -, hclock⟩ := told_spec hs ((processAs_permitted hp row).trans hrun)
    obtain ⟨-, -, -, happlied', -, hclock'⟩ := told_spec ht ((processAs_permitted hp row).trans hrun')
    rw [h.clock] at happlied' hclock'
    obtain ⟨rfl, hworking⟩ := h.applied happlied happlied'
    rw [hanswer] at hsame ⊢
    rw [hanswer'] at hsame' ⊢
    refine ⟨rfl, h.of_same hsame hsame' hworking (hclock'.trans hclock.symm) ?_⟩
    rw [processRow_counters hs hrun, processRow_counters ht hrun', h.counters]
  | purge =>
    obtain ⟨n, s₁, hrun, hanswer⟩ := purge_of_succeeds hok
    obtain ⟨n', t₁, hrun', hanswer'⟩ := purge_of_succeeds hok'
    obtain ⟨-, hpurged⟩ := purge_ok hs hrun
    obtain ⟨-, hpurged'⟩ := purge_ok ht hrun'
    have hswept := hpurged'.swept
    rw [h.layout, h.start, h.clock, h.working, h.purgeWhere] at hswept
    obtain ⟨hn, hworking⟩ := Prod.mk.inj (Option.some.inj (hswept.symm.trans hpurged.swept))
    cases hn
    rw [hanswer, hanswer']
    refine ⟨rfl, h.of_same hpurged.same hpurged'.same hworking ?_ ?_⟩
    · rw [hpurged.clock, hpurged'.clock, h.clock]
    · rw [hpurged.counters, hpurged'.counters, h.counters]
  | finish => exact nomatch (closed_of_ended hs (.inl rfl)).symm.trans hopen
  | close => exact nomatch (closed_of_ended hs (.inr rfl)).symm.trans hopen
  | recovery recovery =>
    have hopen₂ : t.isOpen = true := by
      cases ht₀ : t.isOpen with
      | true => rfl
      | false =>
        have hclosed : (t.setRecovery recovery).1 = .error .sessionClosed := by
          unfold setRecovery
          rw [ht₀]
          rfl
        have hok₂ : Reply.Succeeds (.recovery (t.setRecovery recovery).1) := hok'
        rw [hclosed] at hok₂
        exact hok₂.elim
    rw [answer_recovery (open_of_answer hopen), answer_recovery hopen₂]
    exact ⟨rfl, h.options, h.working, h.clock, h.start, h.validTo, h.counters⟩

/-- **An end that succeeds on both** leaves the same counters and the same table. -/
theorem finished (h : Twins s t) (hs : s.Fit) (ht : t.Fit) (hok : (s.answer .finish).1.Succeeds)
    (hok' : (t.answer .finish).1.Succeeds) :
    (t.answer .finish).1 = (s.answer .finish).1 ∧
      (t.answer .finish).2.counters = (s.answer .finish).2.counters ∧
      (t.answer .finish).2.durable = (s.answer .finish).2.durable := by
  obtain ⟨s₁, hrun, hanswer⟩ := finish_of_succeeds hok
  obtain ⟨t₁, hrun', hanswer'⟩ := finish_of_succeeds hok'
  obtain ⟨hopen, hend⟩ := finish_ok hrun
  obtain ⟨hopen', hend'⟩ := finish_ok hrun'
  rw [hanswer, hanswer']
  have hpurge : t.options.purge = s.options.purge := by
    rw [h.options]
    rfl
  rw [hpurge] at hend'
  split at hend
  · rename_i hp
    rw [if_pos hp] at hend'
    obtain ⟨n, s₂, hpurged, hcommit⟩ := hend
    obtain ⟨n', t₂, hpurged', hcommit'⟩ := hend'
    -- The purge is a call by itself, which both answer the same.
    have hanswer₂ := answer_purge hpurged
    have hanswer₂' := answer_purge hpurged'
    obtain ⟨-, hs₂⟩ := purge_ok hs hpurged
    obtain ⟨-, ht₂⟩ := purge_ok ht hpurged'
    have hok₂ : (s.answer .purge).1.Succeeds := by rw [hanswer₂]; trivial
    have hok₂' : (t.answer .purge).1.Succeeds := by rw [hanswer₂']; trivial
    obtain ⟨-, htwins⟩ := h.answer hs ht hok₂ hok₂' (by rw [hanswer₂]; exact hs₂.isOpen)
    rw [hanswer₂, hanswer₂'] at htwins
    obtain ⟨hd, hcounters, -⟩ := commitAndClose_ok hs₂.fit hs₂.isOpen hcommit
    obtain ⟨hd', hcounters', -⟩ := commitAndClose_ok ht₂.fit ht₂.isOpen hcommit'
    exact ⟨rfl, by rw [hcounters, hcounters', htwins.counters], by rw [hd, hd', htwins.working]⟩
  · rename_i hp
    rw [if_neg hp] at hend'
    obtain ⟨hd, hcounters, -⟩ := commitAndClose_ok hs hopen hend
    obtain ⟨hd', hcounters', -⟩ := commitAndClose_ok ht hopen' hend'
    exact ⟨rfl, by rw [hcounters, hcounters', h.counters], by rw [hd, hd', h.working]⟩

/-- **Runs that succeed on both are seen the same.** -/
theorem observed (h : Twins s t) (hs : s.Fit) (ht : t.Fit) (calls : List Operation)
    (hok : ∀ reply ∈ (s.run (calls ++ [.finish])).1, reply.Succeeds)
    (hok' : ∀ reply ∈ (t.run (calls ++ [.finish])).1, reply.Succeeds) :
    t.observed (calls ++ [.finish]) = s.observed (calls ++ [.finish]) := by
  induction calls generalizing s t with
  | nil =>
    obtain ⟨hreply, hcounters, hd⟩ := h.finished hs ht (hok _ List.mem_cons_self)
      (hok' _ List.mem_cons_self)
    exact Prod.ext (congrArg (· :: []) hreply) (Prod.ext hcounters hd)
  | cons call calls ih =>
    rw [List.cons_append, run_cons] at hok hok'
    obtain ⟨hhead, htail⟩ := List.forall_mem_cons.mp hok
    obtain ⟨hhead', htail'⟩ := List.forall_mem_cons.mp hok'
    obtain ⟨hreply, htwins⟩ := h.answer hs ht hhead hhead' (open_of_ended htail)
    have hrest := ih htwins (answer_fit hs call).1 (answer_fit ht call).1 htail htail'
    obtain ⟨hreplies, hend⟩ := Prod.mk.inj hrest
    exact Prod.ext (congrArg₂ List.cons hreply hreplies) hend

/-! ## 3. Success on both -/

variable [Steady σ]

/-- **A call that succeeds on one succeeds on the other** if nobody disturbs it. -/
theorem succeeds (h : Twins s t) (hs : s.Fit) (ht : t.Ready) {call : Operation}
    (hok : (s.answer call).1.Succeeds) (hopen : (s.answer call).2.isOpen = true) :
    (t.answer call).1.Succeeds ∧ (t.answer call).2.Ready := by
  cases call with
  | row row forced =>
    obtain ⟨hp, -, result, s₁, hrun, -⟩ := permitted_of_succeeds hok
    obtain ⟨-, -, -, happlied, -, -⟩ := told_spec hs ((processAs_permitted hp row).trans hrun)
    obtain ⟨natural, hjudged, hresult⟩ := happlied.judged
    have hidentified : missingIdentifier? t.options row = none := by
      rw [h.options]
      exact happlied.identified
    have hjudged' : Judged t.options.layout row t.clock.next t.working natural := by
      rw [h.layout, h.clock, h.working]
      exact hjudged
    have hwritten := happlied.written
    rw [hresult] at hwritten
    have hwritten' : t.options.layout.written
        (Session.stamped t.options t.validTo (force forced natural).1 t.clock.next row)
        (Storage.statementsOf (Mutation.ofStatus t.options.names.tracksLastSeen
          (force forced natural).1.status)) t.working = some s₁.working := by
      rw [h.layout, h.working, h.stamped, h.clock, h.options]
      exact hwritten
    obtain ⟨hreply, hready⟩ := processRow_ready ht forced hidentified hjudged' hwritten'
    have hanswer := answer_row ((processAs_permitted hp row).trans
      (Prod.ext hreply rfl : t.processRow row forced = (_, (t.processRow row forced).2)))
    rw [hanswer]
    exact ⟨trivial, hready⟩
  | purge =>
    obtain ⟨n, s₁, hrun, -⟩ := purge_of_succeeds hok
    obtain ⟨-, hpurged⟩ := purge_ok hs hrun
    have htracks : t.options.names.tracksLastSeen = true := by
      rw [h.options]
      exact hpurged.tracks
    have hswept := hpurged.swept
    rw [← h.layout, ← h.start, ← h.clock, ← h.working, ← h.purgeWhere] at hswept
    obtain ⟨hreply, hready⟩ := purge_ready ht htracks hswept
    refine ⟨?_, hready⟩
    show Reply.Succeeds (.purge t.purge.1)
    rw [hreply]
    trivial
  | finish => exact nomatch (closed_of_ended hs (.inl rfl)).symm.trans hopen
  | close => exact nomatch (closed_of_ended hs (.inr rfl)).symm.trans hopen
  | recovery recovery =>
    have hfit := (answer_fit ht.fit (.recovery recovery)).1
    rw [answer_recovery ht.isOpen] at hfit ⊢
    exact ⟨trivial, hfit, ⟨hfit.storage, ht.storage.held, ht.storage.free, ht.storage.isOpen⟩, ht.isOpen⟩

theorem succeeds_finish (h : Twins s t) (hs : s.Fit) (ht : t.Ready)
    (hok : (s.answer .finish).1.Succeeds) : (t.answer .finish).1.Succeeds := by
  obtain ⟨s₁, hrun, -⟩ := finish_of_succeeds hok
  obtain ⟨-, hend⟩ := finish_ok hrun
  have hfinish : t.finish.1 = .ok () := by
    refine finish_ready ht fun hpurge => ?_
    have hp : s.options.purge = true := by
      rw [h.options] at hpurge
      exact hpurge
    rw [if_pos hp] at hend
    obtain ⟨n, s₂, hpurged, -⟩ := hend
    refine ⟨n, s₂.working, ?_⟩
    rw [h.layout, h.start, h.clock, h.working, h.purgeWhere]
    exact (purge_ok hs hpurged).2.swept
  show Reply.Succeeds (.ended t.finish.1)
  rw [hfinish]
  trivial

theorem succeeds_run (h : Twins s t) (hs : s.Fit) (ht : t.Ready) (calls : List Operation)
    (hok : ∀ reply ∈ (s.run (calls ++ [.finish])).1, reply.Succeeds) :
    ∀ reply ∈ (t.run (calls ++ [.finish])).1, reply.Succeeds := by
  induction calls generalizing s t with
  | nil => exact List.forall_mem_singleton.mpr (h.succeeds_finish hs ht (hok _ List.mem_cons_self))
  | cons call calls ih =>
    rw [List.cons_append, run_cons] at hok ⊢
    obtain ⟨hhead, htail⟩ := List.forall_mem_cons.mp hok
    have hopen := open_of_ended htail
    obtain ⟨hhead', hready⟩ := h.succeeds hs ht hhead hopen
    obtain ⟨-, htwins⟩ := h.answer hs ht.fit hhead hhead' hopen
    exact List.forall_mem_cons.mpr ⟨hhead', ih htwins (answer_fit hs call).1 hready htail⟩

end Twins

/-! ## 4. Any two sizes -/

/-- Sessions that open with different sizes on the same table are twins. -/
theorem twins_begin {o : Options} {size : Nat} {clock : Clock} {id id' : String} {c c' : σ}
    (hsize : 0 < size) (hc : Transactional.Sound c) (hc' : Transactional.Sound c')
    (htable : Transactional.durable c' = Transactional.durable c) (hs : begin o clock id c = .ok s)
    (ht : begin (o.resized size) clock id' c' = .ok t) (counters : Option Counters) :
    Twins (s.counting counters) (t.counting counters) := by
  obtain ⟨-, hoptions, -, -, hworking, -, -, hprepare⟩ := begin_spec hc hs
  obtain ⟨-, hoptions', -, -, hworking', -, -, hprepare'⟩ := begin_spec hc' ht
  rw [prepare_resized hprepare hsize] at hprepare'
  obtain ⟨hstart, hrest⟩ := Prod.mk.inj (Except.ok.inj hprepare')
  obtain ⟨hclock, hvalidTo⟩ := Prod.mk.inj hrest
  refine ⟨?_, (hworking'.trans htable).trans hworking.symm, hclock.symm, hstart.symm, hvalidTo.symm, rfl⟩
  show t.options = s.options.resized t.options.commitSize
  rw [hoptions, hoptions']
  rfl

variable [Steady σ]

/-- **The size of batches is not observed.** Let a run of calls that ends the session succeed with
one size. With any other size, on a connection to the same table, the run is seen the same if it
succeeds there too: the same reply to every call, the same counters, and the same table in the end.
And on a connection that nobody disturbs it does succeed. -/
theorem commit_size_unobserved {o : Options} {size : Nat} {clock : Clock} {id : String} {c c' : σ}
    (hsize : 0 < size) (hc : Transactional.Sound c) (hc' : Transactional.Sound c')
    (htable : Transactional.durable c' = Transactional.durable c) (hs : begin o clock id c = .ok s)
    (id' : String) (counters : Option Counters) (calls : List Operation)
    (hok : ∀ reply ∈ ((s.counting counters).run (calls ++ [.finish])).1, reply.Succeeds) :
    (∀ t, begin (o.resized size) clock id' c' = .ok t →
      (∀ reply ∈ ((t.counting counters).run (calls ++ [.finish])).1, reply.Succeeds) →
      (t.counting counters).observed (calls ++ [.finish]) =
        (s.counting counters).observed (calls ++ [.finish])) ∧
    (Steady.Free c' → ∃ t, begin (o.resized size) clock id' c' = .ok t ∧
      (t.counting counters).observed (calls ++ [.finish]) =
        (s.counting counters).observed (calls ++ [.finish])) := by
  obtain ⟨hfit, -, -, -, -, -, -, hprepare⟩ := begin_spec hc hs
  have hfit' : (s.counting counters).Fit := ⟨hfit.storage, hfit.layout, hfit.size, hfit.valid⟩
  refine ⟨fun t ht hok' => ?_, fun hfree => ?_⟩
  · obtain ⟨hfit₂, -⟩ := begin_spec hc' ht
    have htwins := twins_begin hsize hc hc' htable hs ht counters
    exact htwins.observed hfit' ⟨hfit₂.storage, hfit₂.layout, hfit₂.size, hfit₂.valid⟩ calls hok hok'
  · obtain ⟨t, ht, hready⟩ := begin_ready hfree (prepare_resized hprepare hsize) id'
    have htwins := twins_begin hsize hc hc' htable hs ht counters
    have hready' : (t.counting counters).Ready :=
      ⟨⟨hready.fit.storage, hready.fit.layout, hready.fit.size, hready.fit.valid⟩, hready.storage,
        hready.isOpen⟩
    have hok' := htwins.succeeds_run hfit' hready' calls hok
    exact ⟨t, ht, htwins.observed hfit' hready'.fit calls hok hok'⟩

/-- A new customer, and another name for it. -/
def Sample.renaming : List Operation :=
  [.row (Sample.customer 1 "Ann" "Ulm") none, .row (Sample.customer 1 "Anna" "Ulm") none]

theorem Sample.free_store : Steady.Free (Sample.store []) :=
  ⟨⟨⟨rfl, rfl⟩, rfl, rfl, rfl, rfl, fun _ h => nomatch h⟩, rfl⟩

/-- With every write committed by itself instead of two at a time, nothing else is seen. -/
theorem commit_size_unobserved_one_by_one :
    ∃ s t : Session (Traced Store),
      begin Sample.options Sample.clock "two" (Sample.store []) = .ok s ∧
      begin (Sample.options.resized 1) Sample.clock "one" (Sample.store []) = .ok t ∧
      (∀ reply ∈ ((s.counting (some {})).run (Sample.renaming ++ [.finish])).1, reply.Succeeds) ∧
      (t.counting (some {})).observed (Sample.renaming ++ [.finish]) =
        (s.counting (some {})).observed (Sample.renaming ++ [.finish]) := by
  have hcheck : okAnd (begin Sample.options Sample.clock "two" (Sample.store [])) (fun s =>
      ((s.counting (some {})).run (Sample.renaming ++ [.finish])).1.all
        fun reply => decide reply.Succeeds) = true := by
    rw [Store.connection_eq Sample.options]
    decide +kernel
  obtain ⟨s, hs, hall⟩ := exists_of_okAnd hcheck
  have hok : ∀ reply ∈ ((s.counting (some {})).run (Sample.renaming ++ [.finish])).1,
      reply.Succeeds := fun reply hreply => of_decide_eq_true (List.all_eq_true.mp hall reply hreply)
  have hsound := Steady.sound Sample.free_store
  obtain ⟨-, hsteady⟩ := commit_size_unobserved Nat.one_pos hsound hsound rfl hs "one" (some {})
    Sample.renaming hok
  obtain ⟨t, ht, hobserved⟩ := hsteady Sample.free_store
  exact ⟨s, t, hs, ht, hok, hobserved⟩

end Session

end RowHistory
