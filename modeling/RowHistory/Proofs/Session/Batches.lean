import Mathlib.Data.List.Induction
import RowHistory.Proofs.Session.Calls

/-!
# Batches and commits

The writes of a session gather in a batch until a commit. What was committed and the rows of the
batch together say what the session sees, after every run of calls and whatever failed on the
way. This file fixes

* a written row (`Write`) and the effect of writes, one after the other (`replay`);
* the writes that are pending after some replies (`pendingWrites`), and all of them (`allWrites`);
* the invariant (`Gathered`), kept by every call (`gathered_answer`) and so by every run
  (`gathered_run`);
* where the committed database can change (`Boundary`), and what it is if every call gets a result
  (`whole_batches`);
* the main statement (`batch_boundaries`).
-/

namespace RowHistory

open Sql (Database)

/-! ## 1. Writes -/

/-- A row that was written, and how. -/
structure Write where
  mutation : Mutation
  row : Row

/-- The database after all statements of a write. -/
def Write.effect (l : Layout) (w : Write) (db : Database) : Option Database :=
  l.written w.row (Storage.statementsOf w.mutation) db

/-- The database after writes, one after the other. -/
def replay (l : Layout) : List Write → Database → Option Database
  | [], db => some db
  | w :: ws, db => (w.effect l db).bind (replay l ws)

theorem replay_append (l : Layout) (ws vs : List Write) (db : Database) :
    replay l (ws ++ vs) db = (replay l ws db).bind (replay l vs) := by
  induction ws generalizing db with
  | nil => rfl
  | cons w ws ih =>
    rw [List.cons_append, replay, replay]
    cases w.effect l db with
    | none => rfl
    | some db' => exact ih db'

theorem replay_concat {l : Layout} {ws : List Write} {w : Write} {db db' db'' : Database}
    (h : replay l ws db = some db') (hw : w.effect l db' = some db'') :
    replay l (ws ++ [w]) db = some db'' := by
  rw [replay_append, h]
  show (w.effect l db').bind (replay l []) = _
  rw [hw]
  rfl

/-! ## 2. Replies -/

/-- The write that a reply tells of: a row that changed something. -/
def Reply.write? (o : Options) : Reply → Option Write
  | .row (.ok (some result)) =>
    let mutation := Mutation.ofStatus o.names.tracksLastSeen result.status
    if mutation.writes then some ⟨mutation, result.row⟩ else none
  | _ => none

/-- The writes that are pending after a reply. A full batch is committed, so is what a purge finds
pending, and a failed row takes the others with it. -/
def Reply.pending (o : Options) (ws : List Write) (reply : Reply) : List Write :=
  match reply with
  | .row (.ok (some _)) =>
    let ws := ws ++ (reply.write? o).toList
    if o.commitSize ≤ ws.length then [] else ws
  | .row _ => []
  | .purge (.ok _) => []
  | .purge (.error _) => ws
  | .ended _ => []
  | .recovery _ => ws

/-- The writes that are pending after replies. -/
def pendingWrites (o : Options) (replies : List Reply) : List Write :=
  replies.foldl (Reply.pending o) []

/-- All writes that replies tell of. -/
def allWrites (o : Options) (replies : List Reply) : List Write :=
  replies.filterMap (Reply.write? o)

/-- A row was processed, or a recovery was set. -/
def Reply.Smooth : Reply → Prop
  | .row (.ok (some _)) => True
  | .recovery _ => True
  | _ => False

theorem pendingWrites_concat (o : Options) (replies : List Reply) (reply : Reply) :
    pendingWrites o (replies ++ [reply]) = reply.pending o (pendingWrites o replies) := by
  rw [pendingWrites, List.foldl_append]
  rfl

theorem allWrites_concat (o : Options) (replies : List Reply) (reply : Reply) :
    allWrites o (replies ++ [reply]) = allWrites o replies ++ (reply.write? o).toList := by
  rw [allWrites, List.filterMap_append]
  cases hw : reply.write? o with
  | none => rw [List.filterMap_cons_none hw]; rfl
  | some w => rw [List.filterMap_cons_some hw]; rfl

namespace Session

variable {σ : Type} [Connection σ] [Transactional σ] {s s' : Session σ} {o : Options}

/-! ## 3. The invariant -/

/-- The batch holds the rows of the pending writes, fewer than make a batch, and the session sees
what they make of what was committed. -/
structure Gathered (ws : List Write) (s : Session σ) : Prop where
  backup : s.storage.batch.backup = ws.map Write.row
  pending : s.storage.batch.pending = ws.length
  small : ws.length < s.options.commitSize
  replayed : replay s.options.layout ws s.durable = some s.working

/-- Where what was committed can change: not at all, or by whole rows, perhaps with a purge behind
them. -/
def Boundary (s : Session σ) (ws : List Write) (reply : Reply) (db : Database) : Prop :=
  db = s.durable ∨ replay s.options.layout ws s.durable = some db ∨
  (∃ w, reply.write? s.options = some w ∧
    replay s.options.layout (ws ++ [w]) s.durable = some db) ∨
  ∃ answer, (replay s.options.layout ws s.durable).bind (s.options.layout.swept
    (Transactional.judge σ) s.start s.clock.next s.options.purgeWhere) = some (answer, db)

theorem Gathered.nil (hs : s.Fit) (hbatch : s.storage.batch.backup = [] ∧ s.storage.batch.pending = 0)
    (hw : s.working = s.durable) : Gathered [] s :=
  ⟨hbatch.1, hbatch.2, Options.size_of_validate hs.valid, by rw [hw]; rfl⟩

/-- What a processed row does to the pending writes: it leaves them alone, joins them, or makes a
batch with them that is committed. -/
inductive Joins (ws : List Write) (reply : Reply) (s s' : Session σ) : Prop
  | nothing (write : reply.write? s.options = none) (pending : reply.pending s.options ws = ws)
      (durable : s'.durable = s.durable) (working : s'.working = s.working)
      (batch : s'.storage.batch = s.storage.batch)
  | pending (w : Write) (write : reply.write? s.options = some w)
      (pending : reply.pending s.options ws = ws ++ [w])
      (replayed : replay s.options.layout (ws ++ [w]) s.durable = some s'.working)
      (small : (ws ++ [w]).length < s.options.commitSize) (durable : s'.durable = s.durable)
      (batch : s'.storage.batch = (s.storage.batch.keep w.row).count)
  | committed (w : Write) (write : reply.write? s.options = some w)
      (pending : reply.pending s.options ws = [])
      (replayed : replay s.options.layout (ws ++ [w]) s.durable = some s'.working)
      (full : (ws ++ [w]).length = s.options.commitSize) (durable : s'.durable = s'.working)
      (batch : s'.storage.batch = s.storage.batch.clear)

theorem Applied.joins {ws : List Write} {row : Row} {forced : Option RowStatus} {now : Instant}
    {result : RowResult} (hws : Gathered ws s) (h : Applied row forced now s result s') :
    Joins ws (.row (.ok (some result))) s s' := by
  have hwritten := h.written
  have hsettled := h.settled
  by_cases hwrites : (Mutation.ofStatus s.options.names.tracksLastSeen result.status).writes = true
  · let w : Write := ⟨Mutation.ofStatus s.options.names.tracksLastSeen result.status, result.row⟩
    have hw : (Reply.row (.ok (some result))).write? s.options = some w := if_pos hwrites
    have hreplayed := replay_concat (w := w) hws.replayed hwritten
    have hlength : (ws ++ [w]).length = ws.length + 1 := List.length_append
    rw [if_pos hwrites, hws.pending, ← hlength] at hsettled
    obtain ⟨hsmall, hd, hb⟩ | ⟨hfull, hd, hb⟩ := hsettled
    · refine .pending w hw ?_ hreplayed hsmall hd hb
      simp only [Reply.pending, hw, Option.toList_some]
      exact if_neg (Nat.not_le.mpr hsmall)
    · refine .committed w hw ?_ hreplayed (Nat.le_antisymm (hlength ▸ hws.small) hfull) hd hb
      simp only [Reply.pending, hw, Option.toList_some]
      exact if_pos hfull
  · have hw : (Reply.row (.ok (some result))).write? s.options = none := if_neg hwrites
    have hnone : Mutation.ofStatus s.options.names.tracksLastSeen result.status = .none := by
      simpa [Mutation.writes] using hwrites
    rw [if_neg hwrites] at hsettled
    rw [hnone] at hwritten
    refine .nothing hw ?_ hsettled.1 (Option.some.inj hwritten).symm hsettled.2
    simp only [Reply.pending, hw, Option.toList_none, List.append_nil]
    exact if_neg (Nat.not_le.mpr hws.small)

/-- **Every call keeps the invariant and ends at a boundary.** -/
theorem gathered_answer {ws : List Write} (hws : Gathered ws s) {call : Operation}
    {reply : Reply} (hs' : s'.Fit) (hsame : Same s s') (h : Moved s call reply s') :
    (s'.isOpen = true → Gathered (reply.pending s.options ws) s') ∧
      Boundary s ws reply s'.durable := by
  cases h with
  | @applied row forced result _ hp happlied hopen hclock =>
    cases happlied.joins hws with
    | nothing hw hpending hd hwork hb =>
      rw [hpending]
      refine ⟨fun _ => ⟨?_, ?_, ?_, ?_⟩, .inl hd⟩
      · rw [hb, hws.backup]
      · rw [hb, hws.pending]
      · rw [hsame.options]
        exact hws.small
      · rw [hsame.options, hd, hwork]
        exact hws.replayed
    | pending w hw hpending hreplayed hsmall hd hb =>
      rw [hpending]
      refine ⟨fun _ => ⟨?_, ?_, ?_, ?_⟩, .inl hd⟩
      · rw [hb, List.map_append, List.map_singleton, ← hws.backup]
        rfl
      · rw [hb, List.length_append, ← hws.pending]
        rfl
      · rw [hsame.options]
        exact hsmall
      · rw [hsame.options, hd]
        exact hreplayed
    | committed w hw hpending hreplayed hfull hd hb =>
      rw [hpending]
      refine ⟨fun _ => .nil hs' ⟨by rw [hb]; rfl, by rw [hb]; rfl⟩ hd.symm, ?_⟩
      exact .inr (.inr (.inl ⟨w, hw, by rw [hd]; exact hreplayed⟩))
  | undone hp hd hw hb hopen hclock =>
    exact ⟨fun _ => .nil hs' ⟨by rw [hb]; rfl, by rw [hb]; rfl⟩ hw, .inl hd⟩
  | swept hswept hclock =>
    refine ⟨fun _ => .nil hs' ⟨by rw [hswept.batch]; rfl, by rw [hswept.batch]; rfl⟩
      hswept.durable.symm, ?_⟩
    obtain ⟨answer, hanswer⟩ := hswept.swept
    refine .inr (.inr (.inr ⟨answer, ?_⟩))
    rw [hws.replayed, hswept.durable]
    exact hanswer
  | set hd hw hb hopen hclock =>
    refine ⟨fun _ => ⟨by rw [hb, hws.backup]; rfl, by rw [hb, hws.pending]; rfl, ?_, ?_⟩, .inl hd⟩
    · rw [hsame.options]
      exact hws.small
    · rw [hsame.options, hd, hw]
      exact hws.replayed
  | refused => exact ⟨fun _ => hws, .inl rfl⟩
  | closed hreply hd hclosed hclock =>
    refine ⟨fun hopen => ?_, .inl hd⟩
    rw [hclosed] at hopen
    cases hopen
  | finished hreply hd hclosed hclock =>
    refine ⟨fun hopen => ?_, ?_⟩
    · rw [hclosed] at hopen
      cases hopen
    · obtain hd | ⟨-, answer, hanswer⟩ := hd
      · exact .inr (.inl (by rw [hd]; exact hws.replayed))
      · exact .inr (.inr (.inr ⟨answer, by rw [hws.replayed]; exact hanswer⟩))

/-! ## 4. Runs -/

/-- What is pending is the end of all writes, if nothing failed and nothing was purged; what
stands before it makes whole batches and is committed. -/
def Settled (o : Options) (db : Database) (replies : List Reply) (s : Session σ) : Prop :=
  ∃ settled, allWrites o replies = settled ++ pendingWrites o replies ∧
    o.commitSize ∣ settled.length ∧ replay o.layout settled db = some s.durable

theorem settled_answer {db : Database} {replies : List Reply} {call : Operation} {reply : Reply}
    (hws : Gathered (pendingWrites s.options replies) s) (hsettled : Settled s.options db replies s)
    (hsmooth : reply.Smooth) (hopen : s'.isOpen = true) (h : Moved s call reply s') :
    Settled s.options db (replies ++ [reply]) s' := by
  obtain ⟨settled, hall, hdvd, hreplay⟩ := hsettled
  cases h with
  | @applied row forced result _ hp happlied hopen hclock =>
    cases happlied.joins hws with
    | nothing hw hpending hd _ _ =>
      refine ⟨settled, ?_, hdvd, by rw [hreplay, hd]⟩
      rw [allWrites_concat, hw, pendingWrites_concat, hpending, hall]
      exact List.append_nil _
    | pending w hw hpending _ _ hd _ =>
      refine ⟨settled, ?_, hdvd, by rw [hreplay, hd]⟩
      rw [allWrites_concat, hw, pendingWrites_concat, hpending, hall]
      exact List.append_assoc _ _ _
    | committed w hw hpending hreplayed hfull hd _ =>
      refine ⟨settled ++ (pendingWrites s.options replies ++ [w]), ?_, ?_, ?_⟩
      · rw [allWrites_concat, hw, pendingWrites_concat, hpending, hall, List.append_nil]
        exact List.append_assoc _ _ _
      · rw [List.length_append, hfull]
        exact Nat.dvd_add hdvd (Nat.dvd_refl _)
      · rw [replay_append, hreplay, hd]
        exact hreplayed
  | set hd hw hb hopen hclock =>
    refine ⟨settled, ?_, hdvd, by rw [hreplay, hd]⟩
    rw [allWrites_concat, pendingWrites_concat, hall]
    exact List.append_nil _
  | undone => cases hsmooth
  | swept => cases hsmooth
  | refused => cases hsmooth
  | closed hreply hd hclosed hclock =>
    rw [hclosed] at hopen
    cases hopen
  | finished hreply hd hclosed hclock =>
    rw [hclosed] at hopen
    cases hopen

/-- A session starts with an empty batch. -/
theorem gathered_begin {o : Options} {clock : Clock} {id : String} {c : σ}
    (hsound : Transactional.Sound c) (hbegin : begin o clock id c = .ok s) : Gathered [] s := by
  obtain ⟨hfit, -, -, hd, hw, hbatch, -⟩ := begin_spec hsound hbegin
  exact .nil hfit ⟨by rw [hbatch]; rfl, by rw [hbatch]; rfl⟩ (hw.trans hd.symm)

/-- **After every run of calls** the invariant holds of an open session. -/
theorem gathered_run (hs : s.Fit) (hempty : Gathered [] s) (calls : List Operation)
    (hopen : (s.run calls).2.isOpen = true) :
    Gathered (pendingWrites s.options (s.run calls).1) (s.run calls).2 ∧
      ((∀ reply ∈ (s.run calls).1, reply.Smooth) →
        Settled s.options s.durable (s.run calls).1 (s.run calls).2) := by
  induction calls using List.reverseRecOn with
  | nil => exact ⟨hempty, fun _ => ⟨[], rfl, Nat.dvd_zero _, rfl⟩⟩
  | append_singleton calls call ih =>
    rw [run_concat] at hopen ⊢
    obtain ⟨hfit, hsame⟩ := run_fit hs calls
    have hopen₁ : (s.run calls).2.isOpen = true := by
      cases hclosed : (s.run calls).2.isOpen with
      | true => rfl
      | false =>
        rw [answer_closed hclosed] at hopen
        rwa [hclosed] at hopen
    obtain ⟨hgathered, hsettled⟩ := ih hopen₁
    rw [← hsame.options] at hgathered hsettled ⊢
    obtain ⟨hfit', hsame', hmoved⟩ := answer_moved hfit hopen₁ call
    refine ⟨?_, fun hsmooth => ?_⟩
    · rw [pendingWrites_concat]
      exact (gathered_answer hgathered hfit' hsame' hmoved).1 hopen
    · have hlast := hsmooth _ (List.mem_append_right _ (List.mem_singleton.mpr rfl))
      have hbefore := hsettled fun reply hreply => hsmooth reply (List.mem_append_left _ hreply)
      exact settled_answer hgathered hbefore hlast hopen hmoved

/-- The first whole batches of a list. -/
theorem take_whole {α : Type} {settled rest : List α} {size : Nat} (hdvd : size ∣ settled.length)
    (hrest : rest.length < size) :
    (settled ++ rest).take (size * ((settled ++ rest).length / size)) = settled := by
  obtain ⟨k, hk⟩ := hdvd
  have hpos : 0 < size := Nat.lt_of_le_of_lt (Nat.zero_le _) hrest
  have hdiv : (settled ++ rest).length / size = k := by
    rw [List.length_append, hk, Nat.mul_add_div hpos, Nat.div_eq_of_lt hrest, Nat.add_zero]
  rw [hdiv, ← hk, List.take_left]

/-- A session is open as long as every call gets a result. -/
theorem open_of_told (hs : s.Fit) (hopen : s.isOpen = true) {calls : List Operation}
    (htold : ∀ reply ∈ (s.run calls).1, reply.result?.isSome = true) : (s.run calls).2.isOpen = true := by
  induction calls generalizing s with
  | nil => exact hopen
  | cons call calls ih =>
    rw [run_cons] at htold ⊢
    obtain ⟨hhead, htail⟩ := List.forall_mem_cons.mp htold
    obtain ⟨row, forced, result, s₁, rfl, hrun⟩ := processAs_of_result hhead
    obtain ⟨hfit, -, -, -, hopen₁, -⟩ := told_spec hs hrun
    rw [answer_row hrun] at htail ⊢
    exact ih hfit hopen₁ htail

/-- **If every call gets a result, exactly the writes of the whole batches are committed.** -/
theorem whole_batches (hs : s.Fit) (hempty : Gathered [] s) (hopen : s.isOpen = true)
    {calls : List Operation} (htold : ∀ reply ∈ (s.run calls).1, reply.result?.isSome = true) :
    let all := allWrites s.options (s.run calls).1
    replay s.options.layout (all.take (s.options.commitSize * (all.length / s.options.commitSize)))
      s.durable = some (s.run calls).2.durable := by
  have hopen' := open_of_told hs hopen htold
  obtain ⟨hgathered, hsettled⟩ := gathered_run hs hempty calls hopen'
  obtain ⟨settled, hall, hdvd, hreplay⟩ := hsettled fun reply hreply => by
    have hresult := htold reply hreply
    match reply, hresult with
    | .row (.ok (some result)), _ => trivial
  have hsmall := hgathered.small
  rw [(run_fit hs calls).2.options] at hsmall
  dsimp only
  rw [hall, take_whole hdvd hsmall]
  exact hreplay

/-- **Batches and commits.** After any calls, as long as the session is open: the batch holds the
rows of the writes since the last commit or rollback, as many as are pending and fewer than make a
batch; the session sees what was committed with these writes replayed; whatever is called next,
what was committed changes by whole rows only; and if every row succeeded and nothing was purged,
exactly the writes of the whole batches are committed. -/
theorem batch_boundaries {o : Options} {clock : Clock} {id : String} {c : σ} {s₀ : Session σ}
    (hsound : Transactional.Sound c) (hbegin : begin o clock id c = .ok s₀) (calls : List Operation)
    (hopen : (s₀.run calls).2.isOpen = true) :
    let s := (s₀.run calls).2
    let pending := pendingWrites o (s₀.run calls).1
    let all := allWrites o (s₀.run calls).1
    s.storage.batch.backup = pending.map Write.row ∧
    s.storage.batch.backup.length = s.storage.batch.pending ∧
    s.storage.batch.pending < o.commitSize ∧
    replay o.layout pending s.durable = some s.working ∧
    (∀ call, Boundary s pending (s.answer call).1 (s.answer call).2.durable) ∧
    ((∀ reply ∈ (s₀.run calls).1, reply.Smooth) →
      replay o.layout (all.take (o.commitSize * (all.length / o.commitSize)))
        (Transactional.durable c) = some s.durable) := by
  obtain ⟨hfit, hoptions, -, hd, -⟩ := begin_spec hsound hbegin
  obtain ⟨hfit', hsame⟩ := run_fit hfit calls
  obtain ⟨hgathered, hsettled⟩ := gathered_run hfit (gathered_begin hsound hbegin) calls hopen
  have hoptions' : (s₀.run calls).2.options = o := hsame.options.trans hoptions
  rw [hoptions] at hgathered hsettled
  have hsmall := hgathered.small
  have hreplayed := hgathered.replayed
  rw [hoptions'] at hsmall hreplayed
  refine ⟨hgathered.backup, ?_, ?_, hreplayed, fun call => ?_, fun hsmooth => ?_⟩
  · rw [hgathered.backup, hgathered.pending, List.length_map]
  · rw [hgathered.pending]
    exact hsmall
  · obtain ⟨hfit₂, hsame₂, hmoved⟩ := answer_moved hfit' hopen call
    exact (gathered_answer hgathered hfit₂ hsame₂ hmoved).2
  · obtain ⟨settled, hall, hdvd, hreplay⟩ := hsettled hsmooth
    rw [hall, take_whole hdvd hsmall, ← hd]
    exact hreplay

/-- Three rows, with a recovery that accepts every failure. -/
def Sample.threeRows : List Operation :=
  [.recovery Sample.acceptAll, .row (Sample.customer 1 "Ann" "Ulm") none,
    .row (Sample.customer 2 "Bo" "Bonn") none, .row (Sample.customer 1 "Ann" "Ulm") none]

/-- The commit of the first two writes is refused, so they are lost, and the third is pending. -/
theorem batch_boundaries_after_busy_commit :
    ∃ s₀ : Session (Traced Store),
      begin Sample.options Sample.clock "sample" (Sample.store [⟨.commit, 1, Sample.busy⟩]) = .ok s₀ ∧
      (s₀.run Sample.threeRows).2.isOpen = true ∧
      (pendingWrites Sample.options (s₀.run Sample.threeRows).1).length = 1 ∧
      replay Sample.options.layout (pendingWrites Sample.options (s₀.run Sample.threeRows).1)
        (s₀.run Sample.threeRows).2.durable = some (s₀.run Sample.threeRows).2.working := by
  have hcheck : okAnd (begin Sample.options Sample.clock "sample"
      (Sample.store [⟨.commit, 1, Sample.busy⟩])) (fun s₀ =>
        (s₀.run Sample.threeRows).2.isOpen &&
          (pendingWrites Sample.options (s₀.run Sample.threeRows).1).length = 1) = true := by
    rw [Store.connection_eq Sample.options]
    decide +kernel
  obtain ⟨s₀, hbegin, hs₀⟩ := exists_of_okAnd hcheck
  obtain ⟨hopen, hone⟩ := Bool.and_eq_true_iff.mp hs₀
  have hsound := Sample.sound_store [⟨.commit, 1, Sample.busy⟩] (by simp)
  obtain ⟨-, -, -, hreplay, -⟩ := batch_boundaries hsound hbegin Sample.threeRows hopen
  exact ⟨s₀, hbegin, hopen, of_decide_eq_true hone, hreplay⟩

end Session

end RowHistory
