import RowHistory.Proofs.Session.CommitSizes
import RowHistory.Proofs.Versions.Agreement

/-!
# What is counted

The counters of a session are added up from the statuses of its results and the numbers of its
purges. They account for what the statements did to the table. This file fixes

* what a call answers and does to the stored rows (`Posting`, `Session.Posts`), and calls one after
  the other (`Session.Posted`);
* the counters after some postings (`Counters.post`), which are those that a call leaves
  (`Posts.record`);
* that a version which a purge ended stays so (`Layout.Ended`), and hence is never ended again
  (`Layout.Accounted`, and `accounts_call` for a call);
* the main statement (`counters_account_for_rows`).
-/

namespace RowHistory

open Sql

/-! ## 1. Postings -/

/-- What a call answers and does to the stored rows: it sets cells of the rows at some places, and
adds rows behind all others. No row is removed or moved, so that a place stands for a stored
version. -/
structure Posting where
  reply : Reply
  places : List Nat
  cells : List (String × Cell)
  added : List (List Cell)

/-- The status that a reply tells. -/
def Reply.status? : Reply → Option RowStatus
  | .row (.ok (some result)) => some result.status
  | _ => none

namespace Posting

/-- The rows after a call. -/
def apply (p : Posting) (t : Table) (rows : List (List Cell)) : List (List Cell) :=
  rows.mapIdx (fun i r => if i ∈ p.places then t.put p.cells r else r) ++ p.added

/-- A row was processed, and its result is not purged. -/
def isInput (p : Posting) : Bool :=
  p.reply.status?.any fun status => status ≠ .purged

/-- A stored row was rewritten because the incoming one differs. -/
def isRewrite (p : Posting) : Bool :=
  p.reply.status?.any fun status => status = .changed ∨ status = .update

/-- Versions were purged: one of them by force, or all that were not seen. -/
def isPurge (p : Posting) : Bool :=
  match p.reply with
  | .row _ => p.reply.status? = some .purged
  | .purge _ => true
  | .ended _ => true
  | .recovery _ => false

/-- The places of the versions that were purged. -/
def ended (p : Posting) : List Nat :=
  if p.isPurge then p.places else []

theorem nodup_ended {p : Posting} (h : p.places.Nodup) : p.ended.Nodup := by
  unfold ended
  split
  · exact h
  · exact .nil

theorem length_apply (p : Posting) (t : Table) (rows : List (List Cell)) :
    (p.apply t rows).length = rows.length + p.added.length := by
  rw [apply, List.length_append, List.length_mapIdx]

/-- One row between others is set. -/
theorem apply_one (reply : Reply) (cells : List (String × Cell)) (added : List (List Cell)) (t : Table)
    (before after : List (List Cell)) (r : List Cell) :
    apply ⟨reply, [before.length], cells, added⟩ t (before ++ r :: after) =
      before ++ t.put cells r :: after ++ added := by
  unfold apply
  congr 1
  rw [List.mapIdx_eq_iff]
  intro i
  simp only [List.mem_singleton]
  obtain hlt | rfl | hlt := Nat.lt_trichotomy i before.length
  · rw [List.getElem?_append_left hlt, List.getElem?_append_left hlt, List.getElem?_eq_getElem hlt,
      Option.map_some, if_neg (Nat.ne_of_lt hlt)]
  · simp
  · obtain ⟨k, rfl⟩ : ∃ k, i = before.length + (k + 1) := ⟨i - before.length - 1, by omega⟩
    rw [List.getElem?_append_right (Nat.le_of_lt hlt), List.getElem?_append_right (Nat.le_of_lt hlt),
      Nat.add_sub_cancel_left]
    simp

/-- No row is set. -/
theorem apply_nowhere (reply : Reply) (cells : List (String × Cell)) (added : List (List Cell))
    (t : Table) (rows : List (List Cell)) : apply ⟨reply, [], cells, added⟩ t rows = rows ++ added := by
  unfold apply
  congr 1
  rw [List.mapIdx_eq_iff]
  intro i
  simp

end Posting

/-- The counters after postings. -/
def Counters.post (c : Counters) (ps : List Posting) : Counters where
  input := c.input + .ofNat (ps.countP Posting.isInput)
  output := c.output + .ofNat (ps.flatMap Posting.added).length
  updated := c.updated + .ofNat (ps.countP Posting.isRewrite)
  rejected := c.rejected + .ofNat (ps.flatMap Posting.ended).length

theorem Counters.post_cons (c : Counters) (p : Posting) (ps : List Posting) :
    (c.post [p]).post ps = c.post (p :: ps) := by
  have hcount : ∀ f : Posting → Bool, UInt64.ofNat ((p :: ps).countP f) =
      .ofNat ([p].countP f) + .ofNat (ps.countP f) := fun f => by
    rw [← UInt64.ofNat_add, ← List.countP_append, List.singleton_append]
  unfold post
  rw [hcount, hcount, List.flatMap_cons, List.length_append, UInt64.ofNat_add, List.flatMap_cons,
    List.length_append, UInt64.ofNat_add]
  simp [UInt64.add_assoc]

/-- A call that does nothing is not counted. -/
theorem Counters.post_idle (c : Counters) {reply : Reply} (h : reply.status? = none)
    (cells : List (String × Cell)) : c.post [⟨reply, [], cells, []⟩] = c := by
  simp [post, Posting.isInput, Posting.isRewrite, Posting.ended, h]

/-- A purge is counted by what it ends. -/
theorem Counters.addRejected_eq (c : Counters) {reply : Reply} {places : List Nat}
    {cells : List (String × Cell)} (hstatus : reply.status? = none)
    (hpurge : Posting.isPurge ⟨reply, places, cells, []⟩ = true) :
    c.addRejected places.length = c.post [⟨reply, places, cells, []⟩] := by
  simp [addRejected, post, Posting.isInput, Posting.isRewrite, Posting.ended, hstatus, hpurge]

namespace Session

variable {σ : Type}

/-- What a call of each kind does to the rows, by its answer. -/
inductive Posts (l : Layout) (t : Table) (s : Session σ) : Operation → Posting → Prop
  /-- A version is added. -/
  | added {row : Row} {forced : Option RowStatus} {result : RowResult} :
      result.status = .new ∨ result.status = .outdated →
      Posts l t s (.row row forced) ⟨.row (.ok (some result)), [], [],
        [l.freshRow t row result.version s.clock.next s.validTo]⟩
  /-- One version ends, and the next one is added. -/
  | changed {row : Row} {forced : Option RowStatus} {result : RowResult} {i : Nat} :
      result.status = .changed →
      Posts l t s (.row row forced) ⟨.row (.ok (some result)), [i],
        [(l.names.validTo, .text s.clock.next.storageText)],
        [l.freshRow t row result.version s.clock.next s.validTo]⟩
  /-- One version is changed in place. -/
  | updated {row : Row} {forced : Option RowStatus} {result : RowResult} {i : Nat} :
      result.status = .update →
      Posts l t s (.row row forced) ⟨.row (.ok (some result)), [i], l.renewedCells row s.clock.next, []⟩
  /-- One version is seen. -/
  | seen {row : Row} {forced : Option RowStatus} {result : RowResult} {i : Nat} :
      result.status = .identical →
      Posts l t s (.row row forced) ⟨.row (.ok (some result)), [i], l.seenCells s.clock.next, []⟩
  /-- One version is purged. -/
  | purged {row : Row} {forced : Option RowStatus} {result : RowResult} {i : Nat} :
      result.status = .purged →
      Posts l t s (.row row forced) ⟨.row (.ok (some result)), [i],
        [(l.names.validTo, .text s.clock.next.storageText)], []⟩
  /-- Nothing is done. -/
  | skipped {row : Row} {forced : Option RowStatus} {result : RowResult} :
      result.status = .skipped →
      Posts l t s (.row row forced) ⟨.row (.ok (some result)), [], [], []⟩
  /-- All versions are purged that were not seen. -/
  | swept {places : List Nat} :
      Posts l t s .purge ⟨.purge (.ok places.length), places,
        [(l.names.validTo, .text s.start.storageText)], []⟩
  /-- A recovery is set. -/
  | set {recovery : Recovery Failure} :
      Posts l t s (.recovery recovery) ⟨.recovery (.ok ()), [], [], []⟩
  /-- The session ends, and may purge before. -/
  | finished {places : List Nat} : (s.options.purge = false → places = []) →
      Posts l t s .finish ⟨.ended (.ok ()), places,
        [(l.names.validTo, .text s.start.storageText)], []⟩

/-- Calls one after the other, with the rows that the session sees before each of them: what a call
does sets rows that are there, each of them once. -/
inductive Posted [Connection σ] [Transactional σ] (l : Layout) (t : Table) :
    Session σ → List (List Cell) → List Operation → List Posting → List (List Cell) → Prop
  | nil {s : Session σ} {rows : List (List Cell)} : Posted l t s rows [] [] rows
  | cons {s : Session σ} {rows rows' : List (List Cell)} {call : Operation} {calls : List Operation}
      {p : Posting} {ps : List Posting} : s.working.find? l.table = some { t with rows } →
      s.Posts l t call p → p.reply = (s.answer call).1 → p.places.Nodup →
      (∀ i ∈ p.places, i < rows.length) →
      Posted l t (s.answer call).2 (p.apply t rows) calls ps rows' →
      Posted l t s rows (call :: calls) (p :: ps) rows'

theorem Posted.length [Connection σ] [Transactional σ] {l : Layout} {t : Table} {s : Session σ}
    {rows rows' : List (List Cell)} {calls : List Operation} {ps : List Posting}
    (h : Posted l t s rows calls ps rows') :
    rows'.length = rows.length + (ps.flatMap Posting.added).length := by
  induction h with
  | nil => rfl
  | cons _ _ _ _ _ _ ih =>
    rw [ih, Posting.length_apply, List.flatMap_cons, List.length_append, Nat.add_assoc]

/-- **A row is counted as what it did.** -/
theorem Posts.record {l : Layout} {t : Table} {s : Session σ} {row : Row}
    {forced : Option RowStatus} {result : RowResult} {p : Posting}
    (h : s.Posts l t (.row row forced) p) (hreply : p.reply = .row (.ok (some result)))
    (c : Counters) : c.record result.status = c.post [p] := by
  cases h with
  | added hstatus =>
    cases hreply
    obtain hstatus | hstatus := hstatus <;> rw [hstatus] <;>
      simp [Counters.record, Counters.post, Posting.isInput, Posting.isRewrite, Posting.ended,
        Posting.isPurge, Reply.status?, hstatus]
  | changed hstatus | updated hstatus | seen hstatus | purged hstatus | skipped hstatus =>
    cases hreply
    rw [hstatus]
    simp [Counters.record, Counters.post, Posting.isInput, Posting.isRewrite, Posting.ended,
      Posting.isPurge, Reply.status?, hstatus]

end Session

/-! ## 2. Versions that ended -/

namespace Layout

variable {l : Layout} {t : Table} {row : Row} {now cutoff : Instant} {horizon : Option Instant}
  {status : RowStatus} {n : Int} {rows rows' : List (List Cell)} {r : List Cell} {v : Version}
  {strict : Prop} {ticks ticks' : List Instant} {i : Nat}

/-- The version at a place has ended, at an instant that a tick has reached. -/
def Ended (l : Layout) (t : Table) (ticks : List Instant) (rows : List (List Cell)) (i : Nat) : Prop :=
  ∃ r v e, rows[i]? = some r ∧ l.Shows t r v ∧ v.validTo = some e ∧ Past ticks e

/-- It is not open after these ticks. -/
theorem Ended.not_open (h : l.Ended t ticks rows i) (hticks : ∀ k ∈ ticks, k < now)
    (hr : rows[i]? = some r) (hv : l.Shows t r v) : ¬ ∀ e ∈ v.validTo, now ≤ e := by
  obtain ⟨r', v', e, hr', hv', hto, hpast⟩ := h
  obtain rfl : r' = r := Option.some.inj (hr'.symm.trans hr)
  obtain rfl := hv'.unique hv
  exact fun hopen => absurd (hopen e hto) (not_le.mpr (hpast.lt hticks))

/-- **A step leaves versions alone that have ended.** -/
theorem Ended.step (h : l.Ended t ticks rows i)
    (hstep : Step l t row now horizon rows status n rows') (hs : l.Suits t)
    (hstored : ∀ r ∈ rows, l.Stored t r) (hticks : ∀ k ∈ ticks, k < now) (hnow : now.IsStorable) :
    l.Ended t (now :: ticks) rows' i := by
  obtain ⟨kept, hkept, rfl⟩ := hstep.turned hs hstored hnow
  have hinactive : ∀ {r v}, rows[i]? = some r → l.Shows t r v → ¬ v.ActiveAt now := fun hr hv hactive =>
    h.not_open hticks hr hv hactive.2
  obtain ⟨r, v, e, hr, hv, hto, hpast⟩ := h
  obtain ⟨hlength, hturned⟩ := List.forall₂_iff_get.mp hkept
  obtain ⟨hi, rfl⟩ := List.getElem?_eq_some_iff.mp hr
  have hi' : i < kept.length := hlength ▸ hi
  have hshow := (hturned i hi hi').shows v hv
  rw [if_neg fun hactive => hinactive hr hv hactive.2] at hshow
  refine ⟨_, v, e, ?_, hshow, hto, hpast.mono (List.subset_cons_self _ _)⟩
  rw [List.getElem?_append_left hi']
  exact List.getElem?_eq_getElem hi'

/-- What a call sets is there and is set once; what it purges has ended after it; and what had ended
before it is not purged, as long as its condition narrows the purge. -/
structure Accounted (l : Layout) (t : Table) (narrow : Prop) (ticks ticks' : List Instant)
    (rows : List (List Cell)) (p : Posting) : Prop where
  nodup : p.places.Nodup
  inside : ∀ i ∈ p.places, i < rows.length
  ends : ∀ i ∈ p.ended, l.Ended t ticks' (p.apply t rows) i
  stays : narrow → ∀ i, l.Ended t ticks rows i → i ∉ p.ended ∧ l.Ended t ticks' (p.apply t rows) i

theorem accounted_nothing (narrow : Prop) (ticks : List Instant) (rows : List (List Cell))
    (reply : Reply) (cells : List (String × Cell)) :
    l.Accounted t narrow ticks ticks rows ⟨reply, [], cells, []⟩ := by
  have hended : Posting.ended ⟨reply, [], cells, []⟩ = [] := ite_self _
  refine ⟨.nil, List.forall_mem_nil _, fun i hi => ?_, fun _ i hi => ⟨?_, ?_⟩⟩
  · rw [hended] at hi
    cases hi
  · rw [hended]
    exact List.not_mem_nil
  · rw [Posting.apply_nowhere, List.append_nil]
    exact hi

variable {σ : Type} {s : Session σ} {result : RowResult}

/-- **What a row does to the table is accounted for.** -/
theorem Step.accounted (forced : Option RowStatus)
    (hstep : Step l t row s.clock.next s.validTo rows result.status result.version rows')
    (hs : l.Suits t) (hchained : l.Chained t strict ticks rows) (hticks : ∀ k ∈ ticks, k < s.clock.next)
    (hnow : s.clock.next.IsStorable) (narrow : Prop) :
    ∃ p, s.Posts l t (.row row forced) p ∧ p.reply = .row (.ok (some result)) ∧
      rows' = p.apply t rows ∧ l.Accounted t narrow ticks (s.clock.next :: ticks) rows p := by
  have hstay : ∀ i, l.Ended t ticks rows i → l.Ended t (s.clock.next :: ticks) rows' i := fun i hi =>
    hi.step hstep hs hchained.stored hticks hnow
  have hplace : ∀ {before after : List (List Cell)} {r : List Cell},
      ∀ i ∈ [before.length], i < (before ++ r :: after).length := by
    intro before after r i hi
    rw [List.mem_singleton.mp hi]
    simp
  generalize hstatus : result.status = status at hstep
  generalize hversion : result.version = n at hstep
  -- All but a purge leave what has ended.
  have hkeeps : ∀ (places : List Nat) (cells : List (String × Cell)) (added : List (List Cell)),
      let p : Posting := ⟨.row (.ok (some result)), places, cells, added⟩
      s.Posts l t (.row row forced) p → rows' = p.apply t rows → status ≠ .purged →
      places.Nodup → (∀ i ∈ places, i < rows.length) →
      ∃ p, s.Posts l t (.row row forced) p ∧ p.reply = .row (.ok (some result)) ∧
        rows' = p.apply t rows ∧ l.Accounted t narrow ticks (s.clock.next :: ticks) rows p := by
    intro places cells added p hposts happly hne hnodup hinside
    have hended : p.ended = [] := by
      simp [p, Posting.ended, Posting.isPurge, Reply.status?, hstatus, hne]
    refine ⟨p, hposts, rfl, happly, hnodup, hinside, fun i hi => ?_, fun _ i hi => ⟨?_, ?_⟩⟩
    · rw [hended] at hi
      cases hi
    · rw [hended]
      exact List.not_mem_nil
    · exact happly ▸ hstay i hi
  cases hstep with
  | new _ =>
    exact hkeeps _ _ _ (.added (.inl hstatus)) (by rw [Posting.apply_nowhere, hversion]) nofun .nil
      (List.forall_mem_nil _)
  | outdated _ _ _ _ _ =>
    exact hkeeps _ _ _ (.added (.inr hstatus)) (by rw [Posting.apply_nowhere, hversion]) nofun .nil
      (List.forall_mem_nil _)
  | changed hone =>
    exact hkeeps _ _ _ (.changed hstatus) (by rw [Posting.apply_one, hversion]; rfl) nofun
      (List.nodup_singleton _) hplace
  | update hone =>
    exact hkeeps _ _ _ (.updated hstatus) (by rw [Posting.apply_one, List.append_nil]) nofun
      (List.nodup_singleton _) hplace
  | identical hone =>
    exact hkeeps _ _ _ (.seen hstatus) (by rw [Posting.apply_one, List.append_nil]) nofun
      (List.nodup_singleton _) hplace
  | @purged before after r v hone =>
    have happly := Posting.apply_one (.row (.ok (some result)))
      [(l.names.validTo, .text s.clock.next.storageText)] [] t before after r
    rw [List.append_nil] at happly
    have hended : Posting.ended ⟨.row (.ok (some result)), [before.length],
        [(l.names.validTo, .text s.clock.next.storageText)], []⟩ = [before.length] := by
      simp [Posting.ended, Posting.isPurge, Reply.status?, hstatus]
    have hr : (before ++ r :: after)[before.length]? = some r := by simp
    refine ⟨_, .purged hstatus, rfl, happly.symm, List.nodup_singleton _, hplace, fun i hi => ?_,
      fun _ i hi => ⟨fun hmem => ?_, happly ▸ hstay i hi⟩⟩
    · rw [hended, List.mem_singleton] at hi
      refine ⟨l.endedRow t s.clock.next r, { v with validTo := some s.clock.next }, s.clock.next, ?_,
        hone.shows.ended hs (hchained.stored r (mem_middle before after r)) hnow, rfl,
        past_head s.clock.next ticks⟩
      rw [hi, happly]
      simp [endedRow]
    · rw [hended, List.mem_singleton] at hmem
      exact hi.not_open hticks (hmem ▸ hr) hone.shows hone.active.2
  | skipped _ =>
    exact hkeeps _ _ _ (.skipped hstatus) (by rw [Posting.apply_nowhere, List.append_nil]) nofun .nil
      (List.forall_mem_nil _)

/-! ## 3. Purges -/

/-- The places of the rows that are picked. -/
def placesOf (picked : List Cell → Bool) (rows : List (List Cell)) : List Nat :=
  (List.range rows.length).filter fun i => rows[i]?.any picked

theorem mem_placesOf {picked : List Cell → Bool} :
    i ∈ placesOf picked rows ↔ ∃ r, rows[i]? = some r ∧ picked r = true := by
  unfold placesOf
  rw [List.mem_filter, List.mem_range, Option.any_eq_true]
  refine ⟨fun h => h.2, fun h => ⟨?_, h⟩⟩
  obtain ⟨r, hr, -⟩ := h
  exact (List.getElem?_eq_some_iff.mp hr).1

theorem length_placesOf (picked : List Cell → Bool) (rows : List (List Cell)) :
    (placesOf picked rows).length = (rows.filter picked).length := by
  unfold placesOf
  induction rows using List.reverseRecOn with
  | nil => rfl
  | append_singleton rows r ih =>
    have hbefore : (List.range rows.length).filter (fun i => (rows ++ [r])[i]?.any picked) =
        (List.range rows.length).filter fun i => rows[i]?.any picked :=
      List.filter_congr fun i hi => by rw [List.getElem?_append_left (List.mem_range.mp hi)]
    rw [List.length_append, List.length_singleton, List.range_succ, List.filter_append, hbefore,
      List.filter_append, List.length_append, List.length_append, ih]
    cases hp : picked r <;> simp [hp]

/-- To end the versions at the places of the rows that are picked is to sweep. -/
theorem apply_placesOf (picked : List Cell → Bool) (reply : Reply) (cutoff : Instant)
    (rows : List (List Cell)) :
    Posting.apply ⟨reply, placesOf picked rows, [(l.names.validTo, .text cutoff.storageText)], []⟩ t rows =
      rows.map (l.sweptRow t picked cutoff) := by
  show List.mapIdx _ rows ++ [] = _
  rw [List.append_nil, List.mapIdx_eq_iff]
  intro i
  rw [List.getElem?_map]
  cases hr : rows[i]? with
  | none => rfl
  | some r =>
    rw [Option.map_some, Option.map_some, sweptRow]
    congr 1
    refine if_congr ?_ rfl rfl
    show _ ↔ i ∈ placesOf picked rows
    rw [mem_placesOf, hr]
    exact ⟨fun hp => ⟨r, rfl, hp⟩, fun ⟨r', hr', hp⟩ => Option.some.inj hr' ▸ hp⟩

/-- **What a purge does to the table is accounted for**: it ends as many versions as it counts. -/
theorem Chained.accounted (hchained : l.Chained t strict ticks rows) (hs : l.Suits t)
    {judge : Judge} {db db' : Database} {count : Nat} {condition : Option String} (reply : Reply)
    (hfind : db.find? l.table = some { t with rows }) (hticks : ∀ k ∈ ticks, k < now)
    (hnow : now.IsStorable) (hcutoff : cutoff.IsStorable) (hlt : cutoff < now)
    (hreply : ∀ places cells added, Posting.isPurge ⟨reply, places, cells, added⟩ = true)
    (hswept : l.swept judge cutoff now condition db = some (.changed count, db')) :
    ∃ places : List Nat, places.length = count ∧
      let p : Posting := ⟨reply, places, [(l.names.validTo, .text cutoff.storageText)], []⟩
      db.Sets db' l.table { t with rows := p.apply t rows } ∧
      l.Accounted t (l.Narrows judge condition) ticks (now :: ticks) rows p := by
  obtain ⟨t', picked, ht', hpicks, hanswer, hdb⟩ := swept_eq hswept
  rw [hfind] at ht'
  obtain rfl := Option.some.inj ht'
  have hnot : l.Narrows judge condition → ∀ {i r}, l.Ended t ticks rows i → rows[i]? = some r →
      ¬ picked r = true := by
    intro hnarrow i r hi hr hp
    have hmem : r ∈ rows := List.mem_of_getElem? hr
    obtain ⟨v, hv⟩ := hchained.shows r hmem
    exact hi.not_open hticks hr hv (hchained.purge_open hnow hmem (hpicks hnarrow r hmem hp) hv)
  refine ⟨placesOf picked rows, (length_placesOf picked rows).trans (Answer.changed.inj hanswer).symm, ?_⟩
  intro p
  have hended : p.ended = placesOf picked rows := if_pos (hreply _ _ _)
  have happly : p.apply t rows = rows.map (l.sweptRow t picked cutoff) :=
    apply_placesOf picked reply cutoff rows
  refine ⟨?_, List.nodup_range.filter _, fun i hi => ?_, fun i hi => ?_, fun hnarrow i hi => ⟨?_, ?_⟩⟩
  · rw [happly, hdb (hchained.kept hs)]
    exact Database.sets_replace hfind rfl
  · exact List.mem_range.mp (List.mem_filter.mp hi).1
  · rw [hended, mem_placesOf] at hi
    obtain ⟨r, hr, hp⟩ := hi
    have hmem : r ∈ rows := List.mem_of_getElem? hr
    obtain ⟨v, hv⟩ := hchained.shows r hmem
    refine ⟨l.endedRow t cutoff r, { v with validTo := some cutoff }, cutoff, ?_,
      hv.ended hs (hchained.stored r hmem) hcutoff, rfl, now, List.mem_cons_self, le_of_lt hlt⟩
    rw [happly, List.getElem?_map, hr, Option.map_some, sweptRow, if_pos hp]
  · rw [hended, mem_placesOf]
    rintro ⟨r, hr, hp⟩
    exact hnot hnarrow hi hr hp
  · have hended' := hi
    obtain ⟨r, v, e, hr, hv, hto, hpast⟩ := hi
    refine ⟨r, v, e, ?_, hv, hto, hpast.mono (List.subset_cons_self _ _)⟩
    rw [happly, List.getElem?_map, hr, Option.map_some, sweptRow, if_neg (hnot hnarrow hended' hr)]

end Layout

/-! ## 4. Calls -/

namespace Session

variable {σ : Type} [Connection σ] [Transactional σ] {l : Layout} {t : Table} {s s' : Session σ}
  {ticks : List Instant} {rows : List (List Cell)} {call : Operation} {p : Posting}

/-- What a call does to the table is accounted for, and counted. -/
structure Accounts (l : Layout) (t : Table) (ticks : List Instant) (s : Session σ) (call : Operation)
    (rows : List (List Cell)) (p : Posting) : Prop where
  posts : s.Posts l t call p
  reply : p.reply = (s.answer call).1
  counters : (s.answer call).2.counters = s.counters.map (·.post [p])
  accounted : l.Accounted t (l.Narrows (Transactional.judge σ) s.options.purgeWhere) ticks
    (s.ticked (s.answer call).2 ++ ticks) rows p

variable (hs : l.Suits t) (h : Holds l t False ticks s)
  (hrows : s.working.find? l.table = some { t with rows })

include hs h hrows

theorem accounts_row {row : Row} {forced : Option RowStatus} (hrow : l.Admissible t row)
    (hyears : ∀ k ∈ s.ticked (s.answer (.row row forced)).2, k.InYears)
    (hok : (s.answer (.row row forced)).1.Succeeds) :
    ∃ p, s.Accounts l t ticks (.row row forced) rows p ∧
      (s.answer (.row row forced)).2.working.find? l.table = some { t with rows := p.apply t rows } := by
  obtain ⟨hp, hopen, result, s', hrun, hanswer⟩ := permitted_of_succeeds hok
  have hcall : s.processAs row forced = (.ok (some result), s') := (processAs_permitted hp row).trans hrun
  obtain ⟨-, -, -, -, -, hclock⟩ := told_spec h.fit hcall
  rw [hanswer] at hyears ⊢
  have hticked := ticked_tick hclock
  have htells : s.Tells l t ⟨row, forced, s.clock.next, result⟩ s' :=
    ⟨hrow, rfl, hyears _ (hticked ▸ List.mem_cons_self), hcall⟩
  have htold := htells.spec hs h
  obtain ⟨rows₁, rows', hrows₁, hchained, hstep, hsets, -⟩ := htold.step
  obtain rfl : rows = rows₁ := congrArg Table.rows (Option.some.inj (hrows.symm.trans hrows₁))
  obtain ⟨p, hposts, hreply, happly, haccounted⟩ := hstep.accounted forced hs hchained
    htold.after htold.storable (l.Narrows (Transactional.judge σ) s.options.purgeWhere)
  refine ⟨p, ⟨hposts, by rw [hanswer, hreply], ?_, by rw [hanswer, hticked]; exact haccounted⟩,
    happly ▸ hsets.table⟩
  rw [hanswer, processRow_counters h.fit hrun]
  exact congrArg (s.counters.map ·) (funext fun c => hposts.record hreply c)

theorem accounts_purge (hyears : ∀ k ∈ s.ticked (s.answer .purge).2, k.InYears)
    (hok : (s.answer .purge).1.Succeeds) :
    ∃ p, s.Accounts l t ticks .purge rows p ∧
      (s.answer .purge).2.working.find? l.table = some { t with rows := p.apply t rows } := by
  obtain ⟨n, s', hrun, hanswer⟩ := purge_of_succeeds hok
  obtain ⟨hopen, hpurged⟩ := purge_ok h.fit hrun
  obtain ⟨rows₁, hrows₁, hchained⟩ := h.working hopen
  obtain rfl : rows = rows₁ := congrArg Table.rows (Option.some.inj (hrows.symm.trans hrows₁))
  have hticked := ticked_tick hpurged.clock
  have hswept := hpurged.swept
  rw [h.layout] at hswept
  rw [hanswer] at hyears ⊢
  have hnow : s.clock.next.IsStorable := ⟨h.whole.next, hyears _ (hticked ▸ List.mem_cons_self)⟩
  obtain ⟨places, rfl, hsets, haccounted⟩ := hchained.accounted hs (.purge (.ok n)) hrows
    h.after hnow h.start h.started (fun _ _ _ => rfl) hswept
  refine ⟨_, ⟨.swept, by rw [hanswer], ?_, by rw [hanswer, hticked]; exact haccounted⟩, hsets.table⟩
  rw [hanswer, hpurged.counters]
  exact congrArg (s.counters.map ·) (funext fun c => c.addRejected_eq rfl rfl)

omit hs h in
theorem accounts_recovery (hopen : s.isOpen = true) (recovery : Recovery Failure) :
    ∃ p, s.Accounts l t ticks (.recovery recovery) rows p ∧
      (s.answer (.recovery recovery)).2.working.find? l.table =
        some { t with rows := p.apply t rows } := by
  have hanswer := answer_recovery hopen recovery
  have hclock : (s.answer (.recovery recovery)).2.clock = s.clock := by rw [hanswer]
  refine ⟨_, ⟨.set, by rw [hanswer], ?_, ?_⟩, ?_⟩
  · rw [hanswer]
    exact Option.map_id'.symm.trans
      (congrArg (s.counters.map ·) (funext fun c => (c.post_idle rfl _).symm))
  · rw [ticked_same hclock]
    exact Layout.accounted_nothing _ _ _ _ _
  · rw [hanswer, Posting.apply_nowhere, List.append_nil]
    exact hrows

/-- The end commits what the session sees, after a purge if that is wanted. -/
theorem accounts_finish (hyears : ∀ k ∈ s.ticked (s.answer .finish).2, k.InYears)
    (hok : (s.answer .finish).1.Succeeds) :
    ∃ p, s.Accounts l t ticks .finish rows p ∧
      (s.answer .finish).2.durable.find? l.table = some { t with rows := p.apply t rows } := by
  obtain ⟨s', hrun, hanswer⟩ := finish_of_succeeds hok
  obtain ⟨hopen, hend⟩ := finish_ok hrun
  rw [hanswer] at hyears ⊢
  cases hpurge : s.options.purge with
  | false =>
    rw [hpurge, if_neg Bool.false_ne_true] at hend
    obtain ⟨hd, hcounters, -, hclock, -⟩ := commitAndClose_ok h.fit hopen hend
    refine ⟨_, ⟨.finished fun _ => rfl, by rw [hanswer], ?_, ?_⟩, ?_⟩
    · rw [hanswer, hcounters]
      exact Option.map_id'.symm.trans
        (congrArg (s.counters.map ·) (funext fun c => (c.post_idle rfl _).symm))
    · rw [hanswer, ticked_same hclock]
      exact Layout.accounted_nothing _ _ _ _ _
    · rw [hd, Posting.apply_nowhere, List.append_nil]
      exact hrows
  | true =>
    rw [hpurge, if_pos rfl] at hend
    obtain ⟨n, s₁, hrun₁, hend⟩ := hend
    obtain ⟨-, hpurged⟩ := purge_ok h.fit hrun₁
    obtain ⟨hd, hcounters, -, hclock, -⟩ := commitAndClose_ok hpurged.fit hpurged.isOpen hend
    obtain ⟨rows₁, hrows₁, hchained⟩ := h.working hopen
    obtain rfl : rows = rows₁ := congrArg Table.rows (Option.some.inj (hrows.symm.trans hrows₁))
    have hticked := ticked_tick (hclock.trans hpurged.clock)
    have hswept := hpurged.swept
    rw [h.layout] at hswept
    have hnow : s.clock.next.IsStorable := ⟨h.whole.next, hyears _ (hticked ▸ List.mem_cons_self)⟩
    obtain ⟨places, rfl, hsets, haccounted⟩ := hchained.accounted hs (.ended (.ok ())) hrows
      h.after hnow h.start h.started (fun _ _ _ => rfl) hswept
    refine ⟨_, ⟨.finished fun hfalse => ?_, by rw [hanswer], ?_, by rw [hanswer, hticked]; exact haccounted⟩,
      by rw [hd]; exact hsets.table⟩
    · rw [hpurge] at hfalse
      cases hfalse
    · rw [hanswer, hcounters, hpurged.counters]
      exact congrArg (s.counters.map ·) (funext fun c => c.addRejected_eq rfl rfl)

/-- **A call that succeeds is accounted for**, as long as the session stays open. -/
theorem accounts_call (hrow : ∀ row forced, call = .row row forced → l.Admissible t row)
    (hyears : ∀ k ∈ s.ticked (s.answer call).2, k.InYears) (hok : (s.answer call).1.Succeeds)
    (hopen : (s.answer call).2.isOpen = true) :
    ∃ p, s.Accounts l t ticks call rows p ∧
      (s.answer call).2.working.find? l.table = some { t with rows := p.apply t rows } := by
  cases call with
  | row row forced => exact accounts_row hs h hrows (hrow row forced rfl) hyears hok
  | purge => exact accounts_purge hs h hrows hyears hok
  | finish => exact nomatch (closed_of_ended h.fit (.inl rfl)).symm.trans hopen
  | close => exact nomatch (closed_of_ended h.fit (.inr rfl)).symm.trans hopen
  | recovery recovery => exact accounts_recovery hrows (open_of_answer hopen) recovery

/-! ## 5. Runs -/

/-- **A run that succeeds is accounted for.** What has ended before it is not purged in it, as long as
its condition narrows the purge. -/
theorem posted_run {calls : List Operation}
    (hadmissible : ∀ row forced, .row row forced ∈ calls → l.Admissible t row)
    (hyears : ∀ k ∈ s.runTicks (calls ++ [.finish]), k.InYears)
    (hok : ∀ reply ∈ (s.run (calls ++ [.finish])).1, reply.Succeeds) :
    ∃ ps rows', Posted l t s rows (calls ++ [.finish]) ps rows' ∧
      (s.run (calls ++ [.finish])).2.durable.find? l.table = some { t with rows := rows' } ∧
      (s.run (calls ++ [.finish])).2.counters = s.counters.map (·.post ps) ∧
      (l.Narrows (Transactional.judge σ) s.options.purgeWhere → (ps.flatMap Posting.ended).Nodup ∧
        ∀ i, l.Ended t ticks rows i → i ∉ ps.flatMap Posting.ended) := by
  induction calls generalizing s rows ticks with
  | nil =>
    rw [List.nil_append, run_cons] at hok ⊢
    obtain ⟨p, haccounts, hdurable⟩ := accounts_finish hs h hrows
      (fun k hk => hyears k (List.mem_append_right _ hk)) (hok _ List.mem_cons_self)
    refine ⟨[p], _, .cons hrows haccounts.posts haccounts.reply haccounts.accounted.nodup
      haccounts.accounted.inside .nil, hdurable, haccounts.counters, fun hnarrow => ?_⟩
    rw [List.flatMap_singleton]
    exact ⟨Posting.nodup_ended haccounts.accounted.nodup,
      fun i hi => (haccounts.accounted.stays hnarrow i hi).1⟩
  | cons call calls ih =>
    rw [List.cons_append, run_cons] at hok ⊢
    obtain ⟨hsuccess, hrest⟩ := List.forall_mem_cons.mp hok
    have hticked : ∀ k ∈ s.ticked (s.answer call).2, k.InYears := fun k hk =>
      hyears k (List.mem_append_right _ hk)
    have hrow : ∀ row forced, call = .row row forced → l.Admissible t row := fun row forced hcall =>
      hadmissible row forced (hcall ▸ List.mem_cons_self)
    obtain ⟨p, haccounts, hrows'⟩ := accounts_call hs h hrows hrow hticked hsuccess (open_of_ended hrest)
    obtain ⟨ps, rows', hposted, hdurable, hcounters, hnodup⟩ := ih (h.answered hs hrow hticked) hrows'
      (fun row forced hmem => hadmissible row forced (List.mem_cons_of_mem _ hmem))
      (fun k hk => hyears k (List.mem_append_left _ hk)) hrest
    refine ⟨p :: ps, rows', .cons hrows haccounts.posts haccounts.reply haccounts.accounted.nodup
      haccounts.accounted.inside hposted, hdurable, ?_, fun hnarrow => ?_⟩
    · rw [hcounters, haccounts.counters, Option.map_map]
      exact congrArg (s.counters.map ·) (funext fun c => c.post_cons p ps)
    · rw [(answer_fit h.fit call).2.options] at hnodup
      obtain ⟨hlater, hdisjoint⟩ := hnodup hnarrow
      rw [List.flatMap_cons]
      refine ⟨(Posting.nodup_ended haccounts.accounted.nodup).append hlater fun i hi => ?_,
        fun i hi hmem => ?_⟩
      · exact hdisjoint i (haccounts.accounted.ends i hi)
      · obtain ⟨hnot, hstill⟩ := haccounts.accounted.stays hnarrow i hi
        exact (List.mem_append.mp hmem).elim hnot (hdisjoint i hstill)

end Session

variable {σ : Type} [Connection σ] [Transactional σ]

/-- **Counters account for the table.** Take any session that earlier ones lead to, with fresh
counters, and any calls that all succeed, the last of them its end. Then every call does to the
table what its answer says (`Posted`), and the counters, which are words of 64 bits, are: the rows
that were processed with another result than purged; the rows that the table has more than before;
the results of changed and update, each of which sets one stored row; and the versions that were
purged, by force or because they were not seen. No version is purged twice if the condition of the
session only narrows its purges. -/
theorem counters_account_for_rows {l : Layout} {t : Table} {c₀ : σ} {s : Session σ}
    {ticks : List Instant} {calls : List Operation} (hsound : Transactional.Sound c₀)
    (hs : l.Suits t) (hempty : t.rows = [])
    (hfind : (Transactional.durable c₀).find? l.table = some t)
    (h : Reaches l t False c₀ (.busy s) ticks)
    (hrows : ∀ row forced, .row row forced ∈ calls → l.Admissible t row)
    (hyears : ∀ k ∈ (s.counting (some {})).runTicks (calls ++ [.finish]), k.InYears)
    (hok : ∀ reply ∈ ((s.counting (some {})).run (calls ++ [.finish])).1, reply.Succeeds) :
    ∃ ps rows rows', s.working.find? l.table = some { t with rows } ∧
      Session.Posted l t (s.counting (some {})) rows (calls ++ [.finish]) ps rows' ∧
      ((s.counting (some {})).run (calls ++ [.finish])).2.durable.find? l.table =
        some { t with rows := rows' } ∧
      rows.length ≤ rows'.length ∧
      ((s.counting (some {})).run (calls ++ [.finish])).2.counters = some
        { input := .ofNat (ps.countP Posting.isInput)
          output := .ofNat (rows'.length - rows.length)
          updated := .ofNat (ps.countP Posting.isRewrite)
          rejected := .ofNat (ps.flatMap Posting.ended).length } ∧
      (l.Narrows (Transactional.judge σ) s.options.purgeWhere → (ps.flatMap Posting.ended).Nodup) := by
  have hholds : s.Holds l t False ticks := h.holds hsound hs hempty hfind
  have hholds' : (s.counting (some {})).Holds l t False ticks :=
    ⟨⟨hholds.fit.storage, hholds.fit.layout, hholds.fit.size, hholds.fit.valid⟩, hholds.layout,
      hholds.narrows, hholds.whole, hholds.after, hholds.started, hholds.start, hholds.horizon,
      hholds.durable, hholds.working⟩
  have hopen : s.isOpen = true := Session.open_of_ended (s := s.counting (some {})) hok
  obtain ⟨rows, hfound, -⟩ := hholds.working hopen
  obtain ⟨ps, rows', hposted, hdurable, hcounters, hnodup⟩ :=
    Session.posted_run hs hholds' hfound hrows hyears hok
  have hlength := hposted.length
  refine ⟨ps, rows, rows', hfound, hposted, hdurable, by omega, ?_, fun hnarrow => (hnodup hnarrow).1⟩
  rw [hcounters, hlength, Nat.add_sub_cancel_left]
  show some (Counters.post {} ps) = _
  simp [Counters.post]

namespace Sample

/-- A customer comes, is renamed and purged, and then all are who were not seen. -/
def visiting : List Operation :=
  [.row (customer 2 "Bo" "Bonn") none, .row (customer 2 "Bob" "Bonn") none,
    .row (customer 2 "Bob" "Bonn") (some .purged), .purge]

theorem admissible_visiting : ∀ row forced, .row row forced ∈ visiting →
    options.layout.Admissible table row := by
  have hrows : ∀ row ∈ [customer 2 "Bo" "Bonn", customer 2 "Bob" "Bonn"],
      options.layout.Admissible table row := by
    decide +kernel
  intro row forced hrow
  refine hrows row ?_
  simp only [visiting, List.mem_cons, Operation.row.injEq] at hrow
  simp only [List.mem_cons]
  tauto

/-- Sparing some customers narrows a purge. -/
theorem narrows_sparing : options.layout.Narrows (Transactional.judge (Traced Store)) sparing.purgeWhere :=
  Layout.narrows_of_isConjunct (by decide +kernel)

/-- All of these calls succeed in the session after the first one. -/
theorem visiting_succeeds :
    ∃ (s : Session (Traced Store)) (ticks : List Instant),
      Reaches options.layout table False (store []) (.busy s) ticks ∧
      (∀ k ∈ s.clock.ticks 5, k.InYears) ∧ s.options.purgeWhere = sparing.purgeWhere ∧
      (∀ reply ∈ ((s.counting (some {})).run (visiting ++ [.finish])).1, reply.Succeeds) ∧
      ((s.counting (some {})).run (visiting ++ [.finish])).2.counters = some ⟨2, 2, 1, 2⟩ := by
  have hcheck : returning.any (fun s =>
      decide ((∀ k ∈ s.clock.ticks 5, k.InYears) ∧ s.options.purgeWhere = sparing.purgeWhere) &&
      (fun told : List Reply × Session (Traced Store) =>
        decide ((∀ reply ∈ told.1, reply.Succeeds) ∧ told.2.counters = some ⟨2, 2, 1, 2⟩))
        ((s.counting (some {})).run (visiting ++ [.finish]))) = true := by
    rw [returning, ran, Store.connection_eq sparing]
    decide +kernel
  obtain ⟨s, ticks, hreaches, hs⟩ := reached_of_returning hcheck
  obtain ⟨hopening, htold⟩ := Bool.and_eq_true_iff.mp hs
  obtain ⟨hyears, hwhere⟩ := of_decide_eq_true hopening
  obtain ⟨hok, hcounters⟩ := of_decide_eq_true htold
  exact ⟨s, ticks, hreaches, hyears, hwhere, hok, hcounters⟩

/-- A session from its start to its end, with fresh counters. -/
def tallied (o : Options) (c : Traced Store) (calls : List Operation) :
    Option (List Reply × Session (Traced Store)) :=
  (Session.begin o clock "sample" c).toOption.map fun s =>
    (s.counting (some {})).run (calls ++ [.finish])

/-- All replies of a session are successes, with counters and ends of the rows of an identifier. -/
def Tallies (o : Options) (c : Traced Store) (calls : List Operation) (w : Row) (n : Counters)
    (ends : List (List Cell)) : Prop :=
  ∃ replies s', tallied o c calls = some (replies, s') ∧ (∀ reply ∈ replies, reply.Succeeds) ∧
    s'.counters = some n ∧ cells w ["t"] s'.durable = some ends

theorem tallies_of_any {o : Options} {c : Traced Store} {calls : List Operation} {w : Row}
    {n : Counters} {ends : List (List Cell)}
    (h : (tallied o c calls).any (fun told => decide ((∀ reply ∈ told.1, reply.Succeeds) ∧
      told.2.counters = some n ∧ cells w ["t"] told.2.durable = some ends)) = true) :
    Tallies o c calls w n ends := by
  obtain ⟨⟨replies, s'⟩, htallied, hreplies⟩ := (Option.any_eq_true _ _).mp h
  exact ⟨replies, s', htallied, of_decide_eq_true hreplies⟩

/-- The start of the validity stands in a field, too. -/
def starting : Options :=
  { table := "items"
    names := { validFrom := "f", validTo := "t", version := "v" }
    fields := ⟨[⟨"i", .id, .integer⟩, ⟨"F", .compare, .string⟩]⟩ }

/-- An item with a start. -/
def startingItem (start : String) : Row :=
  (Row.empty.set "i" (.int64 1)).set "F" (.text start)

end Sample

/-- Two versions are purged: one of a row that is to be purged, and one that was not seen and is not
spared. -/
theorem visiting_customers_accounted :
    ∃ (s s' : Session (Traced Store)) (ticks : List Instant) (ps : List Posting)
      (rows rows' : List (List Cell)),
      Reaches Sample.options.layout Sample.table False (Sample.store []) (.busy s) ticks ∧
      ((s.counting (some {})).run (Sample.visiting ++ [.finish])).2 = s' ∧
      s'.counters = some ⟨2, 2, 1, 2⟩ ∧
      Session.Posted Sample.options.layout Sample.table (s.counting (some {})) rows
        (Sample.visiting ++ [.finish]) ps rows' ∧
      s'.durable.find? "customers" = some { Sample.table with rows := rows' } ∧
      (2 : UInt64) = .ofNat (rows'.length - rows.length) ∧
      (2 : UInt64) = .ofNat (ps.flatMap Posting.ended).length ∧
      (ps.flatMap Posting.ended).Nodup := by
  obtain ⟨s, ticks, hreaches, hyears, hwhere, hok, hcounters⟩ := Sample.visiting_succeeds
  have hsound := Sample.sound_store [] (List.forall_mem_nil _)
  have hholds : s.Holds _ _ False ticks := hreaches.holds hsound Sample.suits_table rfl (by decide +kernel)
  have hfit : (s.counting (some {})).Fit :=
    ⟨hholds.fit.storage, hholds.fit.layout, hholds.fit.size, hholds.fit.valid⟩
  obtain ⟨ps, rows, rows', -, hposted, hdurable, -, hcounted, hnodup⟩ := counters_account_for_rows
    hsound Sample.suits_table rfl (by decide +kernel) hreaches Sample.admissible_visiting
    (fun k hk => hyears k (Session.runTicks_subset hfit _ hk)) hok
  obtain ⟨-, houtput, -, hrejected⟩ := Counters.mk.inj (Option.some.inj (hcounters.symm.trans hcounted))
  exact ⟨s, _, ticks, ps, rows, rows', hreaches, rfl, hcounters, hposted, hdurable, houtput, hrejected,
    hnodup (hwhere ▸ Sample.narrows_sparing)⟩

/-- **Counters that miss versions, and one that counts a version twice.** An identifier that is not
found again has two active rows, and so has one whose start stands in a field of the same name: both
rows are purged for one result. A condition that widens the purge ends one version twice. -/
theorem purged_versions_miscounted :
    Sample.Tallies (Sample.sizes "n" none) (Sample.itemStore .real [])
      [.row Sample.inexact none, .row Sample.inexact none,
        .row (Sample.item 9007199254740992 "n" 1) (some .purged)]
      (Sample.item 9007199254740992 "n" 1) ⟨2, 2, 0, 1⟩
      [[.text "2024-01-01 00:00:00.000003"], [.text "2024-01-01 00:00:00.000003"]] ∧
    Sample.Tallies Sample.starting (Sample.itemStore .integer [])
      [.row (Sample.startingItem "3000-01-01 00:00:00.000000") none,
        .row (Sample.startingItem "2000-01-01 00:00:00.000000") none,
        .row (Sample.startingItem "2000-01-01 00:00:00.000000") (some .purged)]
      (Sample.item 1 "n" 1) ⟨2, 2, 0, 1⟩
      [[.text "2024-01-01 00:00:00.000003"], [.text "2024-01-01 00:00:00.000003"]] ∧
    Sample.Tallies { Sample.sizes "n" (some "s") with purgeWhere := some "1 = 1) OR (1 = 1" }
      (Sample.itemStore .integer []) [.row (Sample.item 1 "n" 1) none, .purge, .purge]
      (Sample.item 1 "n" 1) ⟨1, 1, 0, 2⟩ [[.text "2024-01-01 00:00:00.000000"]] := by
  refine ⟨Sample.tallies_of_any ?_, Sample.tallies_of_any ?_, Sample.tallies_of_any ?_⟩ <;>
    rw [Sample.tallied, Sample.durable_eq]
  · rw [Store.connection_eq (Sample.sizes "n" none)]
    decide +kernel
  · rw [Store.connection_eq Sample.starting]
    decide +kernel
  · rw [Store.connection_eq { Sample.sizes "n" (some "s") with purgeWhere := some "1 = 1) OR (1 = 1" }]
    decide +kernel

end RowHistory
