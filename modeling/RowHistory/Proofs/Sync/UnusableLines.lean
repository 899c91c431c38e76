import RowHistory.Proofs.Connection.Initial
import RowHistory.Proofs.Session.Batches
import RowHistory.Proofs.Session.Parallel
import RowHistory.Sync

/-!
# Unusable lines

A run over an input stops at the first line that cannot be used. What was printed until then stays,
and is what a run over the lines before would print; of the rows before, the whole batches are
committed and the rest is lost. This file fixes

* the lines of an input that is cut (`Sync.cut`), and the rows that lines ask for (`Sync.Reads`);
* the texts that cannot be used (`Sync.Unusable`), which are those that no row can be read from
  (`readRow_unusable`, `unusable_of_error`), so that lines ask for rows just if none of them offends
  (`exists_reads_iff`);
* a run over lines that can be used (`runLines_reads`), and what it leaves in a database
  (`committed_told`) that keeps transactions once it is connected (`Backed`), like a file, whatever is
  run on a new connection (`backed_store`);
* that the time does not matter if the start lies ahead of all that is read (`start_alike`);
* the main statement (`stops_at_unusable_line`).
-/

namespace RowHistory

open Sql (Database)

namespace Sync

/-! ## 1. Lines -/

/-- The first lines of an input. -/
def cut : Nat → List UInt8 → List UInt8
  | 0, _ => []
  | _ + 1, [] => []
  | n + 1, b :: bytes => b :: if b = 10 then cut n bytes else cut (n + 1) bytes

theorem cut_zero (bytes : List UInt8) : cut 0 bytes = [] := by
  cases bytes <;> rfl

/-- The lines of the first lines, behind those of a line that is being read. -/
theorem linesFrom_cut (n : Nat) (current bytes : List UInt8) :
    linesFrom current (cut (n + 1) bytes) = (linesFrom current bytes).take (n + 1) := by
  induction bytes generalizing n current with
  | nil =>
    unfold cut linesFrom
    split <;> simp
  | cons b bytes ih =>
    unfold cut linesFrom
    by_cases hb : b = 10
    · rw [if_pos hb, if_pos hb, if_pos hb, List.take_succ_cons]
      cases n with
      | zero => rw [cut_zero, List.take_zero]; rfl
      | succ n => rw [ih]
    · rw [if_neg hb, if_neg hb, if_neg hb, ih]

/-- **An input that is cut has the lines before the cut.** -/
theorem splitLines_cut (n : Nat) (bytes : List UInt8) :
    splitLines (cut n bytes) = (splitLines bytes).take n := by
  cases n with
  | zero => rw [cut_zero, List.take_zero]; rfl
  | succ n => exact linesFrom_cut n [] bytes

/-- A line that holds nothing but blanks. -/
def isBlank (line : List UInt8) : Bool :=
  (Utf8.decode? line).any Text.allBlank

/-- The calls that lines ask for, behind a number of other lines. -/
inductive Reads (fields : Classification) : Nat → List (List UInt8) → List Operation → Prop
  | nil (n : Nat) : Reads fields n [] []
  | blank {n : Nat} {line : List UInt8} {lines : List (List UInt8)} {calls : List Operation} :
      isBlank line = true → Reads fields (n + 1) lines calls → Reads fields n (line :: lines) calls
  | row {n : Nat} {line : List UInt8} {lines : List (List UInt8)} {calls : List Operation}
      {text : String} {row : Row} {status : Option RowStatus} : Utf8.decode? line = some text →
      Text.allBlank text = false → readRow fields (n + 1) text = .ok (row, status) →
      Reads fields (n + 1) lines calls → Reads fields n (line :: lines) (.row row status :: calls)

/-- Every line that is not blank asks for one row. -/
theorem Reads.length {fields : Classification} {n : Nat} {lines : List (List UInt8)}
    {calls : List Operation} (h : Reads fields n lines calls) :
    calls.length = lines.countP fun line => !isBlank line := by
  induction h with
  | nil => rfl
  | blank hblank _ ih => rw [List.countP_cons_of_neg (by simp [hblank]), ih]
  | row htext hblank _ _ ih =>
    rw [List.length_cons, List.countP_cons_of_pos (by simp [isBlank, htext, hblank]), ih]

/-- A text that holds no row: it is no JSON, or no object, or what it says of a status is none, or a
value is not of the type of its field. -/
inductive Unusable (fields : Classification) (text : String) : Prop
  | json : Json.readPlain? text = none → Unusable fields text
  | object {json : Json} : Json.readPlain? text = some json → (∀ members, json ≠ .obj members) →
      Unusable fields text
  | status {members : List (String × Json)} {found : Json} :
      Json.readPlain? text = some (.obj members) → Assoc.find? statusKey members = some found →
      found ≠ .null → (∀ name, found = .str name → RowStatus.ofName? name = none) →
      Unusable fields text
  | value {members : List (String × Json)} {e : FieldError} :
      Json.readPlain? text = some (.obj members) →
      fields.rowOfJson (.obj (Assoc.erase statusKey members)) = .error e → Unusable fields text

theorem takeStatus_status {members : List (String × Json)} {found : Json} (n : Nat)
    (hfound : Assoc.find? statusKey members = some found) (hnull : found ≠ .null)
    (hname : ∀ name, found = .str name → RowStatus.ofName? name = none) :
    ∃ message, takeStatus n (.obj members) = .error (.input n message) := by
  simp only [takeStatus, hfound]
  cases found with
  | null => exact absurd rfl hnull
  | str name =>
    dsimp only
    rw [hname name rfl]
    exact ⟨_, rfl⟩
  | bool | int | real | arr | obj => exact ⟨_, rfl⟩

/-- A row that is left behind its status is an object. -/
theorem takeStatus_ok {json rest : Json} {n : Nat} {status : Option RowStatus}
    (h : takeStatus n json = .ok (status, rest)) :
    ∃ members, json = .obj members ∧ rest = .obj (Assoc.erase statusKey members) := by
  unfold takeStatus at h
  split at h
  · split at h
    · cases h
      exact ⟨_, rfl, rfl⟩
    · cases h
      exact ⟨_, rfl, rfl⟩
    · split at h
      · cases h
        exact ⟨_, rfl, rfl⟩
      · cases h
    · cases h
  · cases h

theorem takeStatus_error {json : Json} {n : Nat} {e : RunError} (h : takeStatus n json = .error e) :
    (∃ message, e = .input n message) ∧ ((∀ members, json ≠ .obj members) ∨
      ∃ members found, json = .obj members ∧ Assoc.find? statusKey members = some found ∧
        found ≠ .null ∧ ∀ name, found = .str name → RowStatus.ofName? name = none) := by
  unfold takeStatus at h
  split at h
  · split at h
    · cases h
    · cases h
    · rename_i name hfound
      split at h
      · cases h
      · rename_i hname
        cases h
        refine ⟨⟨_, rfl⟩, .inr ⟨_, _, rfl, hfound, nofun, ?_⟩⟩
        intro name' heq
        cases heq
        exact hname
    · rename_i found hnull hname hfound
      cases h
      exact ⟨⟨_, rfl⟩, .inr ⟨_, _, rfl, hfound, fun heq => hnull heq,
        fun name heq => absurd heq (hname name)⟩⟩
  · rename_i hobject
    cases h
    exact ⟨⟨_, rfl⟩, .inl hobject⟩

/-- **An unusable text is an error of its line.** -/
theorem readRow_unusable {fields : Classification} {text : String} (h : Unusable fields text) (n : Nat) :
    ∃ message, readRow fields n text = .error (.input n message) := by
  unfold readRow
  cases h with
  | json hread =>
    rw [hread]
    exact ⟨_, rfl⟩
  | @object json hread hobject =>
    rw [hread]
    cases json with
    | obj members => exact absurd rfl (hobject members)
    | null | bool | int | real | str | arr => exact ⟨_, rfl⟩
  | status hread hfound hnull hname =>
    obtain ⟨message, htake⟩ := takeStatus_status n hfound hnull hname
    rw [hread]
    dsimp only
    rw [htake]
    exact ⟨message, rfl⟩
  | @value members e hread hvalue =>
    rw [hread]
    dsimp only
    cases htake : takeStatus n (.obj members) with
    | error failure =>
      obtain ⟨⟨message, rfl⟩, -⟩ := takeStatus_error htake
      exact ⟨message, rfl⟩
    | ok taken =>
      obtain ⟨status, rest⟩ := taken
      obtain ⟨_, heq, rfl⟩ := takeStatus_ok htake
      cases heq
      dsimp only
      rw [hvalue]
      exact ⟨_, rfl⟩

/-- Only an unusable text is an error. -/
theorem unusable_of_error {fields : Classification} {text : String} {n : Nat} {e : RunError}
    (h : readRow fields n text = .error e) : Unusable fields text := by
  unfold readRow at h
  split at h
  · rename_i hread
    exact .json hread
  · rename_i json hread
    split at h
    · rename_i htake
      obtain ⟨-, hobject | ⟨members, found, rfl, hfound, hnull, hname⟩⟩ := takeStatus_error htake
      · exact .object hread hobject
      · exact .status hread hfound hnull hname
    · rename_i htake
      obtain ⟨members, rfl, rfl⟩ := takeStatus_ok htake
      split at h
      · rename_i hvalue
        exact .value hread hvalue
      · cases h

/-- A line that cannot be used: it is not blank, and its text is unusable. -/
def Offends (fields : Classification) (line : List UInt8) : Prop :=
  ∃ text, Utf8.decode? line = some text ∧ Text.allBlank text = false ∧ Unusable fields text

/-- **Lines of text ask for calls just if none of them offends.** -/
theorem exists_reads_iff {fields : Classification} {lines : List (List UInt8)} (n : Nat) :
    (∃ calls, Reads fields n lines calls) ↔
      ∀ line ∈ lines, (Utf8.decode? line).isSome = true ∧ ¬ Offends fields line := by
  constructor
  · rintro ⟨calls, hreads⟩
    induction hreads with
    | nil => exact List.forall_mem_nil _
    | blank hblank _ ih =>
      obtain ⟨text, htext, hblank⟩ := (Option.any_eq_true _ _).mp hblank
      refine List.forall_mem_cons.mpr ⟨⟨by rw [htext]; rfl, ?_⟩, ih⟩
      rintro ⟨text', htext', hblank', -⟩
      cases htext.symm.trans htext'
      exact nomatch hblank.symm.trans hblank'
    | row htext _ hread _ ih =>
      refine List.forall_mem_cons.mpr ⟨⟨by rw [htext]; rfl, ?_⟩, ih⟩
      rintro ⟨text', htext', -, hunusable⟩
      cases htext.symm.trans htext'
      obtain ⟨message, herror⟩ := readRow_unusable hunusable _
      exact nomatch hread.symm.trans herror
  · intro h
    induction lines generalizing n with
    | nil => exact ⟨[], .nil n⟩
    | cons line lines ih =>
      obtain ⟨⟨hsome, husable⟩, hlines⟩ := List.forall_mem_cons.mp h
      obtain ⟨text, htext⟩ := Option.isSome_iff_exists.mp hsome
      obtain ⟨calls, hcalls⟩ := ih (n + 1) hlines
      cases hblank : Text.allBlank text with
      | true => exact ⟨calls, .blank (by rw [isBlank, htext]; exact hblank) hcalls⟩
      | false =>
        cases hread : readRow fields (n + 1) text with
        | error e => exact absurd ⟨text, htext, hblank, unusable_of_error hread⟩ husable
        | ok read => exact ⟨_, .row htext hblank hread hcalls⟩

/-! ## 2. Runs -/

section Runs

variable {σ : Type} [Connection σ]

/-- What is printed of replies. -/
def printed (replies : List Reply) : List Json :=
  (replies.filterMap Reply.result?).map RowResult.toJson

theorem printed_cons {reply : Reply} {result : RowResult} (h : reply.result? = some result)
    (replies : List Reply) : printed (reply :: replies) = result.toJson :: printed replies := by
  unfold printed
  rw [List.filterMap_cons_some h, List.map_cons]

theorem length_printed {replies : List Reply}
    (h : ∀ reply ∈ replies, reply.result?.isSome = true) : (printed replies).length = replies.length := by
  induction replies with
  | nil => rfl
  | cons reply replies ih =>
    obtain ⟨hhead, htail⟩ := List.forall_mem_cons.mp h
    obtain ⟨result, hresult⟩ := Option.isSome_iff_exists.mp hhead
    rw [printed_cons hresult, List.length_cons, List.length_cons, ih htail]

theorem step_blank {s : Sync σ} {line : List UInt8} (h : isBlank line = true) :
    s.step line = (.ok none, { s with line := s.line + 1 }) := by
  obtain ⟨text, htext, hblank⟩ := (Option.any_eq_true _ _).mp h
  unfold step
  rw [htext]
  exact if_pos hblank

theorem step_row {s : Sync σ} {line : List UInt8} {text : String} {row : Row}
    {status : Option RowStatus} {result : RowResult} {session : Session σ}
    (htext : Utf8.decode? line = some text) (hblank : Text.allBlank text = false)
    (hread : readRow s.fields (s.line + 1) text = .ok (row, status))
    (hrun : s.session.processAs row status = (.ok (some result), session)) :
    s.step line = (.ok (some result.toJson), { s with session, line := s.line + 1 }) := by
  unfold step
  rw [htext]
  dsimp only
  rw [hblank, hread]
  dsimp only
  rw [hrun]
  rfl

theorem step_unusable {s : Sync σ} {line : List UInt8} {text : String}
    (htext : Utf8.decode? line = some text) (hblank : Text.allBlank text = false)
    (h : Unusable s.fields text) : ∃ message,
      s.step line = (.error (.input (s.line + 1) message), { s with line := s.line + 1 }) := by
  obtain ⟨message, hread⟩ := readRow_unusable h (s.line + 1)
  unfold step
  rw [htext]
  dsimp only
  rw [hblank, hread]
  exact ⟨message, rfl⟩

/-- The lines that are left, with the readings of one clock. -/
def runLines (s : Sync σ) (output : List Json) (lines : List (List UInt8)) : Report σ :=
  Id.run (s.driveLines pure output lines)

theorem runLines_nil (s : Sync σ) (output : List Json) :
    s.runLines output [] = match s.finish with
      | (.ok last, s) => s.report (output ++ [last]) none
      | (.error e, s) => s.report output (some e) :=
  rfl

theorem runLines_cons (s : Sync σ) (output : List Json) (line : List UInt8)
    (lines : List (List UInt8)) : s.runLines output (line :: lines) = match s.step line with
      | (.error e, s) => s.report output (some e)
      | (.ok answer, s) => s.runLines (output ++ answer.toList) lines :=
  rfl

theorem run_start {o : Options} {clock : Clock} {id : String} {c : σ} {s : Sync σ}
    (h : start o clock id c = .ok s) (bytes : List UInt8) :
    run o clock id (.ok bytes) c = s.runLines [] (splitLines bytes) := by
  unfold run drive
  rw [pure_bind, h]
  rfl

/-- **A run over lines that can be used** asks the session for their rows, and prints one line for
each of them. -/
theorem runLines_reads {fields : Classification} {n : Nat} {lines : List (List UInt8)}
    {calls : List Operation} (hreads : Reads fields n lines calls) {session : Session σ}
    (htold : ∀ reply ∈ (session.run calls).1, reply.result?.isSome = true) (output : List Json)
    (rest : List (List UInt8)) :
    runLines { fields, session, line := n } output (lines ++ rest) =
      runLines { fields, session := (session.run calls).2, line := n + lines.length }
        (output ++ printed (session.run calls).1) rest := by
  induction hreads generalizing session output with
  | nil n => rw [show printed (session.run []).1 = [] from rfl, List.append_nil]; rfl
  | @blank n line lines calls hblank _ ih =>
    rw [List.cons_append, runLines_cons, step_blank hblank]
    dsimp only
    rw [ih htold, Option.toList_none, List.append_nil, List.length_cons, Nat.add_assoc n,
      Nat.add_comm 1]
  | @row n line lines calls text row status htext hblank hread _ ih =>
    rw [Session.run_cons] at htold ⊢
    obtain ⟨hhead, htail⟩ := List.forall_mem_cons.mp htold
    obtain ⟨_, _, result, session₁, heq, hrun⟩ := Session.processAs_of_result hhead
    cases heq
    rw [Session.answer_row hrun] at htail ⊢
    rw [List.cons_append, runLines_cons,
      step_row (s := { fields, session, line := n }) htext hblank hread hrun]
    dsimp only
    have hprinted : printed (.row (.ok (some result)) :: (session₁.run calls).1) =
        result.toJson :: printed (session₁.run calls).1 := printed_cons rfl _
    rw [ih htail, hprinted, Option.toList_some, List.append_assoc, List.singleton_append,
      List.length_cons, Nat.add_assoc n, Nat.add_comm 1]

/-- What a run printed for rows: all its lines but the counters, which come last if it ended
well. -/
def Report.rows (r : Report σ) : List Json :=
  if r.error.isNone then r.output.dropLast else r.output

theorem rows_runLines_nil (s : Sync σ) (output : List Json) : (s.runLines output []).rows = output := by
  rw [runLines_nil]
  split
  · exact List.dropLast_concat
  · rfl

variable {o : Options} {clock : Clock} {id : String} {c : σ} {session : Session σ}
  {lines : List (List UInt8)} {calls : List Operation}

/-- A run over an input whose lines can all be used prints their results. -/
theorem rows_run (hstart : start o clock id c = .ok { fields := o.fields, session })
    {bytes : List UInt8} (hlines : splitLines bytes = lines) (hreads : Reads o.fields 0 lines calls)
    (htold : ∀ reply ∈ (session.run calls).1, reply.result?.isSome = true) :
    (run o clock id (.ok bytes) c).rows = printed (session.run calls).1 := by
  have hall := runLines_reads hreads htold [] []
  rw [List.append_nil, List.nil_append] at hall
  rw [run_start hstart, hlines, hall, rows_runLines_nil]

/-- A run over an input with a line that cannot be used is dropped there. -/
theorem run_unusable (hstart : start o clock id c = .ok { fields := o.fields, session })
    {bytes line : List UInt8} {after : List (List UInt8)}
    (hlines : splitLines bytes = lines ++ line :: after) (hreads : Reads o.fields 0 lines calls)
    (htold : ∀ reply ∈ (session.run calls).1, reply.result?.isSome = true) {text : String}
    (htext : Utf8.decode? line = some text) (hblank : Text.allBlank text = false)
    (hunusable : Unusable o.fields text) :
    let ended := (session.run calls).2.close.2.storage
    ∃ message, run o clock id (.ok bytes) c =
      { output := printed (session.run calls).1, log := ended.log, connection := ended.connection
        error := some (.input (lines.length + 1) message) } := by
  obtain ⟨message, hstep⟩ := step_unusable
    (s := { fields := o.fields, session := (session.run calls).2, line := 0 + lines.length })
    htext hblank hunusable
  refine ⟨message, ?_⟩
  rw [run_start hstart, hlines, runLines_reads hreads htold, runLines_cons, hstep, Nat.zero_add]
  rfl

end Runs

/-! ## 3. What is left in a database -/

/-- Once it is connected, a database answers like one that keeps transactions, on which nothing is
pending. -/
structure Backed {σ τ : Type} [Connection σ] [Connection τ] [Transactional τ] (R : σ → τ → Prop)
    (c : σ) : Prop where
  parallel : Connection.Parallel R
  opened : ∀ c', Connection.perform .connect c = (.ok (), c') →
    ∃ d, R c' d ∧ Transactional.Sound d ∧ Transactional.working d = Transactional.durable d

/-- **Every connection that keeps its promises is backed**, since it answers like itself. -/
theorem backed_of_sound {σ : Type} [Connection σ] [Transactional σ] {c : σ}
    (h : Transactional.Sound c) : Backed Eq c := by
  refine ⟨Connection.parallel_eq, fun c' hconnect => ⟨c', rfl, ?_, ?_⟩⟩
  · have hsound := Transactional.sound_perform .connect h
    rwa [hconnect] at hsound
  · obtain ⟨hd, hw⟩ := Transactional.connect_ok h hconnect
    rw [hw, hd]

/-- A file answers like one without statements to run on a new connection. -/
theorem backed_store {c : Store} (hfile : c.transient = false) :
    Backed (fun c d : Store => d = c.plain) c := by
  refine ⟨Store.parallel_plain, fun c' hconnect => ⟨c'.plain, rfl, ?_, ?_⟩⟩
  · exact ⟨(Store.connect_sees hconnect).2.trans hfile, rfl⟩
  · exact (Store.connect_sees hconnect).1

theorem durable_plain (c : Store) : Transactional.durable c.plain = c.file.content :=
  rfl

section Databases

variable {σ τ : Type} [Connection σ] {o : Options} {clock : Clock} {id : String} {c : σ}

/-- The session as a run uses it: its lines are counted, and rows that are lost are passed over. -/
def used (s : Session σ) : Session σ :=
  { s with counters := some {}, storage := { s.storage with recovery := some dropRows } }

theorem start_begin {session : Session σ} (h : Session.begin o clock id c = .ok session) :
    start o clock id c = .ok { fields := o.fields, session := used session } := by
  obtain ⟨c₁, entry, -, -, hsession⟩ := Session.begin_eq h
  unfold start
  rw [h, hsession]
  rfl

theorem start_ok {s : Sync σ} (h : start o clock id c = .ok s) :
    ∃ session, Session.begin o clock id c = .ok session ∧
      s = { fields := o.fields, session := used session } := by
  cases hbegin : Session.begin o clock id c with
  | error e =>
    unfold start at h
    rw [hbegin] at h
    cases h
  | ok session => exact ⟨session, rfl, Except.ok.inj (h.symm.trans (start_begin hbegin))⟩

variable [Connection τ]

omit [Connection σ] [Connection τ] in
theorem used_parallel {R : σ → τ → Prop} {s : Session σ} {t : Session τ} (h : s.Parallel R o t) :
    (used s).Parallel R o (used t) :=
  { h with
    counters := rfl
    storage := { h.storage with recovery := .some fun _ _ _ _ => rfl } }

variable [Transactional τ] {R : σ → τ → Prop}

/-- **A session on such a database has one beside it that keeps its promises**, in which nothing is
pending. -/
theorem exists_beside (hbacked : Backed R c) {s : Session σ}
    (h : Session.begin o clock id c = .ok s) :
    ∃ t : Session τ, (used s).Parallel R o t ∧ t.Fit ∧ Session.Gathered [] t ∧ t.isOpen = true ∧
      t.options = o := by
  obtain ⟨c₁, entry, hconnect, hprepare, hs⟩ := Session.begin_eq h
  obtain ⟨d, hd, hsound, hview⟩ := hbacked.opened c₁ hconnect
  obtain ⟨_, hvalid, -⟩ := Sql.ok_of_bind hprepare
  have hsize : max o.commitSize 1 = o.commitSize :=
    Nat.max_eq_left (Options.size_of_validate hvalid)
  let t : Session τ :=
    { options := o, clock := s.clock, start := s.start, validTo := s.validTo
      storage := { layout := o.layout, connection := d, batch := Batch.ofSize o.commitSize
                   session := id, log := [entry] } }
  have hparallel : s.Parallel R o t := by
    rw [hs]
    exact ⟨rfl, rfl, ⟨⟨rfl, rfl, hd, rfl, rfl, fun _ _ hlookup => (by cases hlookup), rfl, rfl⟩, .nil,
      .none⟩, rfl, rfl, .refl _, rfl, rfl⟩
  have hfit : (used t).Fit :=
    ⟨⟨hsound, fun _ _ hlookup => by cases hlookup⟩, rfl, hsize, hvalid⟩
  exact ⟨used t, used_parallel hparallel, hfit, .nil hfit ⟨rfl, rfl⟩ hview, rfl, rfl⟩

/-- **If every row gets a result, a run that is dropped leaves the writes of the whole batches** in
what was committed. -/
theorem committed_told (hbacked : Backed R c) {s₀ : Sync σ} (h : start o clock id c = .ok s₀)
    {calls : List Operation}
    (htold : ∀ reply ∈ (s₀.session.run calls).1, reply.result?.isSome = true) :
    let all := allWrites o (s₀.session.run calls).1
    ∃ d₀ d, R s₀.session.storage.connection d₀ ∧
      R (s₀.session.run calls).2.close.2.storage.connection d ∧
      replay o.layout (all.take (o.commitSize * (all.length / o.commitSize)))
        (Transactional.durable d₀) = some (Transactional.durable d) := by
  obtain ⟨s, hbegin, rfl⟩ := start_ok h
  obtain ⟨t, hbeside, hfit, hempty, hopen, hoptions⟩ := exists_beside hbacked hbegin
  obtain ⟨hsame, hafter⟩ := hbeside.run_told hbacked.parallel htold
  have hwhole := Session.whole_batches hfit hempty hopen (hsame ▸ htold)
  have hclose := Session.close_spec (Session.run_fit hfit calls).1
    (Session.open_of_told hfit hopen (hsame ▸ htold))
  rw [hsame, hoptions, ← hclose.2.2.2.2.1] at hwhole
  exact ⟨_, _, hbeside.storage.connection, (hafter.close hbacked.parallel).2.storage.connection,
    hwhole⟩

end Databases

end Sync

/-! ## 4. Runs with other clocks -/

theorem Instant.later_of_le {a b : Instant} (h : a ≤ b) : a.later b = b := by
  unfold later
  split
  · rfl
  · rename_i hlt
    exact le_antisymm h (not_lt.mp hlt)

namespace Clock

/-- Nothing that a source gives is after an instant. -/
def Source.Until (t : Instant) : Source → Prop
  | .system readings => ∀ i, (readings i).truncate ≤ t
  | .manual origin => origin ≤ t

theorem Source.Until.reading {source : Source} {t : Instant} (h : source.Until t) :
    source.reading ≤ t := by
  cases source with
  | system readings => exact h 0
  | manual origin => exact h

theorem Source.Until.rest {source : Source} {t u : Instant} (h : source.Until t) (htu : t ≤ u) :
    source.rest.Until u := by
  cases source with
  | system readings => exact fun i => (h (i + 1)).trans htu
  | manual origin => exact le_trans h htu

/-- Nothing that the clock was told of or will read is after an instant. -/
def Until (c : Clock) (t : Instant) : Prop :=
  c.source.Until t ∧ ∀ u ∈ c.last, u ≤ t

theorem until_startingAt {now t : Instant} (h : now ≤ t) : (startingAt now).Until t.truncate :=
  ⟨Instant.truncate_le_truncate h, fun _ hu => nomatch hu⟩

theorem Until.last_observe {c : Clock} {t : Instant} (h : c.Until t.truncate) :
    (c.observe t).last = some t.truncate := by
  cases hlast : c.last with
  | none => simp only [observe, hlast]
  | some last => simp only [observe, hlast, Instant.later_of_le (h.2 last hlast)]

/-- **Clocks that are behind one instant tick alike from it on.** -/
theorem alike_of_until {c c' : Clock} {last : Instant} (hlast : c.last = some last)
    (hlast' : c'.last = some last) (h : c.source.Until last) (h' : c'.source.Until last) :
    c.Alike c' := by
  intro n
  induction n generalizing c c' last with
  | zero => rfl
  | succ n ih =>
    have hnext : ∀ {c : Clock}, c.last = some last → c.source.Until last →
        c.next = last.addMicro := by
      intro c hlast h
      unfold next
      rw [hlast]
      exact Instant.later_of_le (h.reading.trans (le_of_lt last.lt_addMicro))
    have hle := le_of_lt last.lt_addMicro
    have htail : c'.tick.2.ticks n = c.tick.2.ticks n :=
      ih (congrArg some (hnext hlast h)) (congrArg some (hnext hlast' h')) (h.rest hle) (h'.rest hle)
    rw [ticks, ticks, htail, hnext hlast h, hnext hlast' h']

end Clock

namespace Sync

section Clocks

variable {σ : Type} [Connection σ] {o : Options} {clock clock' : Clock} {first : Instant}
  {id id' : String} {c : σ}

/-- A start that is given is settled without the time. -/
theorem prepare_given (clock' : Clock) (hdate : o.startDate = some first) {start : Instant}
    {clock₁ : Clock} {validTo : Option Instant}
    (h : Session.prepare o clock = .ok (start, clock₁, validTo)) :
    clock₁ = clock.observe first ∧
    Session.prepare o clock' = .ok (start, clock'.observe first, validTo) := by
  unfold Session.prepare Session.startOf at h ⊢
  rw [hdate] at h ⊢
  obtain ⟨_, hvalid, h⟩ := Sql.ok_of_bind h
  obtain ⟨horizon, hhorizon, h⟩ := Sql.ok_of_bind h
  cases h
  rw [hvalid]
  refine ⟨rfl, ?_⟩
  show (o.validTo.resolve _ >>= _) = _
  rw [hhorizon]
  rfl

/-- **A run whose start lies ahead of all that is read does not depend on the time.** -/
theorem start_alike (hdate : o.startDate = some first) (hclock : clock.Until first.truncate)
    (hclock' : clock'.Until first.truncate) {s : Sync σ} (h : start o clock id c = .ok s) :
    ∃ session, start o clock' id' c = .ok { fields := o.fields, session } ∧
      s.session.Parallel Eq o session := by
  obtain ⟨s, hbegin, rfl⟩ := start_ok h
  obtain ⟨c₁, entry, hconnect, hprepare, hs⟩ := Session.begin_eq hbegin
  obtain ⟨hafter, hprepare'⟩ := prepare_given clock' hdate hprepare
  have hbegin' : ∃ t, Session.begin o clock' id' c = .ok t ∧ t.storage.connection = c₁ ∧
      t.clock = clock'.observe first ∧ t.start = s.start ∧ t.validTo = s.validTo := by
    unfold Session.begin Storage.connect
    rw [hprepare', hconnect]
    exact ⟨_, rfl, rfl, rfl, rfl, rfl⟩
  obtain ⟨t, hbegin', hc, hafter', hstart, hvalidTo⟩ := hbegin'
  have hsame : s.storage.connection = t.storage.connection := by
    rw [hs]
    exact hc.symm
  have halike : s.clock.Alike t.clock := by
    rw [hafter, hafter']
    exact Clock.alike_of_until hclock.last_observe hclock'.last_observe hclock.1 hclock'.1
  exact ⟨used t, start_begin hbegin',
    used_parallel (Session.parallel_begin hbegin hbegin' hsame halike hstart hvalidTo)⟩

end Clocks

/-! ## 5. The first line that cannot be used -/

/-- **A run stops at the first line that cannot be used**, if every row before it gets a result. It
printed one line for each line before that is not blank, as a run over the lines before does; the error
names the line. The session is closed and not ended, so nothing is purged, and of the rows before
exactly the whole batches are committed. The database is any that keeps transactions once it is
connected; the clocks of the two runs follow the system or were set by hand, and what they read is not
after the start. -/
theorem stops_at_unusable_line {σ τ : Type} [Connection σ] [Connection τ] [Transactional τ]
    {R : σ → τ → Prop} {o : Options} {clock clock' : Clock} {first : Instant} {id : String} {c : σ}
    (hbacked : Backed R c) (hdate : o.startDate = some first) (hclock : clock.Until first.truncate)
    (hclock' : clock'.Until first.truncate) (id' : String) {s₀ : Sync σ}
    (hstart : start o clock id c = .ok s₀)
    {bytes line : List UInt8} {before after : List (List UInt8)}
    (hlines : splitLines bytes = before ++ line :: after)
    (hbefore : ∀ line ∈ before, (Utf8.decode? line).isSome = true ∧ ¬ Offends o.fields line)
    (hline : Offends o.fields line) :
    (∃ calls, Reads o.fields 0 before calls) ∧ ∀ calls, Reads o.fields 0 before calls →
      (∀ reply ∈ (s₀.session.run calls).1, reply.result?.isSome = true) →
      let replies := (s₀.session.run calls).1
      let ended := (s₀.session.run (calls ++ [.close])).2
      let all := allWrites o replies
      let report := run o clock id (.ok bytes) c
      let earlier := run o clock' id' (.ok (cut before.length bytes)) c
      report.output = printed replies ∧
      report.output.length = before.countP (fun line => !isBlank line) ∧
      earlier.rows = report.output ∧
      (∃ message : String, report.error = some ⟨.input, s!"line {before.length + 1}: {message}"⟩) ∧
      report.connection = ended.storage.connection ∧ report.log = ended.storage.log ∧
      ∃ d₀ d, R s₀.session.storage.connection d₀ ∧ R report.connection d ∧
        replay o.layout (all.take (o.commitSize * (all.length / o.commitSize)))
          (Transactional.durable d₀) = some (Transactional.durable d) := by
  refine ⟨(exists_reads_iff 0).mpr hbefore, fun calls hreads htold => ?_⟩
  obtain ⟨text, htext, hblank, hunusable⟩ := hline
  obtain ⟨session, hsession⟩ : ∃ session, s₀ = { fields := o.fields, session } := by
    obtain ⟨s, -, rfl⟩ := start_ok hstart
    exact ⟨used s, rfl⟩
  subst hsession
  obtain ⟨message, hreport⟩ := run_unusable hstart hlines hreads htold htext hblank hunusable
  obtain ⟨session', hstart', hbeside⟩ := start_alike hdate hclock hclock' hstart
  obtain ⟨hsame, -⟩ := hbeside.run_told Connection.parallel_eq htold
  have hcut : splitLines (cut before.length bytes) = before := by
    rw [splitLines_cut, hlines, List.take_left]
  have hrows := rows_run hstart' hcut hreads (hsame ▸ htold)
  have hended : (session.run (calls ++ [.close])).2 = (session.run calls).2.close.2 := by
    rw [Session.run_concat]
    rfl
  dsimp only
  rw [hrows, hsame, hended, hreport]
  refine ⟨rfl, ?_, rfl, ⟨message, rfl⟩, rfl, rfl, committed_told hbacked hstart htold⟩
  dsimp only
  rw [length_printed htold, Session.length_run, hreads.length]

end Sync

namespace Sample

/-- The start lies ahead, and what was not seen since is purged. -/
def ahead : Options :=
  { options with startDate := some (Instant.ofSeconds 1735689600), commitSize := 3, purge := true }

/-- A customer whom nobody saw for long. -/
def oldCustomer : Store :=
  { target := .file "customers.db"
    file := { content := ⟨[{ table with rows := [[.integer 9, .text "Eve", .text "Bonn", .integer 1,
      .text "2023-01-01 00:00:00.000000", .null, .text "2023-01-01 00:00:00.000000"]] }]⟩ } }

/-- The line of a customer, with more members. -/
def customerLine (id : Int) (name : String) (more : List (String × Json)) : String :=
  (Json.obj ([("id", .int id), ("name", .str name), ("city", .str "Ulm")] ++ more)).render

/-- Three customers, one of them twice, and blank lines. -/
def customerLines : List String :=
  [customerLine 1 "Ann" [], "  ", customerLine 2 "Bo" [], "", customerLine 1 "Ann" [("_status", .null)],
    customerLine 3 "Cy" []]

/-- A status that does not exist. -/
def lostLine : String :=
  customerLine 4 "Di" [("_status", .str "lost")]

def bytesOf (line : String) : List UInt8 :=
  line.toUTF8.toList

/-- The lines up to the customer who is lost, and one behind. -/
def customerFile : List UInt8 :=
  (customerLines ++ [lostLine, customerLine 5 "Ed" []]).flatMap fun line => bytesOf line ++ [10]

/-- The rows of the lines. -/
def customerCalls : List Operation :=
  [.row (customer 1 "Ann" "Ulm") none, .row (customer 2 "Bo" "Ulm") none,
    .row (customer 1 "Ann" "Ulm") none, .row (customer 3 "Cy" "Ulm") none]

/-- A line of text asks for its row. -/
theorem reads_line (line : String) {fields : Classification} {n : Nat} {lines : List (List UInt8)}
    {calls : List Operation} {row : Row} {status : Option RowStatus}
    (htext : Utf8.decode? (bytesOf line) = some line) (hblank : Text.allBlank line = false)
    (hread : Sync.readRow fields (n + 1) line = .ok (row, status))
    (hlines : Sync.Reads fields (n + 1) lines calls) :
    Sync.Reads fields n (bytesOf line :: lines) (.row row status :: calls) :=
  .row htext hblank hread hlines

theorem reads_customerLines : Sync.Reads ahead.fields 0 (customerLines.map bytesOf) customerCalls := by
  refine reads_line (customerLine 1 "Ann" []) (by decide +kernel) (by decide +kernel)
    (by decide +kernel) ?_
  refine .blank (by decide +kernel) ?_
  refine reads_line (customerLine 2 "Bo" []) (by decide +kernel) (by decide +kernel)
    (by decide +kernel) ?_
  refine .blank (by decide +kernel) ?_
  refine reads_line (customerLine 1 "Ann" [("_status", .null)]) (by decide +kernel)
    (by decide +kernel) (by decide +kernel) ?_
  exact reads_line (customerLine 3 "Cy" []) (by decide +kernel) (by decide +kernel)
    (by decide +kernel) (.nil 6)

/-- A status that does not exist stops a run at its line: four results are printed, three of the four
writes are committed, so that the last customer is lost, and nobody is purged. -/
theorem lost_customer_stops_run :
    let report := Sync.run ahead clock "sample" (.ok customerFile) oldCustomer
    let earlier := Sync.run ahead (.startingAt (Instant.ofSeconds 1714567890)) "other"
      (.ok (Sync.cut 6 customerFile)) oldCustomer
    report.output.length = 4 ∧ earlier.rows = report.output ∧
    (∃ message : String, report.error = some ⟨.input, s!"line {7}: {message}"⟩) ∧
    ∃ s₀, Sync.start ahead clock "sample" oldCustomer = .ok s₀ ∧
      (allWrites ahead (s₀.session.run customerCalls).1).length = 4 ∧
      replay ahead.layout ((allWrites ahead (s₀.session.run customerCalls).1).take 3)
        oldCustomer.file.content = some report.connection.file.content := by
  have hcheck : okAnd (Sync.start ahead clock "sample" oldCustomer) (fun s₀ =>
      (s₀.session.run customerCalls).1.all (·.result?.isSome) &&
        (allWrites ahead (s₀.session.run customerCalls).1).length = 4 &&
        s₀.session.storage.connection.file.content = oldCustomer.file.content) = true := by
    rw [Store.connection_eq ahead]
    decide +kernel
  obtain ⟨s₀, hstart, hs₀⟩ := exists_of_okAnd hcheck
  simp only [Bool.and_eq_true, decide_eq_true_eq, List.all_eq_true] at hs₀
  obtain ⟨⟨htold, hwrites⟩, hcontent⟩ := hs₀
  have hunusable : Sync.Unusable ahead.fields lostLine :=
    Sync.unusable_of_error (n := 7) (e := .input 7 "unknown row status: lost") (by decide +kernel)
  have hlines : Sync.splitLines customerFile =
      customerLines.map bytesOf ++ bytesOf lostLine :: [bytesOf (customerLine 5 "Ed" [])] := by
    decide +kernel
  have hlater : Instant.ofSeconds 1714567890 ≤ Instant.ofSeconds 1735689600 := by decide
  obtain ⟨-, hreport⟩ := Sync.stops_at_unusable_line (Sync.backed_store rfl) rfl
    (Clock.until_startingAt (by decide)) (Clock.until_startingAt hlater) "other" hstart hlines
    ((Sync.exists_reads_iff 0).mp ⟨_, reads_customerLines⟩)
    ⟨lostLine, by decide +kernel, by decide +kernel, hunusable⟩
  obtain ⟨-, hlength, hrows, herror, -, -, d₀, d, hd₀, hd, hcommitted⟩ :=
    hreport _ reads_customerLines htold
  refine ⟨?_, hrows, herror, s₀, hstart, hwrites, ?_⟩
  · rw [show Sample.clock = .startingAt (Instant.ofSeconds 1704067200) from rfl, hlength]
    decide +kernel
  · rw [hd₀, hd, Sync.durable_plain, Sync.durable_plain, hcontent, hwrites] at hcommitted
    exact hcommitted

end Sample

end RowHistory
