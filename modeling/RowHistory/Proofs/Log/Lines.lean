import RowHistory.Log.Basic
import RowHistory.Proofs.Json.RoundTrip
import RowHistory.Proofs.Text.Bytes

/-!
# Lines of a log

A log entry becomes one line, whatever its texts are. This file fixes

* the stable order of pairs by their keys (`IsStableSort`), which is unique (`IsStableSort.unique`), and
  that the fields of a line are in it (`isStableSort_sortedFields`);
* that no control character stands in what is written of texts (`Json.quoteChars_printable`,
  `object_printable`);
* the main statement (`one_readable_line`).
-/

namespace RowHistory

/-! ## 1. Stable sorts -/

/-- The pairs in the order of the bytes of their keys, where pairs of one key keep their order. -/
structure IsStableSort (fields sorted : List (String × String)) : Prop where
  perm : sorted.Perm fields
  ordered : sorted.Pairwise fun a b => Text.bytes a.1 ≤ Text.bytes b.1
  stable : ∀ key, sorted.filter (fun f => f.1 = key) = fields.filter fun f => f.1 = key

namespace IsStableSort

variable {fields fields' sorted sorted' : List (String × String)}

/-- Keys are ordered as their bytes are. -/
theorem bytes_le_iff {s t : String} : Text.bytes s ≤ Text.bytes t ↔ s ≤ t := by
  rw [← List.not_lt, ← String.not_lt, Text.bytes_lt_iff]

/-- The first pair of a list in order has the least key. -/
theorem head_key_le {a b : String × String} {s t : List (String × String)}
    (h : (a :: s).Pairwise fun a b => Text.bytes a.1 ≤ Text.bytes b.1)
    (hb : (a :: s).filter (fun f => f.1 = b.1) = (b :: t).filter fun f => f.1 = b.1) : a.1 ≤ b.1 := by
  have hfilter : b ∈ (a :: s).filter fun f => f.1 = b.1 := by
    rw [hb, List.filter_cons_of_pos (by simp)]
    exact List.mem_cons_self
  obtain rfl | hmem := List.mem_cons.mp (List.mem_of_mem_filter hfilter)
  · exact le_rfl
  · exact bytes_le_iff.mp (List.rel_of_pairwise_cons h hmem)

/-- Two lists in order with the same pairs of each key, in the same order, are the same. -/
theorem eq_of_filter_eq (h : sorted.Pairwise fun a b => Text.bytes a.1 ≤ Text.bytes b.1)
    (h' : sorted'.Pairwise fun a b => Text.bytes a.1 ≤ Text.bytes b.1)
    (heq : ∀ key, sorted.filter (fun f => f.1 = key) = sorted'.filter fun f => f.1 = key) :
    sorted = sorted' := by
  induction sorted generalizing sorted' with
  | nil =>
    cases sorted' with
    | nil => rfl
    | cons b t => simpa using heq b.1
  | cons a s ih =>
    cases sorted' with
    | nil => simpa using heq a.1
    | cons b t =>
      have hkey : a.1 = b.1 := le_antisymm (head_key_le h (heq b.1)) (head_key_le h' (heq a.1).symm)
      have hhead := heq a.1
      rw [List.filter_cons_of_pos (by simp), List.filter_cons_of_pos (by simp [hkey])] at hhead
      obtain rfl : a = b := (List.cons.inj hhead).1
      refine congrArg (a :: ·) (ih h.of_cons h'.of_cons fun key => ?_)
      have hrest := heq key
      by_cases hk : a.1 = key
      · rw [List.filter_cons_of_pos (by simp [hk]), List.filter_cons_of_pos (by simp [hk])] at hrest
        exact (List.cons.inj hrest).2
      · rwa [List.filter_cons_of_neg (by simp [hk]), List.filter_cons_of_neg (by simp [hk])] at hrest

/-- **There is only one stable sort.** -/
theorem unique (h : IsStableSort fields sorted) (h' : IsStableSort fields sorted') :
    sorted = sorted' :=
  eq_of_filter_eq h.ordered h'.ordered fun key => (h.stable key).trans (h'.stable key).symm

/-- A key that comes only once has at most one pair. -/
theorem length_filter_le_one (hkeys : (fields.map Prod.fst).Nodup) (key : String) :
    (fields.filter fun f => f.1 = key).length ≤ 1 := by
  have hsame : (fields.filter fun f => f.1 = key).map Prod.fst =
      List.replicate (fields.filter fun f => f.1 = key).length key := by
    refine List.eq_replicate_iff.mpr ⟨List.length_map _, fun k hk => ?_⟩
    obtain ⟨f, hf, rfl⟩ := List.mem_map.mp hk
    exact of_decide_eq_true (List.mem_filter.mp hf).2
  have hnodup : ((fields.filter fun f => f.1 = key).map Prod.fst).Nodup :=
    hkeys.sublist (List.filter_sublist.map Prod.fst)
  rw [hsame] at hnodup
  exact List.nodup_replicate.mp hnodup

/-- If no key comes twice, the order in which the pairs are given does not matter. -/
theorem of_perm (h : IsStableSort fields sorted) (hperm : fields'.Perm fields)
    (hkeys : (fields.map Prod.fst).Nodup) : IsStableSort fields' sorted where
  perm := h.perm.trans hperm.symm
  ordered := h.ordered
  stable key := by
    have hfilter := hperm.filter fun f => decide (f.1 = key)
    have hone := length_filter_le_one hkeys key
    rw [h.stable key]
    cases hcase : fields.filter fun f => f.1 = key with
    | nil =>
      rw [hcase] at hfilter
      exact hfilter.eq_nil.symm
    | cons f rest =>
      rw [hcase] at hfilter hone
      obtain rfl : rest = [] := List.eq_nil_of_length_eq_zero (by simpa using hone)
      exact (List.perm_singleton.mp hfilter).symm

end IsStableSort

namespace LogEntry

/-- **The fields of a line are in a stable order.** -/
theorem isStableSort_sortedFields (e : LogEntry) : IsStableSort e.fields e.sortedFields := by
  have htrans : ∀ a b c : String × String, decide (a.1 ≤ b.1) = true → decide (b.1 ≤ c.1) = true →
      decide (a.1 ≤ c.1) = true := by
    intro a b c hab hbc
    exact decide_eq_true (le_trans (of_decide_eq_true hab) (of_decide_eq_true hbc))
  have htotal : ∀ a b : String × String, (decide (a.1 ≤ b.1) || decide (b.1 ≤ a.1)) = true := by
    intro a b
    simpa using le_total a.1 b.1
  have hperm : e.sortedFields.Perm e.fields := List.mergeSort_perm _ _
  refine ⟨hperm, ?_, fun key => ?_⟩
  · refine (List.pairwise_mergeSort htrans htotal e.fields).imp fun hab => ?_
    exact IsStableSort.bytes_le_iff.mpr (of_decide_eq_true hab)
  · -- The pairs of one key are in order as they stand, so that sorting keeps them.
    have hsame : (e.fields.filter fun f => f.1 = key).Pairwise fun a b => decide (a.1 ≤ b.1) = true := by
      refine List.pairwise_of_forall_mem_list fun a ha b hb => ?_
      have hka : a.1 = key := of_decide_eq_true (List.mem_filter.mp ha).2
      have hkb : b.1 = key := of_decide_eq_true (List.mem_filter.mp hb).2
      rw [hka, hkb]
      exact decide_eq_true le_rfl
    have hsublist := List.sublist_mergeSort htrans htotal hsame List.filter_sublist
    have hfilter := hsublist.filter fun f => decide (f.1 = key)
    rw [List.filter_filter] at hfilter
    simp only [Bool.and_self] at hfilter
    exact (hfilter.eq_of_length (hperm.filter _).length_eq.symm).symm

end LogEntry

/-! ## 2. Written texts -/

namespace Json

/-- What is inside of a written string is no control character. -/
theorem escapeChar_printable (c : Char) : ∀ d ∈ escapeChar c, 0x20 ≤ d.toNat := by
  have hhex : ∀ n < 32, 0x20 ≤ (hexDigit (n / 16)).toNat ∧ 0x20 ≤ (hexDigit (n % 16)).toNat := by
    decide
  unfold escapeChar
  iterate 7
    split
    · simp
  split
  · rename_i hcontrol
    obtain ⟨hhigh, hlow⟩ := hhex _ hcontrol
    simp only [List.forall_mem_cons]
    exact ⟨by decide, by decide, by decide, by decide, hhigh, hlow, nofun⟩
  · rename_i hcontrol
    simpa using hcontrol

theorem quoteChars_printable (cs : List Char) : ∀ d ∈ quoteChars cs, 0x20 ≤ d.toNat := by
  intro d hd
  simp only [quoteChars, List.mem_append, List.mem_cons, List.mem_flatMap, List.not_mem_nil,
    or_false] at hd
  obtain (rfl | ⟨c, -, hc⟩) | rfl := hd
  · decide
  · exact escapeChar_printable c d hc
  · decide

end Json

namespace LogEntry

/-- Members with texts. -/
def texts (fields : List (String × String)) : List (String × Json) :=
  fields.map fun f => (f.1, .str f.2)

theorem membersChars_printable (fields : List (String × String)) :
    ∀ d ∈ Json.membersChars (texts fields), 0x20 ≤ d.toNat := by
  induction fields with
  | nil => simp [texts, Json.membersChars]
  | cons f fields ih =>
    intro d hd
    simp only [texts, List.map_cons, Json.membersChars, Json.chars, List.mem_append, List.mem_cons] at hd
    obtain ((rfl | hname) | rfl | hvalue) | hrest := hd
    · decide
    · exact Json.quoteChars_printable _ d hname
    · decide
    · exact Json.quoteChars_printable _ d hvalue
    · exact ih d hrest

/-- An object of texts has no control character. -/
theorem object_printable (fields : List (String × String)) :
    ∀ d ∈ (Json.obj (texts fields)).chars, 0x20 ≤ d.toNat := by
  cases fields with
  | nil => simp [texts, Json.chars]
  | cons f fields =>
    -- After its brace it is written as the members after the first are, after their comma.
    have hchars : ∃ cs, (Json.obj (texts (f :: fields))).chars = '{' :: cs ∧
        Json.membersChars (texts (f :: fields)) = ',' :: cs := ⟨_, rfl, rfl⟩
    obtain ⟨cs, hobject, hmembers⟩ := hchars
    have hprintable := membersChars_printable (f :: fields)
    rw [hmembers, List.forall_mem_cons] at hprintable
    rw [hobject, List.forall_mem_cons]
    exact ⟨by decide, hprintable.2⟩

theorem readsMembers_texts (depth : Nat) (fields : List (String × String)) :
    Json.ReadsMembers .whole depth (texts fields) := by
  induction fields with
  | nil => trivial
  | cons f fields ih => exact ⟨trivial, ih⟩

/-! ## 3. Lines -/

/-- The members of a line. -/
def members (e : LogEntry) : List (String × String) :=
  ("event", e.event) :: ("severity", e.severity.name) :: e.sortedFields

theorem toJson_eq (e : LogEntry) : e.toJson = .obj (texts e.members) :=
  rfl

theorem newline_notMem_line (e : LogEntry) : '\n' ∉ e.line.toList := by
  intro hmem
  rw [line, Json.render, String.toList_ofList, toJson_eq] at hmem
  exact absurd (object_printable e.members '\n' hmem) (by decide)

/-- **One entry is one line that can be read.** Whatever texts it has, it is written with one newline,
which is the last character; it is read as an object of the event, the severity and the fields in the
stable order of their keys' bytes; and if no key comes twice, the order in which the fields are given
does not show. -/
theorem one_readable_line (severity : Severity) (event : String) (fields : List (String × String)) :
    let text := (LogEntry.mk severity event fields).rendered
    text.toList.count '\n' = 1 ∧ text.toList.getLast? = some '\n' ∧
    (∃ sorted, IsStableSort fields sorted ∧
      Json.read? text = some (.obj (("event", .str event) :: ("severity", .str severity.name) ::
        sorted.map fun f => (f.1, .str f.2)))) ∧
    ∀ fields' : List (String × String), fields'.Perm fields → (fields.map Prod.fst).Nodup →
      (LogEntry.mk severity event fields').rendered = text := by
  have hsort := isStableSort_sortedFields ⟨severity, event, fields⟩
  have hlist : ("\n" : String).toList = ['\n'] := rfl
  dsimp only
  refine ⟨?_, ?_, ⟨_, hsort, ?_⟩, fun fields' hperm hkeys => ?_⟩
  · rw [rendered, String.toList_append, List.count_append,
      List.count_eq_zero.mpr (newline_notMem_line _), hlist]
    rfl
  · rw [rendered, String.toList_append, hlist, List.getLast?_concat]
  · exact Json.read?_object ⟨by decide, readsMembers_texts _ (members ⟨severity, event, fields⟩)⟩
      (by decide)
  · have hsame := (isStableSort_sortedFields ⟨severity, event, fields'⟩).unique
      (hsort.of_perm hperm hkeys)
    rw [rendered, rendered, line, line, toJson, toJson, hsame]

/-- The fields of a failed statement, with quotes, a newline and a backslash in their texts. -/
def Sample.failedStatement : List (String × String) :=
  [("session", "s1"), ("sql", "SELECT *\nFROM \"items\"\tWHERE \"id\" = ?"), ("error", "C:\\dim.db")]

/-- Given in another order, they make the same line. -/
theorem failed_statement_line :
    Sample.failedStatement.reverse.Perm Sample.failedStatement ∧
    (Sample.failedStatement.map Prod.fst).Nodup ∧
    (LogEntry.mk .warn "BATCH_ROLLBACK" Sample.failedStatement.reverse).rendered =
      (LogEntry.mk .warn "BATCH_ROLLBACK" Sample.failedStatement).rendered := by
  have hperm := List.reverse_perm Sample.failedStatement
  have hkeys : (Sample.failedStatement.map Prod.fst).Nodup := by decide
  exact ⟨hperm, hkeys,
    (one_readable_line .warn "BATCH_ROLLBACK" Sample.failedStatement).2.2.2 _ hperm hkeys⟩

end LogEntry

end RowHistory
