import RowHistory.Proofs.Field.RoundTrip
import RowHistory.Proofs.Session.Steps

/-!
# The columns that statements write

A table is written by an insertion and by changes of stored rows. The names of its columns come from
two places, the fields and the bookkeeping, and consistent options keep the two apart. This file fixes

* the columns that a command writes (`Command.writes`), read from the text of a statement
  (`writes_insertion`, `writes_change`, `writes_purge`);
* that consistent fields have names of their own, none of which is a bookkeeping name
  (`nodup_fieldColumns`, `not_mem_bookkeeping`);
* when the columns of the writes are well-formed (`columns_of_validate`): the insertion just if the
  bookkeeping names differ from each other, which consistency does not ask for.
-/

namespace RowHistory

open Sql

/-! ## 1. Columns of a command -/

/-- The columns that a command writes, in order. -/
def Sql.Command.writes : Command → List String
  | .insert _ columns _ => columns.map Name.text
  | .update _ assignments _ => assignments.map fun a => a.1.text
  | _ => []

/-- The statements of a layout that change stored rows; a purge may have any further condition. -/
inductive Layout.Changes (l : Layout) : Statement → Prop
  | ofKind {kind : StatementKind} {st : Statement} :
      IsChange kind → l.statement kind = .ok st → Changes l st
  | ofPurge {condition : Option String} {st : Statement} :
      l.purge condition = .ok st → Changes l st

namespace Sql

variable {l : Layout} {kind : StatementKind} {st : Statement}

theorem Reader.fst_assignmentsFrom (n : Nat) (columns : List String) :
    (assignmentsFrom n columns).map Prod.fst = columns := by
  unfold assignmentsFrom
  induction columns generalizing n with
  | nil => rfl
  | cons c columns ih => rw [numbered, List.map_cons, ih]

/-- Assignments that are known without their places write the same columns. -/
theorem writes_update {p : Path} {sets : List (Name × Expr Name)} {e : Option (Expr Name)} {n : Nat}
    {columns : List String}
    (h : sets.map Reader.plainAssignment = Reader.assignmentsFrom n columns) :
    (Command.update p sets e).writes = columns := by
  have hfst := congrArg (List.map Prod.fst) h
  rw [List.map_map, Reader.fst_assignmentsFrom] at hfst
  exact hfst

/-- The text of an insertion is read, and it writes the columns of a new version. -/
theorem writes_insertion (hst : l.statement .insert = .ok st) :
    ∃ r, Command.read st.sql = .ok r ∧ r.command.writes = l.insertColumns := by
  obtain ⟨p, names, hread, -, hnames⟩ := read_insertion hst
  exact ⟨_, hread, hnames⟩

/-- The text of a change is read, and it writes the columns that are set. -/
theorem writes_change (hids : l.fields.names .id ≠ []) (hkind : IsChange kind)
    (hst : l.statement kind = .ok st) :
    ∃ r, Command.read st.sql = .ok r ∧ r.command.writes = l.setColumns kind := by
  obtain ⟨p, sets, e, hread, -, hsets, -⟩ := read_change hids hkind hst
  exact ⟨_, hread, writes_update hsets⟩

/-- A purge, if its condition can be read, writes the end of the validity. -/
theorem writes_purge {condition : Option String} {r : Command.Reading}
    (hst : l.purge condition = .ok st) (hread : Command.read st.sql = .ok r) :
    r.command.writes = [l.names.validTo] := by
  obtain ⟨p, sets, e, hcommand, -, hsets⟩ := read_purge_ok hst hread
  rw [hcommand]
  exact writes_update hsets

end Sql

namespace Layout

variable {l : Layout} {st : Statement}

/-- What a change sets is the end of the validity, or a column that is changed in place. -/
theorem setColumns_subset {kind : StatementKind} (hkind : IsChange kind) :
    l.setColumns kind ⊆ l.names.validTo :: l.updateColumns := by
  rcases hkind with rfl | rfl | rfl | rfl
  · exact List.subset_cons_self _ _
  · exact List.cons_subset_cons _ (List.nil_subset _)
  · refine List.Subset.trans ?_ (List.subset_cons_self _ _)
    exact fun c hc => List.mem_append_right _ (List.mem_cons_of_mem _ hc)
  · exact List.cons_subset_cons _ (List.nil_subset _)

/-- **No change writes anything else.** -/
theorem Changes.writes_subset (hids : l.fields.names .id ≠ []) (h : l.Changes st)
    {r : Command.Reading} (hread : Command.read st.sql = .ok r) :
    r.command.writes ⊆ l.names.validTo :: l.updateColumns := by
  cases h with
  | ofKind hkind hst =>
    obtain ⟨r', hread', hwrites⟩ := writes_change hids hkind hst
    cases hread.symm.trans hread'
    rw [hwrites]
    exact setColumns_subset hkind
  | ofPurge hst =>
    rw [writes_purge hst hread]
    exact List.cons_subset_cons _ (List.nil_subset _)

/-! ## 2. Names of a consistent layout -/

/-- The columns that hold fields, in the order of an insertion. -/
def fieldColumns (l : Layout) : List String :=
  l.fields.names .id ++ l.fields.names .update ++ l.fields.names .compare ++ l.fields.names .lazy

theorem insertColumns_eq (l : Layout) : l.insertColumns = l.fieldColumns ++ l.names.all :=
  rfl

/-- Fields of different kinds have different names. -/
theorem disjoint_names (h : (l.fields.fields.map Field.name).Nodup) {k k' : FieldKind} (hne : k ≠ k') :
    (l.fields.names k).Disjoint (l.fields.names k') := by
  intro c hc hc'
  obtain ⟨f, hf, rfl, rfl⟩ := Classification.mem_names hc
  obtain ⟨g, hg, rfl, hname⟩ := Classification.mem_names hc'
  have hsame : g = f := List.inj_on_of_nodup_map h hg hf hname
  exact hne (congrArg Field.kind hsame.symm)

theorem nodup_names (h : (l.fields.fields.map Field.name).Nodup) (k : FieldKind) :
    (l.fields.names k).Nodup :=
  h.sublist (List.filter_sublist.map Field.name)

/-- **The fields of an insertion have names of their own.** -/
theorem nodup_fieldColumns (h : (l.fields.fields.map Field.name).Nodup) : l.fieldColumns.Nodup := by
  have hkinds : ∀ {k k' : FieldKind}, k ≠ k' →
      (l.fields.names k).Disjoint (l.fields.names k') := disjoint_names h
  have hupdate := (nodup_names h .id).append (nodup_names h .update) (hkinds (by decide))
  have hcompare := hupdate.append (nodup_names h .compare)
    (List.disjoint_append_left.mpr ⟨hkinds (by decide), hkinds (by decide)⟩)
  refine hcompare.append (nodup_names h .lazy) (List.disjoint_append_left.mpr ⟨?_, hkinds (by decide)⟩)
  exact List.disjoint_append_left.mpr ⟨hkinds (by decide), hkinds (by decide)⟩

end Layout

/-- Fields without a fault are ignored or have no bookkeeping name. -/
theorem Classification.not_reserved {b : Bookkeeping} {seen : List String} {fields : List Field}
    (h : fault? b seen fields = none) {f : Field} (hf : f ∈ fields) (hkind : f.kind ≠ .ignore) :
    f.name ∉ b.all := by
  induction fields generalizing seen with
  | nil => cases hf
  | cons g fields ih =>
    unfold fault? at h
    split at h
    · cases h
    split at h
    · cases h
    split at h
    · cases h
    rename_i hreserved
    rcases List.mem_cons.mp hf with rfl | hf
    · exact fun hmem => hreserved ⟨hkind, hmem⟩
    · exact ih h hf

namespace Options

variable {o : Options}

/-- Consistent options keep the names of fields apart from those of the bookkeeping. -/
theorem not_mem_bookkeeping (hvalid : o.validate = .ok ()) {kind : FieldKind} (hkind : kind ≠ .ignore)
    {c : String} (hc : c ∈ o.fields.names kind) : c ∉ o.names.all := by
  obtain ⟨f, hf, rfl, rfl⟩ := Classification.mem_names hc
  exact Classification.not_reserved (fields_of_validate hvalid).1 hf hkind

theorem nodup_of_validate (hvalid : o.validate = .ok ()) : (o.fields.fields.map Field.name).Nodup :=
  (Classification.nodup_of_fault? (fields_of_validate hvalid).1).1

theorem disjoint_fieldColumns (hvalid : o.validate = .ok ()) :
    o.layout.fieldColumns.Disjoint o.names.all := by
  have hkind : ∀ {k : FieldKind}, k ≠ .ignore → (o.fields.names k).Disjoint o.names.all :=
    fun hk _ hc => not_mem_bookkeeping hvalid hk hc
  simp only [Layout.fieldColumns, List.disjoint_append_left]
  exact ⟨⟨⟨hkind (by decide), hkind (by decide)⟩, hkind (by decide)⟩, hkind (by decide)⟩

/-! ## 3. Columns of consistent options -/

/-- **An insertion repeats a column just if two bookkeeping names are the same.** -/
theorem nodup_insertColumns (hvalid : o.validate = .ok ()) :
    o.layout.insertColumns.Nodup ↔ o.names.all.Nodup := by
  rw [Layout.insertColumns_eq]
  refine ⟨fun h => h.of_append_right, fun h => ?_⟩
  exact (Layout.nodup_fieldColumns (nodup_of_validate hvalid)).append h (disjoint_fieldColumns hvalid)

/-- A bookkeeping name stands in an insertion as often as in the bookkeeping. -/
theorem count_insertColumns (hvalid : o.validate = .ok ()) {c : String} (hc : c ∈ o.names.all) :
    o.layout.insertColumns.count c = o.names.all.count c := by
  have hnone : o.layout.fieldColumns.count c = 0 :=
    List.count_eq_zero.mpr fun hmem => disjoint_fieldColumns hvalid hmem hc
  have hnames : o.layout.names = o.names := rfl
  rw [Layout.insertColumns_eq, List.count_append, hnone, Nat.zero_add, hnames]

/-- The columns that are changed in place repeat none, but for a last-seen column that is the start
of the validity too. -/
theorem nodup_updateColumns (hvalid : o.validate = .ok ()) :
    o.layout.updateColumns.Nodup ↔ o.names.lastSeen ≠ some o.names.validFrom := by
  have hfields : (o.layout.fields.names .update ++ o.layout.fields.names .lazy).Nodup :=
    (Layout.nodup_names (nodup_of_validate hvalid) _).append
      (Layout.nodup_names (nodup_of_validate hvalid) _)
      (Layout.disjoint_names (nodup_of_validate hvalid) (by decide))
  have hapart : (o.layout.fields.names .update ++ o.layout.fields.names .lazy).Disjoint
      (o.names.validFrom :: o.names.lastSeen.toList) := by
    intro c hc hmem
    have hall : c ∈ o.names.all := by
      rcases List.mem_cons.mp hmem with rfl | hseen
      · exact List.mem_cons_self
      · exact List.mem_append_right _ hseen
    rcases List.mem_append.mp hc with hc | hc
    · exact not_mem_bookkeeping hvalid (by decide) hc hall
    · exact not_mem_bookkeeping hvalid (by decide) hc hall
  have hlast : (o.names.validFrom :: o.names.lastSeen.toList).Nodup ↔
      o.names.lastSeen ≠ some o.names.validFrom := by
    cases o.names.lastSeen with
    | none => simp
    | some c => simp [eq_comm]
  rw [← hlast]
  exact ⟨fun h => h.of_append_right, fun h => hfields.append h hapart⟩

/-- What changes may write is no field that identifies or is compared. -/
theorem not_mem_changed (hvalid : o.validate = .ok ()) {c : String}
    (hc : c ∈ o.names.validTo :: o.layout.updateColumns) :
    c ∉ o.fields.names .id ∧ c ∉ o.fields.names .compare := by
  have hkind : ∀ {k : FieldKind}, k ≠ .ignore → k ≠ .update → k ≠ .lazy → c ∉ o.fields.names k := by
    intro k hignore hupdate hlazy hmem
    have hnot : c ∉ o.names.all := not_mem_bookkeeping hvalid hignore hmem
    have hnodup := nodup_of_validate hvalid
    simp only [Layout.updateColumns, List.mem_cons, List.mem_append] at hc
    rcases hc with rfl | ((hc | hc) | rfl | hc)
    · exact hnot (List.mem_cons_of_mem _ List.mem_cons_self)
    · exact Layout.disjoint_names (l := o.layout) hnodup hupdate hmem hc
    · exact Layout.disjoint_names (l := o.layout) hnodup hlazy hmem hc
    · exact hnot List.mem_cons_self
    · exact hnot (List.mem_append_right _ hc)
  exact ⟨hkind (by decide) (by decide) (by decide), hkind (by decide) (by decide) (by decide)⟩

/-- Nor is it the number, if the bookkeeping names differ. -/
theorem version_not_mem_changed (hvalid : o.validate = .ok ()) (hnames : o.names.all.Nodup) :
    o.names.version ∉ o.names.validTo :: o.layout.updateColumns := by
  have hversion : o.names.version ∈ o.names.all := by simp [Bookkeeping.all]
  have hfield : ∀ {k : FieldKind}, k ≠ .ignore → o.names.version ∉ o.fields.names k :=
    fun hk hmem => not_mem_bookkeeping hvalid hk hmem hversion
  simp only [Bookkeeping.all, List.cons_append, List.nil_append, List.nodup_cons, List.mem_cons,
    not_or] at hnames
  obtain ⟨⟨-, hfrom, -⟩, ⟨hto, -⟩, hseen, -⟩ := hnames
  simp only [Layout.updateColumns, List.mem_cons, List.mem_append, not_or]
  exact ⟨fun h => hto h.symm, ⟨hfield (by decide), hfield (by decide)⟩, fun h => hfrom h.symm, hseen⟩

/-- **What consistent options say of the columns that are written.** The insertion repeats none, and has
each bookkeeping column once, just if the bookkeeping names differ from each other; the change in place
repeats none unless the last-seen column is the start of the validity. No change sets a field that
identifies or is compared, nor, with different bookkeeping names, the number of a version. -/
theorem columns_of_validate (hvalid : o.validate = .ok ()) :
    (∃ st r, o.layout.statement .insert = .ok st ∧ Command.read st.sql = .ok r ∧
      (r.command.writes.Nodup ↔ o.names.all.Nodup) ∧
      ((∀ c ∈ o.names.all, r.command.writes.count c = 1) ↔ o.names.all.Nodup)) ∧
    (∃ st r, o.layout.statement .update = .ok st ∧ Command.read st.sql = .ok r ∧
      (r.command.writes.Nodup ↔ o.names.lastSeen ≠ some o.names.validFrom)) ∧
    (∀ kind st, IsChange kind → o.layout.statement kind = .ok st →
      ∃ r, Command.read st.sql = .ok r) ∧
    ∀ st r, o.layout.Changes st → Command.read st.sql = .ok r →
      (∀ c ∈ r.command.writes, c ∉ o.fields.names .id ∧ c ∉ o.fields.names .compare) ∧
      (o.names.all.Nodup → o.names.version ∉ r.command.writes) := by
  have hids : o.layout.fields.names .id ≠ [] := ids_of_validate hvalid
  refine ⟨?_, ?_, ?_, ?_⟩
  · obtain ⟨r, hread, hwrites⟩ := writes_insertion (l := o.layout) rfl
    refine ⟨_, r, rfl, hread, ?_, ?_⟩
    · rw [hwrites, nodup_insertColumns hvalid]
    · rw [hwrites, List.nodup_iff_count_eq_one]
      exact forall₂_congr fun c hc => by rw [count_insertColumns hvalid hc]
  · have hst : o.layout.statement .update = .ok _ := rfl
    obtain ⟨r, hread, hwrites⟩ := writes_change hids (.inl rfl) hst
    refine ⟨_, r, hst, hread, ?_⟩
    rw [hwrites]
    exact nodup_updateColumns hvalid
  · intro kind st hkind hst
    obtain ⟨r, hread, -⟩ := writes_change hids hkind hst
    exact ⟨r, hread⟩
  · intro st r hchanges hread
    have hsubset := hchanges.writes_subset hids hread
    exact ⟨fun c hc => not_mem_changed hvalid (hsubset hc),
      fun hnames hmem => version_not_mem_changed hvalid hnames (hsubset hmem)⟩

/-- Parts of all kinds; the ignored field has the name of a bookkeeping column. -/
def parts : Options :=
  { table := "parts"
    names := { validFrom := "from", validTo := "to", lastSeen := some "seen" }
    fields := ⟨[⟨"no", .id, .integer⟩, ⟨"plant", .id, .string⟩, ⟨"price", .compare, .decimal 2⟩,
      ⟨"note", .update, .string⟩, ⟨"size", .lazy, .float⟩, ⟨"seen", .ignore, .timestamp⟩]⟩ }

theorem columns_of_parts : parts.validate = .ok () ∧ parts.names.all.Nodup ∧
    (∃ st r, parts.layout.statement .insert = .ok st ∧ Command.read st.sql = .ok r ∧
      r.command.writes.Nodup ∧ ∀ c ∈ parts.names.all, r.command.writes.count c = 1) ∧
    ∀ st r, parts.layout.Changes st → Command.read st.sql = .ok r →
      parts.names.version ∉ r.command.writes := by
  have hvalid : parts.validate = .ok () := by decide +kernel
  have hnames : parts.names.all.Nodup := by decide +kernel
  obtain ⟨⟨st, r, hst, hread, hnodup, hcount⟩, -, -, hchanges⟩ := columns_of_validate hvalid
  exact ⟨hvalid, hnames, ⟨st, r, hst, hread, hnodup.mpr hnames, hcount.mpr hnames⟩,
    fun st r h hr => (hchanges st r h hr).2 hnames⟩

/-- Both ends of the validity are in one column. -/
def oneEnd : Options :=
  { table := "items"
    names := { validFrom := "x", validTo := "x" }
    fields := ⟨[⟨"i", .id, .integer⟩]⟩ }

/-- **Consistent options whose insertion names a column twice.** -/
theorem oneEnd_repeats : oneEnd.validate = .ok () ∧
    ∃ st r, oneEnd.layout.statement .insert = .ok st ∧ Command.read st.sql = .ok r ∧
      ¬ r.command.writes.Nodup := by
  obtain ⟨r, hread, hwrites⟩ := writes_insertion (l := oneEnd.layout) rfl
  refine ⟨by decide +kernel, _, r, rfl, hread, ?_⟩
  rw [hwrites]
  decide +kernel

end Options

end RowHistory
