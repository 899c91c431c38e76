import RowHistory.Proofs.Field.RoundTrip
import RowHistory.Proofs.Session.Success
import RowHistory.Proofs.Versions.Lookups
import RowHistory.Proofs.Versions.Results

/-!
# What a load leaves

A session that is given rows of JSON, each with an identifier of its own, leaves for each of them the
version that it told of, with all that the row brought. This file fixes

* the rows that a table gives back as they are (`Layout.Returned`), and those of JSON among them
  (`Layout.Loadable`), whose stored identifiers are told apart (`identifier_eq`);
* the stored rows that have what a row brought (`Layout.Mirrors`), and that a step leaves one if what
  it writes is equal to what comes back (`Step.mirrors`);
* that the rows of a load are all there after it (`Layout.Loaded`), also after its end
  (`Session.Loads`, `Loads.finished`).
-/

namespace RowHistory

open Sql

/-! ## 1. Rows that a table gives back -/

/-- The fields of the kind identify a row, or are compared or updated. -/
def FieldKind.Counts (kind : FieldKind) : Prop :=
  kind = .id ∨ kind = .compare ∨ kind = .update

instance (kind : FieldKind) : Decidable kind.Counts :=
  inferInstanceAs (Decidable (_ ∨ _ ∨ _))

namespace Layout

variable {l : Layout} {t : Table} {row w : Row} {now cutoff : Instant} {horizon : Option Instant}
  {status : RowStatus} {n : Int} {rows rows' before after : List (List Cell)} {r r' : List Cell}
  {v : Version} {strict : Prop} {ticks : List Instant} {db : Database} {natural : Outcome}
  {kind : FieldKind} {f : Field}

/-- No field that counts is declared as a floating-point number. -/
def IsExact (l : Layout) : Prop :=
  ∀ f ∈ l.fields.fields, f.kind.Counts → f.type ≠ .float

instance (l : Layout) : Decidable l.IsExact :=
  inferInstanceAs (Decidable (∀ f ∈ l.fields.fields, _))

/-- A row of JSON whose values come back from the columns that count as they are bound to them. -/
structure Loadable (l : Layout) (t : Table) (row : Row) : Prop where
  read : ∃ j, l.fields.rowOfJson j = .ok row
  returned : ∀ f ∈ l.fields.fields, f.kind.Counts →
    (t.affinityOf f.name).store (Cell.ofValue (row.value f.name)) = Cell.ofValue (row.value f.name)

/-- A row that has no floating-point numbers in the fields that count, and whose values come back from
their columns as they are bound to them. -/
structure Returned (l : Layout) (t : Table) (row : Row) : Prop where
  exact : ∀ f ∈ l.fields.fields, f.kind.Counts → (row.value f.name).isFloating = false
  returned : ∀ f ∈ l.fields.fields, f.kind.Counts →
    (t.affinityOf f.name).store (Cell.ofValue (row.value f.name)) = Cell.ofValue (row.value f.name)

/-- What a row brought for the fields of a kind is equal to what their columns give back. -/
def ComesBack (l : Layout) (t : Table) (kind : FieldKind) (row : Row) : Prop :=
  ∀ f ∈ l.fields.ofKind kind, f.type.equal f.name (row.value f.name)
    ((t.affinityOf f.name).store (Cell.ofValue (row.value f.name))).toValue = .ok true

/-- The cells that are stored for the identifier of a row. -/
def identifier (l : Layout) (t : Table) (row : Row) : List Cell :=
  (l.fields.names .id).map fun n => (t.affinityOf n).store (Cell.ofValue (row.value n))

/-- An identifier that is not missing is found again. -/
theorem Returned.admissible (h : l.Returned t row)
    (hpresent : ∀ n ∈ l.fields.names .id, row.value n ≠ .null) : l.Admissible t row := by
  intro n hn
  obtain ⟨f, hf, hkind, rfl⟩ := Classification.mem_names hn
  have hreturned := h.returned f hf (.inl hkind)
  have hne : Cell.ofValue (row.value f.name) ≠ .null := by
    obtain hnull | ⟨m, hm⟩ | ⟨s, hs⟩ := Value.ofValue_exact (h.exact f hf (.inl hkind))
    · exact absurd hnull (hpresent f.name hn)
    · rw [hm]
      exact nofun
    · rw [hs]
      exact nofun
  refine ⟨fun hnull => absurd hnull hne, fun hreal => ?_⟩
  rw [hreal] at hreturned
  rw [hreturned]
  have hproper := Cell.isProper_ofValue (row.value f.name)
  exact (Affinity.compareCells_eq_iff hreturned hproper hproper).mpr ⟨hne, hne, rfl⟩

/-- Values that last come back. -/
theorem Returned.comesBack (h : l.Returned t row) (hcounts : kind.Counts)
    (hlasts : ∀ f ∈ l.fields.ofKind kind, f.type.Lasts (row.value f.name)) :
    l.ComesBack t kind row := by
  intro f hf
  obtain ⟨hmem, hkind⟩ := Classification.mem_ofKind.mp hf
  rw [h.returned f hmem (hkind ▸ hcounts)]
  exact (hlasts f hf).equal_stored (h.exact f hmem (hkind ▸ hcounts))

section Loadable

variable (hexact : l.IsExact) (hnames : (l.fields.fields.map Field.name).Nodup)
  (hload : l.Loadable t row)

include hexact hnames hload

theorem Loadable.lasts (hf : f ∈ l.fields.fields) (hcounts : f.kind.Counts) :
    f.type.Lasts (row.value f.name) ∧ (row.value f.name).isFloating = false := by
  obtain ⟨j, hj⟩ := hload.read
  obtain ⟨j', hj'⟩ := Classification.value_rowOfJson hnames hj hf
  obtain ⟨-, hnull⟩ | hholds := FieldType.holds_of_ofJson (hexact f hf hcounts) hj'
  · rw [hnull]
    exact ⟨.inl rfl, rfl⟩
  · exact hholds.lasts

theorem Loadable.toReturned : l.Returned t row :=
  ⟨fun _ hf hcounts => (hload.lasts hexact hnames hf hcounts).2, hload.returned⟩

theorem Loadable.admissible (hpresent : ∀ n ∈ l.fields.names .id, row.value n ≠ .null) :
    l.Admissible t row :=
  (hload.toReturned hexact hnames).admissible hpresent

theorem Loadable.comesBack (hcounts : kind.Counts) : l.ComesBack t kind row := by
  refine (hload.toReturned hexact hnames).comesBack hcounts fun f hf => ?_
  obtain ⟨hmem, hkind⟩ := Classification.mem_ofKind.mp hf
  exact (hload.lasts hexact hnames hmem (hkind ▸ hcounts)).1

/-- **Rows with the same identifier have the same stored identifier.** -/
theorem Loadable.identifier_eq (hload' : l.Loadable t w) (h : l.sameIdentifier t w row = true) :
    l.identifier t w = l.identifier t row := by
  refine List.map_congr_left fun n hn => ?_
  obtain ⟨f, hf, hkind, rfl⟩ := Classification.mem_names hn
  have hfound := of_decide_eq_true (List.all_eq_true.mp h f.name hn)
  rw [hload.returned f hf (.inl hkind)] at hfound ⊢
  have hstored := hload.returned f hf (.inl hkind)
  have hstored' := hload'.returned f hf (.inl hkind)
  rw [hstored']
  obtain ⟨hne, hne', hkey⟩ := (Affinity.compareCells_eq_iff hstored (Cell.isProper_ofValue _)
    (Cell.isProper_ofValue _)).mp hfound
  rw [Affinity.read_of_store hstored, Affinity.read_of_store hstored'] at hkey
  have hreal : ∀ {u : Row}, l.Loadable t u → Cell.ofValue (u.value f.name) ≠ .null →
      ∀ x, Cell.ofValue (u.value f.name) ≠ .real x := by
    intro u hu hnull x
    obtain heq | ⟨m, hm⟩ | ⟨s, hs⟩ :=
      Value.ofValue_exact (hu.lasts hexact hnames hf (.inl hkind)).2
    · rw [heq] at hnull
      exact absurd rfl hnull
    · rw [hm]
      exact nofun
    · rw [hs]
      exact nofun
  exact Cell.eq_of_key (hreal hload' hne') (hreal hload hne) hkey.symm

end Loadable

/-! ## 2. Stored rows with what was brought -/

/-- A stored row is equal to an incoming one in the fields of a kind. -/
def Matches (l : Layout) (t : Table) (kind : FieldKind) (row : Row) (r : List Cell) : Prop :=
  ∀ f ∈ l.fields.ofKind kind,
    f.type.equal f.name (row.value f.name) (t.cell r f.name).toValue = .ok true

theorem Matches.congr (h : l.Matches t kind row r)
    (hcells : ∀ c ∈ l.fields.names kind, t.cell r' c = t.cell r c) : l.Matches t kind row r' := by
  intro f hf
  rw [hcells f.name (List.mem_map_of_mem hf)]
  exact h f hf

/-- A row that keeps what was brought is equal to it. -/
theorem ComesBack.matches (h : l.ComesBack t kind row)
    (hcells : ∀ c ∈ l.fields.names kind, t.cell r c = (t.affinityOf c).store (Cell.ofValue (row.value c))) :
    l.Matches t kind row r := by
  intro f hf
  rw [hcells f.name (List.mem_map_of_mem hf)]
  exact h f hf

theorem compare_insert {c : String} (hc : c ∈ l.fields.names .compare) : c ∈ l.insertColumns :=
  lasting_insert (List.mem_append_left _ (List.mem_append_right _ hc))

theorem update_update {c : String} (hc : c ∈ l.fields.names .update) : c ∈ l.updateColumns :=
  List.mem_append_left _ (List.mem_append_left _ hc)

/-- What a comparison with the record of a stored row reads. -/
theorem agrees_recordOf (hspelled : l.Spelled t) (hd : t.Distinct) (hr : t.IsRow r)
    (hkind : ∀ c ∈ l.fields.names kind, c ∈ l.insertColumns) :
    l.fields.Agrees kind row (recordOf t r v).row ↔ l.Matches t kind row r := by
  refine forall₂_congr fun f hf => ?_
  unfold Field.equal
  rw [value_recordOf hspelled hd hr (hkind f.name (List.mem_map_of_mem hf))]

/-- A stored row has what a row brought, and the number that was told of it. -/
structure Mirrors (l : Layout) (t : Table) (row : Row) (n : Int) (r : List Cell) : Prop where
  identified : l.identifies t row r = true
  number : t.cell r l.names.version = .integer n
  compare : l.Matches t .compare row r
  update : l.Matches t .update row r

/-- The columns that a row is compared by when it comes again. -/
def mirrored (l : Layout) : List String :=
  l.lasting ++ l.fields.names .update

theorem Mirrors.congr (h : l.Mirrors t row n r)
    (hcells : ∀ c ∈ l.mirrored, t.cell r' c = t.cell r c) : l.Mirrors t row n r' := by
  have hlasting : ∀ c ∈ l.lasting, t.cell r' c = t.cell r c := fun c hc =>
    hcells c (List.mem_append_left _ hc)
  refine ⟨?_, (hlasting _ l.version_lasting).trans h.number, h.compare.congr fun c hc => ?_,
    h.update.congr fun c hc => hcells c (List.mem_append_right _ hc)⟩
  · rw [← h.identified]
    unfold identifies
    rw [Bool.eq_iff_iff, List.all_eq_true, List.all_eq_true]
    refine forall₂_congr fun m hm => ?_
    rw [hlasting m (id_lasting hm)]
  · exact hlasting c (List.mem_append_left _ (List.mem_append_right _ hc))

/-- Neither an end nor when a row was seen is compared. -/
theorem Distinct.mirrored (hl : l.Distinct) {c d : String} (hc : c ∈ l.mirrored)
    (hd : d ∈ l.names.validTo :: l.names.lastSeen.toList) : d.toLower ≠ c.toLower := by
  have hchanging : d ∈ l.names.validTo :: l.updateColumns := by
    obtain rfl | hd := List.mem_cons.mp hd
    · exact List.mem_cons_self
    · exact List.mem_cons_of_mem _ (lastSeen_update hd)
  obtain hc | hc := List.mem_append.mp hc
  · exact hl.lasting hc hchanging
  · obtain rfl | hd := List.mem_cons.mp hd
    · exact (hl.validTo_ne (update_update hc)).symm
    · have hnodup := (List.nodup_cons.mp hl.changing).2
      unfold updateColumns at hnodup
      rw [List.append_assoc, List.map_append] at hnodup
      refine ((List.nodup_append.mp hnodup).2.2 _ (List.mem_map_of_mem hc) _
        (List.mem_map_of_mem ?_)).symm
      exact List.mem_append_right _ (List.mem_cons_of_mem _ hd)

theorem Mirrors.put (hl : l.Distinct) (h : l.Mirrors t row n r) (hr : t.IsRow r)
    {entries : List (String × Cell)}
    (hentries : ∀ e ∈ entries, e.1 ∈ l.names.validTo :: l.names.lastSeen.toList) :
    l.Mirrors t row n (t.put entries r) :=
  h.congr fun _ hc => Table.cell_put_of_none hr.length
    (Table.cellNamed?_eq_none fun e he => hl.mirrored hc (hentries e he))

/-! ## 3. Steps -/

/-- What a lookup finds where one version is active. -/
theorem Finds.record {found : Option Record} (hfinds : l.Finds t (before ++ r :: after) row now found)
    (hone : l.OneActive t row now before r after v) : found = Option.some (recordOf t r v) := by
  cases hfinds with
  | none hnone =>
    exact absurd hone.active (hnone r (mem_middle _ _ r) hone.identified v hone.shows)
  | @some r' v' hr' hid hshow hactive _ =>
    have hsame : r' = r := by
      by_contra hne
      have hother : r' ∈ before ++ after := by
        obtain hr' | hr' := List.mem_append.mp hr'
        · exact List.mem_append_left _ hr'
        · exact List.mem_append_right _ ((List.mem_cons.mp hr').resolve_left hne)
      obtain ⟨u, hu, hnot⟩ := hone.only r' hother hid
      rw [hu.unique hshow] at hnot
      exact hnot hactive
    subst hsame
    rw [hshow.unique hone.shows]

section Judged

variable (hids : l.fields.names .id ≠ []) (hmain : l.InMain) (hspelled : l.Spelled t)
  (hs : l.Suits t) (hnow : now.IsStorable)

include hids hmain hspelled hs hnow

/-- A row is judged by the record of the active version. -/
theorem againstActive_of_judged (h : l.Chained t strict ticks (before ++ r :: after))
    (hfind : db.find? l.table = some { t with rows := before ++ r :: after })
    (hone : l.OneActive t row now before r after v) (hjudged : Session.Judged l row now db natural) :
    l.fields.againstActive row (recordOf t r v) = .ok natural := by
  obtain ⟨answer, found, hrun, hrecord, hfinds⟩ :=
    h.run_active hids hmain hspelled hs hfind hnow row
  rw [hfinds.record hone] at hrecord
  cases hjudged with
  | active hrun' hrecord' hagainst =>
    rw [hrun] at hrun'
    cases hrun'
    rw [hrecord] at hrecord'
    cases hrecord'
    exact hagainst
  | latest hrun' hrecord' _ _ =>
    rw [hrun] at hrun'
    cases hrun'
    rw [hrecord] at hrecord'
    cases hrecord'

/-- **A row that an active version has is judged to be identical.** -/
theorem Mirrors.judged (h : l.Chained t strict ticks (before ++ r :: after))
    (hfind : db.find? l.table = some { t with rows := before ++ r :: after })
    (hone : l.OneActive t row now before r after v) (hmirrors : l.Mirrors t row n r) :
    Session.Judged l row now db ⟨.identical, n⟩ := by
  obtain ⟨answer, found, hrun, hrecord, hfinds⟩ :=
    h.run_active hids hmain hspelled hs hfind hnow row
  rw [hfinds.record hone] at hrecord
  have hr := (h.stored r (mem_middle _ _ r)).row
  have hnumber : n = (recordOf t r v).version :=
    Cell.integer.inj (hmirrors.number.symm.trans hone.shows.number)
  rw [hnumber]
  refine .active hrun hrecord (Classification.againstActive_identical ?_ ?_)
  · exact (agrees_recordOf hspelled hs.columns hr fun _ hc => compare_insert hc).mpr hmirrors.compare
  · exact (agrees_recordOf hspelled hs.columns hr fun _ hc =>
      updateColumns_insert (update_update hc)).mpr hmirrors.update

end Judged

/-- A row that is judged by itself is not purged or skipped. -/
theorem status_of_judged (h : Session.Judged l row now db natural) :
    natural.status ≠ .purged ∧ natural.status ≠ .skipped := by
  cases h with
  | active _ _ hagainst =>
    obtain rfl | rfl | rfl := Classification.againstActive_ok hagainst <;> exact ⟨nofun, nofun⟩
  | @latest _ _ latest _ _ _ _ => cases latest <;> exact ⟨nofun, nofun⟩

/-- A row can only be judged where its table is reached. -/
theorem inMain_of_judged (hids : l.fields.names .id ≠ [])
    (h : Session.Judged l row now db natural) : l.InMain := by
  cases h with
  | active hrun _ _ => exact inMain_of_run hids (.inr rfl) hrun
  | latest hrun _ _ _ => exact inMain_of_run hids (.inr rfl) hrun

theorem mirrors_fresh (hcompare : l.ComesBack t .compare row) (hupdate : l.ComesBack t .update row)
    (hs : l.Suits t) (hcolumns : ∀ c ∈ l.insertColumns, t.Has c)
    (hfindable : l.Findable t row) (now : Instant) (horizon : Option Instant) :
    l.Mirrors t row n (l.freshRow t row n now horizon) := by
  refine ⟨identifies_fresh hs hcolumns hfindable, ?_, ?_, ?_⟩
  · refine (cell_fresh hs hcolumns (List.mem_append_right _ ?_)).trans (hs.version n)
    exact List.mem_cons_of_mem _ (List.mem_cons_of_mem _ List.mem_cons_self)
  · refine hcompare.matches fun c hc => cell_fresh hs hcolumns ?_
    simp only [versionCells, fieldCells, List.mem_append, List.mem_map]
    exact .inl (.inl (.inr ⟨c, hc, rfl⟩))
  · refine hupdate.matches fun c hc => cell_fresh hs hcolumns ?_
    simp only [versionCells, fieldCells, List.mem_append, List.mem_map]
    exact .inl (.inl (.inl (.inr ⟨c, hc, rfl⟩)))

/-- A version that is changed in place gets what is updated. -/
theorem cell_renewed (hs : l.Suits t) (hr : l.Stored t r) {c : String}
    (hc : c ∈ l.fields.names .update) : t.cell (t.put (l.renewedCells row now) r) c =
      (t.affinityOf c).store (Cell.ofValue (row.value c)) := by
  have hsublist : ((l.renewedCells row now).map Prod.fst).Sublist l.insertColumns := by
    rw [fst_renewedCells]
    exact l.setColumns_sublist .update
  have hmem : (c, Cell.ofValue (row.value c)) ∈ l.renewedCells row now :=
    List.mem_append_left _ (List.mem_append_left _ (List.mem_map.mpr ⟨c, hc, rfl⟩))
  rw [Table.cell_put (hr.columns c (updateColumns_insert (update_update hc))) hr.row.length,
    hs.names.cellNamed? hsublist hmem]

/-- **A step leaves a version that has what the row brought**, if the row was judged by itself and
what the step writes comes back. -/
theorem Step.mirrors (hstep : Step l t row now horizon rows status n rows')
    (hcompare : status.adds = true → l.ComesBack t .compare row)
    (hupdate : status ≠ .identical → l.ComesBack t .update row) (hids : l.fields.names .id ≠ [])
    (hmain : l.InMain) (hspelled : l.Spelled t) (hs : l.Suits t)
    (h : l.Chained t strict ticks rows) (hnow : now.IsStorable) (hfindable : l.Findable t row)
    (hcolumns : status = .new → ∀ c ∈ l.insertColumns, t.Has c)
    (hfind : db.find? l.table = some { t with rows })
    (hjudged : Session.Judged l row now db ⟨status, n⟩) : ∃ r ∈ rows', l.Mirrors t row n r := by
  have hfresh : ∀ {k : Int}, status.adds = true → (∀ c ∈ l.insertColumns, t.Has c) →
      l.Mirrors t row k (l.freshRow t row k now horizon) := fun hadds hcolumns =>
    mirrors_fresh (hcompare hadds) (hupdate fun heq => by rw [heq] at hadds; cases hadds) hs hcolumns
      hfindable now horizon
  have hkept : ∀ {before after r v}, rows = before ++ r :: after →
      l.OneActive t row now before r after v → l.fields.againstActive row (recordOf t r v) =
        .ok ⟨status, n⟩ := by
    rintro before after r v rfl hone
    exact againstActive_of_judged hids hmain hspelled hs hnow h hfind hone hjudged
  cases hstep with
  | new _ => exact ⟨_, List.mem_append_right _ List.mem_cons_self, hfresh rfl (hcolumns rfl)⟩
  | outdated hr _ _ _ _ =>
    exact ⟨_, List.mem_append_right _ List.mem_cons_self, hfresh rfl (h.stored _ hr).columns⟩
  | changed _ =>
    exact ⟨_, List.mem_append_right _ List.mem_cons_self,
      hfresh rfl (h.stored _ (mem_middle _ _ _)).columns⟩
  | @update before after r v hone =>
    have hr := h.stored r (mem_middle _ _ r)
    have hagrees := (Classification.agrees_of_againstActive (hkept rfl hone)).1 nofun
    rw [agrees_recordOf hspelled hs.columns hr.row fun _ hc => compare_insert hc] at hagrees
    have hlasting : ∀ c ∈ l.lasting, t.cell (t.put (l.renewedCells row now) r) c = t.cell r c :=
      fun c hc => hs.names.cell_put hr.row (l.renewedCells_changes row now) hc
    refine ⟨_, mem_middle _ _ _, ?_, ?_, hagrees.congr fun c hc => hlasting c ?_, ?_⟩
    · exact (identifies_put hs.names hr.row (l.renewedCells_changes row now)).trans hone.identified
    · exact (hlasting _ l.version_lasting).trans hone.shows.number
    · exact List.mem_append_left _ (List.mem_append_right _ hc)
    · exact (hupdate nofun).matches fun c hc => cell_renewed hs hr hc
  | @identical before after r v hone =>
    have hr := h.stored r (mem_middle _ _ r)
    obtain ⟨hcompare, hupdate⟩ := Classification.agrees_of_againstActive (hkept rfl hone)
    have hcompare := hcompare nofun
    have hupdate := hupdate rfl
    rw [agrees_recordOf hspelled hs.columns hr.row fun _ hc => compare_insert hc] at hcompare
    rw [agrees_recordOf hspelled hs.columns hr.row fun _ hc =>
      updateColumns_insert (update_update hc)] at hupdate
    have hmirrors : l.Mirrors t row v.number r :=
      ⟨hone.identified, hone.shows.number, hcompare, hupdate⟩
    exact ⟨_, mem_middle _ _ _, hmirrors.put hs.names hr.row fun e he =>
      List.mem_cons_of_mem _ (l.fst_seenCells now ▸ List.mem_map_of_mem he)⟩
  | purged _ => exact absurd rfl (status_of_judged hjudged).1
  | skipped _ => exact absurd rfl (status_of_judged hjudged).2

/-- Rows of other identifiers stay. -/
theorem Step.stays (hstep : Step l t row now horizon rows status n rows') (hr : r ∈ rows)
    (hid : l.identifies t row r = false) : r ∈ rows' := by
  have hother : ∀ {before after x y v}, r ∈ before ++ x :: after →
      l.OneActive t row now before x after v → r ∈ before ++ y :: after := by
    intro before after x y v hr hone
    have hne : r ≠ x := by
      rintro rfl
      exact Bool.false_ne_true (hid.symm.trans hone.identified)
    obtain hr | hr := List.mem_append.mp hr
    · exact List.mem_append_left _ hr
    · exact List.mem_append_right _ (List.mem_cons_of_mem _ ((List.mem_cons.mp hr).resolve_left hne))
  cases hstep with
  | new _ | outdated _ _ _ _ _ => exact List.mem_append_left _ hr
  | changed hone => exact List.mem_append_left _ (hother hr hone)
  | update hone | identical hone | purged hone => exact hother hr hone
  | skipped _ => exact hr

/-! ## 4. Loads -/

/-- Every result of a load tells of a stored version that has what its row brought. -/
def Loaded (l : Layout) (t : Table) (history : List Entry) (rows : List (List Cell)) : Prop :=
  ∀ e ∈ history, ∃ r ∈ rows, l.Mirrors t e.row e.result.version r

/-- The results are those of a load: rows that come back as they are, without a forced status, each with
an identifier of its own. -/
structure IsLoad (l : Layout) (t : Table) (history : List Entry) : Prop where
  natural : ∀ e ∈ history, e.forced = none
  loadable : ∀ e ∈ history, l.Loadable t e.row
  distinct : history.Pairwise fun a b => l.sameIdentifier t a.row b.row = false

/-- A load is not changed by a purge. -/
theorem Loaded.sweep {history : List Entry} {picked : List Cell → Bool} (hs : l.Suits t)
    (h : l.Chained t strict ticks rows) (hloaded : l.Loaded t history rows) :
    l.Loaded t history (rows.map (l.sweptRow t picked cutoff)) := by
  intro e he
  obtain ⟨r, hr, hmirrors⟩ := hloaded e he
  refine ⟨_, List.mem_map_of_mem hr, ?_⟩
  unfold sweptRow
  split
  · exact hmirrors.put hs.names (h.stored r hr).row (List.forall_mem_singleton.mpr List.mem_cons_self)
  · exact hmirrors

end Layout

namespace Session

variable {σ : Type} [Connection σ] [Transactional σ] {l : Layout} {t : Table} {c₀ : σ}
  {ticks : List Instant} {history : List Entry} {s s' : Session σ} {e : Entry}

/-- What holds while a session is given the rows of a load. -/
structure Loads (l : Layout) (t : Table) (c₀ : σ) (ticks : List Instant) (history : List Entry)
    (s : Session σ) : Prop where
  reaches : Reaches l t False c₀ (.busy s) (history.map Entry.tick ++ ticks)
  main : history ≠ [] → l.InMain
  findable : ∀ e ∈ history, l.Findable t e.row
  loaded : l.IsLoad t history → ∀ {rows}, s.isOpen = true →
    s.working.find? l.table = some { t with rows } → l.Loaded t history rows

theorem nodup_names (hs : s.Fit) : (s.options.layout.fields.fields.map Field.name).Nodup :=
  (Classification.nodup_of_fault? (Options.fields_of_validate hs.valid).1).1

/-- A row without a forced status is judged to be what is told of it. -/
theorem Applied.natural {row : Row} {now : Instant} {result : RowResult}
    (h : Applied row none now s result s') :
    Judged s.options.layout row now s.working ⟨result.status, result.version⟩ := by
  obtain ⟨natural, hjudged, hresult⟩ := h.judged
  rw [hresult]
  exact hjudged

/-- **A row that a session tells of is loaded**, and those before it stay. -/
theorem Loads.told (hsound : Transactional.Sound c₀) (hs : l.Suits t) (hempty : t.rows = [])
    (hfind : (Transactional.durable c₀).find? l.table = some t) (hspelled : l.Spelled t)
    (hexact : l.IsExact) (h : Loads l t c₀ ticks history s) (htells : s.Tells l t e s') :
    Loads l t c₀ ticks (e :: history) s' := by
  have hholds : s.Holds l t False _ := h.reaches.holds hsound hs hempty hfind
  have hids := hholds.ids
  have htold := htells.spec hs hholds
  obtain ⟨rows, rows', hrows, hchained, hstep, hsets, hcolumns⟩ := htold.step
  obtain ⟨natural, hjudged, -⟩ := htold.applied.judged
  rw [hholds.layout] at hjudged
  have hmain := Layout.inMain_of_judged hids hjudged
  refine ⟨?_, fun _ => hmain, List.forall_mem_cons.mpr ⟨htold.findable, h.findable⟩, ?_⟩
  · have hnext := h.reaches.processed htells.admissible (htells.tick ▸ htells.years) htells.told
    rw [ticked_tick htold.clock, ← htells.tick] at hnext
    exact hnext
  · intro hload rows₀ _ hrows₀
    obtain rfl : rows₀ = rows' :=
      congrArg Table.rows (Option.some.inj (hrows₀.symm.trans hsets.table))
    obtain ⟨hdistinct, hpairwise⟩ := List.pairwise_cons.mp hload.distinct
    have hearlier := h.loaded ⟨fun e he => hload.natural e (List.mem_cons_of_mem _ he),
      fun e he => hload.loadable e (List.mem_cons_of_mem _ he), hpairwise⟩ htold.wasOpen hrows
    refine List.forall_mem_cons.mpr ⟨?_, fun e' he' => ?_⟩
    · have happlied := htold.applied
      rw [hload.natural e List.mem_cons_self] at happlied
      have hnatural := happlied.natural
      rw [hholds.layout] at hnatural
      have hnames := nodup_names hholds.fit
      rw [hholds.layout] at hnames
      have hback : ∀ {kind : FieldKind}, kind.Counts → l.ComesBack t kind e.row :=
        (hload.loadable e List.mem_cons_self).comesBack hexact hnames
      exact hstep.mirrors (fun _ => hback (.inr (.inl rfl))) (fun _ => hback (.inr (.inr rfl))) hids hmain
        hspelled hs hchained htold.storable htold.findable hcolumns hrows hnatural
    · obtain ⟨r, hr, hmirrors⟩ := hearlier e' he'
      refine ⟨r, hstep.stays hr ?_, hmirrors⟩
      rw [Layout.identifies_of_found hs (hchained.stored r hr) (h.findable e' he') hmirrors.identified]
      exact hdistinct e' he'

/-- What a session tells of has an identifier. -/
theorem identified_of_told (hs : s.Fit) {row : Row} {forced : Option RowStatus} {result : RowResult}
    (h : s.processAs row forced = (.ok (some result), s')) :
    missingIdentifier? s.options row = none ∧ s'.Fit ∧ Same s s' := by
  obtain ⟨hfit, hsame, -, happlied, -, -⟩ := told_spec hs h
  exact ⟨happlied.identified, hfit, hsame⟩

theorem tell_identified (hs : s.Fit) {calls : List (Row × Option RowStatus)} {history' : List Entry}
    (h : s.tell calls history = some (history', s')) :
    ∀ call ∈ calls, missingIdentifier? s.options call.1 = none := by
  induction calls generalizing s history with
  | nil => exact List.forall_mem_nil _
  | cons call calls ih =>
    obtain ⟨result, s₁, hrun, hrest⟩ := tell_cons h
    obtain ⟨hidentified, hfit, hsame⟩ := identified_of_told hs hrun
    refine List.forall_mem_cons.mpr ⟨hidentified, ?_⟩
    rw [← hsame.options]
    exact ih hfit hrest

theorem present_of_identified {o : Options} {row : Row} (h : missingIdentifier? o row = none) :
    ∀ n ∈ o.layout.fields.names .id, row.value n ≠ .null := by
  intro n hn hnull
  have hpresent := List.find?_eq_none.mp h n hn
  rw [hnull] at hpresent
  exact hpresent rfl

omit [Transactional σ] in
/-- Results of rows whose stored identifiers differ are those of a load. -/
theorem isLoad_of_tell {rows : List Row} (hexact : l.IsExact)
    (hnames : (l.fields.fields.map Field.name).Nodup) (hload : ∀ row ∈ rows, l.Loadable t row)
    (hnodup : (rows.map (l.identifier t)).Nodup)
    (htold : s.tell (rows.map fun row => (row, none)) [] = some (history, s')) :
    l.IsLoad t history ∧ history.map Entry.row = rows.reverse := by
  have hcalls := tell_calls htold
  rw [List.map_nil, List.append_nil, ← List.map_reverse] at hcalls
  have hrows : history.map Entry.row = rows.reverse := by
    have hfst := congrArg (List.map Prod.fst) hcalls
    rw [List.map_map, List.map_map] at hfst
    exact hfst.trans (List.map_id _)
  have hloadable : ∀ e ∈ history, l.Loadable t e.row := fun e he =>
    hload e.row (List.mem_reverse.mp (hrows ▸ List.mem_map_of_mem he))
  refine ⟨⟨fun e he => ?_, hloadable, ?_⟩, hrows⟩
  · have hmem : (e.row, e.forced) ∈ rows.reverse.map fun row => (row, none) :=
      hcalls ▸ List.mem_map.mpr ⟨e, he, rfl⟩
    obtain ⟨row, -, heq⟩ := List.mem_map.mp hmem
    exact (congrArg Prod.snd heq).symm
  · have hdistinct : (history.map fun e => l.identifier t e.row).Nodup := by
      rw [← List.nodup_reverse, ← List.map_reverse, ← hrows, List.map_map] at hnodup
      exact hnodup
    refine (List.pairwise_map.mp hdistinct).imp_of_mem fun ha hb hne => ?_
    rw [← Bool.not_eq_true]
    exact fun hsame =>
      hne ((hloadable _ hb).identifier_eq hexact hnames (hloadable _ ha) hsame)

section Finished

variable (hsound : Transactional.Sound c₀) (hs : l.Suits t) (hempty : t.rows = [])
  (hfind : (Transactional.durable c₀).find? l.table = some t)

include hsound hs hempty hfind

/-- **What rows leave that a session is given one after the other.** -/
theorem loads_of_tell (hspelled : l.Spelled t) (hexact : l.IsExact)
    (h : Reaches l t False c₀ (.busy s) ticks) {calls : List (Row × Option RowStatus)}
    (htold : s.tell calls [] = some (history, s')) (hrows : ∀ call ∈ calls, l.Admissible t call.1)
    (hyears : ∀ e ∈ history, e.tick.InYears) : Loads l t c₀ ticks history s' :=
  tell_induction (P := fun history s => Loads l t c₀ ticks history s)
    (fun h htells => h.told hsound hs hempty hfind hspelled hexact htells)
    ⟨h, fun hne => absurd rfl hne, List.forall_mem_nil _, fun _ _ _ _ => List.forall_mem_nil _⟩ htold
    hrows hyears

/-- **What a load leaves when it is finished**: its versions are committed, also if the end purged. -/
theorem Loads.finished (h : Loads l t c₀ ticks history s) (hload : l.IsLoad t history)
    (hfinish : s.finish = (.ok (), s'))
    (hyears : ∀ k ∈ s.ticked s', k.InYears) :
    Reaches l t False c₀ (.idle s'.storage.connection)
        (s.ticked s' ++ (history.map Entry.tick ++ ticks)) ∧
      ∃ rows, s'.durable.find? l.table = some { t with rows } ∧ l.Loaded t history rows := by
  have hholds : s.Holds l t False _ := h.reaches.holds hsound hs hempty hfind
  obtain ⟨hopen, hfinished⟩ := finish_ok hfinish
  obtain ⟨rows, hrows, hchained⟩ := hholds.working hopen
  have hloaded := h.loaded hload hopen hrows
  have hanswer : (s.answer .finish).2 = s' := by
    show (s.finish.map Reply.ended id).2 = s'
    rw [hfinish]
    rfl
  have hcalled : Reaches l t False c₀ (.busy s') (s.ticked s' ++ (history.map Entry.tick ++ ticks)) := by
    rw [← hanswer] at hyears ⊢
    exact h.reaches.called (fun _ _ heq => nomatch heq) hyears
  split at hfinished
  · obtain ⟨n, s₁, hpurge, hclose⟩ := hfinished
    obtain ⟨-, hpurged⟩ := purge_ok hholds.fit hpurge
    obtain ⟨hd, -, hclosed, -⟩ := commitAndClose_ok hpurged.fit hpurged.isOpen hclose
    have hswept := hpurged.swept
    rw [hholds.layout] at hswept
    obtain ⟨picked, -, hsets⟩ := hchained.swept hs hrows hswept
    exact ⟨hcalled.left hclosed, _, hd ▸ hsets.table, hloaded.sweep hs hchained⟩
  · obtain ⟨hd, -, hclosed, -⟩ := commitAndClose_ok hholds.fit hopen hfinished
    exact ⟨hcalled.left hclosed, rows, hd ▸ hrows, hloaded⟩

end Finished

end Session

end RowHistory
