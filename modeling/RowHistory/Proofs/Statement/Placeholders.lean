import RowHistory.Proofs.Statement.Effects

/-!
# Placeholders and values stay aligned

The text of a statement has a placeholder for each of its values, although the values are pushed
apart from the text. When the text is scanned, a quoted name is one token, whatever characters it has,
so what stands in front of a placeholder says which column gets the value. This file fixes

* the value position of a column (`Slot.Behind`): in the list of values of an insertion, behind an
  assignment, or behind a comparison;
* that placeholders stand at given positions one after the other (`Fills`), which holds of tokens if
  it holds of their parts (`Fills.append`);
* what each value of a statement is for (`Layout.uses`, `Layout.purgeUses`), and that its
  placeholders stand just there (`Layout.placeholders_aligned`).
-/

namespace RowHistory

namespace Sql

/-! ## 1. Value positions -/

/-- The column that a value is for. -/
inductive Slot where
  /-- A column of a new row. -/
  | inserted (column : String)
  /-- A column that is set. -/
  | assigned (column : String)
  /-- A column that is compared. -/
  | compared (column : String) (op : Relation)
deriving DecidableEq, Repr

/-- The words that begin a clause. -/
def clauseWords : List String :=
  ["SELECT", "FROM", "WHERE", "ORDER", "LIMIT", "INSERT", "INTO", "VALUES", "UPDATE", "SET"]

/-- No clause begins in the tokens. -/
def NoClause (ts : List Token) : Prop :=
  ∀ w ∈ clauseWords, .word w ∉ ts

/-- The last clause that begins in the tokens is that of the word. -/
def InClause (w : String) (ts : List Token) : Prop :=
  ∃ front inside, ts = front ++ .word w :: inside ∧ NoClause inside

/-- The columns of an insertion, and the start of the list of its values. -/
def valuesOpen (q : QuoteStyle) (columns : List String) : List Token :=
  .sign .parenOpen :: (joinedTokens [.sign .comma] (columns.map fun c => [.name q c]) ++
    [.sign .parenClose, .word "VALUES", .sign .parenOpen])

/-- **The tokens in front of the value position of a column.** The values of an insertion have the
order of its columns; any other value stands behind its column and an operator. -/
inductive Slot.Behind (q : QuoteStyle) : Slot → List Token → Prop
  | inserted {front : List Token} {columns : List String} {i : Nat} {c : String} :
      InClause "INTO" front → columns[i]? = some c →
      Behind q (.inserted c)
        (front ++ valuesOpen q columns ++ (List.replicate i [.parameter, .sign .comma]).flatten)
  | assigned {front : List Token} {c : String} :
      InClause "SET" front → Behind q (.assigned c) (front ++ [.name q c, .sign .equal])
  | compared {front : List Token} {c : String} {op : Relation} :
      InClause "WHERE" front →
      Behind q (.compared c op) (front ++ [.name q c, .sign (Reader.orderSign op)])

section Clauses

variable {w : String} {ts us : List Token}

theorem NoClause.append (hts : NoClause ts) (hus : NoClause us) : NoClause (ts ++ us) := by
  intro v hv hmem
  obtain hmem | hmem := List.mem_append.mp hmem
  · exact hts v hv hmem
  · exact hus v hv hmem

theorem InClause.append (h : InClause w ts) (hus : NoClause us) : InClause w (ts ++ us) := by
  obtain ⟨front, inside, rfl, hinside⟩ := h
  exact ⟨front, inside ++ us, by rw [List.append_assoc, List.cons_append], hinside.append hus⟩

theorem inClause_word (w : String) (front : List Token) : InClause w (front ++ [.word w]) :=
  ⟨front, [], rfl, fun _ _ hmem => nomatch hmem⟩

end Clauses

/-! ## 2. Placeholders one after the other -/

/-- Behind the tokens `front`, the placeholders among other tokens stand at the value positions of
slots, one after the other. -/
inductive Fills (q : QuoteStyle) : List Token → List Token → List Slot → Prop
  | nil {front : List Token} : Fills q front [] []
  | other {front ts : List Token} {t : Token} {slots : List Slot} :
      t ≠ .parameter → Fills q (front ++ [t]) ts slots → Fills q front (t :: ts) slots
  | slot {front ts : List Token} {s : Slot} {slots : List Slot} :
      s.Behind q front → Fills q (front ++ [.parameter]) ts slots →
      Fills q front (.parameter :: ts) (s :: slots)

section Fills

variable {q : QuoteStyle} {front ts us before after : List Token} {slots slots' : List Slot} {s : Slot}

theorem Fills.append (hts : Fills q front ts slots) (hus : Fills q (front ++ ts) us slots') :
    Fills q front (ts ++ us) (slots ++ slots') := by
  induction hts with
  | nil =>
    rw [List.append_nil] at hus
    exact hus
  | other ht _ ih =>
    rw [List.append_cons] at hus
    exact .other ht (ih hus)
  | slot hs _ ih =>
    rw [List.append_cons] at hus
    exact .slot hs (ih hus)

/-- Tokens without a placeholder. -/
theorem fills_of_not_mem (h : .parameter ∉ ts) : Fills q front ts [] := by
  induction ts generalizing front with
  | nil => exact .nil
  | cons t ts ih =>
    obtain ⟨hne, hmem⟩ := List.ne_and_not_mem_of_not_mem_cons h
    exact .other hne.symm (ih hmem)

/-- A whole statement, which has all its placeholders between its first and its last tokens. -/
theorem Fills.whole (h : Fills q before ts slots) (hbefore : .parameter ∉ before)
    (hafter : .parameter ∉ after) : Fills q [] (before ++ (ts ++ after)) slots := by
  have hstart : Fills q [] before [] := fills_of_not_mem hbefore
  have hend : Fills q (before ++ ts) after [] := fills_of_not_mem hafter
  have hrest := h.append hend
  rw [List.append_nil] at hrest
  exact hstart.append hrest

theorem Fills.count (h : Fills q front ts slots) : ts.count .parameter = slots.length := by
  induction h with
  | nil => rfl
  | other ht _ ih => rw [List.count_cons_of_ne ht, ih]
  | slot _ _ ih => rw [List.count_cons_self, ih, List.length_cons]

/-- **Every placeholder stands where its slot says**: as many slots come before it as placeholders. -/
theorem Fills.behind (h : Fills q front (before ++ .parameter :: after) slots) :
    ∃ s, slots[before.count .parameter]? = some s ∧ s.Behind q (front ++ before) := by
  induction before generalizing front slots with
  | nil =>
    cases h with
    | other hne => exact absurd rfl hne
    | @slot _ _ s _ hs => exact ⟨s, rfl, by rwa [List.append_nil]⟩
  | cons t before ih =>
    cases h with
    | other hne h =>
      obtain ⟨s, hget, hs⟩ := ih h
      rw [List.append_assoc] at hs
      exact ⟨s, by rwa [List.count_cons_of_ne hne], hs⟩
    | slot _ h =>
      obtain ⟨s, hget, hs⟩ := ih h
      rw [List.append_assoc] at hs
      exact ⟨s, by rwa [List.count_cons_self, List.getElem?_cons_succ], hs⟩

/-- A column, an operator and a placeholder. -/
theorem fills_column {c : String} {sign : Sign} (h : s.Behind q (front ++ [.name q c, .sign sign])) :
    Fills q front [.name q c, .sign sign, .parameter] [s] := by
  refine .other (by simp) (.other (by simp) (.slot ?_ .nil))
  rwa [List.append_assoc]

/-- Items of one clause with the same tokens between them, each with one placeholder. -/
theorem fills_joined {w : String} {between : List Token} {α : Type} {f : α → List Token} {g : α → Slot}
    (hbetween : NoClause between) (hplain : .parameter ∉ between) (hf : ∀ x, NoClause (f x))
    (hfills : ∀ x front, InClause w front → Fills q front (f x) [g x]) :
    ∀ (xs : List α) (front : List Token), InClause w front →
      Fills q front (joinedTokens between (xs.map f)) (xs.map g)
  | [], _, _ => .nil
  | [x], front, h => by
    rw [List.map_cons, List.map_nil, joinedTokens_single]
    exact hfills x front h
  | x :: y :: xs, front, h => by
    have hnext : InClause w (front ++ f x) := h.append (hf x)
    have hrest := fills_joined hbetween hplain hf hfills (y :: xs) _ (hnext.append hbetween)
    have htail := (fills_of_not_mem hplain).append hrest
    rw [List.map_cons, List.map_cons, joinedTokens_cons_cons, ← List.map_cons]
    exact (hfills x front h).append htail

end Fills

/-! ## 3. Conditions, assignments and insertions -/

/-- The slot of the value of a condition. -/
def Atom.slot : Atom → Slot
  | .compare c op => .compared c op
  | .notBefore c => .compared c .ge

section Clauses

variable {q : QuoteStyle} {front : List Token}

theorem Atom.noClause_tokens (q : QuoteStyle) (a : Atom) : NoClause (a.tokens q) := by
  intro w hw
  cases a <;> simp only [Atom.tokens] <;> revert w <;> simp [clauseWords]

theorem fills_atom (a : Atom) (h : InClause "WHERE" front) : Fills q front (a.tokens q) [a.slot] := by
  cases a with
  | compare c op => exact fills_column (.compared h)
  | notBefore c =>
    have hopen : InClause "WHERE" (front ++ [.sign .parenOpen]) := h.append (by simp [NoClause])
    have hbehind : Slot.Behind q (.compared c .ge)
        (front ++ [.sign .parenOpen] ++ [.name q c, .sign (Reader.orderSign .ge)]) := .compared hopen
    exact .other (by simp) ((fills_column hbehind).append (fills_of_not_mem (by simp)))

/-- Conditions that follow others. -/
theorem fills_further (as : List Atom) (h : InClause "WHERE" front) :
    Fills q front (Reader.furtherTokens q as) (as.map Atom.slot) := by
  induction as generalizing front with
  | nil => exact .nil
  | cons a as ih =>
    have hword : InClause "WHERE" (front ++ [.word "AND"]) := h.append (by simp [NoClause, clauseWords])
    have hatom := (fills_atom (q := q) a hword).append (ih (hword.append (a.noClause_tokens q)))
    exact .other (by simp) hatom

/-- Conditions on the identifier. -/
theorem fills_ids (as : List Atom) (h : InClause "WHERE" front) :
    Fills q front (joinedTokens [.word "AND"] (as.map (Atom.tokens q))) (as.map Atom.slot) :=
  fills_joined (by simp [NoClause, clauseWords]) (by simp) (Atom.noClause_tokens q)
    (fun a _ => fills_atom a) as front h

theorem fills_assignments (columns : List String) (h : InClause "SET" front) :
    Fills q front (Reader.assignmentTokens q columns) (columns.map .assigned) :=
  fills_joined (by simp [NoClause, clauseWords]) (by simp) (fun c => by simp [NoClause])
    (fun _ _ h => fills_column (.assigned h)) columns front h

/-- The values of an insertion, by induction on those that are left. As many stand in front as columns
come before theirs. -/
theorem fills_values {columns : List String} (h : InClause "INTO" front) :
    ∀ (rest : List String) (i : Nat), columns.drop i = rest →
      Fills q (front ++ valuesOpen q columns ++ (List.replicate i [.parameter, .sign .comma]).flatten)
        (joinedTokens [.sign .comma] (rest.map fun _ => [.parameter])) (rest.map .inserted)
  | [], _, _ => .nil
  | c :: rest, i, hdrop => by
    have hget : columns[i]? = some c := by rw [← List.head?_drop, hdrop, List.head?_cons]
    cases rest with
    | nil => exact .slot (.inserted h hget) .nil
    | cons c' rest =>
      have hnext : columns.drop (i + 1) = c' :: rest := by rw [← List.tail_drop, hdrop, List.tail_cons]
      have hpair : ∀ ts : List Token, ts ++ [.parameter, .sign .comma] =
          ts ++ [.parameter] ++ [.sign .comma] := fun ts => by rw [List.append_assoc]; rfl
      have hrest := fills_values h (c' :: rest) (i + 1) hnext
      rw [List.replicate_succ', List.flatten_append, List.flatten_singleton, ← List.append_assoc,
        hpair] at hrest
      exact .slot (.inserted h hget) (.other (by simp) hrest)

theorem noClause_path (q : QuoteStyle) (schema : Option String) (table : String) :
    NoClause (Reader.pathTokens q schema table) := by
  intro w _
  cases schema <;> simp [Reader.pathTokens]

theorem parameter_not_mem_path (q : QuoteStyle) (schema : Option String) (table : String) :
    .parameter ∉ Reader.pathTokens q schema table := by
  cases schema <;> simp [Reader.pathTokens]

theorem fills_insertion (schema : Option String) (table : String) (columns : List String) :
    Fills q [] (.word "INSERT" :: Reader.insertTokens q schema table columns)
      (columns.map .inserted) := by
  have hinto : InClause "INTO" ([.word "INSERT", .word "INTO"] ++ Reader.pathTokens q schema table) :=
    (inClause_word "INTO" [.word "INSERT"]).append (noClause_path q schema table)
  have hnames : .parameter ∉ joinedTokens [.sign .comma] (columns.map fun c => [Token.name q c]) := by
    intro hmem
    obtain hmem | ⟨g, hg, hmem⟩ := mem_joinedTokens hmem
    · simp at hmem
    · obtain ⟨c, -, rfl⟩ := List.mem_map.mp hg
      simp at hmem
  have hstart : .parameter ∉ [.word "INSERT", .word "INTO"] ++ Reader.pathTokens q schema table ++
      valuesOpen q columns := by
    simp [valuesOpen, parameter_not_mem_path, hnames]
  have hvalues := fills_values (q := q) hinto columns 0 rfl
  rw [List.replicate_zero, List.flatten_nil, List.append_nil] at hvalues
  have hend : .parameter ∉ [Token.sign .parenClose] := by simp
  simpa [Reader.insertTokens, valuesOpen] using hvalues.whole hstart hend

/-- A change with some conditions. -/
theorem fills_update (schema : Option String) (table : String) (columns : List String)
    {ts : List Token} {slots : List Slot}
    (hts : ∀ front, InClause "WHERE" front → Fills q front ts slots) :
    Fills q [] (.word "UPDATE" :: (Reader.updateTokens q schema table columns ++ (.word "WHERE" :: ts)))
      (columns.map .assigned ++ slots) := by
  have hstart : .parameter ∉ .word "UPDATE" :: Reader.pathTokens q schema table ++ [.word "SET"] := by
    simp [parameter_not_mem_path]
  have hset := fills_assignments (q := q) columns
    (inClause_word "SET" (.word "UPDATE" :: Reader.pathTokens q schema table))
  have hword := hts _ (inClause_word "WHERE" (.word "UPDATE" :: Reader.pathTokens q schema table ++
    [.word "SET"] ++ Reader.assignmentTokens q columns))
  have hwhere := hset.append (.other (by simp) hword)
  simpa [Reader.updateTokens] using hwhere.whole hstart List.not_mem_nil

/-- The conditions of a statement, with or without identifier fields. -/
theorem fills_conditions (l : Layout) (kind : StatementKind) (h : InClause "WHERE" front) :
    Fills l.quote front (conditionTokens l kind) ((l.conditions kind).map Atom.slot) := by
  have hids : NoClause (joinedTokens [.word "AND"] (l.idAtoms.map (Atom.tokens l.quote))) := by
    intro w hw hmem
    obtain hmem | ⟨g, hg, hmem⟩ := mem_joinedTokens hmem
    · revert w
      simp [clauseWords]
    · obtain ⟨a, -, rfl⟩ := List.mem_map.mp hg
      exact a.noClause_tokens l.quote w hw hmem
  rw [Layout.conditions, List.map_append]
  exact (fills_ids l.idAtoms h).append (fills_further (l.further kind) (h.append hids))

end Clauses

end Sql

open Sql

/-! ## 4. Statements -/

/-- The placeholders of a statement are aligned with its values, each of which is for some slot: there
are as many of the ones as of the others, every placeholder stands at the value position of the slot
with its number, and binding gives the value of each in turn. -/
structure Statement.Aligned (st : Statement) (q : QuoteStyle) (uses : List (Slot × Parameter)) :
    Prop where
  count : ((scan st.sql).map Lexeme.token).count .parameter = st.parameters.length
  parameters : st.parameters = uses.map Prod.snd
  place : ∀ before after, (scan st.sql).map Lexeme.token = before ++ .parameter :: after →
    ∃ slot p, uses[before.count .parameter]? = some (slot, p) ∧ slot.Behind q before
  values : ∀ b : Binding, (st.bind b).length = ((scan st.sql).map Lexeme.token).count .parameter ∧
    ∀ (i : Nat) (slot : Slot) (p : Parameter), uses[i]? = some (slot, p) →
      (st.bind b)[i]? = some (p.value b)

theorem Statement.aligned_of_fills {st : Statement} {q : QuoteStyle} {uses : List (Slot × Parameter)}
    (hparameters : st.parameters = uses.map Prod.snd)
    (hfills : Fills q [] (tokens st.sql.toList) (uses.map Prod.fst)) : st.Aligned q uses := by
  have hcount : (tokens st.sql.toList).count .parameter = st.parameters.length := by
    rw [hfills.count, hparameters, List.length_map, List.length_map]
  rw [← map_token_scan] at hfills hcount
  refine ⟨hcount, hparameters, fun before after htokens => ?_, fun b => ⟨?_, fun i slot p huse => ?_⟩⟩
  · rw [htokens] at hfills
    obtain ⟨slot, hget, hbehind⟩ := hfills.behind
    rw [List.getElem?_map, Option.map_eq_some_iff] at hget
    obtain ⟨⟨slot, p⟩, huse, rfl⟩ := hget
    exact ⟨slot, p, huse, hbehind⟩
  · rw [Statement.bind, List.length_map, hcount]
  · rw [Statement.bind, hparameters, List.getElem?_map, List.getElem?_map, huse]
    rfl

namespace Layout

variable {l : Layout} {kind : StatementKind} {st : Statement}

/-- Every identifier field is compared with its value in the row. -/
def idUses (l : Layout) : List (Slot × Parameter) :=
  (l.fields.names .id).map fun c => (.compared c .eq, .field c)

/-- Columns are set to their values in the row. -/
def setUses (columns : List String) : List (Slot × Parameter) :=
  columns.map fun c => (.assigned c, .field c)

/-- Versions that have not ended are those that end when the row starts or later. -/
def notEndedUse (l : Layout) : Slot × Parameter :=
  (.compared l.names.validTo .ge, .field l.names.validFrom)

/-- The active version is set to end when the row starts. -/
def endUses (l : Layout) : List (Slot × Parameter) :=
  (.assigned l.names.validTo, .field l.names.validFrom) :: l.idUses ++ [l.notEndedUse]

/-- What the values of a statement are for, in order. -/
def uses (l : Layout) : StatementKind → List (Slot × Parameter)
  | .latest => l.idUses
  | .active => l.idUses ++
      [(.compared l.names.validFrom .le, .instant), (.compared l.names.validTo .ge, .instant)]
  | .insert => l.insertColumns.map fun c => (.inserted c, .field c)
  | .update => setUses l.updateColumns ++ l.idUses ++
      [(.compared l.names.version .eq, .field l.names.version)]
  | .endActive => l.endUses
  | .touch => setUses l.names.lastSeen.toList ++ l.idUses ++ [l.notEndedUse]
  | .purgeOne => l.endUses

/-- What the values of a purge are for: versions that have not ended are set to end at the cutoff if
they were last seen before it. -/
def purgeUses (l : Layout) : List (Slot × Parameter) :=
  [(.assigned l.names.validTo, .cutoff), (.compared l.names.validTo .ge, .instant)] ++
    l.names.lastSeen.toList.map fun c => (.compared c .lt, .cutoff)

theorem slots_uses (hkind : kind ≠ .insert) : (l.uses kind).map Prod.fst =
    (l.setColumns kind).map .assigned ++ (l.conditions kind).map Atom.slot := by
  have hids : l.idUses.map Prod.fst = l.idAtoms.map Atom.slot := by
    rw [idUses, idAtoms, List.map_map, List.map_map]
    rfl
  have hset : ∀ columns, (setUses columns).map Prod.fst = columns.map .assigned := fun columns => by
    rw [setUses, List.map_map]
    rfl
  cases kind with
  | insert => exact absurd rfl hkind
  | _ => simp [uses, endUses, notEndedUse, setColumns, conditions, further, Atom.slot, hids, hset]

theorem parameters_uses (hst : l.statement kind = .ok st) :
    st.parameters = (l.uses kind).map Prod.snd := by
  have hids : l.idUses.map Prod.snd = l.idParameters := by
    rw [idUses, List.map_map]
    rfl
  have hset : ∀ columns, (setUses columns).map Prod.snd = columns.map .field := fun columns => by
    rw [setUses, List.map_map]
    rfl
  cases kind with
  | insert =>
    rw [parameters_insert hst, uses, List.map_map]
    rfl
  | _ =>
    rw [parameters_statement (by simp) hst]
    simp [uses, endUses, notEndedUse, setParameters, conditionParameters, furtherParameters, hids, hset]

theorem fills_selection (hkind : kind = .latest ∨ kind = .active) (hst : l.statement kind = .ok st) :
    Fills l.quote [] (tokens st.sql.toList) ((l.conditions kind).map Atom.slot) := by
  have hstart : .parameter ∉ .word "SELECT" :: .sign .star :: .word "FROM" ::
      Reader.pathTokens l.quote l.schema l.table ++ [.word "WHERE"] := by
    simp [parameter_not_mem_path]
  have hend : .parameter ∉ [Token.word "ORDER", .word "BY", .name l.quote l.names.version, .word "DESC",
      .word "LIMIT", .integer 1] := by
    simp
  have hconditions := fills_conditions l kind (inClause_word "WHERE" (.word "SELECT" :: .sign .star ::
    .word "FROM" :: Reader.pathTokens l.quote l.schema l.table))
  rw [tokens_selection hkind hst]
  simpa using hconditions.whole hstart hend

theorem fills_change (hkind : IsChange kind) (hst : l.statement kind = .ok st) :
    Fills l.quote [] (tokens st.sql.toList)
      ((l.setColumns kind).map .assigned ++ (l.conditions kind).map Atom.slot) := by
  rw [tokens_change hkind hst]
  exact fills_update l.schema l.table _ fun _ h => fills_conditions l kind h

theorem fills_statement (hst : l.statement kind = .ok st) :
    Fills l.quote [] (tokens st.sql.toList) ((l.uses kind).map Prod.fst) := by
  cases kind with
  | insert =>
    rw [tokens_insertion hst, uses, List.map_map]
    exact fills_insertion l.schema l.table l.insertColumns
  | latest =>
    rw [slots_uses (by simp)]
    exact fills_selection (.inl rfl) hst
  | active =>
    rw [slots_uses (by simp)]
    exact fills_selection (.inr rfl) hst
  | _ =>
    rw [slots_uses (by simp)]
    exact fills_change (by simp [IsChange]) hst

theorem aligned_purge {condition : Option String} (hnone : trimmedCondition condition = none)
    (hst : l.purge condition = .ok st) : st.Aligned l.quote l.purgeUses := by
  cases hseen : l.names.lastSeen with
  | none => simp [purge, hseen] at hst
  | some lastSeen =>
    refine Statement.aligned_of_fills ?_ ?_
    · rw [parameters_purge hst, purgeUses, hseen]
      rfl
    · rw [tokens_purge_of_none hseen hnone hst, purgeUses, hseen]
      refine fills_update l.schema l.table [l.names.validTo] fun front h => ?_
      exact (fills_atom (.notBefore l.names.validTo) h).append
        (fills_further [.compare lastSeen .lt] (h.append (Atom.noClause_tokens _ _)))

/-- **Placeholders and values stay aligned**, whatever the names of the layout and however they are
quoted: in each of its statements, and in a purge without a condition. -/
theorem placeholders_aligned (l : Layout) :
    (∀ kind st, l.statement kind = .ok st → st.Aligned l.quote (l.uses kind)) ∧
      ∀ condition st, trimmedCondition condition = none → l.purge condition = .ok st →
        st.Aligned l.quote l.purgeUses :=
  ⟨fun _ _ hst => Statement.aligned_of_fills (parameters_uses hst) (fills_statement hst),
    fun _ _ => aligned_purge⟩

/-- Names with placeholders, marks, commas and line breaks in them. -/
def awkward : Layout where
  schema := some "?\x60.\x60?"
  table := "WHERE \x60? = ?\x60"
  quote := .backtick
  fields := ⟨[⟨"a, ?", .id, .string⟩, ⟨"\x60?", .compare, .integer⟩, ⟨"?\n?\x60", .id, .integer⟩]⟩
  names := { validTo := "\x60\x60", lastSeen := some "?" }

/-- The end of a version and a purge, in a table with such names. -/
theorem awkward_aligned :
    (∃ st, awkward.statement .endActive = .ok st ∧ st.Aligned .backtick
      [(.assigned "\x60\x60", .field "dateFrom"), (.compared "a, ?" .eq, .field "a, ?"),
        (.compared "?\n?\x60" .eq, .field "?\n?\x60"),
        (.compared "\x60\x60" .ge, .field "dateFrom")]) ∧
    ∃ st, awkward.purge none = .ok st ∧ st.Aligned .backtick
      [(.assigned "\x60\x60", .cutoff), (.compared "\x60\x60" .ge, .instant),
        (.compared "?" .lt, .cutoff)] :=
  ⟨⟨_, rfl, (placeholders_aligned awkward).1 .endActive _ rfl⟩,
    ⟨_, rfl, (placeholders_aligned awkward).2 none _ rfl rfl⟩⟩

end Layout

end RowHistory
