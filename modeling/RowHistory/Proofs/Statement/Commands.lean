import RowHistory.Proofs.Sql.Reading

/-!
# The commands of a layout

The text of every statement is read back as the command that it is meant to be, whatever names
the table, its schema and its columns have. This file fixes

* the conditions and the columns of a statement (`Layout.conditions`, `Layout.setColumns`);
* what its draft writes and pushes (`Layout.run_identified` and those behind it);
* the tokens of its pieces, and of the whole statement;
* its command: a selection (`read_selection`), an insertion (`read_insertion`), a change
  (`read_change`), or a purge (`read_purge`, `read_purge_ok`).
-/

namespace RowHistory

open Sql

namespace Layout

/-! ## 1. Conditions and columns -/

/-- The identifier fields, each compared with a value. -/
def idAtoms (l : Layout) : List Atom :=
  (l.fields.names .id).map fun c => .compare c .eq

/-- The conditions of a statement behind those on the identifier. -/
def further (l : Layout) : StatementKind → List Atom
  | .latest => []
  | .active => [.compare l.names.validFrom .le, .notBefore l.names.validTo]
  | .insert => []
  | .update => [.compare l.names.version .eq]
  | .endActive => [.notBefore l.names.validTo]
  | .touch => [.notBefore l.names.validTo]
  | .purgeOne => [.notBefore l.names.validTo]

/-- The conditions of a statement. -/
def conditions (l : Layout) (kind : StatementKind) : List Atom :=
  l.idAtoms ++ l.further kind

/-- The columns that a statement sets. -/
def setColumns (l : Layout) : StatementKind → List String
  | .latest => []
  | .active => []
  | .insert => l.insertColumns
  | .update => l.updateColumns
  | .endActive => [l.names.validTo]
  | .touch => l.names.lastSeen.toList
  | .purgeOne => [l.names.validTo]

/-- The conditions of a purge. -/
def purgeAtoms (l : Layout) (lastSeen : String) : List Atom :=
  [.notBefore l.names.validTo, .compare lastSeen .lt]

/-! ## 2. Drafts -/

/-- The text of the conditions on the identifier. -/
def idPieces (l : Layout) : List Piece :=
  Piece.joined " AND " ((l.fields.names .id).map fun name => columnTo name " = ")

/-- The values of the conditions on the identifier. -/
def idParameters (l : Layout) : List Parameter :=
  (l.fields.names .id).map .field

/-- **The identifier fields are pushed behind what was pushed before**, one for each condition. -/
theorem run_identified (l : Layout) (ps : List Parameter) :
    l.identified.run ps = (l.idPieces, ps ++ l.idParameters) := by
  have hnames : ∀ (names : List String) (ps : List Parameter),
      (names.mapM fun name => do
        Draft.push (.field name)
        return columnTo name " = " : Draft (List (List Piece))).run ps =
        (names.map fun name => columnTo name " = ", ps ++ names.map .field) := by
    intro names
    induction names with
    | nil => exact fun ps => by rw [List.map_nil, List.map_nil, List.append_nil]; rfl
    | cons name names ih =>
      intro ps
      have hrest := ih (ps ++ [.field name])
      rw [List.append_assoc, List.singleton_append] at hrest
      simp only [List.mapM_cons, StateT.run_bind, List.map_cons]
      show ((fun groups => columnTo name " = " :: groups) <$> (names.mapM _ : Draft _)).run
        (ps ++ [.field name]) = _
      rw [StateT.run_map, hrest]
      rfl
  unfold identified
  rw [StateT.run_bind, hnames]
  rfl

theorem run_latestLines (l : Layout) :
    l.latestLines.run [] = (l.selection l.idPieces ++ l.greatest, l.idParameters) := by
  simp only [latestLines, StateT.run_bind, run_identified]
  rfl

theorem run_activeLines (l : Layout) : l.activeLines.run [] = (l.selection l.idPieces ++
    [[.text "AND "] ++ columnTo l.names.validFrom " <= ", [.text "AND "] ++ l.notEnded] ++ l.greatest,
      l.idParameters ++ [.instant] ++ [.instant]) := by
  simp only [activeLines, StateT.run_bind, run_identified]
  rfl

theorem run_updateLines (l : Layout) : l.updateLines.run [] = ([l.change, assignments l.updateColumns,
    [.text "WHERE "] ++ l.idPieces, [.text "AND "] ++ columnTo l.names.version " = "],
      l.updateColumns.map .field ++ l.idParameters ++ [.field l.names.version]) := by
  simp only [updateLines, StateT.run_bind, run_identified]
  rfl

theorem run_endLines (l : Layout) : l.endLines.run [] = ([l.change,
    [.text "SET "] ++ columnTo l.names.validTo " = ", [.text "WHERE "] ++ l.idPieces,
    [.text "AND "] ++ l.notEnded],
      [.field l.names.validFrom] ++ l.idParameters ++ [.field l.names.validFrom]) := by
  simp only [endLines, StateT.run_bind, run_identified]
  rfl

theorem run_touchLines (l : Layout) (lastSeen : String) : (l.touchLines lastSeen).run [] = ([l.change,
    assignments [lastSeen], [.text "WHERE "] ++ l.idPieces, [.text "AND "] ++ l.notEnded],
      [.field lastSeen] ++ l.idParameters ++ [.field l.names.validFrom]) := by
  simp only [touchLines, StateT.run_bind, run_identified]
  rfl

theorem statementOf_eq {l : Layout} {draft : Draft (List (List Piece))} {lines : List (List Piece)}
    {ps : List Parameter} (h : draft.run [] = (lines, ps)) (kind : Option StatementKind) :
    l.statementOf kind draft = { kind, sql := l.textOf lines, parameters := ps } := by
  unfold statementOf
  rw [h]

end Layout

namespace Sql

/-- The expression of conditions, whose values start at a place; there is one at least. -/
def conjunctionFrom (n : Nat) : List Atom → Option (Expr String)
  | [] => none
  | a :: as => some (Atom.conj (a.expr n) (n + 1) as)

/-! ## 3. Tokens of pieces -/

section Texts

theorem opens_select : Opens "SELECT * FROM ".toList [.word "SELECT", .sign .star, .word "FROM"] :=
  fun _ => tokens_cons_token rfl <| tokens_cons_blank rfl <| tokens_cons_token rfl <|
    tokens_cons_blank rfl <| tokens_cons_token rfl <| tokens_cons_blank rfl rfl

theorem opens_insert : Opens "INSERT INTO ".toList [.word "INSERT", .word "INTO"] :=
  fun _ => tokens_cons_token rfl <| tokens_cons_blank rfl <| tokens_cons_token rfl <|
    tokens_cons_blank rfl rfl

theorem opens_values : Opens "VALUES (".toList [.word "VALUES", .sign .parenOpen] :=
  fun _ => tokens_cons_token rfl <| tokens_cons_blank rfl <| tokens_cons_token rfl rfl

theorem opens_update : Opens "UPDATE ".toList [.word "UPDATE"] :=
  fun _ => tokens_cons_token rfl <| tokens_cons_blank rfl rfl

theorem opens_set : Opens "SET ".toList [.word "SET"] :=
  fun _ => tokens_cons_token rfl <| tokens_cons_blank rfl rfl

theorem opens_where : Opens "WHERE ".toList [.word "WHERE"] :=
  fun _ => tokens_cons_token rfl <| tokens_cons_blank rfl rfl

theorem opens_and : Opens "AND ".toList [.word "AND"] :=
  fun _ => tokens_cons_token rfl <| tokens_cons_blank rfl rfl

theorem opens_between : Opens " AND ".toList [.word "AND"] :=
  fun _ => tokens_cons_blank rfl <| tokens_cons_token rfl <| tokens_cons_blank rfl rfl

theorem opens_or : Opens " OR ".toList [.word "OR"] :=
  fun _ => tokens_cons_blank rfl <| tokens_cons_token rfl <| tokens_cons_blank rfl rfl

theorem opens_isNull : Opens " IS NULL)".toList [.word "IS", .word "NULL", .sign .parenClose] :=
  fun _ => tokens_cons_blank rfl <| tokens_cons_token rfl <| tokens_cons_blank rfl <|
    tokens_cons_token rfl <| tokens_cons_token rfl rfl

theorem opens_orderBy : Opens "ORDER BY ".toList [.word "ORDER", .word "BY"] :=
  fun _ => tokens_cons_token rfl <| tokens_cons_blank rfl <| tokens_cons_token rfl <|
    tokens_cons_blank rfl rfl

theorem opens_parenOpen : Opens "(".toList [.sign .parenOpen] :=
  fun _ => tokens_cons_token rfl rfl

theorem opens_parenClose : Opens ")".toList [.sign .parenClose] :=
  fun _ => tokens_cons_token rfl rfl

theorem opens_comma : Opens ", ".toList [.sign .comma] :=
  fun _ => tokens_cons_token rfl <| tokens_cons_blank rfl rfl

theorem opens_newline : Opens "\n".toList [] :=
  fun _ => tokens_cons_blank rfl rfl

end Texts

/-! ## 4. Tokens of lines -/

section Lines

variable {q : QuoteStyle}

/-- Text in front of pieces that close. -/
theorem closes_text {s : String} {ts us : List Token} {ps : List Piece} (hs : Opens s.toList ts)
    (hps : Closes (pieceChars q ps) us) : Closes (pieceChars q (.text s :: ps)) (ts ++ us) :=
  hs.appendCloses hps

/-- Pieces that close in front of a text that starts with a break. -/
theorem closes_append {s : String} {ts us : List Token} {ps qs : List Piece}
    (hps : Closes (pieceChars q ps) ts) (hparts : Parts s.toList)
    (hqs : Closes (pieceChars q (.text s :: qs)) us) :
    Closes (pieceChars q (ps ++ .text s :: qs)) (ts ++ us) := by
  rw [pieceChars_append]
  exact hps.append (hparts.append _) hqs

theorem closes_lone {s : String} {ts : List Token} (hs : Opens s.toList ts) :
    Closes (pieceChars q [.text s]) ts := by
  have h : pieceChars q [.text s] = s.toList := List.append_nil _
  rw [h]
  exact hs.closes

theorem closes_name (c : String) : Closes (pieceChars q [.name c]) [.name q c] := by
  have h : pieceChars q [.name c] = q.quotedChars c := by
    simp [pieceChars, Piece.render, QuoteStyle.quoted]
  rw [h]
  exact closes_quoted q c

theorem closes_placeholder : Closes (pieceChars q [.placeholder]) [.parameter] := by
  have h : pieceChars q [.placeholder] = ['?'] := by simp [pieceChars, Piece.render]
  rw [h]
  exact closes_parameter

/-- A column, an operator with blanks around it, and a placeholder. -/
theorem closes_columnTo {op : String} {s : Sign} (c : String) (hparts : Parts op.toList)
    (hop : Opens op.toList [.sign s]) :
    Closes (pieceChars q (Layout.columnTo c op)) [.name q c, .sign s, .parameter] := by
  have hvalue := closes_text hop (closes_placeholder (q := q))
  have h := closes_append (closes_name (q := q) c) hparts hvalue
  exact h

theorem opens_sign_equal : Opens " = ".toList [.sign .equal] :=
  fun _ => tokens_cons_blank rfl <| tokens_cons_token rfl <| tokens_cons_blank rfl rfl

theorem opens_sign_lessEqual : Opens " <= ".toList [.sign .lessEqual] :=
  fun _ => tokens_cons_blank rfl <| tokens_cons_token rfl <| tokens_cons_blank rfl rfl

theorem opens_sign_greaterEqual : Opens " >= ".toList [.sign .greaterEqual] :=
  fun _ => tokens_cons_blank rfl <| tokens_cons_token rfl <| tokens_cons_blank rfl rfl

theorem opens_sign_less : Opens " < ".toList [.sign .less] :=
  fun _ => tokens_cons_blank rfl <| tokens_cons_token rfl <| tokens_cons_blank rfl rfl

theorem closes_equal (c : String) :
    Closes (pieceChars q (Layout.columnTo c " = ")) ((Atom.compare c .eq).tokens q) :=
  closes_columnTo c ⟨' ', _, rfl, .inl rfl⟩ opens_sign_equal

theorem closes_notEnded (l : Layout) :
    Closes (pieceChars q l.notEnded) ((Atom.notBefore l.names.validTo).tokens q) := by
  have hge := closes_columnTo (q := q) l.names.validTo ⟨' ', _, rfl, .inl rfl⟩ opens_sign_greaterEqual
  have hnull := closes_append (closes_name (q := q) l.names.validTo) ⟨' ', _, rfl, .inl rfl⟩
    (closes_lone opens_isNull)
  exact closes_text opens_parenOpen
    (closes_append hge ⟨' ', _, rfl, .inl rfl⟩ (closes_text opens_or hnull))

theorem closes_path (l : Layout) :
    Closes (pieceChars q l.pathPieces) (Reader.pathTokens q l.schema l.table) := by
  have hpath : l.pathNames = l.schema.toList ++ [l.table] := rfl
  cases hs : l.schema with
  | none =>
    rw [Layout.pathPieces, hpath, hs]
    exact closes_name l.table
  | some s =>
    rw [Layout.pathPieces, hpath, hs]
    have hchars : pieceChars q (Piece.joined "." ((some s).toList ++ [l.table] |>.map
        fun name => [Piece.name name])) = q.quotedChars s ++ '.' :: q.quotedChars l.table := by
      simp [pieceChars, Piece.joined, Piece.render, QuoteStyle.quoted]
    rw [hchars]
    intro rest hrest
    have hdot : Token.take '.' (q.quotedChars l.table ++ rest) =
        (some (.sign .dot), q.quotedChars l.table ++ rest) := by
      cases q <;> rfl
    have hmark : ('.' :: q.quotedChars l.table ++ rest).head? ≠ some q.mark := by
      cases q <;> simp [QuoteStyle.mark]
    rw [List.append_assoc, tokens_quoted q s hmark]
    exact congrArg _ (tokens_cons_token hdot (closes_quoted q l.table rest hrest))

/-- The conditions on the identifier. -/
theorem closes_identified (l : Layout) :
    Closes (pieceChars q l.idPieces) (joinedTokens [.word "AND"] (l.idAtoms.map (Atom.tokens q))) := by
  have h := closes_joined_map (q := q) ⟨' ', _, rfl, .inl rfl⟩ opens_between
    (l.fields.names .id) closes_equal
  rw [Layout.idAtoms, List.map_map]
  exact h

/-- Items with commas between them. -/
theorem closes_commas {α : Type} (xs : List α) {f : α → List Piece} {g : α → List Token}
    (h : ∀ x, Closes (pieceChars q (f x)) (g x)) :
    Closes (pieceChars q (Piece.joined ", " (xs.map f))) (joinedTokens [.sign .comma] (xs.map g)) :=
  closes_joined_map ⟨',', _, rfl, .inr (.inr (.inl rfl))⟩ opens_comma xs h

theorem closes_assignments (columns : List String) :
    Closes (pieceChars q (Layout.assignments columns))
      (.word "SET" :: Reader.assignmentTokens q columns) := by
  have hcommas : Closes (pieceChars q (Piece.joined ", "
      (columns.map fun c => Layout.columnTo c " = "))) (Reader.assignmentTokens q columns) :=
    closes_commas columns closes_equal
  exact closes_text opens_set hcommas

/-- **The lines of a statement are scanned one after the other.** -/
theorem tokens_textOf (l : Layout) {lines : List (List Piece)} {tss : List (List Token)}
    (h : List.Forall₂ (fun g ts => Closes (pieceChars l.quote g) ts) lines tss) :
    tokens (l.textOf lines).toList = tss.flatten := by
  have hclose := closes_joined ⟨'\n', _, rfl, .inr (.inl rfl)⟩ opens_newline h
  rw [toList_textOf, ← List.append_nil (pieceChars _ _), hclose [] breaks_nil,
    joinedTokens_nil, tokens_nil, List.append_nil]

end Lines

/-! ## 5. Commands -/

section Statements

variable {l : Layout} {kind : StatementKind} {st : Statement}

/-- A line with a further condition. -/
theorem closes_further {q : QuoteStyle} {ps : List Piece} {a : Atom}
    (h : Closes (pieceChars q ps) (a.tokens q)) :
    Closes (pieceChars q ([.text "AND "] ++ ps)) (Reader.furtherTokens q [a]) := by
  have hline := closes_text opens_and h
  have htokens : Reader.furtherTokens q [a] = [Token.word "AND"] ++ a.tokens q := by
    simp [Reader.furtherTokens]
  rw [htokens]
  exact hline

theorem closes_where (l : Layout) : Closes (pieceChars l.quote ([.text "WHERE "] ++ l.idPieces))
    (.word "WHERE" :: joinedTokens [.word "AND"] (l.idAtoms.map (Atom.tokens l.quote))) := by
  have h := closes_text opens_where (closes_identified (q := l.quote) l)
  exact h

theorem closes_desc : Closes " DESC".toList [.word "DESC"] := by
  refine closes_of_breaks (tokens_cons_blank rfl <| tokens_cons_token rfl rfl) ?_
  rintro c rest (rfl | rfl | rfl | rfl) <;>
    exact tokens_cons_blank rfl <| tokens_cons_token rfl rfl

theorem closes_limit : Closes "LIMIT 1".toList [.word "LIMIT", .integer 1] := by
  refine closes_of_breaks (tokens_cons_token rfl <| tokens_cons_blank rfl <|
    tokens_cons_token rfl rfl) ?_
  rintro c rest (rfl | rfl | rfl | rfl) <;>
    exact tokens_cons_token rfl <| tokens_cons_blank rfl <| tokens_cons_token rfl rfl

/-- The end of a selection. -/
theorem closes_greatest (l : Layout) :
    List.Forall₂ (fun g ts => Closes (pieceChars l.quote g) ts) l.greatest
      [[.word "ORDER", .word "BY", .name l.quote l.names.version, .word "DESC"],
        [.word "LIMIT", .integer 1]] := by
  have hdesc : Closes (pieceChars l.quote [.text " DESC"]) [.word "DESC"] := by
    simpa [pieceChars, Piece.render] using closes_desc
  have hlimit : Closes (pieceChars l.quote [.text "LIMIT 1"]) [.word "LIMIT", .integer 1] := by
    simpa [pieceChars, Piece.render] using closes_limit
  have hparts : Parts " DESC".toList := ⟨' ', _, rfl, .inl rfl⟩
  have horder := closes_append (closes_name (q := l.quote) l.names.version) hparts hdesc
  exact .cons (closes_text opens_orderBy horder) (.cons hlimit .nil)

/-- The tokens of the conditions of a statement. Without identifier fields the first ones are
missing, but not the word in front of the others. -/
def conditionTokens (l : Layout) (kind : StatementKind) : List Token :=
  joinedTokens [.word "AND"] (l.idAtoms.map (Atom.tokens l.quote)) ++
    Reader.furtherTokens l.quote (l.further kind)

theorem conditionTokens_cons {a : Atom} {as : List Atom} (hids : l.idAtoms = a :: as) :
    conditionTokens l kind =
      a.tokens l.quote ++ Reader.furtherTokens l.quote (as ++ l.further kind) := by
  rw [conditionTokens, hids, Reader.joinedTokens_atoms, List.append_assoc]
  simp [Reader.furtherTokens]

/-- The tokens of a selection. -/
theorem tokens_selection (hkind : kind = .latest ∨ kind = .active) (hst : l.statement kind = .ok st) :
    tokens st.sql.toList = .word "SELECT" :: .sign .star :: .word "FROM" ::
      (Reader.pathTokens l.quote l.schema l.table ++ (.word "WHERE" :: conditionTokens l kind ++
        [.word "ORDER", .word "BY", .name l.quote l.names.version, .word "DESC", .word "LIMIT",
          .integer 1])) := by
  have hstart : List.Forall₂ (fun g ts => Closes (pieceChars l.quote g) ts)
      (l.selection l.idPieces) _ :=
    .cons (closes_text opens_select (closes_path l)) (.cons (closes_where l) .nil)
  rcases hkind with rfl | rfl
  · cases hst
    rw [Layout.statementOf_eq l.run_latestLines,
      tokens_textOf l (List.rel_append hstart (closes_greatest l))]
    simp [conditionTokens, Reader.furtherTokens, Layout.further]
  · cases hst
    have hbegun : Closes (pieceChars l.quote (Layout.columnTo l.names.validFrom " <= "))
        ((Atom.compare l.names.validFrom .le).tokens l.quote) :=
      closes_columnTo _ ⟨' ', _, rfl, .inl rfl⟩ opens_sign_lessEqual
    have hfurther : List.Forall₂ (fun g ts => Closes (pieceChars l.quote g) ts)
        [[.text "AND "] ++ Layout.columnTo l.names.validFrom " <= ", [.text "AND "] ++ l.notEnded] _ :=
      .cons (closes_further hbegun) (.cons (closes_further (closes_notEnded l)) .nil)
    rw [Layout.statementOf_eq l.run_activeLines, tokens_textOf l
      (List.rel_append (List.rel_append hstart hfurther) (closes_greatest l))]
    simp [conditionTokens, Reader.furtherTokens, Layout.further]

/-- The tokens of an insertion. -/
theorem tokens_insertion (hst : l.statement .insert = .ok st) :
    tokens st.sql.toList = .word "INSERT" ::
      Reader.insertTokens l.quote l.schema l.table l.insertColumns := by
  have hcolumns := closes_text (q := l.quote) opens_parenOpen (closes_append
    (closes_commas l.insertColumns fun c => closes_name c) ⟨')', _, rfl, .inr (.inr (.inr rfl))⟩
    (closes_lone opens_parenClose))
  have hplaceholders : Closes (pieceChars l.quote
      (Piece.joined ", " (List.replicate l.insertColumns.length [.placeholder])))
      (joinedTokens [.sign .comma] (l.insertColumns.map fun _ => [.parameter])) := by
    rw [← List.map_const']
    exact closes_commas l.insertColumns fun _ => closes_placeholder
  have hvalues := closes_text (q := l.quote) opens_values (closes_append hplaceholders
    ⟨')', _, rfl, .inr (.inr (.inr rfl))⟩ (closes_lone opens_parenClose))
  have hlines : List.Forall₂ (fun g ts => Closes (pieceChars l.quote g) ts) l.insertLines _ :=
    .cons (closes_text opens_insert (closes_path l)) (.cons hcolumns (.cons hvalues .nil))
  cases hst
  rw [tokens_textOf l hlines]
  simp [Reader.insertTokens]

/-- The statement is a change of stored rows. -/
def IsChange (kind : StatementKind) : Prop :=
  kind = .update ∨ kind = .endActive ∨ kind = .touch ∨ kind = .purgeOne

theorem closes_change (l : Layout) : Closes (pieceChars l.quote l.change)
    (.word "UPDATE" :: Reader.pathTokens l.quote l.schema l.table) :=
  closes_text opens_update (closes_path l)

/-- A line with one assignment. -/
theorem closes_setting {q : QuoteStyle} (c : String) :
    Closes (pieceChars q ([.text "SET "] ++ Layout.columnTo c " = "))
      (.word "SET" :: Reader.assignmentTokens q [c]) := by
  have h := closes_text opens_set (closes_equal (q := q) c)
  rwa [Reader.assignmentTokens, List.map_cons, List.map_nil, joinedTokens_single]

/-- The tokens of a change. -/
theorem tokens_change (hkind : IsChange kind) (hst : l.statement kind = .ok st) :
    tokens st.sql.toList = .word "UPDATE" ::
      (Reader.updateTokens l.quote l.schema l.table (l.setColumns kind) ++
        (.word "WHERE" :: conditionTokens l kind)) := by
  have hlines : ∀ {set more : List Piece} {columns : List String} {b : Atom},
      Closes (pieceChars l.quote set) (.word "SET" :: Reader.assignmentTokens l.quote columns) →
      Closes (pieceChars l.quote more) (b.tokens l.quote) → l.further kind = [b] →
      tokens (l.textOf [l.change, set, [.text "WHERE "] ++ l.idPieces,
        [.text "AND "] ++ more]).toList = .word "UPDATE" ::
        (Reader.updateTokens l.quote l.schema l.table columns ++
          (.word "WHERE" :: conditionTokens l kind)) := by
    intro set more columns b hset hmore hfurther
    rw [tokens_textOf l (.cons (closes_change l) (.cons hset (.cons (closes_where l)
      (.cons (closes_further hmore) .nil)))), conditionTokens, hfurther]
    simp [Reader.updateTokens, Reader.furtherTokens]
  rcases hkind with rfl | rfl | rfl | rfl
  · cases hst
    rw [Layout.statementOf_eq l.run_updateLines]
    exact hlines (closes_assignments _) (closes_equal _) rfl
  · cases hst
    rw [Layout.statementOf_eq l.run_endLines]
    exact hlines (closes_setting _) (closes_notEnded l) rfl
  · simp only [Layout.statement] at hst
    cases hseen : l.names.lastSeen with
    | none =>
      rw [hseen] at hst
      cases hst
    | some c =>
      rw [hseen] at hst
      cases hst
      have hset : l.setColumns .touch = [c] := by
        rw [Layout.setColumns, hseen]
        rfl
      rw [hset, Layout.statementOf_eq (l.run_touchLines c)]
      exact hlines (closes_assignments _) (closes_notEnded l) rfl
  · cases hst
    rw [Layout.statementOf_eq l.run_endLines]
    exact hlines (closes_setting _) (closes_notEnded l) rfl

/-- A layout that identifies rows has a first condition. -/
theorem idAtoms_ne_nil (hids : l.fields.names .id ≠ []) : ∃ a as, l.idAtoms = a :: as := by
  cases h : l.fields.names .id with
  | nil => exact absurd h hids
  | cons c cs => exact ⟨_, _, by rw [Layout.idAtoms, h, List.map_cons]⟩

/-- **A selection reads the rows of the identifier under its conditions, the greatest version
first.** -/
theorem read_selection (hids : l.fields.names .id ≠ []) (hkind : kind = .latest ∨ kind = .active)
    (hst : l.statement kind = .ok st) :
    ∃ p e o, Command.read st.sql =
        .ok ⟨.select p (some e) (some o), (l.conditions kind).length, ""⟩ ∧
      Reader.Leads l.schema l.table p ∧ some e.plain = conjunctionFrom 0 (l.conditions kind) ∧
      o.plain = .column l.names.version := by
  obtain ⟨a, as, ha⟩ := idAtoms_ne_nil hids
  have htokens := tokens_selection hkind hst
  rw [conditionTokens_cons ha] at htokens
  obtain ⟨c, hread, p, e, o, rfl, hp, he, ho⟩ := read_of_takes rfl htokens
    (Reader.takes_select l.quote l.schema l.table a (as ++ l.further kind) l.names.version)
  have hconditions : l.conditions kind = a :: (as ++ l.further kind) := by
    rw [Layout.conditions, ha, List.cons_append]
  refine ⟨p, e, o, ?_, hp, ?_, ho⟩
  · rw [hread, hconditions, List.length_cons, Nat.zero_add, Nat.add_comm]
  · rw [hconditions, conjunctionFrom, he]

/-- **An insertion sets each of its columns to a value.** -/
theorem read_insertion (hst : l.statement .insert = .ok st) :
    ∃ p names, Command.read st.sql =
        .ok ⟨.insert p names (Reader.suppliedFrom 0 l.insertColumns.length), l.insertColumns.length, ""⟩ ∧
      Reader.Leads l.schema l.table p ∧ names.map Name.text = l.insertColumns := by
  have hne : l.insertColumns ≠ [] := by simp [Layout.insertColumns]
  obtain ⟨c, hread, p, names, rfl, hp, hnames⟩ := read_of_takes rfl (tokens_insertion hst)
    (Reader.takes_insert l.quote l.schema l.table hne)
  rw [Nat.zero_add] at hread
  exact ⟨p, names, hread, hp, hnames⟩

theorem setColumns_ne_nil (hkind : IsChange kind) (hst : l.statement kind = .ok st) :
    l.setColumns kind ≠ [] := by
  rcases hkind with rfl | rfl | rfl | rfl
  · simp [Layout.setColumns, Layout.updateColumns]
  · simp [Layout.setColumns]
  · intro h
    simp only [Layout.setColumns, Option.toList_eq_nil_iff] at h
    simp [Layout.statement, h] at hst
  · simp [Layout.setColumns]

/-- **A change sets its columns in the rows of the identifier that meet its conditions.** -/
theorem read_change (hids : l.fields.names .id ≠ []) (hkind : IsChange kind)
    (hst : l.statement kind = .ok st) :
    ∃ p sets e, Command.read st.sql = .ok ⟨.update p sets (some e),
        (l.setColumns kind).length + (l.conditions kind).length, ""⟩ ∧
      Reader.Leads l.schema l.table p ∧
      sets.map Reader.plainAssignment = Reader.assignmentsFrom 0 (l.setColumns kind) ∧
      some e.plain = conjunctionFrom (l.setColumns kind).length (l.conditions kind) := by
  obtain ⟨a, as, ha⟩ := idAtoms_ne_nil hids
  have htokens := tokens_change hkind hst
  rw [conditionTokens_cons ha] at htokens
  obtain ⟨c, hread, p, sets, e, rfl, hp, hsets, he⟩ := read_of_takes rfl htokens
    (Reader.takes_update l.quote l.schema l.table (setColumns_ne_nil hkind hst) a
      (as ++ l.further kind))
  have hconditions : l.conditions kind = a :: (as ++ l.further kind) := by
    rw [Layout.conditions, ha, List.cons_append]
  refine ⟨p, sets, e, ?_, hp, hsets, ?_⟩
  · rw [hread, hconditions, List.length_cons, Nat.zero_add]
    congr 2
    omega
  · rw [hconditions, conjunctionFrom, he, Nat.zero_add]

/-- The lines of a purge, up to its further condition. -/
theorem closes_purge (l : Layout) (lastSeen : String) :
    List.Forall₂ (fun g ts => Closes (pieceChars l.quote g) ts) (l.purgeLines lastSeen none)
      [.word "UPDATE" :: Reader.pathTokens l.quote l.schema l.table,
        .word "SET" :: Reader.assignmentTokens l.quote [l.names.validTo],
        .word "WHERE" :: (Atom.notBefore l.names.validTo).tokens l.quote,
        Reader.furtherTokens l.quote [.compare lastSeen .lt]] := by
  have hseen : Closes (pieceChars l.quote (Layout.columnTo lastSeen " < "))
      ((Atom.compare lastSeen .lt).tokens l.quote) :=
    closes_columnTo _ ⟨' ', _, rfl, .inl rfl⟩ opens_sign_less
  exact .cons (closes_change l) (.cons (closes_setting _)
    (.cons (closes_text opens_where (closes_notEnded l)) (.cons (closes_further hseen) .nil)))

/-- The tokens of a purge without a further condition. -/
theorem tokens_purge_of_none {lastSeen : String} {condition : Option String}
    (hseen : l.names.lastSeen = some lastSeen) (hnone : Layout.trimmedCondition condition = none)
    (hst : l.purge condition = .ok st) :
    tokens st.sql.toList = .word "UPDATE" ::
      (Reader.updateTokens l.quote l.schema l.table [l.names.validTo] ++
        (.word "WHERE" :: ((Atom.notBefore l.names.validTo).tokens l.quote ++
          Reader.furtherTokens l.quote [.compare lastSeen .lt]))) := by
  simp only [Layout.purge, hseen, hnone] at hst
  cases hst
  rw [tokens_textOf l (closes_purge l lastSeen)]
  simp [Reader.updateTokens, Reader.furtherTokens]

/-- **A purge without a further condition ends the open rows that were not seen.** -/
theorem read_purge {lastSeen : String} (hseen : l.names.lastSeen = some lastSeen)
    (hst : l.purge none = .ok st) :
    ∃ p sets e, Command.read st.sql = .ok ⟨.update p sets (some e), 3, ""⟩ ∧
      Reader.Leads l.schema l.table p ∧
      sets.map Reader.plainAssignment = Reader.assignmentsFrom 0 [l.names.validTo] ∧
      some e.plain = conjunctionFrom 1 (l.purgeAtoms lastSeen) := by
  have hne : [l.names.validTo] ≠ [] := List.cons_ne_nil _ _
  obtain ⟨c, hread, p, sets, e, rfl, hp, hsets, he⟩ := read_of_takes (w := "UPDATE") rfl
    (tokens_purge_of_none hseen rfl hst)
    (Reader.takes_update l.quote l.schema l.table hne (.notBefore l.names.validTo)
      [.compare lastSeen .lt])
  exact ⟨p, sets, e, hread, hp, hsets, by rw [Layout.purgeAtoms, conjunctionFrom, he]; rfl⟩

/-- The tokens of a purge up to its conditions, whatever these are. -/
theorem tokens_purge {condition : Option String} (hst : l.purge condition = .ok st) :
    ∃ ts, tokens st.sql.toList = .word "UPDATE" ::
      (Reader.updateTokens l.quote l.schema l.table [l.names.validTo] ++ (.word "WHERE" :: ts)) := by
  simp only [Layout.purge] at hst
  cases hseen : l.names.lastSeen with
  | none =>
    rw [hseen] at hst
    cases hst
  | some lastSeen =>
    rw [hseen] at hst
    cases hst
    have hparts : Parts "\n".toList := ⟨'\n', _, rfl, .inr (.inl rfl)⟩
    have hset := closes_setting (q := l.quote) l.names.validTo
    -- Behind the assignment the text goes on with a line that starts with WHERE.
    obtain ⟨more, hmore⟩ : ∃ more, l.purgeLines lastSeen (Layout.trimmedCondition condition) =
        l.change :: ([.text "SET "] ++ Layout.columnTo l.names.validTo " = ") ::
          ([.text "WHERE "] ++ l.notEnded) :: more := ⟨_, rfl⟩
    obtain ⟨cs, hcs⟩ : ∃ cs, pieceChars l.quote (Piece.joined "\n"
        (([.text "WHERE "] ++ l.notEnded) :: more)) = "WHERE ".toList ++ cs := by
      cases more with
      | nil => exact ⟨_, by rw [joined_single]; rfl⟩
      | cons g gs => exact ⟨_, by rw [joined_cons_cons]; rfl⟩
    refine ⟨tokens cs, ?_⟩
    rw [toList_textOf, hmore, pieceChars_joined, pieceChars_joined, hcs,
      closes_change l _ (hparts.breaks _), opens_newline, hset _ (hparts.breaks _), opens_newline,
      opens_where]
    simp [Reader.updateTokens]

/-- A purge under a further condition, if it is read at all, still only sets the end of rows. -/
theorem read_purge_ok {condition : Option String} {r : Command.Reading}
    (hst : l.purge condition = .ok st) (hread : Command.read st.sql = .ok r) :
    ∃ p sets e, r.command = .update p sets (some e) ∧ Reader.Leads l.schema l.table p ∧
      sets.map Reader.plainAssignment = Reader.assignmentsFrom 0 [l.names.validTo] := by
  obtain ⟨ts, htokens⟩ := tokens_purge hst
  obtain ⟨ls, cursor, hls, hrun⟩ := read_ok (w := "UPDATE") rfl htokens hread
  exact Reader.update_ok l.quote l.schema l.table (List.cons_ne_nil _ _) hls hrun

end Statements

end Sql

end RowHistory
