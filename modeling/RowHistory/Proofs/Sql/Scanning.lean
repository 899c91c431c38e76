import Mathlib.Data.List.Forall2
import RowHistory.Sql.Token
import RowHistory.Statement

/-!
# Tokens of generated statements

A statement is written piece by piece, and read token by token. This file fixes

* the tokens of characters (`tokens`), which do not depend on the fuel or the place of the scan;
* texts whose tokens do not depend on what follows (`Opens`), such as a keyword with a blank
  behind it, and those that only need a blank, a comma or a parenthesis to follow
  (`Closes`), such as a quoted name;
* how pieces that are joined are scanned (`closes_joined`).
-/

namespace RowHistory.Sql

/-! ## 1. The scan -/

namespace Token

theorem length_takeQuoted (mark : Char) (make : String → Token) (cs : List Char) :
    (takeQuoted mark make cs).2.length ≤ cs.length := by
  unfold takeQuoted
  split
  · rename_i content rest h
    rw [(Quoting.eq_encode_of_decode h).1, List.length_append, List.length_cons]
    show rest.length ≤ _
    omega
  · simp

theorem length_takeSign (single : Token) (pairs : List (Char × Token)) (cs : List Char) :
    (takeSign single pairs cs).2.length ≤ cs.length := by
  cases cs with
  | nil => exact Nat.le_refl _
  | cons d rest =>
    simp only [takeSign]
    split
    · exact Nat.le_succ _
    · exact Nat.le_refl _

theorem length_dropWhile (p : Char → Bool) (cs : List Char) :
    (cs.dropWhile p).length ≤ cs.length :=
  (List.dropWhile_sublist p).length_le

theorem length_spanExponent {cs rest : List Char} {e : Int}
    (h : Numeral.spanExponent cs = some (e, rest)) : rest.length ≤ cs.length := by
  have hdigits : ∀ (sign : Bool × List Char), sign.2.length ≤ cs.length →
      (if (Text.spanDigits sign.2).1 = [] then none
        else some (if sign.1 then -(Text.digitsValue (Text.spanDigits sign.2).1 : Int)
          else Text.digitsValue (Text.spanDigits sign.2).1, (Text.spanDigits sign.2).2)) =
        some (e, rest) → rest.length ≤ cs.length := by
    intro sign hlen heq
    by_cases hds : (Text.spanDigits sign.2).1 = []
    · rw [if_pos hds] at heq
      cases heq
    · rw [if_neg hds] at heq
      cases heq
      exact Nat.le_trans (length_dropWhile _ _) hlen
  cases cs with
  | nil => cases h
  | cons c cs =>
    simp only [Numeral.spanExponent] at h
    split at h
    · refine hdigits _ ?_ h
      split <;> simp <;> omega
    · cases h

/-- Behind the digits of a number, an exponent takes nothing back. -/
theorem length_span_tail {bound : Nat} {whole rest : List Char} {tail : List Char × Bool × List Char}
    {n : Numeral} (hlt : ¬ (whole = [] ∧ tail.1 = []) → tail.2.2.length < bound)
    (h : (if whole = [] ∧ tail.1 = [] then none
      else match Numeral.spanExponent tail.2.2 with
        | some (e, after) => some ((⟨whole, tail.1, e, true⟩ : Numeral), after)
        | none => some (⟨whole, tail.1, 0, tail.2.1⟩, tail.2.2)) = some (n, rest)) :
    rest.length < bound := by
  by_cases hds : whole = [] ∧ tail.1 = []
  · rw [if_pos hds] at h
    cases h
  · rw [if_neg hds] at h
    cases hsp : Numeral.spanExponent tail.2.2 with
    | none =>
      rw [hsp] at h
      cases h
      exact hlt hds
    | some found =>
      obtain ⟨e, after⟩ := found
      rw [hsp] at h
      cases h
      exact Nat.lt_of_le_of_lt (length_spanExponent hsp) (hlt hds)

/-- A number takes a character at least. -/
theorem length_span {cs rest : List Char} {n : Numeral} (h : Numeral.span? cs = some (n, rest)) :
    rest.length < cs.length := by
  have hsplit : ∀ cs : List Char, (Text.spanDigits cs).1.length +
      (Text.spanDigits cs).2.length = cs.length := fun cs => by
    rw [← List.length_append]
    exact congrArg List.length (List.takeWhile_append_dropWhile)
  -- What stands in front of the exponent has a digit, so what is left is shorter.
  refine length_span_tail ?_ h
  have hcs : (cs.takeWhile Char.isDigit).length + (cs.dropWhile Char.isDigit).length = cs.length :=
    hsplit cs
  have hpos : ∀ ds : List Char, ds ≠ [] → 0 < ds.length := fun ds => List.length_pos_iff.mpr
  split
  · rename_i r hr
    intro _
    have hr' := hsplit r
    rw [hr, List.length_cons] at hcs
    show (Text.spanDigits r).2.length < cs.length
    omega
  · intro hds
    have := hpos (cs.takeWhile Char.isDigit) fun hw => hds ⟨hw, rfl⟩
    show (cs.dropWhile Char.isDigit).length < cs.length
    omega

theorem length_takeNumber (c : Char) (cs : List Char) :
    (takeNumber (c :: cs)).2.length ≤ cs.length := by
  unfold takeNumber
  cases h : Numeral.span? (c :: cs) with
  | none => exact Nat.le_refl _
  | some found =>
    obtain ⟨n, rest⟩ := found
    have hlt : rest.length ≤ cs.length := Nat.le_of_lt_succ (length_span h)
    dsimp only
    split
    · exact Nat.le_trans (length_dropWhile _ _) hlt
    · split <;> exact hlt

theorem length_afterComment (cs : List Char) : (afterComment cs).length ≤ cs.length := by
  induction cs using afterComment.induct with
  | case1 => exact Nat.le_refl _
  | case2 rest =>
    simp only [afterComment, List.length_cons]
    omega
  | case3 c rest hne ih =>
    rw [afterComment]
    · exact Nat.le_succ_of_le ih
    · exact hne

/-- **A token, a blank or a comment takes a character at least.** -/
theorem length_take (c : Char) (cs : List Char) : (take c cs).2.length ≤ cs.length := by
  unfold take
  split
  · exact Nat.le_refl _
  · split
    · exact length_dropWhile _ _
    · split
      all_goals first
        | exact Nat.le_refl _
        | exact length_takeQuoted _ _ _
        | exact length_takeSign _ _ _
        | exact length_dropWhile _ _
        | skip
      · split
        · exact Nat.le_trans (length_dropWhile _ _) (Nat.le_succ _)
        · exact Nat.le_refl _
      · split
        · exact Nat.le_trans (length_afterComment _) (Nat.le_succ _)
        · exact Nat.le_refl _
      · split
        · exact length_takeNumber _ _
        · exact Nat.le_refl _
      · split
        · exact length_takeNumber _ _
        · exact Nat.le_refl _

end Token

/-! ## 2. Tokens without their places -/

/-- The tokens of characters. -/
def tokens (cs : List Char) : List Token :=
  (scanFrom cs.length 0 cs).map Lexeme.token

private theorem map_token_scanFrom_eq : ∀ (fuel fuel' offset offset' : Nat) (cs : List Char),
    cs.length ≤ fuel → cs.length ≤ fuel' →
    (scanFrom fuel offset cs).map Lexeme.token = (scanFrom fuel' offset' cs).map Lexeme.token := by
  intro fuel
  induction fuel with
  | zero =>
    intro fuel' _ _ cs h _
    have hnil : cs = [] := List.length_eq_zero_iff.mp (Nat.le_zero.mp h)
    subst hnil
    cases fuel' <;> simp [scanFrom]
  | succ fuel ih =>
    intro fuel' offset offset' cs h h'
    cases cs with
    | nil => cases fuel' <;> simp [scanFrom]
    | cons c cs =>
      cases fuel' with
      | zero => simp at h'
      | succ fuel' =>
        have hlen := Token.length_take c cs
        simp only [List.length_cons] at h h'
        cases htake : Token.take c cs with
        | mk token rest =>
          have hlen : rest.length ≤ cs.length := by
            rw [htake] at hlen
            exact hlen
          have hrest := fun offset offset' =>
            ih fuel' offset offset' rest (by omega) (by omega)
          cases token with
          | none => simpa only [scanFrom, htake] using hrest _ _
          | some token =>
            simp only [scanFrom, htake, List.map_cons]
            rw [hrest]

/-- Neither the place of a text nor more fuel matters to its tokens. -/
theorem map_token_scanFrom {fuel : Nat} (offset : Nat) {cs : List Char} (h : cs.length ≤ fuel) :
    (scanFrom fuel offset cs).map Lexeme.token = tokens cs :=
  map_token_scanFrom_eq _ _ _ _ _ h (Nat.le_refl _)

theorem map_token_scan (sql : String) : (scan sql).map Lexeme.token = tokens sql.toList :=
  rfl

@[simp] theorem tokens_nil : tokens [] = [] :=
  rfl

theorem tokens_cons_token {c : Char} {cs rest : List Char} {t : Token} {ts : List Token}
    (htake : Token.take c cs = (some t, rest)) (hrest : tokens rest = ts) :
    tokens (c :: cs) = t :: ts := by
  have hlen := Token.length_take c cs
  rw [htake] at hlen
  simp only [tokens, List.length_cons, scanFrom, htake, List.map_cons]
  rw [map_token_scanFrom _ hlen, hrest]

theorem tokens_cons_blank {c : Char} {cs rest : List Char} {ts : List Token}
    (htake : Token.take c cs = (none, rest)) (hrest : tokens rest = ts) :
    tokens (c :: cs) = ts := by
  have hlen := Token.length_take c cs
  rw [htake] at hlen
  simp only [tokens, List.length_cons, scanFrom, htake]
  rw [map_token_scanFrom _ hlen, hrest]

/-! ## 3. Texts in front of others -/

/-- The tokens of these characters do not depend on what follows them. -/
def Opens (cs : List Char) (ts : List Token) : Prop :=
  ∀ rest, tokens (cs ++ rest) = ts ++ tokens rest

/-- A character that ends a name, a word or a placeholder in front of it. -/
def IsBreak (c : Char) : Prop :=
  c = ' ' ∨ c = '\n' ∨ c = ',' ∨ c = ')'

/-- Nothing follows, or a character that ends what is in front of it. -/
def Breaks (rest : List Char) : Prop :=
  ∀ c ∈ rest.head?, IsBreak c

/-- The tokens of these characters are the same wherever a break follows. -/
def Closes (cs : List Char) (ts : List Token) : Prop :=
  ∀ rest, Breaks rest → tokens (cs ++ rest) = ts ++ tokens rest

theorem breaks_nil : Breaks [] := by
  intro c hc
  cases hc

/-- The characters start with a break. -/
def Parts (cs : List Char) : Prop :=
  ∃ c ds, cs = c :: ds ∧ IsBreak c

theorem Parts.append {cs : List Char} (h : Parts cs) (ds : List Char) : Parts (cs ++ ds) := by
  obtain ⟨c, es, rfl, hc⟩ := h
  exact ⟨c, es ++ ds, rfl, hc⟩

theorem Parts.breaks {cs : List Char} (h : Parts cs) (rest : List Char) : Breaks (cs ++ rest) := by
  obtain ⟨c, es, rfl, hc⟩ := h
  intro d hd
  cases hd
  exact hc

theorem Opens.closes {cs : List Char} {ts : List Token} (h : Opens cs ts) : Closes cs ts :=
  fun rest _ => h rest

theorem opens_nil : Opens [] [] := fun _ => rfl

theorem Opens.appendCloses {cs ds : List Char} {ts us : List Token} (hc : Opens cs ts)
    (hd : Closes ds us) : Closes (cs ++ ds) (ts ++ us) := by
  intro rest hrest
  rw [List.append_assoc, hc, hd rest hrest, List.append_assoc]

theorem Closes.append {cs ds : List Char} {ts us : List Token} (hc : Closes cs ts)
    (hparts : Parts ds) (hd : Closes ds us) : Closes (cs ++ ds) (ts ++ us) := by
  intro rest hrest
  rw [List.append_assoc, hc _ (hparts.breaks rest), hd rest hrest, List.append_assoc]

/-- Characters close if they do so in front of each break. -/
theorem closes_of_breaks {cs : List Char} {ts : List Token} (hnil : tokens cs = ts)
    (hcons : ∀ c rest, IsBreak c → tokens (cs ++ c :: rest) = ts ++ tokens (c :: rest)) :
    Closes cs ts := by
  intro rest hrest
  cases rest with
  | nil => simpa using hnil
  | cons c rest => exact hcons c rest (hrest c rfl)

/-- **A quoted name is one token**, unless another quotation mark follows. -/
theorem tokens_quoted (q : QuoteStyle) (name : String) {rest : List Char}
    (hmark : rest.head? ≠ some q.mark) :
    tokens (q.quotedChars name ++ rest) = .name q name :: tokens rest := by
  have hdecode := Quoting.decode_encode q.mark name.toList rest hmark
  have htake : Token.take q.mark (Quoting.encode q.mark name.toList ++ q.mark :: rest) =
      (some (.name q name), rest) := by
    cases q with
    | double =>
      show Token.takeQuoted '"' (.name .double) _ = _
      rw [Token.takeQuoted]
      simp only [QuoteStyle.mark] at hdecode ⊢
      rw [hdecode]
      simp
    | backtick =>
      show Token.takeQuoted '\x60' (.name .backtick) _ = _
      rw [Token.takeQuoted]
      simp only [QuoteStyle.mark] at hdecode ⊢
      rw [hdecode]
      simp
  have hchars : q.quotedChars name ++ rest =
      q.mark :: (Quoting.encode q.mark name.toList ++ q.mark :: rest) := by
    simp [QuoteStyle.quotedChars]
  rw [hchars]
  exact tokens_cons_token htake rfl

theorem closes_quoted (q : QuoteStyle) (name : String) :
    Closes (q.quotedChars name) [.name q name] := by
  intro rest hrest
  refine tokens_quoted q name fun h => ?_
  have hbreak := hrest q.mark h
  cases q <;> simp [QuoteStyle.mark, IsBreak] at hbreak

/-- A placeholder is one token, for a break is no digit. -/
theorem closes_parameter : Closes ['?'] [.parameter] := by
  intro rest hrest
  have hdrop : rest.dropWhile Char.isDigit = rest := by
    cases rest with
    | nil => rfl
    | cons c rest =>
      have hc := hrest c rfl
      have hdigit : c.isDigit = false := by
        rcases hc with rfl | rfl | rfl | rfl <;> rfl
      simp [hdigit]
  have htake : Token.take '?' rest = (some .parameter, rest) := by
    show (some Token.parameter, rest.dropWhile Char.isDigit) = _
    rw [hdrop]
  exact tokens_cons_token htake rfl

/-! ## 4. Pieces -/

/-- The characters of pieces. -/
def pieceChars (q : QuoteStyle) (pieces : List Piece) : List Char :=
  pieces.flatMap fun p => (p.render q).toList

theorem pieceChars_append (q : QuoteStyle) (ps qs : List Piece) :
    pieceChars q (ps ++ qs) = pieceChars q ps ++ pieceChars q qs :=
  List.flatMap_append

theorem pieceChars_cons (q : QuoteStyle) (p : Piece) (ps : List Piece) :
    pieceChars q (p :: ps) = (p.render q).toList ++ pieceChars q ps :=
  rfl

theorem toList_textOf (l : Layout) (lines : List (List Piece)) :
    (l.textOf lines).toList = pieceChars l.quote (Piece.joined "\n" lines) := by
  simp [Layout.textOf, pieceChars, String.toList_join, List.flatMap_def, Function.comp_def]

theorem joined_cons_cons (between : String) (g h : List Piece) (gs : List (List Piece)) :
    Piece.joined between (g :: h :: gs) =
      g ++ .text between :: Piece.joined between (h :: gs) := by
  simp [Piece.joined, List.intersperse]

theorem pieceChars_joined (q : QuoteStyle) (between : String) (g h : List Piece)
    (gs : List (List Piece)) : pieceChars q (Piece.joined between (g :: h :: gs)) =
      pieceChars q g ++ (between.toList ++ pieceChars q (Piece.joined between (h :: gs))) := by
  rw [joined_cons_cons, pieceChars_append]
  rfl

theorem joined_single (between : String) (g : List Piece) : Piece.joined between [g] = g := by
  simp [Piece.joined]

/-- Tokens of groups with the same tokens between them. -/
def joinedTokens (between : List Token) (groups : List (List Token)) : List Token :=
  (groups.intersperse between).flatten

theorem joinedTokens_cons_cons (between g h : List Token) (gs : List (List Token)) :
    joinedTokens between (g :: h :: gs) = g ++ (between ++ joinedTokens between (h :: gs)) := by
  simp [joinedTokens, List.intersperse]

theorem joinedTokens_single (between g : List Token) : joinedTokens between [g] = g := by
  simp [joinedTokens]

/-- A token of joined groups is one of a group, or one between them. -/
theorem mem_joinedTokens {between : List Token} {t : Token} : ∀ {groups : List (List Token)},
    t ∈ joinedTokens between groups → t ∈ between ∨ ∃ g ∈ groups, t ∈ g
  | [], h => nomatch h
  | [g], h => by
    rw [joinedTokens_single] at h
    exact .inr ⟨g, List.mem_singleton_self g, h⟩
  | g :: k :: gs, h => by
    rw [joinedTokens_cons_cons, List.mem_append, List.mem_append] at h
    obtain h | h | h := h
    · exact .inr ⟨g, List.mem_cons_self, h⟩
    · exact .inl h
    · obtain h | ⟨g', hg', h⟩ := mem_joinedTokens h
      · exact .inl h
      · exact .inr ⟨g', List.mem_cons_of_mem g hg', h⟩

theorem joinedTokens_nil : ∀ groups : List (List Token), joinedTokens [] groups = groups.flatten
  | [] => rfl
  | [g] => by rw [joinedTokens_single]; simp
  | g :: h :: gs => by
    rw [joinedTokens_cons_cons, joinedTokens_nil (h :: gs)]
    rfl

/-- **Groups that close on their own close when they are joined** by a text that starts with a
break. -/
theorem closes_joined {q : QuoteStyle} {between : String} {us : List Token}
    (hparts : Parts between.toList) (hopens : Opens between.toList us) {groups : List (List Piece)} {tss : List (List Token)}
    (h : List.Forall₂ (fun g ts => Closes (pieceChars q g) ts) groups tss) :
    Closes (pieceChars q (Piece.joined between groups)) (joinedTokens us tss) := by
  induction h with
  | nil => exact opens_nil.closes
  | cons hg hrest ih =>
    cases hrest with
    | nil =>
      rw [joined_single, joinedTokens_single]
      exact hg
    | cons hnext hothers =>
      rw [joined_cons_cons, joinedTokens_cons_cons, pieceChars_append, pieceChars_cons]
      exact hg.append (hparts.append _) (hopens.appendCloses ih)

/-- The same for groups that are made from one list. -/
theorem closes_joined_map {q : QuoteStyle} {between : String} {us : List Token}
    (hparts : Parts between.toList) (hopens : Opens between.toList us) {α : Type} (xs : List α) {f : α → List Piece}
    {g : α → List Token} (h : ∀ x, Closes (pieceChars q (f x)) (g x)) :
    Closes (pieceChars q (Piece.joined between (xs.map f))) (joinedTokens us (xs.map g)) := by
  refine closes_joined hparts hopens ?_
  rw [List.forall₂_map_left_iff, List.forall₂_map_right_iff, List.forall₂_same]
  exact fun x _ => h x

end RowHistory.Sql
