import RowHistory.Proofs.Sql.Scanning
import RowHistory.Sql.Command

/-!
# Reading the tokens of commands

A reader that gets its tokens in front of others takes exactly them. This file fixes

* what a reader takes (`Reader.Takes`), with the rules of its steps;
* the conditions that statements use, each with one placeholder (`Atom`), and the expression that
  a row of them is read as (`conj`);
* lists with commas between their items (`takes_commaList`);
* the command that tokens are read as (`read_of_takes`).
-/

namespace RowHistory.Sql

/-- An expression with other names. -/
def Expr.map {ν μ : Type} (f : ν → μ) : Expr ν → Expr μ
  | .column name => .column (f name)
  | .parameter i => .parameter i
  | .constant c => .constant c
  | .compare op l r => .compare op (l.map f) (r.map f)
  | .isNull e => .isNull (e.map f)
  | .not e => .not (e.map f)
  | .and l r => .and (l.map f) (r.map f)
  | .or l r => .or (l.map f) (r.map f)

/-- An expression without the places of its names. -/
def Expr.plain (e : Expr Name) : Expr String :=
  e.map Name.text

namespace Reader

variable {α β γ : Type}

/-! ## 1. What a reader takes -/

/-- In front of the tokens `us` the reader takes the tokens `ts`. The placeholders before it and
after it are counted, and what it gives has a property. -/
def Takes (p : Reader α) (ts us : List Token) (n m : Nat) (P : α → Prop) : Prop :=
  ∀ ls : List Lexeme, ls.map Lexeme.token = ts ++ us →
    ∃ a ls', p ⟨ls, n⟩ = .ok (a, ⟨ls', m⟩) ∧ ls'.map Lexeme.token = us ∧ P a

/-- The next token is none of those that a test wants. -/
def Refused (fits : Lexeme → Option α) (us : List Token) : Prop :=
  ∀ t ∈ us.head?, ∀ l : Lexeme, l.token = t → fits l = none

variable {p : Reader α} {ts us : List Token} {n m : Nat} {P : α → Prop}

theorem Takes.bind {f : α → Reader β} {ts' : List Token} {k : Nat} {Q : β → Prop}
    (hp : Takes p ts (ts' ++ us) n m P) (hf : ∀ a, P a → Takes (f a) ts' us m k Q) :
    Takes (p >>= f) (ts ++ ts') us n k Q := by
  intro ls hls
  rw [List.append_assoc] at hls
  obtain ⟨a, ls', hrun, hls', hP⟩ := hp ls hls
  obtain ⟨b, ls'', hrun', hls'', hQ⟩ := hf a hP ls' hls'
  refine ⟨b, ls'', ?_, hls'', hQ⟩
  show (p ⟨ls, n⟩ >>= fun (a, c) => f a c) = _
  rw [hrun]
  exact hrun'

/-- A reader that succeeds got what its first step gave. -/
theorem bind_ok {f : α → Reader β} {c c' : Cursor} {b : β} (h : (p >>= f) c = .ok (b, c')) :
    ∃ a d, p c = .ok (a, d) ∧ f a d = .ok (b, c') := by
  have h' : (p c >>= fun (a, d) => f a d) = .ok (b, c') := h
  cases hp : p c with
  | error e =>
    rw [hp] at h'
    cases h'
  | ok r =>
    rw [hp] at h'
    exact ⟨r.1, r.2, rfl, h'⟩

/-- The same with a first step whose tokens are known. -/
theorem Takes.peel {f : α → Reader β} {ls : List Lexeme} {c : Cursor} {b : β}
    (hp : Takes p ts us n m P) (hls : ls.map Lexeme.token = ts ++ us)
    (h : (p >>= f) ⟨ls, n⟩ = .ok (b, c)) :
    ∃ a ls', P a ∧ ls'.map Lexeme.token = us ∧ f a ⟨ls', m⟩ = .ok (b, c) := by
  obtain ⟨a, ls', hrun, hls', hP⟩ := hp ls hls
  obtain ⟨a', d, hrun', hf⟩ := bind_ok h
  rw [hrun] at hrun'
  cases hrun'
  exact ⟨a, ls', hP, hls', hf⟩

theorem takes_pure {a : α} (h : P a) : Takes (pure a) [] us n n P :=
  fun ls hls => ⟨a, ls, rfl, hls, h⟩

theorem Takes.imp {Q : α → Prop} (hp : Takes p ts us n m P) (h : ∀ a, P a → Q a) :
    Takes p ts us n m Q := by
  intro ls hls
  obtain ⟨a, ls', hrun, hls', hP⟩ := hp ls hls
  exact ⟨a, ls', hrun, hls', h a hP⟩

/-- The same in front of a step that takes nothing. -/
theorem Takes.bindPure {f : α → Reader β} {k : Nat} {Q : β → Prop} (hp : Takes p ts us n m P)
    (hf : ∀ a, P a → Takes (f a) [] us m k Q) : Takes (p >>= f) ts us n k Q := by
  have hp' : Takes p ts ([] ++ us) n m P := hp
  have h := hp'.bind hf
  rwa [List.append_nil] at h

/-- The same behind a step that takes nothing. -/
theorem Takes.bindNone {f : α → Reader β} {k : Nat} {Q : β → Prop}
    (hp : Takes p [] (ts ++ us) n m P) (hf : ∀ a, P a → Takes (f a) ts us m k Q) :
    Takes (p >>= f) ts us n k Q :=
  hp.bind hf

/-- The same behind a step that takes one token. -/
theorem Takes.bindOne {f : α → Reader β} {t : Token} {k : Nat} {Q : β → Prop}
    (hp : Takes p [t] (ts ++ us) n m P) (hf : ∀ a, P a → Takes (f a) ts us m k Q) :
    Takes (p >>= f) (t :: ts) us n k Q :=
  hp.bind hf

/-- A reader whose fuel is the number of tokens that are left. -/
theorem takes_fuel {f : Nat → Reader α} (h : Takes (f (ts ++ us).length) ts us n m P) :
    Takes (do f (← get).rest.length) ts us n m P := by
  intro ls hls
  obtain ⟨a, ls', hrun, hls', hP⟩ := h ls hls
  refine ⟨a, ls', ?_, hls', hP⟩
  have hlen : ls.length = (ts ++ us).length := by rw [← hls, List.length_map]
  show f ls.length ⟨ls, n⟩ = _
  rw [hlen]
  exact hrun

/-! ## 2. Tokens -/

theorem accept?_cons (fits : Lexeme → Option α) (l : Lexeme) (ls : List Lexeme) (n : Nat) :
    accept? fits ⟨l :: ls, n⟩ = .ok (fits l, ⟨if (fits l).isSome then ls else l :: ls, n⟩) := by
  simp only [accept?, bind, StateT.bind, get, getThe, MonadStateOf.get, StateT.get, pure,
    Except.pure, Except.bind]
  cases fits l <;> rfl

theorem takes_accept {fits : Lexeme → Option α} {t : Token}
    (h : ∀ l : Lexeme, l.token = t → ∃ a, fits l = some a ∧ P a) :
    Takes (accept? fits) [t] us n n fun o => ∃ a, o = some a ∧ P a := by
  intro ls hls
  cases ls with
  | nil => cases hls
  | cons l ls =>
    obtain ⟨ht, hls⟩ := List.cons.inj hls
    obtain ⟨a, ha, hP⟩ := h l ht
    refine ⟨some a, ls, ?_, hls, a, rfl, hP⟩
    rw [accept?_cons, ha]
    rfl

theorem takes_accept_none {fits : Lexeme → Option α} (h : Refused fits us) :
    Takes (accept? fits) [] us n n (· = none) := by
  intro ls hls
  refine ⟨none, ls, ?_, hls, rfl⟩
  cases ls with
  | nil => rfl
  | cons l ls =>
    have hnone : fits l = none := by
      refine h l.token ?_ l rfl
      rw [List.nil_append] at hls
      rw [← hls]
      rfl
    rw [accept?_cons, hnone]
    rfl

theorem takes_expect {fits : Lexeme → Option α} {t : Token}
    (h : ∀ l : Lexeme, l.token = t → ∃ a, fits l = some a ∧ P a) :
    Takes (expect fits) [t] us n n P := by
  refine (takes_accept h).bindPure ?_
  rintro _ ⟨a, rfl, hP⟩
  exact takes_pure hP

/-- The words of the statements that are read here, which are in upper case. -/
def keywords : List String :=
  ["SELECT", "FROM", "WHERE", "AND", "OR", "IS", "NULL", "ORDER", "BY", "DESC", "LIMIT", "INSERT",
    "INTO", "VALUES", "UPDATE", "SET"]

theorem toUpper_keyword : ∀ w ∈ keywords, w.toUpper = w := by
  decide +kernel

theorem takes_word {w : String} (h : w ∈ keywords) :
    Takes (word w) [.word w] us n n fun _ => True :=
  takes_expect fun l hl => ⟨(), by simp [isWord, hl, toUpper_keyword w h], trivial⟩

theorem takes_sign (s : Sign) : Takes (sign s) [.sign s] us n n fun _ => True :=
  takes_expect fun l hl => ⟨(), by simp [isSign, hl], trivial⟩

theorem takes_word_some {w : String} (h : w ∈ keywords) :
    Takes (word? w) [.word w] us n n (· = true) := by
  refine (takes_accept (P := fun _ => True) fun l hl =>
    ⟨(), by simp [isWord, hl, toUpper_keyword w h], trivial⟩).bindPure ?_
  rintro _ ⟨a, rfl, -⟩
  exact takes_pure rfl

theorem takes_word_none {w : String} (h : Refused (isWord w) us) :
    Takes (word? w) [] us n n (· = false) := by
  refine (takes_accept_none h).bindPure ?_
  rintro _ rfl
  exact takes_pure rfl

theorem takes_sign_some (s : Sign) : Takes (sign? s) [.sign s] us n n (· = true) := by
  refine (takes_accept (P := fun _ => True) fun l hl => ⟨(), by simp [isSign, hl], trivial⟩).bindPure ?_
  rintro _ ⟨a, rfl, -⟩
  exact takes_pure rfl

theorem takes_sign_none {s : Sign} (h : Refused (isSign s) us) :
    Takes (sign? s) [] us n n (· = false) := by
  refine (takes_accept_none h).bindPure ?_
  rintro _ rfl
  exact takes_pure rfl

theorem refused_cons {fits : Lexeme → Option α} {t : Token}
    (h : ∀ l : Lexeme, l.token = t → fits l = none) : Refused fits (t :: us) := by
  intro u hu
  cases hu
  exact h

theorem takes_name (q : QuoteStyle) (s : String) :
    Takes name [.name q s] us n n fun a => a.text = s :=
  takes_expect fun l hl => ⟨⟨s, some q, l.offset⟩, by simp [hl, isName], rfl⟩

/-! ## 3. Operands and operators -/

/-- What may stand behind a condition that is part of another one. -/
def Joins (us : List Token) : Prop :=
  ∀ t ∈ us.head?, t ∈ [Token.word "AND", .word "OR", .word "WHERE", .word "ORDER", .word "DESC",
    .sign .comma, .sign .parenClose]

/-- What may stand behind an expression. -/
def Ends (us : List Token) : Prop :=
  ∀ t ∈ us.head?, t ∈ [Token.word "WHERE", .word "ORDER", .word "DESC", .sign .comma,
    .sign .parenClose]

theorem Ends.joins (h : Ends us) : Joins us := by
  intro t ht
  have hsub : [Token.word "WHERE", .word "ORDER", .word "DESC", .sign .comma, .sign .parenClose] ⊆
      [Token.word "AND", .word "OR", .word "WHERE", .word "ORDER", .word "DESC", .sign .comma,
        .sign .parenClose] := by decide
  exact hsub (h t ht)

theorem ends_nil : Ends [] := by
  intro t ht
  cases ht

theorem joins_cons {t : Token} (h : t ∈ [Token.word "AND", .word "OR", .word "WHERE",
    .word "ORDER", .word "DESC", .sign .comma, .sign .parenClose]) : Joins (t :: us) := by
  intro u hu
  cases hu
  exact h

theorem ends_cons {t : Token} (h : t ∈ [Token.word "WHERE", .word "ORDER", .word "DESC",
    .sign .comma, .sign .parenClose]) : Ends (t :: us) := by
  intro u hu
  cases hu
  exact h

theorem isWord_of_token {w : String} {l : Lexeme} {t : Token} (hl : l.token = t)
    (h : ∀ s, t = .word s → s.toUpper ≠ w) : isWord w l = none := by
  unfold isWord
  rw [hl]
  cases t with
  | word s => exact if_neg (h s rfl)
  | _ => rfl

theorem Joins.refusedWord {w : String} (h : Joins us)
    (hw : w ∉ ["AND", "OR", "WHERE", "ORDER", "DESC"]) : Refused (isWord w) us := by
  intro t ht l hl
  refine isWord_of_token hl ?_
  rintro s rfl
  have hmem := h _ ht
  simp only [List.mem_cons, Token.word.injEq, reduceCtorEq, List.not_mem_nil, or_false] at hmem
  have hs : s ∈ ["AND", "OR", "WHERE", "ORDER", "DESC"] := by simpa using hmem
  have hkey : s ∈ keywords := by
    rcases hmem with rfl | rfl | rfl | rfl | rfl <;> decide
  rw [toUpper_keyword s hkey]
  exact fun heq => hw (heq ▸ hs)

theorem Ends.refusedWord {w : String} (h : Ends us)
    (hw : w ∉ ["WHERE", "ORDER", "DESC"]) : Refused (isWord w) us := by
  intro t ht l hl
  refine isWord_of_token hl ?_
  rintro s rfl
  have hmem := h _ ht
  simp only [List.mem_cons, Token.word.injEq, reduceCtorEq, List.not_mem_nil, or_false] at hmem
  have hs : s ∈ ["WHERE", "ORDER", "DESC"] := by simpa using hmem
  have hkey : s ∈ keywords := by
    rcases hmem with rfl | rfl | rfl <;> decide
  rw [toUpper_keyword s hkey]
  exact fun heq => hw (heq ▸ hs)

theorem Joins.refusedOrder (h : Joins us) : Refused isOrderSign us := by
  intro t ht l hl
  have hmem := h t ht
  simp only [List.mem_cons, List.not_mem_nil, or_false] at hmem
  rcases hmem with rfl | rfl | rfl | rfl | rfl | rfl | rfl <;> simp [isOrderSign, hl]

theorem Joins.refusedEquality (h : Joins us) : Refused isEqualitySign us := by
  intro t ht l hl
  have hmem := h t ht
  simp only [List.mem_cons, List.not_mem_nil, or_false] at hmem
  rcases hmem with rfl | rfl | rfl | rfl | rfl | rfl | rfl <;> simp [isEqualitySign, hl]

variable {inner : Reader (Expr Name)}

/-- A placeholder that may come is not there. -/
theorem takes_parameter_none {t : Token} (ht : t ≠ .parameter) :
    Takes parameter? [] (t :: us) n n (· = none) := by
  refine (takes_accept_none (refused_cons fun l hl => ?_)).bindPure ?_
  · rw [hl, if_neg ht]
  · rintro _ rfl
    exact takes_pure rfl

theorem takes_parameter : Takes parameter? [.parameter] us n (n + 1) (· = some n) := by
  refine (takes_accept (P := fun _ => True) fun l hl => ⟨(), by simp [hl], trivial⟩).bindPure ?_
  rintro _ ⟨a, rfl, -⟩ ls hls
  exact ⟨some n, ls, rfl, hls, rfl⟩

/-- An operand that is a column. -/
theorem takes_primary_name (q : QuoteStyle) (s : String) :
    Takes (primary inner) [.name q s] us n n fun e => e.plain = .column s := by
  have hnone : ∀ {δ : Type} {fits : Lexeme → Option δ},
      (∀ l : Lexeme, l.token = .name q s → fits l = none) →
      Takes (accept? fits) [] ([.name q s] ++ us) n n (· = none) :=
    fun h => takes_accept_none (refused_cons h)
  unfold primary
  refine Takes.bindNone (takes_sign_none (refused_cons fun l hl => by simp [isSign, hl])) ?_
  rintro _ rfl
  refine Takes.bindNone (takes_parameter_none (by simp)) ?_
  rintro _ rfl
  refine Takes.bindNone (hnone fun l hl => by simp [isConstant, hl]) ?_
  rintro _ rfl
  refine Takes.bindNone (hnone fun l hl => by simp [isNumber, hl]) ?_
  rintro _ rfl
  refine Takes.bindNone (takes_sign_none (refused_cons fun l hl => by simp [isSign, hl])) ?_
  rintro _ rfl
  refine (takes_expect (P := fun a : Name => a.text = s) fun l hl =>
    ⟨⟨s, some q, l.offset⟩, by simp [hl, isName], rfl⟩).bindPure ?_
  rintro a rfl
  exact takes_pure rfl

/-- An operand that is a placeholder. -/
theorem takes_primary_parameter :
    Takes (primary inner) [.parameter] us n (n + 1) (· = .parameter n) := by
  unfold primary
  refine Takes.bindNone (takes_sign_none (refused_cons fun l hl => by simp [isSign, hl])) ?_
  rintro _ rfl
  refine takes_parameter.bindPure ?_
  rintro _ rfl
  exact takes_pure rfl

/-- An operand in parentheses. -/
theorem takes_primary_paren {Q : Expr Name → Prop}
    (h : Takes inner ts (.sign .parenClose :: us) n m Q) :
    Takes (primary inner) (.sign .parenOpen :: (ts ++ [.sign .parenClose])) us n m Q := by
  unfold primary
  refine Takes.bindOne (takes_sign_some _) ?_
  rintro _ rfl
  refine Takes.bind h fun e he => ?_
  refine (takes_sign _).bindPure fun _ _ => ?_
  exact takes_pure he

/-! ## 4. Chains -/

section Chain

variable {operand : Reader α} {operator? : Reader (Option (α → Reader α))} {ts' ts'' : List Token}
  {k : Nat} {Q R : α → Prop}

theorem takes_chainFrom_stop (hop : Takes operator? [] us n n (· = none)) {left : α}
    (hleft : P left) : ∀ fuel, Takes (chainFrom operator? fuel left) [] us n n P
  | 0 => takes_pure hleft
  | _ + 1 => by
    refine hop.bindPure ?_
    rintro _ rfl
    exact takes_pure hleft

theorem takes_chain (hoperand : Takes operand ts (ts' ++ us) n m Q)
    (hrest : ∀ a, Q a → Takes (chainFrom operator? (ts' ++ us).length a) ts' us m k R) :
    Takes (chain operand operator?) (ts ++ ts') us n k R :=
  hoperand.bind fun a ha => takes_fuel (f := fun fuel => chainFrom operator? fuel a) (hrest a ha)

/-- A chain of one operand. -/
theorem takes_chain_single (hoperand : Takes operand ts us n m Q)
    (hop : Takes operator? [] us m m (· = none)) : Takes (chain operand operator?) ts us n m Q := by
  have hoperand' : Takes operand ts ([] ++ us) n m Q := hoperand
  have h := takes_chain hoperand' fun a ha =>
    takes_chainFrom_stop hop ha _
  rwa [List.append_nil] at h

/-- A chain of two operands, whose operator starts with a token. -/
theorem takes_chain_pair {t : Token} (hoperand : Takes operand ts (t :: (ts' ++ us)) n m P)
    (hop : ∀ a, P a → Takes operator? [t] (ts' ++ us) m m fun o =>
      ∃ f, o = some f ∧ Takes (f a) ts' us m k Q)
    (hend : Takes operator? [] us k k (· = none)) :
    Takes (chain operand operator?) (ts ++ t :: ts') us n k Q := by
  refine takes_chain hoperand fun a ha => ?_
  show Takes (chainFrom operator? ((ts' ++ us).length + 1) a) (t :: ts') us m k Q
  refine (hop a ha).bindOne ?_
  rintro _ ⟨f, rfl, hf⟩
  exact hf.bindPure fun b hb => takes_chainFrom_stop hend hb _

end Chain

theorem takes_binary {operand : Reader α} {make : α → α → α} {left : α} {Q : α → Prop}
    (h : Takes operand ts us n m P) (hQ : ∀ a, P a → Q (make left a)) :
    Takes (binary operand make left) ts us n m Q :=
  h.bindPure fun a ha => takes_pure (hQ a ha)

/-! ## 5. Conditions -/

/-- The sign of an order. -/
def orderSign : Relation → Sign
  | .eq => .equal
  | .ne => .notEqual
  | .lt => .less
  | .le => .lessEqual
  | .gt => .greater
  | .ge => .greaterEqual

variable {T : Expr Name → Prop}

theorem takes_ordered_single (h : Takes (primary inner) ts us n m T)
    (hend : Refused isOrderSign us) : Takes (ordered inner) ts us n m T := by
  refine takes_chain_single h ?_
  refine (takes_accept_none hend).bindPure ?_
  rintro _ rfl
  exact takes_pure rfl

/-- The operators of equality and with null. -/
def equality (inner : Reader (Expr Name)) : Reader (Option (Expr Name → Reader (Expr Name))) := do
  if let some op ← accept? isEqualitySign then
    return some (binary (ordered inner) (Expr.compare op))
  if ← word? "IS" then
    return some fun left => do
      let negated ← word? "NOT"
      word "NULL"
      return if negated then .not (.isNull left) else .isNull left
  return none

theorem equated_eq : equated inner = chain (ordered inner) (equality inner) :=
  rfl

theorem takes_equality_none (h : Joins us) : Takes (equality inner) [] us n n (· = none) := by
  refine Takes.bindNone (takes_accept_none h.refusedEquality) ?_
  rintro _ rfl
  refine (takes_word_none (h.refusedWord (by decide))).bindPure ?_
  rintro _ rfl
  exact takes_pure rfl

/-- A column that is compared by order with a placeholder. -/
theorem takes_order (q : QuoteStyle) (c : String) {op : Relation}
    (hop : ∀ l : Lexeme, l.token = .sign (orderSign op) → isOrderSign l = some op)
    (hend : Joins us) :
    Takes (equated inner) [.name q c, .sign (orderSign op), .parameter] us n (n + 1) fun e =>
      e.plain = .compare op (.column c) (.parameter n) := by
  rw [equated_eq]
  refine takes_chain_single ?_ (takes_equality_none hend)
  refine takes_chain_pair (takes_primary_name q c) (fun left hleft => ?_) ?_
  · refine (takes_accept (P := (· = op)) fun l hl => ⟨op, hop l hl, rfl⟩).bindPure ?_
    rintro _ ⟨_, rfl, rfl⟩
    refine takes_pure ⟨_, rfl, takes_binary takes_primary_parameter ?_⟩
    rintro _ rfl
    show Expr.compare _ (left.map Name.text) _ = _
    rw [show left.map Name.text = .column c from hleft]
    rfl
  · refine (takes_accept_none hend.refusedOrder).bindPure ?_
    rintro _ rfl
    exact takes_pure rfl

/-- A column that is compared for equality with a placeholder. -/
theorem takes_equal (q : QuoteStyle) (c : String) {op : Relation}
    (hop : ∀ l : Lexeme, l.token = .sign (orderSign op) →
      isEqualitySign l = some op ∧ isOrderSign l = none) (hend : Joins us) :
    Takes (equated inner) [.name q c, .sign (orderSign op), .parameter] us n (n + 1) fun e =>
      e.plain = .compare op (.column c) (.parameter n) := by
  rw [equated_eq]
  refine takes_chain_pair (takes_ordered_single (takes_primary_name q c)
    (refused_cons fun l hl => (hop l hl).2)) (fun left hleft => ?_)
    (takes_equality_none hend)
  refine (takes_accept (P := (· = op)) fun l hl => ⟨op, (hop l hl).1, rfl⟩).bindPure ?_
  rintro _ ⟨_, rfl, rfl⟩
  refine takes_pure ⟨_, rfl, takes_binary
    (takes_ordered_single takes_primary_parameter hend.refusedOrder) ?_⟩
  rintro _ rfl
  show Expr.compare _ (left.map Name.text) _ = _
  rw [show left.map Name.text = .column c from hleft]
  rfl

/-- A column that is compared with null. -/
theorem takes_isNull (q : QuoteStyle) (c : String) (hend : Joins us) :
    Takes (equated inner) [.name q c, .word "IS", .word "NULL"] us n n fun e =>
      e.plain = .isNull (.column c) := by
  rw [equated_eq]
  refine takes_chain_pair (takes_ordered_single (takes_primary_name q c)
    (refused_cons fun l hl => by simp [isOrderSign, hl])) (fun left hleft => ?_)
    (takes_equality_none hend)
  refine Takes.bindNone
    (takes_accept_none (refused_cons fun l hl => by simp [isEqualitySign, hl])) ?_
  rintro _ rfl
  refine (takes_word_some (by decide)).bindPure ?_
  rintro _ rfl
  refine takes_pure ⟨_, rfl, ?_⟩
  refine Takes.bindNone (takes_word_none (refused_cons fun l hl => ?_)) ?_
  · refine isWord_of_token hl ?_
    rintro _ ⟨⟩
    rw [toUpper_keyword _ (by decide)]
    decide
  · rintro _ rfl
    refine (takes_word (by decide)).bindPure fun _ _ => takes_pure ?_
    show Expr.isNull (left.map Name.text) = _
    rw [show left.map Name.text = .column c from hleft]

/-- A condition without a negation in front of it. -/
theorem takes_negated {t : Token} {fuel : Nat} (h : Takes (equated inner) (t :: ts) us n m T)
    (ht : ∀ s, t ≠ .word s) : Takes (negated inner (fuel + 1)) (t :: ts) us n m T := by
  refine Takes.bindNone (takes_word_none (refused_cons fun l hl => ?_)) ?_
  · exact isWord_of_token hl fun s hs => absurd hs (ht s)
  · rintro _ rfl
    exact h

/-! ## 6. Conjunctions -/

end Reader

/-- A condition with one placeholder. -/
inductive Atom where
  /-- A column is compared with the value. -/
  | compare (column : String) (op : Relation)
  /-- A column is not less than the value, or it is null. -/
  | notBefore (column : String)
deriving DecidableEq, Repr

namespace Atom

/-- The expression of a condition, by the place of its value. -/
def expr : Atom → Nat → Expr String
  | .compare c op, n => .compare op (.column c) (.parameter n)
  | .notBefore c, n => .or (.compare .ge (.column c) (.parameter n)) (.isNull (.column c))

/-- The tokens of a condition. -/
def tokens (q : QuoteStyle) : Atom → List Token
  | .compare c op => [.name q c, .sign (Reader.orderSign op), .parameter]
  | .notBefore c => [.sign .parenOpen, .name q c, .sign .greaterEqual, .parameter, .word "OR",
      .name q c, .word "IS", .word "NULL", .sign .parenClose]

/-- An expression and further conditions, whose values come one after the other. -/
def conj : Expr String → Nat → List Atom → Expr String
  | e, _, [] => e
  | e, n, a :: as => conj (.and e (a.expr n)) (n + 1) as

end Atom

namespace Reader

/-- An operator that is a word. -/
def wordOperator (w : String) (f : α → Reader α) : Reader (Option (α → Reader α)) := do
  return if ← word? w then some f else none

/-- Conditions with AND between them. -/
def conjunction (fuel : Nat) : Reader (Expr Name) :=
  chain (negated (expressionWith fuel) (fuel + 1))
    (wordOperator "AND" (binary (negated (expressionWith fuel) (fuel + 1)) Expr.and))

theorem expressionWith_succ (fuel : Nat) : expressionWith (fuel + 1) =
    chain (conjunction fuel) (wordOperator "OR" (binary (conjunction fuel) Expr.or)) :=
  rfl

theorem takes_wordOperator_none {w : String} {f : α → Reader α} (h : Refused (isWord w) us) :
    Takes (wordOperator w f) [] us n n (· = none) := by
  refine (takes_word_none h).bindPure ?_
  rintro _ rfl
  exact takes_pure rfl

theorem takes_wordOperator {w : String} {f : α → Reader α} (h : w ∈ keywords) :
    Takes (wordOperator w f) [.word w] us n n (· = some f) := by
  refine (takes_word_some h).bindPure ?_
  rintro _ rfl
  exact takes_pure rfl

theorem refusedWord_cons {w v : String} (hv : v ∈ keywords) (h : v ≠ w) :
    Refused (isWord w) (.word v :: us) := by
  refine refused_cons fun l hl => isWord_of_token hl ?_
  rintro _ ⟨⟩
  rw [toUpper_keyword v hv]
  exact h

theorem takes_conjunction_single {fuel : Nat}
    (h : Takes (negated (expressionWith fuel) (fuel + 1)) ts us n m T)
    (hend : Refused (isWord "AND") us) : Takes (conjunction fuel) ts us n m T :=
  takes_chain_single h (takes_wordOperator_none hend)

/-- What stands in the parentheses of an end that is open. -/
theorem takes_notBefore (q : QuoteStyle) (c : String) (fuel : Nat) :
    Takes (expressionWith (fuel + 1)) [.name q c, .sign .greaterEqual, .parameter, .word "OR",
      .name q c, .word "IS", .word "NULL"] (.sign .parenClose :: us) n (n + 1) fun e =>
        e.plain = (Atom.notBefore c).expr n := by
  have hleft : ∀ vs, Takes (conjunction fuel) [.name q c, .sign (orderSign .ge), .parameter]
      (.word "OR" :: vs) n (n + 1) fun e => e.plain = .compare .ge (.column c) (.parameter n) := by
    intro vs
    refine takes_conjunction_single (takes_negated (takes_order q c ?_ (joins_cons (by simp)))
      (by simp)) (refusedWord_cons (by decide) (by decide))
    intro l hl
    simp_all [isOrderSign, orderSign]
  rw [expressionWith_succ]
  refine takes_chain_pair (hleft _) (fun left hleft => ?_)
    (takes_wordOperator_none (refused_cons fun l hl => isWord_of_token hl (by simp)))
  refine (takes_wordOperator (by decide)).imp ?_
  rintro _ rfl
  refine ⟨_, rfl, takes_binary (takes_conjunction_single
    (takes_negated (takes_isNull q c (joins_cons (by simp))) (by simp))
    (refused_cons fun l hl => isWord_of_token hl (by simp))) fun right hright => ?_⟩
  show Expr.or left.plain right.plain = _
  rw [hleft, hright]
  rfl

/-- **A condition is read as its expression.** -/
theorem takes_atom (q : QuoteStyle) (a : Atom) (fuel depth : Nat) (hend : Joins us) :
    Takes (negated (expressionWith (fuel + 1)) (depth + 1)) (a.tokens q) us n (n + 1) fun e =>
      e.plain = a.expr n := by
  cases a with
  | compare c op =>
    refine takes_negated ?_ (by simp)
    cases op with
    | eq => exact takes_equal q c (fun l hl => by simp_all [isEqualitySign, isOrderSign, orderSign]) hend
    | ne => exact takes_equal q c (fun l hl => by simp_all [isEqualitySign, isOrderSign, orderSign]) hend
    | _ => exact takes_order q c (fun l hl => by simp_all [isOrderSign, orderSign]) hend
  | notBefore c =>
    refine takes_negated ?_ (by simp)
    rw [equated_eq]
    refine takes_chain_single (takes_ordered_single ?_ hend.refusedOrder) (takes_equality_none hend)
    exact takes_primary_paren (takes_notBefore q c fuel)

/-- The tokens of conditions that follow another one. -/
def furtherTokens (q : QuoteStyle) (as : List Atom) : List Token :=
  as.flatMap fun a => .word "AND" :: a.tokens q

theorem joinedTokens_atoms (q : QuoteStyle) (a : Atom) (as : List Atom) :
    joinedTokens [.word "AND"] ((a :: as).map (Atom.tokens q)) = a.tokens q ++ furtherTokens q as := by
  induction as generalizing a with
  | nil => simp [joinedTokens, furtherTokens]
  | cons b bs ih =>
    rw [List.map_cons, List.map_cons, joinedTokens_cons_cons, ← List.map_cons, ih]
    rfl

theorem joins_further (q : QuoteStyle) (as : List Atom) (hend : Joins us) :
    Joins (furtherTokens q as ++ us) := by
  cases as with
  | nil => exact hend
  | cons a as => exact joins_cons (by simp)

/-- The rest of a conjunction, by induction on the conditions that are left. -/
theorem takes_further (q : QuoteStyle) (depth : Nat) (hend : Ends us) :
    ∀ (as : List Atom) (fuel n : Nat) (left : Expr Name), as.length ≤ fuel →
    Takes (chainFrom (wordOperator "AND"
      (binary (negated (expressionWith (depth + 1)) (depth + 2)) Expr.and)) fuel left)
      (furtherTokens q as) us n (n + as.length) fun e => e.plain = Atom.conj left.plain n as
  | [], fuel, n, left, _ => by
    have hnone := hend.refusedWord (w := "AND") (by decide)
    show Takes _ [] us n n fun e : Expr Name => e.plain = left.plain
    refine takes_chainFrom_stop (takes_wordOperator_none hnone) ?_ fuel
    rfl
  | a :: as, 0, _, _, h => absurd h (by simp)
  | a :: as, fuel + 1, n, left, h => by
    show Takes _ (.word "AND" :: (a.tokens q ++ furtherTokens q as)) us n _ _
    refine (takes_wordOperator (by decide)).bindOne ?_
    rintro _ rfl
    refine (takes_binary (takes_atom q a depth (depth + 1) (joins_further q as hend.joins))
      (Q := fun e => e.plain = .and left.plain (a.expr n)) fun right hright => ?_).bind ?_
    · show Expr.and left.plain right.plain = _
      rw [hright]
    · intro e he
      have hrest := takes_further q depth hend as fuel (n + 1) e (by simpa using h)
      rw [he, Nat.add_right_comm] at hrest
      exact hrest

/-- **Conditions with AND between them are read as their conjunction.** -/
theorem takes_expressionWith (q : QuoteStyle) (a : Atom) (as : List Atom) (fuel : Nat)
    (hend : Ends us) :
    Takes (expressionWith (fuel + 2)) (a.tokens q ++ furtherTokens q as) us n (n + 1 + as.length)
      fun e => e.plain = Atom.conj (a.expr n) (n + 1) as := by
  rw [expressionWith_succ]
  refine takes_chain_single ?_ (takes_wordOperator_none (hend.refusedWord (by decide)))
  refine takes_chain (takes_atom q a fuel (fuel + 1) (joins_further q as hend.joins)) fun e he => ?_
  rw [← he]
  refine takes_further q fuel hend as _ _ _ ?_
  have hlen : ∀ as : List Atom, as.length ≤ (furtherTokens q as).length := by
    intro as
    induction as with
    | nil => simp
    | cons b bs ih =>
      have hcons : furtherTokens q (b :: bs) = (.word "AND" :: b.tokens q) ++ furtherTokens q bs := rfl
      rw [hcons, List.length_append, List.length_cons, List.length_cons]
      omega
  rw [List.length_append]
  exact Nat.le_add_right_of_le (hlen as)

theorem takes_expression (q : QuoteStyle) (a : Atom) (as : List Atom) (hend : Ends us) :
    Takes expression (a.tokens q ++ furtherTokens q as) us n (n + 1 + as.length) fun e =>
      e.plain = Atom.conj (a.expr n) (n + 1) as := by
  refine takes_fuel (f := fun fuel => expressionWith (fuel + 1)) ?_
  cases a <;> exact takes_expressionWith q _ as _ hend

/-! ## 7. Lists, paths and commands -/

/-- What is made of items one after the other, each of which has the same number of
placeholders. -/
def numbered (g : γ → Nat → β) (width : Nat) : Nat → List γ → List β
  | _, [] => []
  | n, x :: xs => g x n :: numbered g width (n + width) xs

/-- **Items with commas between them are read one after the other.** -/
theorem takes_commaSeparated {item : Reader α} {view : α → β} {f : γ → List Token}
    {g : γ → Nat → β} {width : Nat}
    (hitem : ∀ x n us, Ends us → Takes item (f x) us n (n + width) fun a => view a = g x n)
    (hend : Ends us) (hcomma : Refused (isSign .comma) us) :
    ∀ (xs : List γ) (x : γ) (fuel n : Nat), xs.length < fuel →
    Takes (commaSeparated item fuel) (joinedTokens [.sign .comma] ((x :: xs).map f)) us n
      (n + width * (xs.length + 1)) fun as => as.map view = numbered g width n (x :: xs)
  | _, _, 0, _, h => absurd h (Nat.not_lt_zero _)
  | [], x, fuel + 1, n, _ => by
    rw [List.map_cons, List.map_nil, joinedTokens_single]
    refine ((hitem x n us hend).bindPure fun a ha => ?_)
    rw [List.length_nil, Nat.zero_add, Nat.mul_one]
    refine (takes_sign_none hcomma).bindPure ?_
    rintro _ rfl
    exact takes_pure (by simp [numbered, ha])
  | y :: ys, x, fuel + 1, n, h => by
    rw [List.map_cons, List.map_cons, joinedTokens_cons_cons, ← List.map_cons]
    refine (hitem x n _ (ends_cons (by simp))).bind fun a ha => ?_
    refine (takes_sign_some .comma).bind ?_
    rintro _ rfl
    have hrest := takes_commaSeparated hitem hend hcomma ys y fuel (n + width) (by simpa using h)
    have hcount : n + width + width * (ys.length + 1) =
        n + width * ((y :: ys).length + 1) := by
      simp only [List.length_cons, Nat.mul_add]
      omega
    rw [hcount] at hrest
    refine hrest.bindPure fun as has => takes_pure ?_
    rw [List.map_cons, has, ha]
    rfl

theorem takes_commaList {item : Reader α} (view : α → β) {f : γ → List Token}
    (g : γ → Nat → β) (width : Nat) (hne : ∀ x, f x ≠ [])
    (hitem : ∀ x n us, Ends us → Takes item (f x) us n (n + width) fun a => view a = g x n)
    (hend : Ends us) (hcomma : Refused (isSign .comma) us) (xs : List γ) (hxs : xs ≠ []) :
    Takes (commaList item) (joinedTokens [.sign .comma] (xs.map f)) us n
      (n + width * xs.length) fun as => as.map view = numbered g width n xs := by
  refine takes_fuel (f := fun fuel => commaSeparated item fuel) ?_
  have hlen : ∀ xs : List γ, xs.length ≤ (joinedTokens [.sign .comma] (xs.map f)).length := by
    intro xs
    induction xs with
    | nil => simp
    | cons x xs ih =>
      have hpos := List.length_pos_iff.mpr (hne x)
      cases xs with
      | nil =>
        rw [List.map_cons, List.map_nil, joinedTokens_single]
        exact hpos
      | cons y ys =>
        rw [List.map_cons, List.map_cons, joinedTokens_cons_cons, ← List.map_cons]
        simp only [List.length_append, List.length_cons, List.length_nil] at ih ⊢
        omega
  cases xs with
  | nil => exact absurd rfl hxs
  | cons x xs =>
    refine takes_commaSeparated hitem hend hcomma xs x _ n ?_
    have := hlen (x :: xs)
    rw [List.length_append]
    exact Nat.lt_of_lt_of_le (Nat.lt_succ_self _) (Nat.le_add_right_of_le this)

/-- The tokens of a path. -/
def pathTokens (q : QuoteStyle) (schema : Option String) (table : String) : List Token :=
  match schema with
  | some s => [.name q s, .sign .dot, .name q table]
  | none => [.name q table]

/-- A path leads where the names say. -/
def Leads (schema : Option String) (table : String) (p : Path) : Prop :=
  p.schema = schema ∧ p.table.text = table

theorem takes_path (q : QuoteStyle) (schema : Option String) (table : String)
    (hdot : Refused (isSign .dot) us) :
    Takes path (pathTokens q schema table) us n n (Leads schema table) := by
  cases schema with
  | some s =>
    refine (takes_name q s).bindOne fun first hfirst => ?_
    refine (takes_sign_some .dot).bindOne ?_
    rintro _ rfl
    refine (takes_name q table).bindPure fun t ht => takes_pure ?_
    exact ⟨congrArg some hfirst, ht⟩
  | none =>
    refine (takes_name q table).bindPure fun first hfirst => ?_
    refine (takes_sign_none hdot).bindPure ?_
    rintro _ rfl
    exact takes_pure ⟨rfl, hfirst⟩

theorem takes_condition (q : QuoteStyle) (a : Atom) (as : List Atom) (hend : Ends us) :
    Takes condition? (.word "WHERE" :: (a.tokens q ++ furtherTokens q as)) us n
      (n + 1 + as.length) fun o => ∃ e, o = some e ∧ e.plain = Atom.conj (a.expr n) (n + 1) as := by
  refine (takes_word_some (by decide)).bindOne ?_
  rintro _ rfl
  refine (takes_expression q a as hend).bindPure fun e he => takes_pure ⟨e, rfl, he⟩

/-- An expression that is a single placeholder. -/
theorem takes_expression_parameter (hend : Ends us) :
    Takes expression [.parameter] us n (n + 1) (· = .parameter n) := by
  refine takes_fuel (f := fun fuel => expressionWith (fuel + 1)) ?_
  rw [expressionWith_succ]
  refine takes_chain_single ?_ (takes_wordOperator_none (hend.refusedWord (by decide)))
  refine takes_conjunction_single ?_ (hend.refusedWord (by decide))
  refine takes_negated ?_ (by simp)
  rw [equated_eq]
  exact takes_chain_single (takes_ordered_single takes_primary_parameter hend.joins.refusedOrder)
    (takes_equality_none hend.joins)

/-- An expression that is a single column. -/
theorem takes_expression_name (q : QuoteStyle) (c : String) (hend : Ends us) :
    Takes expression [.name q c] us n n fun e => e.plain = .column c := by
  refine takes_fuel (f := fun fuel => expressionWith (fuel + 1)) ?_
  rw [expressionWith_succ]
  refine takes_chain_single ?_ (takes_wordOperator_none (hend.refusedWord (by decide)))
  refine takes_conjunction_single ?_ (hend.refusedWord (by decide))
  refine takes_negated ?_ (by simp)
  rw [equated_eq]
  exact takes_chain_single
    (takes_ordered_single (takes_primary_name q c) hend.joins.refusedOrder)
    (takes_equality_none hend.joins)

/-- The tokens behind the first word of a selection. -/
def selectTokens (q : QuoteStyle) (schema : Option String) (table : String) (a : Atom)
    (as : List Atom) (order : String) : List Token :=
  .sign .star :: .word "FROM" :: (pathTokens q schema table ++
    (.word "WHERE" :: (a.tokens q ++ furtherTokens q as) ++
      [.word "ORDER", .word "BY", .name q order, .word "DESC", .word "LIMIT", .integer 1]))

/-- **A selection is read with its conditions and its order.** -/
theorem takes_select (q : QuoteStyle) (schema : Option String) (table : String) (a : Atom)
    (as : List Atom) (order : String) :
    Takes select (selectTokens q schema table a as order) [] n (n + 1 + as.length) fun c =>
      ∃ p e o, c = .select p (some e) (some o) ∧ Leads schema table p ∧
        e.plain = Atom.conj (a.expr n) (n + 1) as ∧ o.plain = .column order := by
  unfold selectTokens
  refine (takes_sign_some .star).bindOne ?_
  rintro _ rfl
  refine (takes_word (by decide)).bindOne fun _ _ => ?_
  refine (takes_path q schema table (refused_cons fun l hl => by simp [isSign, hl])).bind fun p hp => ?_
  refine (takes_condition q a as (ends_cons (by simp))).bind ?_
  rintro _ ⟨e, rfl, he⟩
  refine (takes_word_some (by decide)).bindOne ?_
  rintro _ rfl
  refine (takes_word (by decide)).bindOne fun _ _ => ?_
  refine (takes_expression_name q order (ends_cons (by simp))).bindOne fun o ho => ?_
  refine (takes_word (by decide)).bindOne fun _ _ => ?_
  refine (takes_pure (P := (· = some o)) rfl).bindNone ?_
  rintro _ rfl
  refine (takes_word_some (by decide)).bindOne ?_
  rintro _ rfl
  refine (takes_expect (P := fun _ => True) fun l hl => ?_).bindPure fun _ _ => ?_
  · exact ⟨.integer 1, by simp [isNumber, hl, Text.InInt64, Text.int64Min, Text.int64Max], trivial⟩
  · exact takes_pure ⟨p, e, o, rfl, hp, he, ho⟩

/-- The tokens behind the first word of an insertion. -/
def insertTokens (q : QuoteStyle) (schema : Option String) (table : String)
    (columns : List String) : List Token :=
  .word "INTO" :: (pathTokens q schema table ++ (.sign .parenOpen ::
    (joinedTokens [.sign .comma] (columns.map fun c => [.name q c]) ++
      (.sign .parenClose :: .word "VALUES" :: .sign .parenOpen ::
        (joinedTokens [.sign .comma] (columns.map fun _ => [.parameter]) ++
          [.sign .parenClose])))))

/-- The expressions of values that are all supplied. -/
def suppliedFrom {ν : Type} (n count : Nat) : List (Expr ν) :=
  (List.range' n count).map Expr.parameter

theorem numbered_parameter {ν : Type} (xs : List γ) (n : Nat) :
    numbered (fun (_ : γ) k => (.parameter k : Expr ν)) 1 n xs = suppliedFrom n xs.length := by
  induction xs generalizing n with
  | nil => rfl
  | cons x xs ih =>
    rw [numbered, ih]
    rfl

theorem numbered_const (g : γ → β) (xs : List γ) (n : Nat) :
    numbered (fun x _ => g x) 0 n xs = xs.map g := by
  induction xs generalizing n with
  | nil => rfl
  | cons x xs ih => rw [numbered, ih, List.map_cons]

theorem refusedSign_cons {s t : Sign} (h : t ≠ s) : Refused (isSign s) (.sign t :: us) :=
  refused_cons fun l hl => by simp [isSign, hl, h]

theorem takes_names (q : QuoteStyle) {columns : List String} (hne : columns ≠ []) :
    Takes (commaList name) (joinedTokens [.sign .comma] (columns.map fun c => [.name q c]))
      (.sign .parenClose :: us) n n fun names => names.map Name.text = columns := by
  have hend : Ends (.sign .parenClose :: us) := ends_cons (by simp)
  have hcomma : Refused (isSign .comma) (.sign .parenClose :: us) := refusedSign_cons (by simp)
  have hitem : ∀ c k vs, Ends vs → Takes name [.name q c] vs k (k + 0) fun a => a.text = c :=
    fun c _ _ _ => takes_name q c
  have h := takes_commaList (n := n) Name.text (fun c _ => c) 0 (by simp) hitem hend hcomma columns hne
  rw [numbered_const, List.map_id', Nat.zero_mul] at h
  exact h

theorem takes_values {columns : List String} (hne : columns ≠ []) :
    Takes (commaList expression) (joinedTokens [.sign .comma] (columns.map fun _ => [.parameter]))
      (.sign .parenClose :: us) n (n + columns.length) (· = suppliedFrom n columns.length) := by
  have hend : Ends (.sign .parenClose :: us) := ends_cons (by simp)
  have hcomma : Refused (isSign .comma) (.sign .parenClose :: us) := refusedSign_cons (by simp)
  have hitem : ∀ (_ : String) k vs, Ends vs → Takes expression [.parameter] vs k (k + 1)
      fun e => e = .parameter k :=
    fun _ _ _ hvs => takes_expression_parameter hvs
  have h := takes_commaList (n := n) (fun e : Expr Name => e) (fun _ k => .parameter k) 1
    (fun _ => List.cons_ne_nil _ _) hitem hend hcomma columns hne
  rw [numbered_parameter, Nat.one_mul] at h
  refine h.imp fun es hes => ?_
  rwa [List.map_id'] at hes

/-- **An insertion is read with its columns and as many placeholders.** -/
theorem takes_insert (q : QuoteStyle) (schema : Option String) (table : String)
    {columns : List String} (hne : columns ≠ []) :
    Takes insert (insertTokens q schema table columns) [] n (n + columns.length) fun c =>
      ∃ p names, c = .insert p names (suppliedFrom n columns.length) ∧ Leads schema table p ∧
        names.map Name.text = columns := by
  unfold insertTokens
  refine (takes_word (by decide)).bindOne fun _ _ => ?_
  refine (takes_path q schema table (refusedSign_cons (by simp))).bind fun p hp => ?_
  refine (takes_sign _).bindOne fun _ _ => ?_
  refine (takes_names q hne).bind fun names hnames => ?_
  refine (takes_sign _).bindOne fun _ _ => ?_
  refine (takes_word (by decide)).bindOne fun _ _ => ?_
  refine (takes_sign _).bindOne fun _ _ => ?_
  refine (takes_values hne).bind ?_
  rintro _ rfl
  exact (takes_sign _).bindPure fun _ _ => takes_pure ⟨p, names, rfl, hp, hnames⟩

/-- The tokens of assignments, behind their word. -/
def assignmentTokens (q : QuoteStyle) (columns : List String) : List Token :=
  joinedTokens [.sign .comma] (columns.map fun c => [.name q c, .sign .equal, .parameter])

/-- The columns that are set, each to the next value. -/
def assignmentsFrom (n : Nat) (columns : List String) : List (String × Expr String) :=
  numbered (fun c k => (c, .parameter k)) 1 n columns

/-- An assignment without the places of its names. -/
def plainAssignment (a : Name × Expr Name) : String × Expr String :=
  (a.1.text, a.2.plain)

theorem takes_assignments (q : QuoteStyle) {columns : List String} (hne : columns ≠ [])
    (hend : Ends us) (hcomma : Refused (isSign .comma) us) :
    Takes (commaList do
        let column ← name
        sign .equal
        return (column, ← expression)) (assignmentTokens q columns) us n (n + columns.length)
      fun as => as.map plainAssignment = assignmentsFrom n columns := by
  have hitem : ∀ c k vs, Ends vs → Takes (do
        let column ← name
        sign .equal
        return (column, ← expression)) [.name q c, .sign .equal, .parameter] vs k (k + 1)
      fun a => plainAssignment a = (c, .parameter k) := by
    intro c k vs hvs
    refine (takes_name q c).bindOne fun a ha => ?_
    refine (takes_sign _).bindOne fun _ _ => ?_
    refine (takes_expression_parameter hvs).bindPure fun e he => takes_pure ?_
    rw [plainAssignment, ha, he]
    rfl
  have h := takes_commaList (n := n) plainAssignment (fun c k => (c, .parameter k)) 1 (by simp)
    hitem hend hcomma columns hne
  rw [Nat.one_mul] at h
  exact h

/-- The tokens behind the first word of a change, up to its conditions. -/
def updateTokens (q : QuoteStyle) (schema : Option String) (table : String)
    (columns : List String) : List Token :=
  pathTokens q schema table ++ (.word "SET" :: assignmentTokens q columns)

/-- **A change is read with its assignments and its conditions.** -/
theorem takes_update (q : QuoteStyle) (schema : Option String) (table : String)
    {columns : List String} (hne : columns ≠ []) (a : Atom) (as : List Atom) :
    Takes update (updateTokens q schema table columns ++
        (.word "WHERE" :: (a.tokens q ++ furtherTokens q as))) [] n
      (n + columns.length + 1 + as.length) fun c =>
      ∃ p sets e, c = .update p sets (some e) ∧ Leads schema table p ∧
        sets.map plainAssignment = assignmentsFrom n columns ∧
        e.plain = Atom.conj (a.expr (n + columns.length)) (n + columns.length + 1) as := by
  unfold updateTokens
  rw [List.append_assoc, List.cons_append]
  refine (takes_path q schema table (refused_cons fun l hl => by simp [isSign, hl])).bind fun p hp => ?_
  refine (takes_word (by decide)).bindOne fun _ _ => ?_
  refine (takes_assignments q hne (ends_cons (by simp))
    (refused_cons fun l hl => by simp [isSign, hl])).bind fun sets hsets => ?_
  refine (takes_condition q a as ends_nil).bindPure ?_
  rintro _ ⟨e, rfl, he⟩
  exact takes_pure ⟨p, sets, e, rfl, hp, hsets, he⟩

/-- A change whose conditions are not known is still read with its assignments, if it is read at
all. -/
theorem update_ok (q : QuoteStyle) (schema : Option String) (table : String)
    {columns : List String} (hne : columns ≠ []) {ls : List Lexeme}
    (hls : ls.map Lexeme.token = updateTokens q schema table columns ++ (.word "WHERE" :: us))
    {c : Command} {cursor : Cursor} (h : update ⟨ls, n⟩ = .ok (c, cursor)) :
    ∃ p sets e, c = .update p sets (some e) ∧ Leads schema table p ∧
      sets.map plainAssignment = assignmentsFrom n columns := by
  rw [updateTokens, List.append_assoc, List.cons_append] at hls
  obtain ⟨p, ls, hp, hls, h⟩ := (takes_path q schema table
    (refused_cons fun l hl => by simp [isSign, hl])).peel hls h
  obtain ⟨-, ls, -, hls, h⟩ := (takes_word (by decide)).peel hls h
  obtain ⟨sets, ls, hsets, hls, h⟩ := (takes_assignments q hne (ends_cons (by simp))
    (refused_cons fun l hl => by simp [isSign, hl])).peel hls h
  obtain ⟨condition, d, hcondition, h⟩ := bind_ok h
  obtain ⟨_, ls, rfl, hls, hcondition⟩ := (takes_word_some (by decide)).peel hls hcondition
  obtain ⟨e, d', -, he⟩ := bind_ok hcondition
  cases he
  cases h
  exact ⟨p, sets, e, rfl, hp, hsets⟩

/-- A step that is known to succeed, in front of any other. -/
theorem Takes.bind_eq {f : α → Reader β} {ls : List Lexeme} (hp : Takes p ts us n m P)
    (hls : ls.map Lexeme.token = ts ++ us) :
    ∃ a ls', P a ∧ ls'.map Lexeme.token = us ∧ (p >>= f) ⟨ls, n⟩ = f a ⟨ls', m⟩ := by
  obtain ⟨a, ls', hrun, hls', hP⟩ := hp ls hls
  refine ⟨a, ls', hP, hls', ?_⟩
  show (p ⟨ls, n⟩ >>= fun (a, c) => f a c) = _
  rw [hrun]
  rfl

theorem takes_peek {t : Token} : Takes peek? [] (t :: us) n n (· = some t) := by
  intro ls hls
  refine ⟨ls.head?.map Lexeme.token, ls, rfl, hls, ?_⟩
  rw [← List.head?_map, hls]
  rfl

/-- The reader of a command by its first word. -/
def body : String → Option (Reader Command)
  | "SELECT" => some select
  | "INSERT" => some insert
  | "UPDATE" => some update
  | _ => none

/-- **The first word says which command follows.** -/
theorem command_eq {w : String} {ls : List Lexeme} {q : Reader Command} (hbody : body w = some q)
    (hls : ls.map Lexeme.token = .word w :: us) :
    ∃ ls', ls'.map Lexeme.token = us ∧ command ⟨ls, n⟩ = q ⟨ls', n⟩ := by
  obtain ⟨_, ls₁, rfl, hls₁, hrun₁⟩ := takes_peek.bind_eq (n := n) hls
  unfold command
  rw [hrun₁]
  simp only [Option.isNone_some, Bool.false_eq_true, ↓reduceIte]
  unfold body at hbody
  split at hbody
  · cases hbody
    obtain ⟨_, ls₂, rfl, hls₂, hrun₂⟩ := (takes_word_some (by decide)).bind_eq (n := n) hls₁
    exact ⟨ls₂, hls₂, hrun₂⟩
  · cases hbody
    obtain ⟨_, ls₂, rfl, hls₂, hrun₂⟩ := (takes_word_none (w := "SELECT")
      (refusedWord_cons (by decide) (by decide))).bind_eq (n := n) hls₁
    obtain ⟨_, ls₃, rfl, hls₃, hrun₃⟩ := (takes_word_some (by decide)).bind_eq (n := n) hls₂
    exact ⟨ls₃, hls₃, hrun₂.trans hrun₃⟩
  · cases hbody
    obtain ⟨_, ls₂, rfl, hls₂, hrun₂⟩ := (takes_word_none (w := "SELECT")
      (refusedWord_cons (by decide) (by decide))).bind_eq (n := n) hls₁
    obtain ⟨_, ls₃, rfl, hls₃, hrun₃⟩ := (takes_word_none (w := "INSERT")
      (refusedWord_cons (by decide) (by decide))).bind_eq (n := n) hls₂
    obtain ⟨_, ls₄, rfl, hls₄, hrun₄⟩ := (takes_word_some (by decide)).bind_eq (n := n) hls₃
    exact ⟨ls₄, hls₄, hrun₂.trans (hrun₃.trans hrun₄)⟩
  · cases hbody

end Reader

theorem skipSemicolons_scan {sql w : String} {ts : List Token}
    (h : tokens sql.toList = .word w :: ts) : skipSemicolons (scan sql) = scan sql := by
  have hscan := (map_token_scan sql).trans h
  cases hls : scan sql with
  | nil => rfl
  | cons l ls =>
    rw [hls] at hscan
    have hl : l.token = .word w := (List.cons.inj hscan).1
    simp [skipSemicolons, hl]

/-- **A text is read as the command that its tokens make.** -/
theorem read_of_takes {sql w : String} {ts : List Token} {m : Nat} {P : Command → Prop}
    {q : Reader Command} (hbody : Reader.body w = some q)
    (htokens : tokens sql.toList = .word w :: ts) (h : Reader.Takes q ts [] 0 m P) :
    ∃ c, Command.read sql = .ok ⟨c, m, ""⟩ ∧ P c := by
  obtain ⟨ls, hls, hrun⟩ := Reader.command_eq (n := 0) hbody ((map_token_scan sql).trans htokens)
  rw [← List.append_nil ts] at hls
  obtain ⟨c, ls', hq, hls', hP⟩ := h ls hls
  have hnil : ls' = [] := List.map_eq_nil_iff.mp hls'
  subst hnil
  refine ⟨c, ?_, hP⟩
  unfold Command.read
  rw [skipSemicolons_scan htokens, hrun, hq]
  rfl

/-- A text that is read gave a command from its tokens. -/
theorem read_ok {sql w : String} {ts : List Token} {r : Command.Reading} {q : Reader Command}
    (hbody : Reader.body w = some q) (htokens : tokens sql.toList = .word w :: ts)
    (h : Command.read sql = .ok r) :
    ∃ ls cursor, ls.map Lexeme.token = ts ∧ q ⟨ls, 0⟩ = .ok (r.command, cursor) := by
  obtain ⟨ls, hls, hrun⟩ := Reader.command_eq (n := 0) hbody ((map_token_scan sql).trans htokens)
  unfold Command.read at h
  rw [skipSemicolons_scan htokens, hrun] at h
  cases hq : q ⟨ls, 0⟩ with
  | error e =>
    rw [hq] at h
    cases h
  | ok found =>
    obtain ⟨c, cursor⟩ := found
    rw [hq] at h
    dsimp only [bind, Except.bind] at h
    have hc : r.command = c := by
      split at h
      · cases h
        rfl
      · split at h
        · cases h
          rfl
        · cases h
    exact ⟨ls, cursor, hls, hc ▸ hq⟩

end RowHistory.Sql
