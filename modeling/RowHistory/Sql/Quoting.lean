/-!
# Quoted names

A name is written between two quotation marks, and a mark inside it is written twice. Reading
takes the marks back, up to a single one. This file fixes

* the two marks (`QuoteStyle`);
* how characters are written and read (`encode`, `decode`);
* that what is written is read back, whatever follows but another mark (`decode_encode`), and that
  nothing else is read (`decode_eq_some_iff`).
-/

namespace RowHistory.Sql

/-- The quotation mark around names. -/
inductive QuoteStyle where
  /-- The mark of standard SQL. -/
  | double
  /-- The accent that some databases use. -/
  | backtick
deriving DecidableEq, Repr, Inhabited

/-- The character of a style. -/
def QuoteStyle.mark : QuoteStyle → Char
  | .double => '"'
  | .backtick => '\x60'

namespace Quoting

/-- The characters with every mark written twice. -/
def encode (mark : Char) : List Char → List Char
  | [] => []
  | c :: cs => if c = mark then mark :: mark :: encode mark cs else c :: encode mark cs

/-- Reads characters up to a mark that stands alone, and gives what follows it. -/
def decode (mark : Char) : List Char → Option (List Char × List Char)
  | [] => none
  | c :: cs =>
    if c = mark then
      match cs with
      | [] => some ([], [])
      | d :: ds =>
        if d = mark then (decode mark ds).map fun (name, rest) => (mark :: name, rest)
        else some ([], d :: ds)
    else (decode mark cs).map fun (name, rest) => (c :: name, rest)

/-- A written name is read back, and what follows it is left alone. -/
theorem decode_encode (mark : Char) (name rest : List Char) (h : rest.head? ≠ some mark) :
    decode mark (encode mark name ++ mark :: rest) = some (name, rest) := by
  induction name with
  | nil =>
    cases rest with
    | nil => simp [encode, decode]
    | cons d ds =>
      have hd : d ≠ mark := by simpa using h
      simp [encode, decode, hd]
  | cons c cs ih =>
    by_cases hc : c = mark
    · simp [encode, decode, hc, ih]
    · rw [encode, if_neg hc, List.cons_append, decode.eq_def]
      simp [hc, ih]

/-- What is read was written, and no mark follows it. -/
theorem eq_encode_of_decode {mark : Char} {cs name rest : List Char}
    (h : decode mark cs = some (name, rest)) :
    cs = encode mark name ++ mark :: rest ∧ rest.head? ≠ some mark := by
  induction cs using decode.induct mark generalizing name rest with
  | case1 => cases h
  | case2 =>
    simp only [decode, ↓reduceIte, Option.some.injEq, Prod.mk.injEq] at h
    obtain ⟨rfl, rfl⟩ := h
    exact ⟨rfl, by simp⟩
  | case3 ds ih =>
    simp only [decode, ↓reduceIte, Option.map_eq_some_iff] at h
    obtain ⟨⟨inner, after⟩, hinner, heq⟩ := h
    cases heq
    obtain ⟨rfl, hafter⟩ := ih hinner
    exact ⟨by simp [encode], hafter⟩
  | case4 d ds hd =>
    simp only [decode, hd, ↓reduceIte, Option.some.injEq, Prod.mk.injEq] at h
    obtain ⟨rfl, rfl⟩ := h
    exact ⟨rfl, by simpa using hd⟩
  | case5 c cs hc ih =>
    rw [decode.eq_def] at h
    simp only [hc, ↓reduceIte, Option.map_eq_some_iff] at h
    obtain ⟨⟨inner, after⟩, hinner, heq⟩ := h
    cases heq
    obtain ⟨rfl, hafter⟩ := ih hinner
    exact ⟨by simp [encode, hc], hafter⟩

theorem decode_eq_some_iff {mark : Char} {cs name rest : List Char} :
    decode mark cs = some (name, rest) ↔
      cs = encode mark name ++ mark :: rest ∧ rest.head? ≠ some mark := by
  constructor
  · exact eq_encode_of_decode
  · rintro ⟨rfl, hrest⟩
    exact decode_encode mark name rest hrest

end Quoting

namespace QuoteStyle

/-- The characters of a name between its marks. -/
def quotedChars (q : QuoteStyle) (name : String) : List Char :=
  q.mark :: (Quoting.encode q.mark name.toList ++ [q.mark])

/-- A name between its marks. -/
def quoted (q : QuoteStyle) (name : String) : String :=
  String.ofList (q.quotedChars name)

end QuoteStyle

end RowHistory.Sql
