import RowHistory.Layout
import Mathlib.Logic.Function.Defs

/-!
# Quoted names can be told from what follows them

A quoted name ends at the first mark that stands alone, however many marks it has itself and
wherever they are. This file fixes

* the reader of a quoted name (`QuoteStyle.read?`), which reads exactly what was written
  (`read?_eq_some_iff`);
* that two quoted names in front of other text are the same only if both names are
  (`quoted_append_inj`), and so are two paths of tables (`Layout.path_inj`).
-/

namespace RowHistory

open Sql

/-! ## 1. Names -/

namespace Sql.QuoteStyle

/-- Reads a quoted name in front of a text, and gives what follows it. -/
def read? (q : QuoteStyle) (s : String) : Option (String × String) :=
  match s.toList with
  | [] => none
  | c :: cs =>
    if c = q.mark then
      (Quoting.decode q.mark cs).map fun (name, rest) => (String.ofList name, String.ofList rest)
    else none

variable {q : QuoteStyle} {s name rest : String}

theorem toList_quoted_append (q : QuoteStyle) (name rest : String) :
    (q.quoted name ++ rest).toList =
      q.mark :: (Quoting.encode q.mark name.toList ++ q.mark :: rest.toList) := by
  simp [quoted, quotedChars]

/-- **A name is read just where it was written**, in front of anything but another mark. -/
theorem read?_eq_some_iff : q.read? s = some (name, rest) ↔
    s = q.quoted name ++ rest ∧ rest.toList.head? ≠ some q.mark := by
  rw [← String.toList_inj, toList_quoted_append]
  unfold read?
  cases s.toList with
  | nil => simp
  | cons c cs =>
    by_cases hc : c = q.mark
    · subst hc
      have hstrings : ∀ p : List Char × List Char,
          (String.ofList p.1, String.ofList p.2) = (name, rest) ↔ p = (name.toList, rest.toList) := by
        rintro ⟨ns, rs⟩
        simp [← String.toList_inj]
      simp only [if_true, Option.map_eq_some_iff, hstrings, exists_eq_right,
        Quoting.decode_eq_some_iff, List.cons.injEq, true_and]
    · simp [hc]

/-- Quoted names in front of other text are the same only if the names and the texts are. -/
theorem quoted_append_inj {name' rest' : String} (hrest : rest.toList.head? ≠ some q.mark)
    (hrest' : rest'.toList.head? ≠ some q.mark)
    (h : q.quoted name ++ rest = q.quoted name' ++ rest') : name = name' ∧ rest = rest' := by
  have hread : q.read? (q.quoted name ++ rest) = some (name, rest) :=
    read?_eq_some_iff.mpr ⟨rfl, hrest⟩
  have hread' : q.read? (q.quoted name' ++ rest') = some (name', rest') :=
    read?_eq_some_iff.mpr ⟨rfl, hrest'⟩
  rw [h, hread'] at hread
  cases hread
  exact ⟨rfl, rfl⟩

/-- No mark is at the end of a text. -/
theorem head?_empty (q : QuoteStyle) : "".toList.head? ≠ some q.mark := by
  simp

theorem quoted_injective (q : QuoteStyle) : Function.Injective q.quoted := by
  intro a b h
  have happend : q.quoted a ++ "" = q.quoted b ++ "" := congrArg (· ++ "") h
  exact (quoted_append_inj q.head?_empty q.head?_empty happend).1

/-- A dot is no mark. -/
theorem head?_dot (q : QuoteStyle) (s : String) : ("." ++ s).toList.head? ≠ some q.mark := by
  cases q <;> simp [mark]

end Sql.QuoteStyle

/-! ## 2. Paths of tables -/

namespace Layout

variable {l m : Layout}

theorem path_of_none (h : l.schema = none) : l.path = l.quote.quoted l.table ++ "" := by
  simp [path, pathNames, h]

theorem path_of_some {schema : String} (h : l.schema = some schema) :
    l.path = l.quote.quoted schema ++ ("." ++ l.quote.quoted l.table) := by
  simp [path, pathNames, h, ← String.toList_inj]

/-- **A path has one reading.** -/
theorem path_inj (hquote : l.quote = m.quote) (h : l.path = m.path) :
    l.schema = m.schema ∧ l.table = m.table := by
  have hend := m.quote.head?_empty
  have hdot := m.quote.head?_dot
  cases hl : l.schema with
  | none =>
    rw [path_of_none hl, hquote] at h
    cases hm : m.schema with
    | none =>
      rw [path_of_none hm] at h
      exact ⟨rfl, (QuoteStyle.quoted_append_inj hend hend h).1⟩
    | some schema =>
      rw [path_of_some hm] at h
      have hrest := (QuoteStyle.quoted_append_inj hend (hdot _) h).2
      exact absurd (congrArg String.toList hrest) (by simp)
  | some schema =>
    rw [path_of_some hl, hquote] at h
    cases hm : m.schema with
    | none =>
      rw [path_of_none hm] at h
      have hrest := (QuoteStyle.quoted_append_inj (hdot _) hend h).2
      exact absurd (congrArg String.toList hrest) (by simp)
    | some schema' =>
      rw [path_of_some hm] at h
      obtain ⟨hschema, hrest⟩ := QuoteStyle.quoted_append_inj (hdot _) (hdot _) h
      have htable : m.quote.quoted l.table = m.quote.quoted m.table := by
        have hchars := congrArg String.toList hrest
        rw [String.toList_append, String.toList_append] at hchars
        exact String.toList_inj.mp (List.append_cancel_left hchars)
      exact ⟨congrArg some hschema, m.quote.quoted_injective htable⟩

theorem path_congr (hquote : l.quote = m.quote) (hschema : l.schema = m.schema)
    (htable : l.table = m.table) : l.path = m.path := by
  unfold path pathNames
  rw [hquote, hschema, htable]

end Layout

/-! ## 3. Both together -/

/-- **Quoting is injective and delimits itself.** A quoted name is read from a text, and what
follows it is left, just if the text is that name quoted in front of a rest that starts with no
mark. So names are told apart by how they are quoted, and tables by their paths. -/
theorem quoted_self_delimiting (q : QuoteStyle) :
    (∀ s name rest : String, q.read? s = some (name, rest) ↔
      s = q.quoted name ++ rest ∧ rest.toList.head? ≠ some q.mark) ∧
    Function.Injective q.quoted ∧
    ∀ l m : Layout, l.quote = q → m.quote = q →
      (l.path = m.path ↔ l.schema = m.schema ∧ l.table = m.table) := by
  refine ⟨fun _ _ _ => QuoteStyle.read?_eq_some_iff, q.quoted_injective, fun l m hl hm => ?_⟩
  have hquote : l.quote = m.quote := hl.trans hm.symm
  exact ⟨Layout.path_inj hquote, fun h => Layout.path_congr hquote h.1 h.2⟩

/-- Marks at the ends of names, next to the dot of a path and next to one another. -/
theorem marked_names_told_apart :
    QuoteStyle.backtick.read? (QuoteStyle.backtick.quoted "\x60a\x60\x60" ++ ".\x60") =
      some ("\x60a\x60\x60", ".\x60") ∧
    Layout.path { schema := some "a\"", table := "\"b", fields := ⟨[]⟩ } ≠
      Layout.path { schema := none, table := "a\"\".\"\"b", fields := ⟨[]⟩ } := by
  refine ⟨((quoted_self_delimiting .backtick).1 _ _ _).mpr ⟨rfl, by decide⟩, fun h => ?_⟩
  have hsame := ((quoted_self_delimiting .double).2.2 _ _ rfl rfl).mp h
  cases hsame.1

end RowHistory
