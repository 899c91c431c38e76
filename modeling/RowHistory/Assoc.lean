/-!
# Entries in order of their names

Lists of named entries, sorted by name. Names are compared by code points, which is the order of
their UTF-8 bytes. This file fixes

* the entry of a name (`Assoc.find?`), entering one (`Assoc.insert`) and leaving one out
  (`Assoc.erase`);
* what it means to be sorted (`Assoc.Sorted`), and that entering and leaving out keep it.
-/

namespace RowHistory.Assoc

variable {α : Type}

/-- The names increase from entry to entry. -/
def Sorted (entries : List (String × α)) : Prop :=
  entries.Pairwise fun a b => a.1 < b.1

/-- The entry of a name. -/
def find? (name : String) : List (String × α) → Option α
  | [] => none
  | (n, a) :: rest => if n = name then some a else find? name rest

/-- Enters a value at its place, instead of an entry of the same name. -/
def insert (name : String) (a : α) : List (String × α) → List (String × α)
  | [] => [(name, a)]
  | (n, b) :: rest =>
    if name = n then (name, a) :: rest
    else if name < n then (name, a) :: (n, b) :: rest
    else (n, b) :: insert name a rest

/-- Leaves out the entry of a name. -/
def erase (name : String) (entries : List (String × α)) : List (String × α) :=
  entries.filter fun e => e.1 ≠ name

/-- The entries of a list, the last one of each name. -/
def ofList (entries : List (String × α)) : List (String × α) :=
  entries.foldl (fun sofar e => insert e.1 e.2 sofar) []

theorem mem_insert {name : String} {a : α} {e : String × α} :
    ∀ {entries : List (String × α)}, e ∈ insert name a entries → e.1 = name ∨ e ∈ entries
  | [], h => by simp [insert] at h; simp [h]
  | (n, b) :: rest, h => by
    unfold insert at h
    split at h
    · rcases List.mem_cons.1 h with rfl | h
      · exact .inl rfl
      · exact .inr (List.mem_cons_of_mem _ h)
    split at h
    · rcases List.mem_cons.1 h with rfl | h
      · exact .inl rfl
      · exact .inr h
    · rcases List.mem_cons.1 h with rfl | h
      · exact .inr List.mem_cons_self
      · rcases mem_insert h with h | h
        · exact .inl h
        · exact .inr (List.mem_cons_of_mem _ h)

theorem sorted_nil : Sorted ([] : List (String × α)) :=
  List.Pairwise.nil

/-- **Entering a value keeps the order.** -/
theorem sorted_insert {name : String} {a : α} :
    ∀ {entries : List (String × α)}, Sorted entries → Sorted (insert name a entries)
  | [], _ => by simp [insert, Sorted]
  | (n, b) :: rest, h => by
    obtain ⟨hn, hrest⟩ := List.pairwise_cons.1 h
    unfold insert
    split
    · rename_i heq
      subst heq
      exact List.pairwise_cons.2 ⟨hn, hrest⟩
    split
    · rename_i hlt
      refine List.pairwise_cons.2 ⟨fun e he => ?_, h⟩
      rcases List.mem_cons.1 he with rfl | he
      · exact hlt
      · exact String.lt_trans hlt (hn e he)
    · rename_i hne hnlt
      refine List.pairwise_cons.2 ⟨fun e he => ?_, sorted_insert hrest⟩
      rcases mem_insert he with he | he
      · rw [he]
        refine Decidable.byContradiction fun hge => hne ?_
        exact String.le_antisymm (String.not_lt.1 hge) (String.not_lt.1 hnlt)
      · exact hn e he

/-- **Leaving out an entry keeps the order.** -/
theorem sorted_erase {name : String} {entries : List (String × α)} (h : Sorted entries) :
    Sorted (erase name entries) :=
  List.Pairwise.filter _ h

end RowHistory.Assoc
