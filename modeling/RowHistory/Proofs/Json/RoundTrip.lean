import RowHistory.Json.Reader
import RowHistory.Proofs.Instant.RoundTrip

/-!
# Written values are read back

A JSON value that is written without blanks is read again as itself, as long as its whole numbers have
64 bits, it has no other numbers, it does not nest too deep and all of it is wanted. This file fixes

* that strings and whole numbers are read as they are written (`takeString_escaped`,
  `takeNumber_intDigits`);
* the values that are read back (`Json.Reads`), for what is wanted of them and a depth;
* that they are, in front of any text that no value goes on with (`back`), and alone
  (`readWanted?_render`); an object in front of blanks, too (`read?_object`).
-/

namespace RowHistory.Json

open Text

/-! ## 1. Strings -/

theorem hex4?_control : ∀ n < 32,
    hex4? '0' '0' (hexDigit (n / 16)) (hexDigit (n % 16)) = some n := by
  decide

/-- A character is read as it is written. -/
theorem takeString_escapeChar (c : Char) (rest : List Char) :
    takeString (escapeChar c ++ rest) = (takeString rest).map fun (s, after) => (c :: s, after) := by
  unfold escapeChar
  iterate 7
    split
    · rename_i h
      subst h
      simp [takeString, unescape?]
  split
  · rename_i hcontrol
    have hhigh : isHighSurrogate c.toNat = false := by
      simp only [isHighSurrogate, Bool.and_eq_false_iff, decide_eq_false_iff_not]
      omega
    have hlow : isLowSurrogate c.toNat = false := by
      simp only [isLowSurrogate, Bool.and_eq_false_iff, decide_eq_false_iff_not]
      omega
    simp only [List.cons_append, List.nil_append, takeString, hex4?_control _ hcontrol, hhigh, hlow,
      Bool.false_eq_true, if_false, Char.ofNat_toNat]
  · rename_i hquote hslash _ _ _ _ _ hcontrol
    rw [List.cons_append, List.nil_append, takeString.eq_def]
    split
    · rename_i heq
      cases heq
    · rename_i heq
      exact absurd (List.head_eq_of_cons_eq heq) hquote
    · rename_i heq
      exact absurd (List.head_eq_of_cons_eq heq) hslash
    · rename_i heq
      exact absurd (List.head_eq_of_cons_eq heq) hslash
    · rename_i heq
      cases heq
      rw [if_neg hcontrol]

/-- **A string is read as it is written**, whatever follows. -/
theorem takeString_escaped (cs rest : List Char) :
    takeString (cs.flatMap escapeChar ++ '"' :: rest) = some (cs, rest) := by
  induction cs with
  | nil => simp [takeString]
  | cons c cs ih =>
    rw [List.flatMap_cons, List.append_assoc, takeString_escapeChar, ih]
    rfl

theorem quoteChars_append (cs rest : List Char) :
    quoteChars cs ++ rest = '"' :: (cs.flatMap escapeChar ++ '"' :: rest) := by
  simp [quoteChars]

/-! ## 2. Whole numbers -/

/-- A text with which no value goes on: it is empty, or starts with a comma or the end of an array or an
object. -/
def Stops (rest : List Char) : Prop :=
  ∀ c ∈ rest.head?, c = ',' ∨ c = ']' ∨ c = '}'

theorem stops_nil : Stops [] :=
  fun _ h => nomatch h

theorem Stops.cons {c : Char} {rest : List Char} (h : c = ',' ∨ c = ']' ∨ c = '}') :
    Stops (c :: rest) := by
  intro d hd
  cases hd
  exact h

/-- The digits of a number are a numeral without point and exponent. -/
theorem span?_digits {n : Nat} {rest : List Char} (h : Stops rest) :
    Numeral.span? (digits n ++ rest) = some (⟨digits n, [], 0, false⟩, rest) := by
  have hpadded : padded 0 n = digits n := by simp [padded]
  have hspan : spanDigits (digits n ++ rest) = (digits n, rest) := by
    rw [← hpadded]
    refine spanDigits_padded fun c hc => ?_
    rcases h c hc with rfl | rfl | rfl <;> rfl
  have hne : digits n ≠ [] := hpadded ▸ padded_ne_nil 0 n
  unfold Numeral.span?
  rw [hspan]
  cases rest with
  | nil => simp [Numeral.spanExponent, hne]
  | cons c rest =>
    rcases h c rfl with rfl | rfl | rfl <;> simp [Numeral.spanExponent, hne]

/-- A number that is not zero has no zero in front. -/
theorem head_digits {n : Nat} (h : 0 < n) : (digits n).head? ≠ some '0' := by
  induction n using Nat.strongRecOn with
  | ind n ih =>
    unfold digits
    by_cases hn : n < 10
    · rw [Nat.toDigits_of_lt_base hn, List.head?_cons, ne_eq, Option.some_inj]
      exact fun heq => absurd (Nat.digitChar_eq_zero.mp heq) (by omega)
    · have hne : Nat.toDigits 10 (n / 10) ≠ [] := Nat.toDigits_ne_nil
      rw [Nat.toDigits_of_base_le (by decide) (Nat.le_of_not_lt hn), List.head?_append_of_ne_nil _ hne]
      exact ih (n / 10) (by omega) (by omega)

/-- The digits of a number are well-formed in front of what no value goes on with: there are some, with
no superfluous zero, and neither a point nor an exponent follows. -/
theorem digits_wellFormed {n : Nat} {rest : List Char} (h : Stops rest) :
    ¬ (digits n = [] ∨ ((digits n).head? = some '0' ∧ 1 < (digits n).length) ∨
      (((digits n ++ rest).drop (digits n).length).head? = some '.' ∧ ([] : List Char) = []) ∨
      (rest.head?.any fun c => c = 'e' || c = 'E') = true) := by
  rintro (hnil | ⟨hzero, hlong⟩ | ⟨hpoint, -⟩ | hstray)
  · exact Nat.toDigits_ne_nil hnil
  · obtain rfl | hpos := Nat.eq_zero_or_pos n
    · exact absurd hlong (by decide)
    · exact head_digits hpos hzero
  · rw [List.drop_left] at hpoint
    rcases h _ hpoint with heq | heq | heq <;> exact absurd heq (by decide)
  · obtain ⟨c, hc, hexponent⟩ := (Option.any_eq_true _ _).mp hstray
    rcases h c hc with rfl | rfl | rfl <;> exact absurd hexponent (by decide)

theorem takeNumeral_digits {n : Nat} {rest : List Char} (h : Stops rest) :
    takeNumeral (digits n ++ rest) = some (false, ⟨digits n, [], 0, false⟩, rest) := by
  obtain ⟨c, cs, hcons⟩ := List.exists_cons_of_ne_nil (Nat.toDigits_ne_nil : Nat.toDigits 10 n ≠ [])
  have hdigit : c.isDigit = true := Nat.isDigit_of_mem_toDigits (by decide) (by decide)
    (hcons ▸ List.mem_cons_self)
  unfold takeNumeral
  split
  rename_i negative cs' hsign
  split at hsign
  · rename_i heq
    unfold digits at heq
    rw [hcons] at heq
    cases List.head_eq_of_cons_eq heq
    cases hdigit
  · cases hsign
    rw [span?_digits h]
    exact if_neg (digits_wellFormed h)

theorem takeNumeral_minus {n : Nat} {rest : List Char} (h : Stops rest) :
    takeNumeral ('-' :: digits n ++ rest) = some (true, ⟨digits n, [], 0, false⟩, rest) := by
  unfold takeNumeral
  rw [List.cons_append]
  split
  rename_i negative cs hsign
  cases hsign
  rw [span?_digits h]
  exact if_neg (digits_wellFormed h)

theorem takeNumeral_intDigits {n : Int} {rest : List Char} (h : Stops rest) :
    takeNumeral (intDigits n ++ rest) =
      some (decide (n < 0), ⟨digits n.natAbs, [], 0, false⟩, rest) := by
  unfold intDigits
  split
  · rename_i hneg
    rw [decide_eq_true hneg]
    exact takeNumeral_minus h
  · rename_i hneg
    rw [decide_eq_false hneg]
    exact takeNumeral_digits h

/-- The whole numbers of 64 bits, signed below zero and unsigned above. -/
def IsWord (n : Int) : Prop :=
  -2 ^ 63 ≤ n ∧ n < 2 ^ 64

/-- **A whole number is read as it is written**, in front of what no value goes on with. -/
theorem takeNumber_intDigits {n : Int} {rest : List Char} (hn : IsWord n) (h : Stops rest) :
    takeNumber (intDigits n ++ rest) = some (.int n, rest) := by
  have hdigits : (⟨digits n.natAbs, [], 0, false⟩ : Numeral).digits = n.natAbs := by
    show digitsValue (digits n.natAbs ++ []) = _
    rw [List.append_nil]
    exact Nat.ofDigitChars_toDigits (by decide) (by decide)
  unfold IsWord at hn
  unfold takeNumber numberValue?
  simp only [takeNumeral_intDigits h, hdigits]
  by_cases hneg : n < 0
  · rw [if_neg (by simp [hneg]), if_pos ⟨by simp, by simp [hneg], by omega, by omega⟩]
    simp only [Option.map_some, Option.some_inj, Prod.mk.injEq, int.injEq, and_true]
    omega
  · rw [if_pos ⟨by simp, by simp [hneg], by omega⟩]
    simp only [Option.map_some, Option.some_inj, Prod.mk.injEq, int.injEq, and_true]
    omega

/-! ## 3. Values -/

mutual

/-- The value is read back where so much is wanted of it and it may nest so deep: its numbers are whole
ones of 64 bits, and every member is wanted. -/
def Reads (d : Demand) (depth : Nat) : Json → Prop
  | .null => True
  | .bool _ => True
  | .int n => IsWord n
  | .real _ => False
  | .str _ => True
  | .arr items => 0 < depth ∧ ReadsItems d.items (depth - 1) items
  | .obj members => 0 < depth ∧ ReadsMembers d (depth - 1) members

@[inherit_doc Reads] def ReadsItems (ds : List Demand) (depth : Nat) : List Json → Prop
  | [] => True
  | j :: rest => Reads (ds.headD .whole) depth j ∧ ReadsItems ds.tail depth rest

@[inherit_doc Reads] def ReadsMembers (d : Demand) (depth : Nat) : List (String × Json) → Prop
  | [] => True
  | (name, j) :: rest =>
    (match d.member? name with
      | some d => Reads d depth j
      | none => False) ∧ ReadsMembers d depth rest

end

/-- A whole number starts with a digit or a minus sign. -/
theorem intDigits_cons (n : Int) :
    ∃ c cs, intDigits n = c :: cs ∧ (c.isDigit = true ∨ c = '-') := by
  unfold intDigits
  split
  · exact ⟨_, _, rfl, .inr rfl⟩
  · obtain ⟨c, cs, hcons⟩ := List.exists_cons_of_ne_nil
      (Nat.toDigits_ne_nil : Nat.toDigits 10 n.natAbs ≠ [])
    exact ⟨c, cs, hcons, .inl (Nat.isDigit_of_mem_toDigits (by decide) (by decide)
      (hcons ▸ List.mem_cons_self))⟩

/-- Such a character is no blank and ends nothing. -/
theorem starts_number {c : Char} (h : c.isDigit = true ∨ c = '-') :
    isSpace c = false ∧ c ≠ ']' ∧ c ≠ '}' := by
  have hne : ∀ {e : Char}, ¬ (e.isDigit = true ∨ e = '-') → c ≠ e := fun he heq => he (heq ▸ h)
  refine ⟨?_, hne (by decide), hne (by decide)⟩
  simp only [isSpace, Bool.or_eq_false_iff, decide_eq_false_iff_not]
  exact ⟨⟨⟨hne (by decide), hne (by decide)⟩, hne (by decide)⟩, hne (by decide)⟩

/-- A value starts with a character that is no blank and ends nothing. -/
theorem chars_cons {d : Demand} {depth : Nat} {j : Json} (h : Reads d depth j) :
    ∃ c cs, j.chars = c :: cs ∧ isSpace c = false ∧ c ≠ ']' ∧ c ≠ '}' := by
  cases j with
  | null => exact ⟨_, _, rfl, by decide⟩
  | bool b => cases b <;> exact ⟨_, _, rfl, by decide⟩
  | int n =>
    obtain ⟨c, cs, hcons, hc⟩ := intDigits_cons n
    exact ⟨c, cs, hcons, starts_number hc⟩
  | real x => exact h.elim
  | str s => exact ⟨_, _, rfl, by decide⟩
  | arr items => cases items <;> exact ⟨_, _, rfl, by decide⟩
  | obj members => cases members <;> exact ⟨_, _, rfl, by decide⟩

theorem skipSpace_cons {c : Char} (h : isSpace c = false) (cs : List Char) :
    skipSpace (c :: cs) = c :: cs :=
  List.dropWhile_cons_of_neg (by rw [h]; exact Bool.false_ne_true)

/-- What starts with a digit or a minus sign is a number. -/
theorem takeValue_number {d : Demand} {fuel depth : Nat} {c : Char} {cs : List Char}
    (h : c.isDigit = true ∨ c = '-') :
    takeValue d (fuel + 1) depth (c :: cs) = takeNumber (c :: cs) := by
  rw [takeValue, skipSpace_cons (starts_number h).1]
  split
  case h_7 => rfl
  all_goals
    rename_i heq
    cases List.head_eq_of_cons_eq heq
    exact absurd h (by decide)

theorem takeValue_array {d : Demand} {fuel depth : Nat} {c : Char} {cs : List Char}
    (hdepth : 0 < depth) (hspace : isSpace c = false) (hend : c ≠ ']') :
    takeValue d (fuel + 1) depth ('[' :: c :: cs) =
      (takeItems d.items fuel (depth - 1) (c :: cs)).map fun (items, after) => (.arr items, after) := by
  rw [takeValue, skipSpace_cons (by decide)]
  simp only [skipSpace_cons hspace, if_neg (Nat.ne_of_gt hdepth)]
  split
  · rename_i heq
    exact absurd (List.head_eq_of_cons_eq heq) hend
  · rfl

theorem takeValue_object {d : Demand} {fuel depth : Nat} {cs : List Char} (hdepth : 0 < depth) :
    takeValue d (fuel + 1) depth ('{' :: '"' :: cs) =
      (takeMembers d fuel (depth - 1) ('"' :: cs)).map fun (members, after) =>
        (.obj members, after) := by
  rw [takeValue, skipSpace_cons (by decide)]
  simp only [skipSpace_cons (show isSpace '"' = false by decide), if_neg (Nat.ne_of_gt hdepth)]
  rfl

/-- Values are read back with so much fuel, which their length bounds. -/
def ValuesBack (fuel : Nat) : Prop :=
  ∀ (rest : List Char) {d : Demand} {depth : Nat} {j : Json}, Reads d depth j → Stops rest →
    j.chars.length ≤ fuel → takeValue d fuel depth (j.chars ++ rest) = some (j, rest)

/-- So are the items of an array, at least one. -/
def ItemsBack (fuel : Nat) : Prop :=
  ∀ (rest : List Char) {ds : List Demand} {depth : Nat} {j : Json} {items : List Json},
    ReadsItems ds depth (j :: items) → j.chars.length + (itemsChars items).length ≤ fuel →
    takeItems ds fuel depth (j.chars ++ (itemsChars items ++ rest)) = some (j :: items, rest)

/-- So are the members of an object, at least one. -/
def MembersBack (fuel : Nat) : Prop :=
  ∀ (rest : List Char) {d : Demand} {depth : Nat} {name : String} {j : Json}
    {members : List (String × Json)}, ReadsMembers d depth ((name, j) :: members) →
    j.chars.length + (membersChars members).length ≤ fuel →
    takeMembers d fuel depth (quoteChars name.toList ++ ':' :: (j.chars ++ (membersChars members ++ rest))) =
      some ((name, j) :: members, rest)

/-- An object is read back whatever follows it, since it says itself where it ends. -/
theorem objectBack_succ {fuel : Nat} (hmembers : MembersBack fuel) (rest : List Char) {d : Demand}
    {depth : Nat} {members : List (String × Json)} (hj : Reads d depth (.obj members))
    (hfuel : (obj members).chars.length ≤ fuel + 1) :
    takeValue d (fuel + 1) depth ((obj members).chars ++ rest) = some (.obj members, rest) := by
  cases members with
  | nil =>
    rw [chars, List.cons_append, takeValue, skipSpace_cons (by decide)]
    simp only [List.cons_append, skipSpace_cons (show isSpace '}' = false by decide),
      if_neg (Nat.ne_of_gt hj.1), List.nil_append]
  | cons m members =>
    obtain ⟨name, j⟩ := m
    have hback := hmembers rest hj.2 (by simp [chars] at hfuel; omega)
    have hchars : (obj ((name, j) :: members)).chars ++ rest = '{' ::
        (quoteChars name.toList ++ ':' :: (j.chars ++ (membersChars members ++ rest))) := by
      simp [chars]
    rw [quoteChars, List.cons_append, List.cons_append] at hback
    rw [hchars, quoteChars, List.cons_append, List.cons_append, takeValue_object hj.1, hback]
    rfl

theorem valuesBack_succ {fuel : Nat} (hitems : ItemsBack fuel) (hmembers : MembersBack fuel) :
    ValuesBack (fuel + 1) := by
  intro rest d depth j hj hrest hfuel
  cases j with
  | null => rfl
  | bool b => cases b <;> rfl
  | int n =>
    obtain ⟨c, cs, hcons, hc⟩ := intDigits_cons n
    rw [← takeNumber_intDigits hj hrest, chars, hcons]
    exact takeValue_number hc
  | real x => exact hj.elim
  | str s =>
    rw [chars, quoteChars_append, takeValue, skipSpace_cons (by decide)]
    simp only [takeString_escaped, Option.map_some, String.ofList_toList]
  | arr items =>
    cases items with
    | nil =>
      rw [chars, List.cons_append, takeValue, skipSpace_cons (by decide)]
      simp only [List.cons_append, skipSpace_cons (show isSpace ']' = false by decide),
        if_neg (Nat.ne_of_gt hj.1), List.nil_append]
    | cons j items =>
      have hback := hitems rest hj.2 (by simp [chars] at hfuel; omega)
      obtain ⟨c, cs, hcons, hspace, hend, -⟩ := chars_cons hj.2.1
      have hchars : (arr (j :: items)).chars ++ rest =
          '[' :: (j.chars ++ (itemsChars items ++ rest)) := by simp [chars]
      rw [hcons] at hback
      rw [hchars, hcons, List.cons_append, takeValue_array hj.1 hspace hend, ← List.cons_append, hback]
      rfl
  | obj members => exact objectBack_succ hmembers rest hj hfuel

/-- The items that follow begin with a comma, or the array ends. -/
theorem itemsBack_succ {fuel : Nat} (hvalues : ValuesBack fuel) (hitems : ItemsBack fuel) :
    ItemsBack (fuel + 1) := by
  intro rest ds depth j items hj hfuel
  cases items with
  | nil =>
    have hvalue := hvalues (']' :: rest) hj.1 (.cons (.inr (.inl rfl)))
      (by simp [itemsChars] at hfuel; omega)
    rw [itemsChars, List.cons_append, List.nil_append, takeItems, hvalue]
    simp only [skipSpace_cons (show isSpace ']' = false by decide)]
  | cons k items =>
    have hvalue := hvalues (',' :: (k.chars ++ (itemsChars items ++ rest))) hj.1
      (.cons (.inl rfl)) (by simp [itemsChars] at hfuel; omega)
    have hback := hitems rest hj.2 (by simp [itemsChars] at hfuel; omega)
    have hchars : itemsChars (k :: items) ++ rest = ',' :: (k.chars ++ (itemsChars items ++ rest)) := by
      simp [itemsChars]
    rw [hchars, takeItems, hvalue]
    simp only [skipSpace_cons (show isSpace ',' = false by decide), hback, Option.map_some]

/-- Something is wanted of a member that is read back. -/
theorem ReadsMembers.wanted {d : Demand} {depth : Nat} {name : String} {j : Json}
    {members : List (String × Json)} (h : ReadsMembers d depth ((name, j) :: members)) :
    ∃ d', d.member? name = some d' ∧ Reads d' depth j := by
  have hwanted := h.1
  cases hmember : d.member? name with
  | none =>
    rw [hmember] at hwanted
    exact hwanted.elim
  | some d' =>
    rw [hmember] at hwanted
    exact ⟨d', rfl, hwanted⟩

/-- The members that follow begin with a comma, or the object ends. -/
theorem membersBack_succ {fuel : Nat} (hvalues : ValuesBack fuel) (hmembers : MembersBack fuel) :
    MembersBack (fuel + 1) := by
  intro rest d depth name j members hj hfuel
  obtain ⟨d', hmember, hvalue⟩ := hj.wanted
  have hcolon : ∀ cs, skipSpace (':' :: cs) = ':' :: cs := skipSpace_cons (by decide)
  cases members with
  | nil =>
    have hback := hvalues ('}' :: rest) hvalue (.cons (.inr (.inr rfl)))
      (by simp [membersChars] at hfuel; omega)
    have hend : skipSpace ('}' :: rest) = '}' :: rest := skipSpace_cons (by decide) rest
    rw [membersChars, List.cons_append, List.nil_append, quoteChars_append, takeMembers,
      skipSpace_cons (by decide)]
    simp only [takeString_escaped, hcolon, String.ofList_toList, hmember, hback, Option.map_some, hend]
  | cons m members =>
    obtain ⟨next, k⟩ := m
    have hchars : membersChars ((next, k) :: members) ++ rest = ',' ::
        (quoteChars next.toList ++ ':' :: (k.chars ++ (membersChars members ++ rest))) := by
      simp [membersChars]
    have hback := hvalues (',' :: (quoteChars next.toList ++ ':' ::
      (k.chars ++ (membersChars members ++ rest)))) hvalue (.cons (.inl rfl))
      (by simp [membersChars] at hfuel; omega)
    have hrest := hmembers rest hj.2 (by simp [membersChars] at hfuel; omega)
    have hcomma : ∀ cs, skipSpace (',' :: cs) = ',' :: cs := skipSpace_cons (by decide)
    rw [hchars, quoteChars_append, takeMembers, skipSpace_cons (by decide)]
    simp only [takeString_escaped, hcolon, String.ofList_toList, hmember, hback, Option.map_some,
      hcomma, hrest, List.cons_append, List.nil_append]

/-- Without fuel there is nothing to read, since no value is empty. -/
theorem back_zero : ValuesBack 0 ∧ ItemsBack 0 ∧ MembersBack 0 := by
  have hne : ∀ {d : Demand} {depth : Nat} {j : Json}, Reads d depth j → ¬ j.chars.length ≤ 0 := by
    intro d depth j hj
    obtain ⟨c, cs, hcons, -⟩ := chars_cons hj
    simp [hcons]
  refine ⟨fun rest d depth j hj _ hfuel => absurd hfuel (hne hj), ?_, ?_⟩
  · intro rest ds depth j items hj hfuel
    exact absurd (Nat.le_trans (Nat.le_add_right _ _) hfuel) (hne hj.1)
  · intro rest d depth name j members hj hfuel
    have hlength : 0 < (membersChars members).length := by
      cases members <;> simp [membersChars]
    omega

/-- **Values, items and members are read back.** -/
theorem back (fuel : Nat) : ValuesBack fuel ∧ ItemsBack fuel ∧ MembersBack fuel := by
  induction fuel with
  | zero => exact back_zero
  | succ fuel ih =>
    obtain ⟨hvalues, hitems, hmembers⟩ := ih
    exact ⟨valuesBack_succ hitems hmembers, itemsBack_succ hvalues hitems,
      membersBack_succ hvalues hmembers⟩

/-- **A written value is read back**, if all of it is wanted. -/
theorem readWanted?_render {d : Demand} {j : Json} (h : Reads d maxDepth j) :
    readWanted? d j.render = some j := by
  have hvalue := (back (2 * j.chars.length + 1)).1 [] h stops_nil (by omega)
  rw [List.append_nil] at hvalue
  unfold readWanted? render
  simp only [String.toList_ofList, hvalue]
  rfl

/-- **A written object is read back** with blanks behind it, too. -/
theorem read?_object {members : List (String × Json)} {blanks : String}
    (h : Reads .whole maxDepth (.obj members)) (hblank : blanks.toList.all isSpace = true) :
    read? ((obj members).render ++ blanks) = some (.obj members) := by
  have hvalue := objectBack_succ
    (back (2 * ((obj members).chars.length + blanks.toList.length))).2.2 blanks.toList h (by omega)
  have hrest : skipSpace blanks.toList = [] :=
    List.dropWhile_eq_nil_iff.mpr (List.all_eq_true.mp hblank)
  unfold read? readWanted? render
  simp only [String.toList_append, String.toList_ofList, List.length_append, hvalue, hrest, if_true]

end RowHistory.Json
