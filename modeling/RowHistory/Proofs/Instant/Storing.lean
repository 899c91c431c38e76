import RowHistory.Proofs.Field.RoundTrip
import RowHistory.Proofs.Text.Bytes

/-!
# Storing instants

What an instant is stored as, and what comes back. The text has no digits below a microsecond, and
blanks around it do not matter. This file fixes

* that only the part of an instant up to microseconds is stored (`storageText_truncate`);
* that in the years 0 to 9999 the bytes of the texts, 26 of them, are ordered as the instants are
  (`storageText_chronological`);
* that blanks around a text are trimmed (`Text.trim_surrounded`), so that a stored text is read back
  wherever it stands among them (`stored_instant_read_back`).
-/

namespace RowHistory

open Text Sql

/-! ## 1. Blanks around a text -/

namespace Text

theorem trimStart_append {before : List Char} (h : before.all isBlank = true) (cs : List Char) :
    trimStart (before ++ cs) = trimStart cs :=
  List.dropWhile_append_of_pos (List.all_eq_true.mp h)

theorem trimEnd_append (cs : List Char) {after : List Char} (h : after.all isBlank = true) :
    trimEnd (cs ++ after) = trimEnd cs := by
  unfold trimEnd
  rw [List.reverse_append, List.dropWhile_append_of_pos]
  intro c hc
  exact List.all_eq_true.mp h c (List.mem_reverse.mp hc)

/-- **Blanks on either side of a text are trimmed.** -/
theorem trim_surrounded {before after : List Char} (hbefore : before.all isBlank = true)
    (hafter : after.all isBlank = true) (cs : List Char) : trim (before ++ cs ++ after) = trim cs := by
  unfold trim
  rw [List.append_assoc, trimStart_append hbefore]
  unfold trimStart
  rw [List.dropWhile_append]
  split
  · rename_i hempty
    -- Nothing but blanks: nothing is left of either.
    rw [List.isEmpty_iff.mp hempty, List.dropWhile_eq_nil_iff.mpr (List.all_eq_true.mp hafter)]
  · exact trimEnd_append _ hafter

end Text

namespace Instant

variable {a b t : Instant}

/-! ## 2. The order of stored texts -/

/-- Digits below a microsecond are not stored. -/
theorem storageText_truncate (t : Instant) : t.truncate.storageText = t.storageText := by
  have hdisplay : t.truncate.displaySecond = t.displaySecond := by
    show t.secondOfDay % 60 + (t.nanos - t.nanos % 1000) / 1000000000 =
      t.secondOfDay % 60 + t.nanos / 1000000000
    omega
  have hsubsecond : t.truncate.subsecond / 1000 = t.subsecond / 1000 := by
    show (t.nanos - t.nanos % 1000) % 1000000000 / 1000 = t.nanos % 1000000000 / 1000
    omega
  unfold storageText storageChars timeChars
  rw [hdisplay, hsubsecond]
  rfl

theorem InYears.isStorable_truncate (h : t.InYears) : t.truncate.IsStorable :=
  ⟨t.isWhole_truncate, h⟩

/-- The parts of a stored text have fixed widths. -/
theorem InYears.length_storageText (h : t.InYears) : t.storageText.length = 26 := by
  have hstorable := h.isStorable_truncate
  obtain ⟨hmonth, hday⟩ := t.truncate.date_bounds
  obtain ⟨hhour, hminute, hsecond, hmicro⟩ := t.truncate.time_bounds
  rw [← storageText_truncate, storageText, String.length_ofList, hstorable.storageChars_eq]
  simp only [List.length_append, List.length_cons, length_padded (by decide) hstorable.year_lt,
    length_padded (w := 2) (by decide) hmonth, length_padded (w := 2) (by decide) hday,
    length_padded (w := 2) (by decide) hhour, length_padded (w := 2) (by decide) hminute,
    length_padded (w := 2) (by decide) hsecond, length_padded (by decide) hmicro]

/-- **The bytes of stored texts are ordered as time is.** Each text has 26 characters; one comes before
another, byte by byte, just if its instant does up to microseconds, and they are the same just if the
instants are up to microseconds. -/
theorem storageText_chronological (ha : a.InYears) (hb : b.InYears) :
    a.storageText.length = 26 ∧ b.storageText.length = 26 ∧
    (bytes a.storageText < bytes b.storageText ↔ a.truncate < b.truncate) ∧
    (a.storageText = b.storageText ↔ a.truncate = b.truncate) := by
  have horder := compare_storageText ha.isStorable_truncate hb.isStorable_truncate
  rw [storageText_truncate, storageText_truncate] at horder
  refine ⟨ha.length_storageText, hb.length_storageText, ?_, ?_⟩
  · rw [bytes_lt_iff, ← compare_lt_iff_lt, horder, compare_lt_iff_lt]
  · rw [← compare_eq_iff_eq, horder, compare_eq_iff_eq]

/-- The end of a leap second, written as the second 60, and the start of the next day. -/
theorem leap_second_before_midnight :
    let leap : Instant := ⟨1483228799, 1999999999, by decide, fun _ => by decide⟩
    leap.InYears ∧ leap.storageText = "2016-12-31 23:59:60.999999" ∧
    bytes leap.storageText < bytes (ofSeconds 1483228800).storageText := by
  have hleap : (⟨1483228799, 1999999999, by decide, fun _ => by decide⟩ : Instant).InYears := by decide
  have hnext : (ofSeconds 1483228800).InYears := by decide
  exact ⟨hleap, by decide, (storageText_chronological hleap hnext).2.2.1.mpr (by decide)⟩

/-! ## 3. Reading back -/

/-- Blanks around a text do not matter to the instant that is read from it. -/
theorem parse?_surrounded {before after : String} (hbefore : allBlank before = true)
    (hafter : allBlank after = true) (s : String) : parse? (before ++ s ++ after) = parse? s := by
  unfold parse?
  rw [String.toList_append, String.toList_append, trim_surrounded hbefore hafter]

/-- What an instant comes back as after it was stored. -/
def reread? (t : Instant) : Option Instant :=
  parse? t.storageText

/-- **An instant that was stored is read back** up to microseconds, whatever its year and with any blanks
around its text. To store what came back changes nothing, and it is equal to the instant as a field of
that type, as an instant or as the text. -/
theorem stored_instant_read_back (h : t.InRange) :
    (∀ before after : String, allBlank before = true → allBlank after = true →
      parse? (before ++ t.storageText ++ after) = some t.truncate) ∧
    t.reread?.bind reread? = t.reread? ∧
    ∀ name before after : String, allBlank before = true → allBlank after = true →
      ∀ back ∈ [Value.timestamp t.truncate, Value.text (before ++ t.storageText ++ after)],
        FieldType.timestamp.equal name (.timestamp t) back = .ok true ∧
          FieldType.timestamp.equal name back (.timestamp t) = .ok true := by
  have hback : ∀ before after : String, allBlank before = true → allBlank after = true →
      parse? (before ++ t.storageText ++ after) = some t.truncate := by
    intro before after hbefore hafter
    rw [parse?_surrounded hbefore hafter, parse?_storageText h]
  have hwhole : t.truncate.truncate = t.truncate := t.isWhole_truncate.truncate_eq
  refine ⟨hback, ?_, fun name before after hbefore hafter back hmem => ?_⟩
  · unfold reread?
    rw [parse?_storageText h, Option.bind_some, storageText_truncate, parse?_storageText h]
  · have hinstant : back.asInstant? = some t.truncate := by
      obtain rfl | hmem := List.mem_cons.mp hmem
      · rfl
      · rw [List.mem_singleton.mp hmem]
        exact hback before after hbefore hafter
    exact ⟨FieldType.equal_of_asInstant? rfl hinstant hwhole.symm,
      FieldType.equal_of_asInstant? hinstant rfl hwhole⟩

/-- The leap second of the first day of the years that are kept, with blanks of several kinds around
its text. -/
theorem early_leap_second_read_back :
    let early : Instant := ⟨-8334601142401, 1000000999, by decide, fun _ => by decide⟩
    early.InRange ∧ allBlank "\t\u00a0" = true ∧ allBlank "\u2003\n" = true ∧
    parse? ("\t\u00a0" ++ early.storageText ++ "\u2003\n") = some early.truncate := by
  have hearly : (⟨-8334601142401, 1000000999, by decide, fun _ => by decide⟩ : Instant).InRange := by decide
  exact ⟨hearly, by decide, by decide,
    (stored_instant_read_back hearly).1 "\t\u00a0" "\u2003\n" (by decide) (by decide)⟩

end Instant

end RowHistory
