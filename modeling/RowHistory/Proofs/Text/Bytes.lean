import Mathlib.Data.String.Basic
import Mathlib.Tactic.SplitIfs

/-!
# Bytes of texts

A text is kept as the bytes of its characters in UTF-8. This file fixes

* the characters of a text, read off its bytes as long as every character is one byte
  (`toList_eq`);
* that texts are ordered as their bytes are (`bytes_lt_iff`): a character that needs more bytes has a
  greater first byte, and characters of as many bytes are compared digit by digit in base 64.
-/

namespace RowHistory.Text

/-! ## 1. Characters -/

/-- A byte that is a character by itself. -/
def isPlainByte (b : UInt8) : Bool :=
  b.toNat < 128

/-- The characters of a text; each is a byte, if all bytes allow it. -/
def readOff (s : String) : List Char :=
  if s.toByteArray.data.toList.all isPlainByte then
    s.toByteArray.data.toList.map fun b => Char.ofNat b.toNat
  else s.toList

/-- A character whose bytes are characters by themselves is one byte. -/
theorem utf8EncodeChar_plain {c : Char} (h : (String.utf8EncodeChar c).all isPlainByte = true) :
    (String.utf8EncodeChar c).map (fun b => Char.ofNat b.toNat) = [c] := by
  unfold String.utf8EncodeChar at h ⊢
  dsimp only at h ⊢
  split
  · next hone =>
    have hbyte : (UInt8.ofNat c.val.toNat).toNat = c.toNat := by
      rw [UInt8.toNat_ofNat', Nat.mod_eq_of_lt (by omega)]
      rfl
    rw [List.map_singleton, hbyte, Char.ofNat_toNat]
  · next hmore =>
    -- The first of several bytes marks their number, so it is no character.
    rw [if_neg hmore] at h
    exfalso
    split at h
    · simp only [List.all_cons, isPlainByte, Bool.and_eq_true, decide_eq_true_eq,
        UInt8.toNat_ofNat'] at h
      omega
    · split at h <;>
      · simp only [List.all_cons, isPlainByte, Bool.and_eq_true, decide_eq_true_eq,
          UInt8.toNat_ofNat'] at h
        omega

theorem toList_data (s : String) :
    s.toByteArray.data.toList = s.toList.flatMap String.utf8EncodeChar := by
  rw [← String.utf8Encode_toList, List.utf8Encode, List.data_toByteArray]

/-- **The characters of a text can be read off its bytes.** -/
theorem toList_eq (s : String) : s.toList = readOff s := by
  unfold readOff
  split
  · next hplain =>
    rw [toList_data] at hplain ⊢
    generalize s.toList = cs at hplain
    induction cs with
    | nil => rfl
    | cons c cs ih =>
      rw [List.flatMap_cons, List.all_append, Bool.and_eq_true] at hplain
      rw [List.flatMap_cons, List.map_append, utf8EncodeChar_plain hplain.1, ← ih hplain.2,
        List.singleton_append]
  · rfl

/-! ## 2. The order -/

/-- The bytes of a text. -/
def bytes (s : String) : List UInt8 :=
  s.toByteArray.data.toList

theorem bytes_inj {s t : String} : bytes s = bytes t ↔ s = t :=
  ⟨fun h => String.toByteArray_inj.mp (ByteArray.ext (Array.toList_inj.mp h)), congrArg bytes⟩

/-- **A lesser character has lesser bytes**, whatever follows them. -/
theorem utf8EncodeChar_append_lt {c d : Char} (h : c < d) (xs ys : List UInt8) :
    String.utf8EncodeChar c ++ xs < String.utf8EncodeChar d ++ ys := by
  have hlt : c.val.toNat < d.val.toNat := h
  have hmax : d.val.toNat < 0x110000 := by
    have hvalid : d.val.toNat.isValidChar := d.valid
    unfold Nat.isValidChar at hvalid
    omega
  unfold String.utf8EncodeChar
  dsimp only
  generalize c.val.toNat = v at hlt
  generalize d.val.toNat = w at hlt hmax
  -- From the last digit to the first: numbers differ in it, or else in those before it.
  have hlast : v / 64 < w / 64 ∨ (v / 64 = w / 64 ∧ v % 64 < w % 64) := by omega
  have hthird : v / 64 < w / 64 → v / 4096 < w / 4096 ∨
      (v / 4096 = w / 4096 ∧ v / 64 % 64 < w / 64 % 64) := by omega
  have hsecond : v / 4096 < w / 4096 → v / 262144 < w / 262144 ∨
      (v / 262144 = w / 262144 ∧ v / 4096 % 64 < w / 4096 % 64) := by omega
  split_ifs <;>
    simp (disch := omega) only [List.cons_append, List.nil_append, List.cons_lt_cons_iff,
      UInt8.lt_iff_toNat_lt, ← UInt8.toNat_inj, UInt8.toNat_ofNat', Nat.mod_eq_of_lt] <;>
    omega

theorem flatMap_utf8EncodeChar_lt {cs ds : List Char} (h : cs < ds) :
    cs.flatMap String.utf8EncodeChar < ds.flatMap String.utf8EncodeChar := by
  have hlex : List.Lex (· < ·) cs ds := h
  induction hlex with
  | @nil d ds =>
    have hne : (d :: ds).flatMap String.utf8EncodeChar ≠ [] := by
      simp [List.flatMap_cons, String.utf8EncodeChar_ne_nil]
    obtain ⟨b, bs, hcons⟩ := List.exists_cons_of_ne_nil hne
    rw [hcons]
    exact List.Lex.nil
  | rel hlt => exact utf8EncodeChar_append_lt hlt _ _
  | cons hlex ih => exact List.append_left_lt (ih hlex)

/-- **Texts are ordered as their bytes are.** -/
theorem bytes_lt_iff {s t : String} : bytes s < bytes t ↔ s < t := by
  have hlt : ∀ {s t : String}, s < t → bytes s < bytes t := by
    intro s t h
    rw [bytes, bytes, toList_data, toList_data]
    exact flatMap_utf8EncodeChar_lt (String.lt_iff_toList_lt.mp h)
  refine ⟨fun h => ?_, hlt⟩
  rcases lt_trichotomy s t with hst | rfl | hts
  · exact hst
  · exact absurd h (List.lt_irrefl _)
  · exact absurd h (List.lt_asymm (hlt hts))

end RowHistory.Text
