/-!
# Bytes as text

Text in UTF-8. A sequence that is no character counts as broken up to the byte that breaks it, so
that what follows is read afresh. This file fixes

* what the first bytes are (`Utf8.next`): a character, or a broken sequence;
* the text of well-formed bytes (`Utf8.decode?`);
* the text of any bytes, with the replacement character for each broken sequence
  (`Utf8.decodeLossy`).
-/

namespace RowHistory.Utf8

/-- A byte that goes on a sequence. -/
def isContinuation (b : UInt8) : Bool :=
  0x80 ≤ b && b ≤ 0xBF

/-- The second bytes that a first byte allows: they exclude overlong forms, surrogates and what
lies beyond the last character. -/
def secondRange (b : UInt8) : UInt8 × UInt8 :=
  if b = 0xE0 then (0xA0, 0xBF)
  else if b = 0xED then (0x80, 0x9F)
  else if b = 0xF0 then (0x90, 0xBF)
  else if b = 0xF4 then (0x80, 0x8F)
  else (0x80, 0xBF)

/-- How many bytes follow a first byte; none for a byte that starts nothing. -/
def followers? (b : UInt8) : Option Nat :=
  if b < 0x80 then some 0
  else if 0xC2 ≤ b && b ≤ 0xDF then some 1
  else if 0xE0 ≤ b && b ≤ 0xEF then some 2
  else if 0xF0 ≤ b && b ≤ 0xF4 then some 3
  else none

/-- The bits of a first byte that belong to the character. -/
def leadBits (b : UInt8) (followers : Nat) : Nat :=
  match followers with
  | 0 => b.toNat
  | 1 => b.toNat % 0x20
  | 2 => b.toNat % 0x10
  | _ => b.toNat % 0x08

/-- Reads a number of continuation bytes onto a value; the rest is what follows them, or what
starts at the byte that breaks the sequence. -/
def takeContinuations : Nat → Nat → List UInt8 → Option Nat × List UInt8
  | 0, value, bytes => (some value, bytes)
  | n + 1, value, b :: bytes =>
    if isContinuation b then takeContinuations n (value * 64 + b.toNat % 64) bytes
    else (none, b :: bytes)
  | _ + 1, _, [] => (none, [])

/-- Reads what follows a first byte. -/
def next (b : UInt8) (bytes : List UInt8) : Option Char × List UInt8 :=
  match followers? b with
  | none => (none, bytes)
  | some 0 => (some (Char.ofNat b.toNat), bytes)
  | some (n + 1) => match bytes with
    | [] => (none, [])
    | second :: rest =>
      let (low, high) := secondRange b
      if low ≤ second && second ≤ high then
        let (value, rest) :=
          takeContinuations n (leadBits b (n + 1) * 64 + second.toNat % 64) rest
        (value.map Char.ofNat, rest)
      else (none, second :: rest)

theorem length_takeContinuations (n value : Nat) (bytes : List UInt8) :
    (takeContinuations n value bytes).2.length ≤ bytes.length := by
  fun_induction takeContinuations n value bytes with
  | case1 => simp
  | case2 n value b bytes _ ih => exact Nat.le_succ_of_le ih
  | case3 => simp
  | case4 => simp

/-- What is left is never longer. -/
theorem length_next (b : UInt8) (bytes : List UInt8) :
    (next b bytes).2.length ≤ bytes.length := by
  unfold next
  split
  · simp
  · simp
  · split
    · simp
    · dsimp only
      split
      · exact Nat.le_succ_of_le (length_takeContinuations _ _ _)
      · simp

/-- The characters and broken sequences of bytes, in order. -/
def units : List UInt8 → List (Option Char)
  | [] => []
  | b :: bytes => (next b bytes).1 :: units (next b bytes).2
termination_by bytes => bytes.length
decreasing_by
  have h := length_next b bytes
  simp only [List.length_cons]
  omega

/-- The text of well-formed bytes. -/
def decode? (bytes : List UInt8) : Option String :=
  ((units bytes).mapM id).map String.ofList

/-- The text of any bytes. -/
def decodeLossy (bytes : List UInt8) : String :=
  String.ofList ((units bytes).map fun u => u.getD (Char.ofNat 0xFFFD))

end RowHistory.Utf8
