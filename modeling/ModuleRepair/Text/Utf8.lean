import ModuleRepair.Text.Lines

/-!
# Text in bytes

Reading bytes as UTF-8, strictly or with the replacement character in the place of each ill-formed
part, and counting text in bytes. An ill-formed part is as long as it can be while it is still the
beginning of some character.
-/
namespace ModuleRepair.Text

/-- What makes a part of a byte sequence ill-formed. -/
inductive Utf8Fault where
  | start
  | continuation
  | cutOff
  deriving DecidableEq, Repr

/-- The fault in words. -/
def Utf8Fault.reason : Utf8Fault → String
  | .start => "invalid start byte"
  | .continuation => "invalid continuation byte"
  | .cutOff => "unexpected end of data"

/-- The first ill-formed part of a byte sequence. -/
structure Utf8Error where
  position : Nat
  length : Nat
  byte : UInt8
  fault : Utf8Fault
  deriving DecidableEq, Repr

/-- The report of an ill-formed part: its first byte, or its first and last position. -/
def Utf8Error.message (e : Utf8Error) : String :=
  let place :=
    if e.length ≤ 1 then
      let digits := Nat.toDigits 16 e.byte.toNat
      "byte 0x" ++ String.ofList (List.replicate (2 - digits.length) '0' ++ digits)
        ++ " in position " ++ toString e.position
    else
      "bytes in position " ++ toString e.position ++ "-" ++ toString (e.position + e.length - 1)
  "'utf-8' codec can't decode " ++ place ++ ": " ++ e.fault.reason

/-- The number of continuation bytes behind a start byte, and the range of the first of them. -/
def continuations (b : UInt8) : Option (Nat × UInt8 × UInt8) :=
  if 0xC2 ≤ b && b ≤ 0xDF then some (1, 0x80, 0xBF)
  else if b == 0xE0 then some (2, 0xA0, 0xBF)
  else if b == 0xED then some (2, 0x80, 0x9F)
  else if 0xE1 ≤ b && b ≤ 0xEF then some (2, 0x80, 0xBF)
  else if b == 0xF0 then some (3, 0x90, 0xBF)
  else if b == 0xF4 then some (3, 0x80, 0x8F)
  else if 0xF1 ≤ b && b ≤ 0xF3 then some (3, 0x80, 0xBF)
  else none

/-- Reads the continuation bytes of one character: its code point and the number of bytes read, or
the fault and the number of bytes that were still well-formed. -/
def readContinuations : Nat → UInt8 → UInt8 → Nat → Nat → List UInt8 →
    Except (Utf8Fault × Nat) (Nat × Nat)
  | 0, _, _, value, seen, _ => .ok (value, seen)
  | _ + 1, _, _, _, seen, [] => .error (.cutOff, seen)
  | n + 1, low, high, value, seen, b :: rest =>
    if low ≤ b && b ≤ high then
      readContinuations n 0x80 0xBF (value * 64 + (b.toNat - 0x80)) (seen + 1) rest
    else .error (.continuation, seen)

/-- Reads one character or one ill-formed part, with its length in bytes. -/
def readChar (b : UInt8) (rest : List UInt8) : Except (Utf8Fault × Nat) (Char × Nat) :=
  if b < 0x80 then .ok (Char.ofNat b.toNat, 1)
  else match continuations b with
    | none => .error (.start, 1)
    | some (n, low, high) =>
      let lead := b.toNat % Nat.pow 2 (6 - n)
      (readContinuations n low high lead 1 rest).map fun (value, length) =>
        (Char.ofNat value, length)

/-- Reads bytes with U+FFFD in the place of each ill-formed part. The second argument is the number
of bytes that the part before has already answered for. -/
def decodeLossyBytes : List UInt8 → Nat → List Char → List Char
  | [], _, done => done.reverse
  | _ :: rest, skip + 1, done => decodeLossyBytes rest skip done
  | b :: rest, 0, done =>
    match readChar b rest with
    | .ok (c, length) => decodeLossyBytes rest (length - 1) (c :: done)
    | .error (_, length) => decodeLossyBytes rest (length - 1) (Char.ofNat 0xFFFD :: done)

/-- The first ill-formed part of a byte sequence that starts at the given position. -/
def firstFault : List UInt8 → Nat → Nat → Option Utf8Error
  | [], _, _ => none
  | _ :: rest, position, skip + 1 => firstFault rest (position + 1) skip
  | b :: rest, position, 0 =>
    match readChar b rest with
    | .ok (_, length) => firstFault rest (position + 1) (length - 1)
    | .error (fault, length) => some ⟨position, length, b, fault⟩

/-- Strict reading. -/
def decode (bytes : ByteArray) : Except Utf8Error String :=
  match String.fromUTF8? bytes with
  | some s => .ok s
  | none => .error ((firstFault bytes.toList 0 0).getD ⟨0, 1, 0, .start⟩)

/-- Reading that always succeeds. -/
def decodeLossy (bytes : ByteArray) : String :=
  match String.fromUTF8? bytes with
  | some s => s
  | none => String.ofList (decodeLossyBytes bytes.toList 0 [])

def byteOrderMark : Char := Char.ofNat 0xFEFF

def lineFeed : UInt8 := 0x0A

/-- The bytes of a text. -/
def bytesOf (s : List Char) : List UInt8 :=
  s.flatMap String.utf8EncodeChar

def byteSize (s : List Char) : Nat :=
  s.foldl (fun n c => n + c.utf8Size) 0

theorem foldl_utf8Size (s : List Char) (n : Nat) :
    s.foldl (fun n c => n + c.utf8Size) n = n + byteSize s := by
  induction s generalizing n with
  | nil => rfl
  | cons c s ih => simp only [byteSize, List.foldl_cons]; rw [ih, ih]; omega

@[simp] theorem byteSize_nil : byteSize [] = 0 := rfl

@[simp] theorem byteSize_cons (c : Char) (s : List Char) :
    byteSize (c :: s) = c.utf8Size + byteSize s := by
  simp only [byteSize, List.foldl_cons]; rw [foldl_utf8Size, foldl_utf8Size]; omega

@[simp] theorem byteSize_append (s t : List Char) :
    byteSize (s ++ t) = byteSize s + byteSize t := by
  induction s with
  | nil => simp
  | cons c s ih => simp [ih, Nat.add_assoc]

/-- The characters of a text that start within its first `n` bytes. -/
def takeBytes (n : Nat) (s : List Char) : List Char :=
  go n s []
where
  /-- Collects the characters, reversed. -/
  go : Nat → List Char → List Char → List Char
    | _, [], done => done.reverse
    | n, c :: rest, done => if n = 0 then done.reverse else go (n - c.utf8Size) rest (c :: done)

/-- What is left of a text behind its first `n` bytes. -/
def dropBytes : Nat → List Char → List Char
  | _, [] => []
  | n, c :: rest => if n = 0 then c :: rest else dropBytes (n - c.utf8Size) rest

theorem takeBytes_go (s t done : List Char) :
    takeBytes.go (byteSize s) (s ++ t) done = done.reverse ++ s := by
  induction s generalizing done with
  | nil => cases t <;> simp [takeBytes.go]
  | cons c s ih =>
    have h : c.utf8Size ≠ 0 := Nat.ne_of_gt c.utf8Size_pos
    simp [takeBytes.go, h, ih]

@[simp] theorem takeBytes_byteSize (s t : List Char) : takeBytes (byteSize s) (s ++ t) = s := by
  simp [takeBytes, takeBytes_go]

@[simp] theorem dropBytes_byteSize (s t : List Char) : dropBytes (byteSize s) (s ++ t) = t := by
  induction s with
  | nil => cases t <;> simp [dropBytes]
  | cons c s ih =>
    have h : c.utf8Size ≠ 0 := Nat.ne_of_gt c.utf8Size_pos
    simp [dropBytes, h, ih]

end ModuleRepair.Text
