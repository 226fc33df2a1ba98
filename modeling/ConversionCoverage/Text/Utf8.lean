import ConversionCoverage.Text

/-!
# UTF-8

Encoding fails at the first run of surrogate halves. Decoding fails at the first byte sequence
that is no shortest form of a character; the fault covers the bytes that belonged to a character
so far. A stream is decoded piece by piece, the bytes of an unfinished character being carried
into the next piece.
-/

namespace ConversionCoverage.Utf8

/-- A run of surrogate halves, from position `start` up to but not including `stop`. -/
structure EncodingFault where
  first : Fin 2048
  start : Nat
  stop : Nat
  deriving DecidableEq, Repr

def isHalf : CodePoint → Bool
  | .char _ => false
  | .half _ => true

/-- The bytes of a text that starts at position `position`. -/
def encodeFrom (position : Nat) : Text → Except EncodingFault (List UInt8)
  | [] => .ok []
  | .char c :: rest => do return String.utf8EncodeChar c ++ (← encodeFrom (position + 1) rest)
  | .half h :: rest =>
    .error ⟨h, position, position + 1 + (rest.takeWhile isHalf).length⟩

def encode (t : Text) : Except EncodingFault (List UInt8) := encodeFrom 0 t

inductive Defect where
  | invalidStart
  | invalidContinuation
  | unexpectedEnd
  deriving DecidableEq, Repr

/-- A defect of the bytes from offset `start` up to but not including `stop`. -/
structure DecodingFault where
  defect : Defect
  first : UInt8
  start : Nat
  stop : Nat
  deriving DecidableEq, Repr

/-- A character of which some bytes have been read: its first byte and that byte's offset, the
number of bytes to come, the range of the next one and the value of the bits so far. -/
structure Unfinished where
  first : UInt8
  start : Nat
  missing : Nat
  low : UInt8
  high : UInt8
  value : Nat

/-- The start of a longer character, if the byte is one. -/
def Unfinished.ofFirst? (b : UInt8) (offset : Nat) : Option Unfinished :=
  if 0xC2 ≤ b ∧ b ≤ 0xDF then some ⟨b, offset, 1, 0x80, 0xBF, b.toNat - 0xC0⟩
  else if b = 0xE0 then some ⟨b, offset, 2, 0xA0, 0xBF, 0⟩
  else if b = 0xED then some ⟨b, offset, 2, 0x80, 0x9F, 0xD⟩
  else if 0xE1 ≤ b ∧ b ≤ 0xEF then some ⟨b, offset, 2, 0x80, 0xBF, b.toNat - 0xE0⟩
  else if b = 0xF0 then some ⟨b, offset, 3, 0x90, 0xBF, 0⟩
  else if 0xF1 ≤ b ∧ b ≤ 0xF3 then some ⟨b, offset, 3, 0x80, 0xBF, b.toNat - 0xF0⟩
  else if b = 0xF4 then some ⟨b, offset, 3, 0x80, 0x8F, 4⟩
  else none

/-- The text of the bytes from `offset` on, after the bytes of an unfinished character. -/
def decodeFrom (offset : Nat) (open? : Option Unfinished) :
    List UInt8 → Except DecodingFault Text
  | [] =>
    match open? with
    | none => .ok []
    | some u => .error ⟨.unexpectedEnd, u.first, u.start, offset⟩
  | b :: rest =>
    match open? with
    | none =>
      if b < 0x80 then do
        return .char (Char.ofNat b.toNat) :: (← decodeFrom (offset + 1) none rest)
      else match Unfinished.ofFirst? b offset with
        | some u => decodeFrom (offset + 1) (some u) rest
        | none => .error ⟨.invalidStart, b, offset, offset + 1⟩
    | some u =>
      if u.low ≤ b ∧ b ≤ u.high then
        let value := u.value * 64 + (b.toNat - 0x80)
        if u.missing ≤ 1 then do
          return .char (Char.ofNat value) :: (← decodeFrom (offset + 1) none rest)
        else
          decodeFrom (offset + 1)
            (some ⟨u.first, u.start, u.missing - 1, 0x80, 0xBF, value⟩) rest
      else .error ⟨.invalidContinuation, u.first, u.start, offset⟩

def decode (bytes : List UInt8) : Except DecodingFault Text := decodeFrom 0 none bytes

/-- The text of a stream that arrives in pieces; `carried` are the bytes of an unfinished
character. Offsets in a fault count from the first byte carried into its piece. -/
def decodePieces (carried : List UInt8) : List (List UInt8) → Except DecodingFault Text
  | [] => decode carried
  | piece :: rest =>
    let bytes := carried ++ piece
    match decode bytes with
    | .ok t => do return t ++ (← decodePieces [] rest)
    | .error fault =>
      if fault.defect = .unexpectedEnd then do
        let t ← decode (bytes.take fault.start)
        return t ++ (← decodePieces (bytes.drop fault.start) rest)
      else .error fault

/-- The pieces of at most `size` bytes in which a file of at most `count * size` bytes is read. -/
def pieces (size : Nat) : (count : Nat) → List UInt8 → List (List UInt8)
  | _, [] => []
  | 0, _ => []
  | count + 1, bytes => bytes.take size :: pieces size count (bytes.drop size)

/-- The text of a stream that is read `size` bytes at a time. -/
def decodeStream (size : Nat) (bytes : List UInt8) : Except DecodingFault Text :=
  decodePieces [] (pieces size (bytes.length / size + 1) bytes)

def Defect.message : Defect → Text
  | .invalidStart => "invalid start byte"
  | .invalidContinuation => "invalid continuation byte"
  | .unexpectedEnd => "unexpected end of data"

def DecodingFault.message (fault : DecodingFault) : Text :=
  let place : Text :=
    if fault.stop = fault.start + 1 then
      "byte 0x" ++ Text.hex 2 fault.first.toNat ++ " in position " ++ Text.ofNat fault.start
    else
      "bytes in position " ++ Text.ofNat fault.start ++ "-" ++ Text.ofNat (fault.stop - 1)
  "'utf-8' codec can't decode " ++ place ++ ": " ++ fault.defect.message

def EncodingFault.message (fault : EncodingFault) : Text :=
  let place : Text :=
    if fault.stop = fault.start + 1 then
      "character '\\u" ++ Text.hex 4 (0xD800 + fault.first.val) ++ "' in position " ++
        Text.ofNat fault.start
    else
      "characters in position " ++ Text.ofNat fault.start ++ "-" ++ Text.ofNat (fault.stop - 1)
  "'utf-8' codec can't encode " ++ place ++ ": surrogates not allowed"

theorem encodeFrom_eq_ok_iff {t : Text} {position : Nat} {bytes : List UInt8} :
    encodeFrom position t = .ok bytes ↔
      ∃ cs : List Char, t = cs.map .char ∧ bytes = cs.flatMap String.utf8EncodeChar := by
  induction t generalizing position bytes with
  | nil =>
    simp only [encodeFrom, Except.ok.injEq, List.nil_eq, List.map_eq_nil_iff]
    exact ⟨fun h => ⟨[], rfl, by simp [← h]⟩, fun ⟨cs, hcs, h⟩ => by simp [hcs, h]⟩
  | cons c rest ih =>
    cases c with
    | half h =>
      refine ⟨fun e => by simp [encodeFrom] at e, fun ⟨cs, hcs, _⟩ => ?_⟩
      cases cs <;> simp at hcs
    | char c =>
      constructor
      · intro e
        cases hr : encodeFrom (position + 1) rest with
        | error f => simp [encodeFrom, hr, bind, Except.bind] at e
        | ok tail =>
          obtain ⟨cs, rfl, rfl⟩ := ih.mp hr
          simp only [encodeFrom, hr, bind, Except.bind, pure, Except.pure, Except.ok.injEq] at e
          exact ⟨c :: cs, rfl, by simp [← e]⟩
      · rintro ⟨cs, hcs, rfl⟩
        cases cs with
        | nil => simp at hcs
        | cons d ds =>
          simp only [List.map_cons, List.cons.injEq, CodePoint.char.injEq] at hcs
          obtain ⟨rfl, rfl⟩ := hcs
          simp [encodeFrom, ih.mpr ⟨ds, rfl, rfl⟩, bind, Except.bind, pure, Except.pure]

end ConversionCoverage.Utf8
