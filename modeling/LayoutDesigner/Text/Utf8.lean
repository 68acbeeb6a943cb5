import LayoutDesigner.Text

/-!
# Texts as bytes

UTF-8: one to four bytes for a code point. Surrogates have no encoding. Bytes that are no encoding
can be refused, or read with a replacement character for each longest piece that could have begun
one.
-/

namespace LayoutDesigner.Text

/-- The bytes of a code point that is no surrogate. -/
def encodePoint (c : CodePoint) : List UInt8 :=
  let n := c.val
  let byte (k : Nat) : UInt8 := UInt8.ofNat k
  if n < 0x80 then [byte n]
  else if n < 0x800 then [byte (0xC0 + n / 64), byte (0x80 + n % 64)]
  else if n < 0x10000 then
    [byte (0xE0 + n / 4096), byte (0x80 + n / 64 % 64), byte (0x80 + n % 64)]
  else
    [byte (0xF0 + n / 262144), byte (0x80 + n / 4096 % 64), byte (0x80 + n / 64 % 64),
      byte (0x80 + n % 64)]

/-- The bytes of a text; `none` where it holds a surrogate. -/
def encode? (t : Text) : Option (List UInt8) :=
  if t.any CodePoint.isSurrogate then none else some (t.flatMap encodePoint)

/-- A byte that can only continue a code point. -/
def isTail (low high : Nat) (b : UInt8) : Bool := low ≤ b.toNat && b.toNat ≤ high

/-- The range of the second byte after a first byte, and the number of bytes that follow the first;
`none` where the byte begins nothing. -/
def sequenceOf (b : UInt8) : Option (Nat × Nat × Nat) :=
  let n := b.toNat
  if 0xC2 ≤ n ∧ n ≤ 0xDF then some (0x80, 0xBF, 1)
  else if n = 0xE0 then some (0xA0, 0xBF, 2)
  else if n = 0xED then some (0x80, 0x9F, 2)
  else if 0xE1 ≤ n ∧ n ≤ 0xEF then some (0x80, 0xBF, 2)
  else if n = 0xF0 then some (0x90, 0xBF, 3)
  else if n = 0xF4 then some (0x80, 0x8F, 3)
  else if 0xF1 ≤ n ∧ n ≤ 0xF3 then some (0x80, 0xBF, 3)
  else none

/-- The six low bits of a continuing byte. -/
def tailBits (b : UInt8) : Nat := b.toNat % 64

/-- The code point replacing what is no encoding. -/
def replacement : CodePoint := CodePoint.ofNat 0xFFFD

/-- Read bytes: the code points, and whether some bytes were no encoding and were replaced. -/
def decodeBytes : List UInt8 → Text × Bool
  | [] => ([], false)
  | a :: rest =>
    if a.toNat < 0x80 then
      let (t, bad) := decodeBytes rest
      (CodePoint.ofNat a.toNat :: t, bad)
    else
      match sequenceOf a with
      | none => (replacement :: (decodeBytes rest).1, true)
      | some (low, high, count) =>
        match rest with
        | [] => ([replacement], true)
        | b :: rest₁ =>
          if !isTail low high b then (replacement :: (decodeBytes (b :: rest₁)).1, true)
          else if count = 1 then
            let (t, bad) := decodeBytes rest₁
            (CodePoint.ofNat (a.toNat % 32 * 64 + tailBits b) :: t, bad)
          else
            match rest₁ with
            | [] => ([replacement], true)
            | c :: rest₂ =>
              if !isTail 0x80 0xBF c then (replacement :: (decodeBytes (c :: rest₂)).1, true)
              else if count = 2 then
                let (t, bad) := decodeBytes rest₂
                (CodePoint.ofNat (a.toNat % 16 * 4096 + tailBits b * 64 + tailBits c) :: t, bad)
              else
                match rest₂ with
                | [] => ([replacement], true)
                | d :: rest₃ =>
                  if !isTail 0x80 0xBF d then (replacement :: (decodeBytes (d :: rest₃)).1, true)
                  else
                    let (t, bad) := decodeBytes rest₃
                    (CodePoint.ofNat
                      (a.toNat % 8 * 262144 + tailBits b * 4096 + tailBits c * 64 + tailBits d) :: t,
                      bad)
  termination_by bytes => bytes.length

/-- The text of bytes; `none` where they are no encoding. -/
def decode? (bytes : List UInt8) : Option Text :=
  match decodeBytes bytes with
  | (t, false) => some t
  | (_, true) => none

/-- The text of bytes, with replacement characters for what is no encoding. -/
def decodeLossy (bytes : List UInt8) : Text := (decodeBytes bytes).1

/-- Every way to end a line becomes a line feed, as texts are read from files. -/
def unifyNewlines : Text → Text
  | [] => []
  | c :: rest =>
    if c = '\r' then
      match rest with
      | d :: rest' => if d = '\n' then d :: unifyNewlines rest' else '\n' :: unifyNewlines (d :: rest')
      | [] => ['\n']
    else c :: unifyNewlines rest
  termination_by t => t.length

end LayoutDesigner.Text
