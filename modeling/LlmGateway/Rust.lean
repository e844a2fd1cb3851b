/-
What the gateway uses of the Rust standard library.

Instants are nanoseconds on one monotonic clock, so `t.elapsed()` at `now` is `now - t`,
truncated at zero as `Instant` does it.  A `String` is Lean's, a `&[u8]` a list of bytes.
`f64` is read as exact rationals where the gateway calculates with it; `f32` is kept as
its bit pattern, because the gateway only rounds to it, compares it with zero and prints it.
-/
import Mathlib.Data.Rat.Floor
import Mathlib.Data.Rat.Lemmas

namespace LlmGateway

instance Except.decEq {ε α : Type} [DecidableEq ε] [DecidableEq α] : DecidableEq (Except ε α)
  | .error a, .error b => decidable_of_iff (a = b) ⟨fun h => h ▸ rfl, Except.error.inj⟩
  | .ok a, .ok b => decidable_of_iff (a = b) ⟨fun h => h ▸ rfl, Except.ok.inj⟩
  | .error _, .ok _ => isFalse nofun
  | .ok _, .error _ => isFalse nofun

/-! ### Time -/

/-- Nanoseconds since the clock started. -/
abbrev Instant := Nat

/-- Nanoseconds. -/
abbrev Duration := Nat

/-- `Duration::from_secs`. -/
def Duration.fromSecs (s : Nat) : Duration := s * 1000000000

/-- `Instant::duration_since`, which saturates at zero; `t.elapsed()` is `durationSince now t`. -/
def Instant.durationSince (now t : Instant) : Duration := now - t

/-- `Duration::as_secs_f64`. -/
def Duration.asSecs (d : Duration) : ℚ := (d : ℚ) / 1000000000

/-! ### Numbers -/

/-- `u64::MAX`. -/
def u64Max : Nat := 2 ^ 64 - 1

/-- `a + b` on `u64` in a release build, where it wraps. -/
def wrappingAdd (a b : Nat) : Nat := (a + b) % 2 ^ 64

/-- `x as u64` for a number that is not negative: saturating. -/
def toU64 (x : ℤ) : Nat := min x.toNat u64Max

/-- The bit pattern of an `f32`. -/
structure F32 where
  bits : UInt32
  deriving DecidableEq, Repr

namespace F32

/-- `x > 0.0`: positive, not a NaN, and not a zero. -/
def gtZero (x : F32) : Bool := 0 < x.bits && x.bits ≤ 0x7f800000

/-- `x == 0.0`, which both zeros satisfy. -/
def isZero (x : F32) : Bool := x.bits == 0 || x.bits == 0x80000000

/-- Neither infinite nor a NaN: the exponent bits are not all set. -/
def isFinite (x : F32) : Bool := x.bits &&& 0x7f800000 != 0x7f800000

/-- `x == y` of `f32`: the zeros are equal, and a NaN equals nothing. -/
def beq (x y : F32) : Bool :=
  (x.isZero && y.isZero) || (x.bits == y.bits && !(0x7f800000 < x.bits &&& 0x7fffffff))

/-- `m` over `2 ^ s`, rounded to the nearest integer, halves to the even one. -/
def halfEven (m s : Nat) : Nat :=
  let n := m / 2 ^ s
  let rest := 2 * (m % 2 ^ s)
  if 2 ^ s < rest || (rest == 2 ^ s && n % 2 == 1) then n + 1 else n

/-- The nearest `f32` to `± m * 2 ^ e`: `q` is the exponent of its last bit, and a carry out of
the mantissa ends up in the exponent, that of the largest in infinity. -/
def round (negative : Bool) (m : Nat) (e : Int) : F32 :=
  let q : Int := max ((Nat.log2 m : Int) + 1 + e - 24) (-149)
  let n := if q ≤ e then m * 2 ^ (e - q).toNat else halfEven m (q - e).toNat
  let magnitude := if m = 0 then 0 else min ((q + 149).toNat * 2 ^ 23 + n) 0x7f800000
  ⟨UInt32.ofNat (magnitude + if negative then 0x80000000 else 0)⟩

/-- `x as f32` of the `f64` with these bits. -/
def ofF64 (bits : UInt64) : F32 :=
  let negative : Bool := 0x8000000000000000 ≤ bits
  let exponent : Nat := bits.toNat / 2 ^ 52 % 2 ^ 11
  let fraction : Nat := bits.toNat % 2 ^ 52
  if exponent = 2047 then
    if fraction = 0 then round negative 1 1024 else ⟨0x7fc00000⟩
  else if exponent = 0 then round negative fraction (-1074)
  else round negative (2 ^ 52 + fraction) ((exponent : Int) - 1075)

-- 0.7, the largest finite `f64`, and minus the smallest normal `f32`
example : ofF64 0x3fe6666666666666 = ⟨0x3f333333⟩ ∧ ofF64 0x7fefffffffffffff = ⟨0x7f800000⟩ ∧
    ofF64 0xb810000000000000 = ⟨0x80800000⟩ := by decide

end F32

/-- `x == 0.0` of the `f64` with these bits, which both zeros satisfy. -/
def f64IsZero (x : UInt64) : Bool := x == 0 || x == 0x8000000000000000

/-- `x == y` of two `f64`: the zeros are equal, and a NaN equals nothing. -/
def f64Beq (x y : UInt64) : Bool :=
  (f64IsZero x && f64IsZero y) || (x == y && !(0x7ff0000000000000 < x &&& 0x7fffffffffffffff))

/-! ### Strings -/

/-- `s.as_bytes()`. -/
def asBytes (s : String) : List UInt8 := s.toUTF8.data.toList

/-- `String::from_utf8`. -/
def fromUtf8 (bs : List UInt8) : Option String := String.fromUTF8? ⟨bs.toArray⟩

/-- The pieces of a text, each with the line feed it ends in. -/
def splitInclusive : List Char → List (List Char)
  | [] => []
  | c :: cs =>
      if c = '\n' then [c] :: splitInclusive cs
      else match splitInclusive cs with
        | [] => [[c]]
        | l :: ls => (c :: l) :: ls

/-- A line without its line feed, and without a carriage return before that. -/
def stripLineEnd (l : List Char) : List Char :=
  if l.getLast? = some '\n' then
    if l.dropLast.getLast? = some '\r' then l.dropLast.dropLast else l.dropLast
  else l

/-- `str::lines`. -/
def lines (s : String) : List String :=
  (splitInclusive s.toList).map fun l => String.ofList (stripLineEnd l)

/-- `str::starts_with`. -/
def startsWith (pre s : String) : Bool := pre.toList.isPrefixOf s.toList

/-- `str::strip_prefix`. -/
def stripPrefix (pre s : String) : Option String :=
  if pre.toList.isPrefixOf s.toList then some (String.ofList (s.toList.drop pre.length)) else none

/-- One step of `String::from_utf8_lossy`: the next character with the bytes after it, or
`none` with the bytes after an ill-formed sequence, which is the longest beginning of a
well-formed one and never empty. -/
def decodeLossy (b : UInt8) (rest : List UInt8) : Option Char × List UInt8 :=
  let cont (x : UInt8) : Bool := 0x80 ≤ x && x ≤ 0xbf
  let low (x : UInt8) : Nat := (x &&& 0x3f).toNat
  if b < 0x80 then (some (Char.ofNat b.toNat), rest)
  else if 0xc2 ≤ b && b ≤ 0xdf then
    match rest with
    | b₁ :: r => if cont b₁ then (some (Char.ofNat ((b &&& 0x1f).toNat * 64 + low b₁)), r)
        else (none, rest)
    | [] => (none, rest)
  else if 0xe0 ≤ b && b ≤ 0xef then
    match rest with
    | b₁ :: r₁ =>
        if (b = 0xe0 && 0xa0 ≤ b₁ && b₁ ≤ 0xbf) || (b = 0xed && 0x80 ≤ b₁ && b₁ ≤ 0x9f) ||
            (b != 0xe0 && b != 0xed && cont b₁) then
          match r₁ with
          | b₂ :: r₂ =>
              if cont b₂ then
                (some (Char.ofNat ((b &&& 0x0f).toNat * 4096 + low b₁ * 64 + low b₂)), r₂)
              else (none, r₁)
          | [] => (none, r₁)
        else (none, rest)
    | [] => (none, rest)
  else if 0xf0 ≤ b && b ≤ 0xf4 then
    match rest with
    | b₁ :: r₁ =>
        if (b = 0xf0 && 0x90 ≤ b₁ && b₁ ≤ 0xbf) || (b = 0xf4 && 0x80 ≤ b₁ && b₁ ≤ 0x8f) ||
            (b != 0xf0 && b != 0xf4 && cont b₁) then
          match r₁ with
          | b₂ :: r₂ =>
              if cont b₂ then
                match r₂ with
                | b₃ :: r₃ =>
                    if cont b₃ then
                      (some (Char.ofNat ((b &&& 0x07).toNat * 262144 + low b₁ * 4096
                        + low b₂ * 64 + low b₃)), r₃)
                    else (none, r₂)
                | [] => (none, r₂)
              else (none, r₁)
          | [] => (none, r₁)
        else (none, rest)
    | [] => (none, rest)
  else (none, rest)

/-- The characters of `from_utf8_lossy`; every round takes at least one byte, so as many
rounds as there are bytes are enough. -/
def lossyChars : Nat → List UInt8 → List Char
  | 0, _ => []
  | _ + 1, [] => []
  | n + 1, b :: rest =>
      let (c, rest') := decodeLossy b rest
      c.getD '\ufffd' :: lossyChars n rest'

/-- `String::from_utf8_lossy`. -/
def fromUtf8Lossy (bs : List UInt8) : String := String.ofList (lossyChars bs.length bs)

example : fromUtf8Lossy [0x48, 0xe2, 0x82, 0xac, 0xff, 0xf0, 0x9f, 0x41] = "H€��A" := by decide

end LlmGateway
