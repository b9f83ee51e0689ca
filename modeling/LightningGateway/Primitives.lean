import Mathlib.Data.List.Basic
import Mathlib.Data.UInt
import Mathlib.Tactic.IntervalCases

/-!
# Amounts, identifiers and hex text

The primitive types of the gateway. `MilliSatoshi` is a 64-bit word: its
arithmetic wraps as the release build's does, so every place that must not
overflow carries a bound. Hashes, preimages and wallet identifiers are byte
strings of a fixed length, printed in lower-case hex; printing is injective and
parsing recovers what was printed, which is what lets outbox rows refer to a
payment by text.
-/
namespace LightningGateway.Primitives

/-! ### Amounts -/

structure MilliSatoshi where
  msat : UInt64
deriving DecidableEq, Repr

namespace MilliSatoshi

def zero : MilliSatoshi := ⟨0⟩

/-- `u64::div_ceil`. -/
def divCeil (a b : UInt64) : UInt64 := if a % b = 0 then a / b else a / b + 1

/-- Ceiling-round to a whole number of satoshis. -/
def roundUpToSat (m : MilliSatoshi) : MilliSatoshi := ⟨divCeil m.msat 1000 * 1000⟩

/-- Truncating division to whole satoshis. -/
def wholeSat (m : MilliSatoshi) : UInt64 := m.msat / 1000

end MilliSatoshi

/-- The cast `x as i64`: two's complement reinterpretation. -/
def asI64 (x : UInt64) : ℤ := if x.toNat < 2 ^ 63 then x.toNat else (x.toNat : ℤ) - 2 ^ 64

/-- `i64::try_from(x)`, which is also the encoding into a `BIGINT` column. -/
def tryI64 (x : UInt64) : Option ℤ := if x.toNat < 2 ^ 63 then some x.toNat else none

/-- `MilliSatoshi::try_from(v)` on a signed wire value. -/
def msatOfI64 (v : ℤ) : Option MilliSatoshi :=
  if v < 0 then none else some ⟨UInt64.ofNat v.toNat⟩

theorem wholeSat_toNat (m : MilliSatoshi) : m.wholeSat.toNat = m.msat.toNat / 1000 := by
  simp [MilliSatoshi.wholeSat, UInt64.toNat_div]

/-- Whole satoshis of any 64-bit amount fit a signed 64-bit integer. -/
theorem asI64_wholeSat (m : MilliSatoshi) : asI64 m.wholeSat = m.msat.toNat / 1000 := by
  have h := m.msat.toNat_lt
  have hw := wholeSat_toNat m
  unfold asI64
  rw [if_pos (by omega), hw]
  norm_cast

theorem divCeil_toNat (a : UInt64) :
    (MilliSatoshi.divCeil a 1000).toNat = (a.toNat + 999) / 1000 := by
  have ha := a.toNat_lt
  have hm : (a % 1000).toNat = a.toNat % 1000 := by simp [UInt64.toNat_mod]
  have hd : (a / 1000).toNat = a.toNat / 1000 := by simp [UInt64.toNat_div]
  unfold MilliSatoshi.divCeil
  split_ifs with h
  · have h0 : a.toNat % 1000 = 0 := by rw [← hm, h]; rfl
    rw [hd]
    omega
  · have h0 : a.toNat % 1000 ≠ 0 := fun h0 => h (UInt64.toNat_inj.mp (by rw [hm, h0]; rfl))
    have h1 : (1 : UInt64).toNat = 1 := rfl
    rw [UInt64.toNat_add, hd, h1]
    omega

theorem roundUpToSat_toNat {m : MilliSatoshi} (h : m.msat.toNat ≤ 2 ^ 64 - 1000) :
    m.roundUpToSat.msat.toNat = (m.msat.toNat + 999) / 1000 * 1000 := by
  have hk : (1000 : UInt64).toNat = 1000 := rfl
  simp only [MilliSatoshi.roundUpToSat, UInt64.toNat_mul, divCeil_toNat, hk]
  omega

/-! ### Hex text -/

def hexDigit (n : ℕ) : Char := (['0', '1', '2', '3', '4', '5', '6', '7', '8', '9',
  'a', 'b', 'c', 'd', 'e', 'f'] : List Char).getD n '0'

def hexByte (b : UInt8) : List Char := [hexDigit (b.toNat / 16), hexDigit (b.toNat % 16)]

/-- `hex::encode`. -/
def hexEncode (bytes : List UInt8) : String := String.ofList (bytes.flatMap hexByte)

inductive FromHexError where
  | invalidHexCharacter (c : UInt8) (index : ℕ)
  | oddLength
deriving DecidableEq, Repr

/-- Value of one hexadecimal digit given as a byte, upper or lower case. -/
def hexValue (c : UInt8) (index : ℕ) : Except FromHexError ℕ :=
  if 65 ≤ c.toNat ∧ c.toNat ≤ 70 then .ok (c.toNat - 65 + 10)
  else if 97 ≤ c.toNat ∧ c.toNat ≤ 102 then .ok (c.toNat - 97 + 10)
  else if 48 ≤ c.toNat ∧ c.toNat ≤ 57 then .ok (c.toNat - 48)
  else .error (.invalidHexCharacter c index)

def hexPairs : List UInt8 → ℕ → Except FromHexError (List UInt8)
  | hi :: lo :: rest, index => do
      let h ← hexValue hi index
      let l ← hexValue lo (index + 1)
      let bytes ← hexPairs rest (index + 2)
      return UInt8.ofNat (h * 16 + l) :: bytes
  | _, _ => .ok []

def utf8Bytes (s : String) : List UInt8 := s.toByteArray.data.toList

/-- `hex::decode`, on the UTF-8 bytes of the text. -/
def hexDecode (s : String) : Except FromHexError (List UInt8) :=
  if (utf8Bytes s).length % 2 ≠ 0 then .error .oddLength else hexPairs (utf8Bytes s) 0

/-- The byte of a digit as `hexByte` writes it. -/
def digitCode (n : ℕ) : UInt8 := UInt8.ofNat (hexDigit n).toNat

theorem utf8EncodeChar_hexDigit {n : ℕ} (h : n < 16) :
    String.utf8EncodeChar (hexDigit n) = [digitCode n] := by
  interval_cases n <;> decide

theorem hexValue_digitCode {n : ℕ} (h : n < 16) (i : ℕ) : hexValue (digitCode n) i = .ok n := by
  interval_cases n <;> rfl

theorem utf8Bytes_hexEncode (bytes : List UInt8) :
    utf8Bytes (hexEncode bytes) =
      bytes.flatMap (fun b => [digitCode (b.toNat / 16), digitCode (b.toNat % 16)]) := by
  have hflat : (bytes.flatMap hexByte).flatMap String.utf8EncodeChar =
      bytes.flatMap (fun b => [digitCode (b.toNat / 16), digitCode (b.toNat % 16)]) := by
    rw [List.flatMap_assoc]
    refine List.flatMap_congr fun b _ => ?_
    have hb := b.toNat_lt
    simp [hexByte, utf8EncodeChar_hexDigit (show b.toNat / 16 < 16 by omega),
      utf8EncodeChar_hexDigit (show b.toNat % 16 < 16 by omega)]
  unfold utf8Bytes hexEncode
  rw [String.toByteArray_ofList, List.utf8Encode, hflat, List.data_toByteArray]

theorem hexPairs_hexEncode (bytes : List UInt8) (i : ℕ) :
    hexPairs (bytes.flatMap fun b => [digitCode (b.toNat / 16), digitCode (b.toNat % 16)]) i =
      .ok bytes := by
  induction bytes generalizing i with
  | nil => rfl
  | cons b bs ih =>
      have hb := b.toNat_lt
      have hval : UInt8.ofNat (b.toNat / 16 * 16 + b.toNat % 16) = b := by
        rw [Nat.div_add_mod']
        exact UInt8.ofNat_toNat
      simp only [List.flatMap_cons, List.cons_append, List.nil_append, hexPairs,
        hexValue_digitCode (show b.toNat / 16 < 16 by omega),
        hexValue_digitCode (show b.toNat % 16 < 16 by omega), ih]
      change Except.ok (_ :: bs) = _
      rw [hval]

theorem hexDecode_hexEncode (bytes : List UInt8) : hexDecode (hexEncode bytes) = .ok bytes := by
  have hlen : (bytes.flatMap fun b =>
      [digitCode (b.toNat / 16), digitCode (b.toNat % 16)]).length = 2 * bytes.length := by
    induction bytes with
    | nil => rfl
    | cons b bs ih => simp only [List.flatMap_cons, List.length_append, List.length_cons, ih]; simp; omega
  unfold hexDecode
  rw [utf8Bytes_hexEncode, if_neg (by rw [hlen]; omega)]
  exact hexPairs_hexEncode bytes 0

theorem hexEncode_injective : Function.Injective hexEncode := by
  intro a b h
  have ha := hexDecode_hexEncode a
  rw [h, hexDecode_hexEncode] at ha
  exact (Except.ok.inj ha).symm

/-! ### Byte strings of a fixed length -/

structure PaymentHash where
  bytes : List UInt8
  size : bytes.length = 32
deriving DecidableEq, Repr

structure Preimage where
  bytes : List UInt8
  size : bytes.length = 32
deriving DecidableEq, Repr

structure Pubkey where
  bytes : List UInt8
  size : bytes.length = 33
deriving DecidableEq, Repr

/-- Errors of the three hex parsers; `subject` is the word their texts start with. -/
inductive ParseError where
  | hex (subject : String) (e : FromHexError)
  | invalidLength (subject : String) (expected got : ℕ)
deriving DecidableEq, Repr

/-- Rust's `{:?}` inside quotes. Beyond Latin-1 every character counts as
printable. -/
def escapeDebug (quote : Char) (c : Char) : String :=
  if c = '\x00' then "\\0"
  else if c = '\t' then "\\t"
  else if c = '\r' then "\\r"
  else if c = '\n' then "\\n"
  else if c = '\\' then "\\\\"
  else if c = quote then "\\" ++ quote.toString
  else if c.toNat < 32 ∨ (127 ≤ c.toNat ∧ c.toNat ≤ 160) ∨ c.toNat = 173 then
    "\\u\x7b" ++ String.ofList (Nat.toDigits 16 c.toNat) ++ "\x7d"
  else c.toString

def debugStr (s : String) : String :=
  "\"" ++ String.join (s.toList.map (escapeDebug '"')) ++ "\""

def FromHexError.display : FromHexError → String
  | .invalidHexCharacter c index =>
      "Invalid character '" ++ escapeDebug '\'' (Char.ofNat c.toNat) ++ "' at position " ++
        toString index
  | .oddLength => "Odd number of digits"

def ParseError.display : ParseError → String
  | .hex subject e => subject ++ " hex decode failed: " ++ e.display
  | .invalidLength subject expected got =>
      subject ++ " must be exactly " ++ toString expected ++
        (if expected = 33 then " bytes (66 hex chars), got " else " bytes, got ") ++ toString got

def PaymentHash.toHex (h : PaymentHash) : String := hexEncode h.bytes

def Preimage.toHex (p : Preimage) : String := hexEncode p.bytes

def Pubkey.toHex (p : Pubkey) : String := hexEncode p.bytes

/-- `hex::decode` followed by the conversion into an array of `n` bytes. -/
def parseBytes (subject : String) (n : ℕ) (s : String) :
    Except ParseError { bytes : List UInt8 // bytes.length = n } :=
  match hexDecode s with
  | .error e => .error (.hex subject e)
  | .ok bytes =>
      if h : bytes.length = n then .ok ⟨bytes, h⟩
      else .error (.invalidLength subject n bytes.length)

def PaymentHash.fromStr (s : String) : Except ParseError PaymentHash :=
  (parseBytes "payment hash" 32 s).map fun b => ⟨b.1, b.2⟩

def Preimage.fromStr (s : String) : Except ParseError Preimage :=
  (parseBytes "preimage" 32 s).map fun b => ⟨b.1, b.2⟩

def Pubkey.fromStr (s : String) : Except ParseError Pubkey :=
  (parseBytes "pubkey" 33 s).map fun b => ⟨b.1, b.2⟩

theorem parseBytes_hexEncode (subject : String) {n : ℕ} {bytes : List UInt8}
    (h : bytes.length = n) : parseBytes subject n (hexEncode bytes) = .ok ⟨bytes, h⟩ := by
  unfold parseBytes
  rw [hexDecode_hexEncode]
  exact dif_pos h

theorem PaymentHash.fromStr_toHex (h : PaymentHash) : PaymentHash.fromStr h.toHex = .ok h := by
  unfold PaymentHash.fromStr PaymentHash.toHex
  rw [parseBytes_hexEncode _ h.size]
  rfl

theorem Preimage.fromStr_toHex (p : Preimage) : Preimage.fromStr p.toHex = .ok p := by
  unfold Preimage.fromStr Preimage.toHex
  rw [parseBytes_hexEncode _ p.size]
  rfl

theorem Pubkey.fromStr_toHex (k : Pubkey) : Pubkey.fromStr k.toHex = .ok k := by
  unfold Pubkey.fromStr Pubkey.toHex
  rw [parseBytes_hexEncode _ k.size]
  rfl

theorem PaymentHash.toHex_injective : Function.Injective PaymentHash.toHex := by
  intro a b h
  have hb := hexEncode_injective h
  cases a
  cases b
  congr

@[simp] theorem PaymentHash.toHex_inj {a b : PaymentHash} : a.toHex = b.toHex ↔ a = b :=
  PaymentHash.toHex_injective.eq_iff

/-! ### Identifiers, time and invoices as text -/

structure Uuid where
  bytes : List UInt8
  size : bytes.length = 16
deriving DecidableEq, Repr

/-- The hyphenated lower-case form. -/
def Uuid.toText (u : Uuid) : String :=
  hexEncode (u.bytes.take 4) ++ "-" ++ hexEncode ((u.bytes.drop 4).take 2) ++ "-" ++
    hexEncode ((u.bytes.drop 6).take 2) ++ "-" ++ hexEncode ((u.bytes.drop 8).take 2) ++ "-" ++
    hexEncode (u.bytes.drop 10)

abbrev PaymentId := Uuid
abbrev InvoiceId := Uuid

structure WalletId where
  uuid : Uuid
deriving DecidableEq, Repr

def WalletId.toText (w : WalletId) : String := w.uuid.toText

/-- Nanoseconds since the Unix epoch, UTC. -/
structure Timestamp where
  nanos : ℤ
deriving DecidableEq, Repr

structure BoltInvoice where
  text : String
deriving DecidableEq, Repr

/-- Caller identity as the JWKS layer hands it over. -/
structure CallerAuth where
  jwt : String
  sub : String
deriving DecidableEq, Repr

end LightningGateway.Primitives
