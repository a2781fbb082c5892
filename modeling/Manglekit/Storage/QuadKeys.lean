import Manglekit.Core.Types
import Manglekit.Positional.Notation
import Mathlib.Tactic.Linarith

/-!
# Keys of quads

A key is a byte for the index and the four identifiers of a quad in the order of that index, as
words of eight bytes.  Bytes and words are digits of the same numbers, in base 256 and in base 2^64.
-/

namespace Manglekit.Storage

open Core Positional

/-- `binary.BigEndian.PutUint64`. -/
def putUint64 (v : UInt64) : List UInt8 :=
  [(v >>> 56).toUInt8, (v >>> 48).toUInt8, (v >>> 40).toUInt8, (v >>> 32).toUInt8,
    (v >>> 24).toUInt8, (v >>> 16).toUInt8, (v >>> 8).toUInt8, v.toUInt8]

def pushByte (word : UInt64) (byte : UInt8) : UInt64 := word <<< 8 ||| byte.toUInt64

/-- `binary.BigEndian.Uint64`. -/
def uint64 (b : List UInt8) : UInt64 := b.foldl pushByte 0

structure Quad where
  s : UInt64
  p : UInt64
  o : UInt64
  g : UInt64
  deriving DecidableEq

def prefixSPOg : UInt8 := 0x10
def prefixPOSg : UInt8 := 0x11
def prefixPSOg : UInt8 := 0x12
def prefixGSPO : UInt8 := 0x13

/-- The verb `%X`. -/
def upperHex (byte : UInt8) : String :=
  String.ofList ((Nat.toDigits 16 byte.toNat).map Char.toUpper)

/-- The error is the value of a panic. -/
def encodeQuadKey (route : UInt8) (quad : Quad) : Except String (List UInt8) :=
  let put (first second third fourth : UInt64) :=
    route :: (putUint64 first ++ putUint64 second ++ putUint64 third ++ putUint64 fourth)
  if route = prefixSPOg then .ok (put quad.s quad.p quad.o quad.g)
  else if route = prefixPOSg then .ok (put quad.p quad.o quad.s quad.g)
  else if route = prefixPSOg then .ok (put quad.p quad.s quad.o quad.g)
  else if route = prefixGSPO then .ok (put quad.g quad.s quad.p quad.o)
  else .error ("EncodeQuadKey: Invalid index routing prefix 0x" ++ upperHex route)

def decodeQuadKey (key : List UInt8) : Except GoError Quad :=
  if key.length ≠ 33 then
    .error (.text ("invalid quad key length: got " ++ toString key.length ++ ", want 33"))
  else
    let route := key.headD 0
    let word (start : Nat) := uint64 ((key.drop start).take 8)
    if route = prefixSPOg then .ok { s := word 1, p := word 9, o := word 17, g := word 25 }
    else if route = prefixPOSg then .ok { p := word 1, o := word 9, s := word 17, g := word 25 }
    else if route = prefixPSOg then .ok { p := word 1, s := word 9, o := word 17, g := word 25 }
    else if route = prefixGSPO then .ok { g := word 1, s := word 9, p := word 17, o := word 25 }
    else .error (.text ("invalid quad prefix: 0x" ++ upperHex route))

/-! ## Indexes -/

inductive Index where
  | spog
  | posg
  | psog
  | gspo

variable (index : Index) (quad : Quad)

namespace Index

def route : Index → UInt8
  | spog => prefixSPOg
  | posg => prefixPOSg
  | psog => prefixPSOg
  | gspo => prefixGSPO

/-- The identifiers in the order in which the index sorts. -/
def tuple : Index → Quad → List UInt64
  | spog, quad => [quad.s, quad.p, quad.o, quad.g]
  | posg, quad => [quad.p, quad.o, quad.s, quad.g]
  | psog, quad => [quad.p, quad.s, quad.o, quad.g]
  | gspo, quad => [quad.g, quad.s, quad.p, quad.o]

def key (index : Index) (quad : Quad) : List UInt8 :=
  index.route :: (index.tuple quad).flatMap putUint64

theorem encodeQuadKey_route : encodeQuadKey index.route quad = .ok (index.key quad) := by
  cases index <;> simp [encodeQuadKey, key, tuple, route, prefixSPOg, prefixPOSg, prefixPSOg,
    prefixGSPO]

theorem length_tuple : (index.tuple quad).length = 4 := by
  cases index <;> rfl

theorem length_body : ((index.tuple quad).flatMap putUint64).length = 32 := by
  cases index <;> rfl

end Index

/-! ## Words -/

def bytes : Digits UInt8 where
  base := 256
  rank := UInt8.toNat
  rank_lt := UInt8.toNat_lt
  rank_injective := fun _ _ => UInt8.toNat_inj.mp
  lt_iff _ _ := UInt8.lt_iff_toNat_lt

def words : Digits UInt64 where
  base := 2 ^ 64
  rank := UInt64.toNat
  rank_lt := UInt64.toNat_lt
  rank_injective := fun _ _ => UInt64.toNat_inj.mp
  lt_iff _ _ := UInt64.lt_iff_toNat_lt

theorem value_putUint64 (v : UInt64) : bytes.value (putUint64 v) = v.toNat := by
  have split (shift : Nat) :
      v.toNat >>> shift % 256 + 256 * v.toNat >>> (shift + 8) = v.toNat >>> shift := by
    rw [Nat.shiftRight_add, Nat.shiftRight_eq_div_pow _ 8]
    exact Nat.mod_add_div _ _
  have low : v.toNat % 256 + 256 * v.toNat >>> 8 = v.toNat := split 0
  have top : v.toNat >>> 64 = 0 := Nat.shiftRight_eq_zero _ _ v.toNat_lt
  simp [putUint64, Digits.value, bytes]
  -- The bytes telescope: each is what the shift by its place has over that by the next.
  linarith [split 8, split 16, split 24, split 32, split 40, split 48, split 56]

def bigEndian : Digits.Grouped words bytes 8 where
  write := putUint64
  length_write _ := rfl
  value_write := value_putUint64
  base_eq := rfl

theorem toNat_pushByte {word : UInt64} (small : word.toNat < 2 ^ 56) (byte : UInt8) :
    (pushByte word byte).toNat = word.toNat * 256 + byte.toNat := by
  have shifted : (word <<< 8).toNat = word.toNat <<< 8 := by
    rw [UInt64.toNat_shiftLeft]
    refine Nat.mod_eq_of_lt ?_
    rw [Nat.shiftLeft_eq]
    change word.toNat * 2 ^ 8 < 2 ^ 64
    omega
  rw [pushByte, UInt64.toNat_or, shifted, UInt8.toNat_toUInt64,
    ← Nat.shiftLeft_add_eq_or_of_lt byte.toNat_lt, Nat.shiftLeft_eq]

theorem toNat_foldl_pushByte (b : List UInt8) (word : UInt64)
    (room : word.toNat * 256 ^ b.length + bytes.value b < 2 ^ 64) :
    (b.foldl pushByte word).toNat = word.toNat * 256 ^ b.length + bytes.value b := by
  induction b generalizing word with
  | nil => simp [Digits.value]
  | cons byte rest ih =>
    -- The room that is left bounds the word by 2^56, so that the shift loses nothing.
    have wider : 256 ≤ 256 ^ (rest.length + 1) := Nat.le_self_pow (by simp) 256
    have small : word.toNat * 256 ≤ word.toNat * 256 ^ (rest.length + 1) :=
      Nat.mul_le_mul_left _ wider
    have pushed := @toNat_pushByte word (by rw [List.length_cons] at room; omega) byte
    have next : (pushByte word byte).toNat * 256 ^ rest.length + bytes.value rest =
        word.toNat * 256 ^ (byte :: rest).length + bytes.value (byte :: rest) := by
      rw [pushed, Digits.value, List.length_cons, pow_succ]
      simp only [bytes]
      ring
    rw [List.foldl_cons, ih _ (next ▸ room), next]

theorem toNat_uint64 {b : List UInt8} (length : b.length = 8) :
    (uint64 b).toNat = bytes.value b := by
  have bound : bytes.value b < 256 ^ b.length := bytes.value_lt b
  rw [uint64, toNat_foldl_pushByte b 0 (by rw [length] at bound; simpa using bound)]
  simp

theorem uint64_putUint64 (v : UInt64) : uint64 (putUint64 v) = v :=
  UInt64.toNat_inj.mp ((toNat_uint64 rfl).trans (value_putUint64 v))

theorem putUint64_uint64 {b : List UInt8} (length : b.length = 8) : putUint64 (uint64 b) = b :=
  bytes.eq_of_value_eq length.symm ((value_putUint64 _).trans (toNat_uint64 length))

/-! ## Keys -/

/-- The words that a key is decoded to, in the order of the bytes. -/
def readWords : Nat → List UInt8 → List UInt64
  | 0, _ => []
  | count + 1, body => uint64 (body.take 8) :: readWords count (body.drop 8)

theorem readWords_flatMap (tuple : List UInt64) :
    readWords tuple.length (tuple.flatMap putUint64) = tuple := by
  induction tuple with
  | nil => rfl
  | cons word rest ih =>
    have width : (putUint64 word).length = 8 := rfl
    rw [List.flatMap_cons, List.length_cons, readWords, List.take_left' width,
      List.drop_left' width, uint64_putUint64, ih]

variable {body : List UInt8}

theorem flatMap_readWords {count : Nat} (length : body.length = 8 * count) :
    (readWords count body).flatMap putUint64 = body := by
  induction count generalizing body with
  | zero => exact (List.length_eq_zero_iff.mp length).symm
  | succ count ih =>
    rw [readWords, List.flatMap_cons, putUint64_uint64 (by rw [List.length_take]; omega),
      ih (by rw [List.length_drop]; omega), List.take_append_drop]

namespace Index

theorem tuple_injective : Function.Injective index.tuple := by
  rintro ⟨s, p, o, g⟩ ⟨s', p', o', g'⟩ same
  cases index <;> simp_all [tuple]

theorem exists_decoded (length : body.length = 32) :
    ∃ quad, decodeQuadKey (index.route :: body) = .ok quad ∧
      index.tuple quad = readWords 4 body := by
  have whole : ¬ (index.route :: body).length ≠ 33 := by simp [length]
  rw [decodeQuadKey, if_neg whole]
  -- A word that starts at 9 in the key starts at 8 in the body.
  cases index <;> exact ⟨_, rfl, by simp [tuple, readWords, List.drop_drop]⟩

theorem decodeQuadKey_key : decodeQuadKey (index.key quad) = .ok quad := by
  obtain ⟨decoded, result, same⟩ := index.exists_decoded (index.length_body quad)
  rw [← index.length_tuple quad, readWords_flatMap] at same
  rw [key, result, index.tuple_injective same]

theorem key_of_decodeQuadKey (length : body.length = 32) :
    ∃ quad, decodeQuadKey (index.route :: body) = .ok quad ∧
      index.key quad = index.route :: body := by
  obtain ⟨quad, result, same⟩ := index.exists_decoded length
  exact ⟨quad, result, by rw [key, same, flatMap_readWords length]⟩

theorem key_lt_key_iff (first second : Quad) :
    index.key first < index.key second ↔ index.tuple first < index.tuple second := by
  rw [key, key, List.cons_lt_cons_self]
  exact bigEndian.flatMap_lt_flatMap_iff (by rw [length_tuple, length_tuple])

end Index

/-- The keys of an index are its byte followed by any 32 bytes, and they sort as the tuples. -/
theorem quadKeys_ordered_bijection :
    (∀ quad, ∃ key, encodeQuadKey index.route quad = .ok key ∧ key.length = 33 ∧
      decodeQuadKey key = .ok quad) ∧
    (∀ key : List UInt8, key.length = 33 → key.head? = some index.route →
      ∃ quad, decodeQuadKey key = .ok quad ∧ encodeQuadKey index.route quad = .ok key) ∧
    ∀ first second firstKey secondKey, encodeQuadKey index.route first = .ok firstKey →
      encodeQuadKey index.route second = .ok secondKey →
        (firstKey < secondKey ↔ index.tuple first < index.tuple second) := by
  refine ⟨fun quad => ?_, fun key length head => ?_, fun first second _ _ encoded other => ?_⟩
  · exact ⟨_, index.encodeQuadKey_route quad, congrArg (· + 1) (index.length_body quad),
      index.decodeQuadKey_key quad⟩
  · obtain ⟨body, rfl⟩ := List.head?_eq_some_iff.mp head
    obtain ⟨quad, decoded, same⟩ := index.key_of_decodeQuadKey (Nat.succ.inj length)
    exact ⟨quad, decoded, same ▸ index.encodeQuadKey_route quad⟩
  · rw [index.encodeQuadKey_route] at encoded other
    cases encoded
    cases other
    exact index.key_lt_key_iff first second

end Manglekit.Storage
