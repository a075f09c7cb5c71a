import Mathlib.Data.List.Basic
import Mathlib.Tactic.Ring

/-!
# Bytes of a 32-bit word, host order and network order

A C program moves a 32-bit word between a register and memory in the byte order of its host, and
converts between host order and network order with `htonl` and `ntohl`. `store32` and `load32` are
the two memory accesses, `htonl` and `ntohl` the conversions; the only facts a caller needs are
that storing a converted word puts the big-endian bytes in memory (`store32_htonl`) and that
converting a loaded word reads them back (`ntohl_load32`), on either kind of host.

`memcpy` copies bytes into a vector at an offset.
-/

namespace Common

/-- Byte order of the host. -/
inductive Endian where
  | little
  | big
deriving DecidableEq, Repr

/-- The four bytes of a word, most significant first. -/
def bytesBE (v : UInt32) : List UInt8 :=
  [(v >>> 24).toUInt8, (v >>> 16).toUInt8, (v >>> 8).toUInt8, v.toUInt8]

/-- The word whose bytes, most significant first, are the four given ones. -/
def ofBytesBE : List UInt8 → UInt32
  | [a, b, c, d] => UInt32.ofNat (a.toNat * 2 ^ 24 + b.toNat * 2 ^ 16 + c.toNat * 2 ^ 8 + d.toNat)
  | _ => 0

/-- The bytes a host leaves in memory when it stores a word. -/
def store32 : Endian → UInt32 → List UInt8
  | .big, v => bytesBE v
  | .little, v => (bytesBE v).reverse

/-- The word a host loads from four bytes of memory. -/
def load32 : Endian → List UInt8 → UInt32
  | .big, bs => ofBytesBE bs
  | .little, bs => ofBytesBE bs.reverse

/-- Reverse the order of the bytes of a word. -/
def byteSwap (v : UInt32) : UInt32 := ofBytesBE (bytesBE v).reverse

/-- Host order to network order. -/
def htonl : Endian → UInt32 → UInt32
  | .big, v => v
  | .little, v => byteSwap v

/-- Network order to host order. -/
def ntohl : Endian → UInt32 → UInt32 := htonl

/-- Copy `src` over the bytes of `dst` from offset `off` on. -/
def memcpy {α : Type*} (dst : List α) (off : ℕ) (src : List α) : List α :=
  dst.take off ++ src ++ dst.drop (off + src.length)

/-! ## The big-endian bytes determine the word and conversely -/

/-- A word has four bytes. -/
@[simp] theorem length_bytesBE (v : UInt32) : (bytesBE v).length = 4 := rfl

/-- A word is read back from its bytes. -/
theorem ofBytesBE_bytesBE (v : UInt32) : ofBytesBE (bytesBE v) = v := by
  apply UInt32.toNat_inj.mp
  have hv : v.toNat < 2 ^ 32 := v.toNat_lt
  simp only [bytesBE, ofBytesBE, UInt32.toNat_ofNat', UInt32.toNat_toUInt8,
    UInt32.toNat_shiftRight, Nat.shiftRight_eq_div_pow, UInt32.reduceToNat, Nat.reduceMod]
  omega

/-- Four bytes are those of their word. -/
theorem bytesBE_ofBytesBE {bs : List UInt8} (h : bs.length = 4) : bytesBE (ofBytesBE bs) = bs := by
  match bs, h with
  | [a, b, c, d], _ =>
    have ha := a.toNat_lt
    have hb := b.toNat_lt
    have hc := c.toNat_lt
    have hd := d.toNat_lt
    simp only [ofBytesBE, bytesBE, List.cons.injEq, and_true]
    refine ⟨?_, ?_, ?_, ?_⟩ <;> apply UInt8.toNat_inj.mp <;>
      simp only [UInt32.toNat_toUInt8, UInt32.toNat_shiftRight, UInt32.toNat_ofNat',
        Nat.shiftRight_eq_div_pow, UInt32.reduceToNat, Nat.reduceMod] <;>
      omega

/-! ## Host independence -/

/-- A stored word in network order has its big-endian bytes in memory, on either host. -/
theorem store32_htonl (e : Endian) (v : UInt32) : store32 e (htonl e v) = bytesBE v := by
  cases e with
  | big => rfl
  | little => rw [store32, htonl, byteSwap, bytesBE_ofBytesBE (by simp), List.reverse_reverse]

/-- A stored word has the big-endian bytes of another in memory exactly when that one is its
conversion. -/
theorem store32_eq_bytesBE_iff (e : Endian) (v w : UInt32) :
    store32 e v = bytesBE w ↔ htonl e v = w := by
  have hstore : store32 e v = bytesBE (htonl e v) := by
    cases e with
    | big => rfl
    | little => rw [store32, htonl, byteSwap, bytesBE_ofBytesBE (by simp)]
  rw [hstore]
  refine ⟨fun h => ?_, fun h => by rw [h]⟩
  rw [← ofBytesBE_bytesBE (htonl e v), h, ofBytesBE_bytesBE]

/-- A loaded word taken from network order is the one with these big-endian bytes, on either
host. -/
theorem ntohl_load32 (e : Endian) {bs : List UInt8} (h : bs.length = 4) :
    ntohl e (load32 e bs) = ofBytesBE bs := by
  cases e with
  | big => rfl
  | little =>
    rw [ntohl, htonl, load32, byteSwap, bytesBE_ofBytesBE (by simpa using h), List.reverse_reverse]

/-! ## Copying into a vector -/

/-- A copy that starts where `front` ends and fits into what follows replaces just those bytes. -/
theorem memcpy_append {α : Type*} {front mid back src : List α} {off : ℕ}
    (hoff : front.length = off) (hsrc : src.length = mid.length) :
    memcpy (front ++ (mid ++ back)) off src = front ++ (src ++ back) := by
  subst hoff
  rw [memcpy, List.take_left, ← List.drop_drop, List.drop_left, hsrc, List.drop_left,
    List.append_assoc]

/-- A copy inside the destination leaves its length. -/
theorem length_memcpy {α : Type*} {dst src : List α} {off : ℕ}
    (h : off + src.length ≤ dst.length) : (memcpy dst off src).length = dst.length := by
  simp only [memcpy, List.length_append, List.length_take, List.length_drop]
  omega

/-- Two copies, the second of which begins where the first ends, are one. -/
theorem memcpy_memcpy {α : Type*} {dst src : List α} {off : ℕ} (h : off ≤ dst.length)
    (src' : List α) :
    memcpy (memcpy dst off src) (off + src.length) src' = memcpy dst off (src ++ src') := by
  have hfront : (dst.take off ++ src).length = off + src.length := by
    rw [List.length_append, List.length_take_of_le h]
  rw [memcpy, memcpy, memcpy, List.take_left' hfront, ← List.drop_drop, List.drop_left' hfront,
    List.drop_drop, List.length_append, Nat.add_assoc, List.append_assoc (dst.take off)]

/-- A copy that ends before `back` leaves it alone. -/
theorem memcpy_append_of_le {α : Type*} {front src : List α} {off : ℕ}
    (h : off + src.length ≤ front.length) (back : List α) :
    memcpy (front ++ back) off src = memcpy front off src ++ back := by
  rw [memcpy, memcpy, List.take_append_of_le_length (by omega), List.drop_append_of_le_length h,
    List.append_assoc, List.append_assoc, List.append_assoc]

end Common
