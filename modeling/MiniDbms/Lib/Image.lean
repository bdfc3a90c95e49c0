import Mathlib.Data.List.Basic
import Mathlib.Tactic.Ring

/-!
# Fixed-size byte images

An `Image n` is a block of `n` bytes that is read and written at offsets: the
`memcpy`, `memset` and little-endian number accesses of a page or a frame.

* `Image.bytes`, `Image.splice`: copy a range out, copy a list of bytes in. What is
  read back after a write is decided by the two ranges alone (`bytes_splice_same`,
  `bytes_splice_of_disjoint`).
* `leNat`, `leBytes`: little-endian numbers of a given width; what is written is read back.
* `Image.readNat`, `Image.writeNat`: numbers at an offset.
-/

namespace Lib

/-- A block of `n` bytes. -/
def Image (n : Nat) : Type := Fin n → UInt8

/-! ## Little-endian numbers -/

/-- The `w` low-order bytes of `v`, least significant first. -/
def leBytes : Nat → Nat → List UInt8
  | 0, _ => []
  | w + 1, v => UInt8.ofNat v :: leBytes w (v / 256)

/-- The number that a list of bytes denotes, least significant byte first. -/
def leNat : List UInt8 → Nat
  | [] => 0
  | b :: bs => b.toNat + 256 * leNat bs

@[simp] theorem length_leBytes (w v : Nat) : (leBytes w v).length = w := by
  induction w generalizing v with
  | zero => rfl
  | succ w ih => simp [leBytes, ih]

theorem leNat_leBytes (w v : Nat) : leNat (leBytes w v) = v % 256 ^ w := by
  induction w generalizing v with
  | zero => simp [leBytes, leNat, Nat.mod_one]
  | succ w ih =>
    have hsplit : v % 256 ^ (w + 1) = v % 256 + 256 * (v / 256 % 256 ^ w) := by
      rw [Nat.pow_succ', Nat.mod_mul]
    rw [leBytes, leNat, ih, hsplit]
    simp

theorem leNat_leBytes_of_lt {w v : Nat} (h : v < 256 ^ w) : leNat (leBytes w v) = v := by
  rw [leNat_leBytes, Nat.mod_eq_of_lt h]

theorem leNat_lt (bs : List UInt8) : leNat bs < 256 ^ bs.length := by
  induction bs with
  | nil => simp [leNat]
  | cons b bs ih =>
    have hb : b.toNat < 256 := b.toNat_lt
    have hpow : 256 ^ (b :: bs).length = 256 * 256 ^ bs.length := by
      rw [List.length_cons, Nat.pow_succ']
    rw [leNat, hpow]
    omega

theorem leBytes_zero (w : Nat) : leBytes w 0 = List.replicate w 0 := by
  induction w with
  | zero => rfl
  | succ w ih =>
    rw [leBytes, List.replicate_succ, Nat.zero_div, ih]
    rfl

theorem leNat_replicate_zero (w : Nat) : leNat (List.replicate w 0) = 0 := by
  induction w with
  | zero => rfl
  | succ w ih => simp [List.replicate_succ, leNat, ih]

namespace Image

variable {n : Nat}

/-! ## Reading and writing ranges -/

/-- The image whose bytes are all zero. -/
def zero : Image n := fun _ => 0

/-- The byte at offset `i`; zero outside the image. -/
def get (d : Image n) (i : Nat) : UInt8 := if h : i < n then d ⟨i, h⟩ else 0

/-- The `len` bytes from offset `off` on. -/
def bytes (d : Image n) (off len : Nat) : List UInt8 :=
  (List.range len).map fun i => d.get (off + i)

/-- Copies the list `bs` into the image from offset `off` on. -/
def splice (d : Image n) (off : Nat) (bs : List UInt8) : Image n := fun i =>
  if off ≤ i.val then (bs[i.val - off]?).getD (d i) else d i

/-- Sets `len` bytes from offset `off` on to zero. -/
def clear (d : Image n) (off len : Nat) : Image n := d.splice off (List.replicate len 0)

theorem ext_get {d e : Image n} (h : ∀ i, i < n → d.get i = e.get i) : d = e := by
  funext i
  have := h i.val i.isLt
  simpa [get] using this

@[simp] theorem get_zero (i : Nat) : (zero : Image n).get i = 0 := by
  simp [get, zero]

theorem get_splice (d : Image n) {off : Nat} {bs : List UInt8} (hfit : off + bs.length ≤ n)
    (i : Nat) : (d.splice off bs).get i =
      if off ≤ i ∧ i < off + bs.length then bs.getD (i - off) 0 else d.get i := by
  unfold get splice
  by_cases hi : i < n
  · by_cases hlo : off ≤ i
    · by_cases hup : i < off + bs.length
      · have hidx : i - off < bs.length := by omega
        simp [hi, hlo, hup, hidx]
      · have hidx : bs.length ≤ i - off := by omega
        simp [hi, hlo, hup, hidx]
    · simp [hi, hlo]
  · have hup : ¬ i < off + bs.length := by omega
    simp [hi, hup]

@[simp] theorem length_bytes (d : Image n) (off len : Nat) : (d.bytes off len).length = len := by
  simp [bytes]

theorem getElem?_bytes (d : Image n) {off len i : Nat} (hi : i < len) :
    (d.bytes off len)[i]? = some (d.get (off + i)) := by
  simp [bytes, hi]

theorem bytes_congr {d e : Image n} {off len : Nat}
    (h : ∀ i, off ≤ i → i < off + len → d.get i = e.get i) : d.bytes off len = e.bytes off len := by
  apply List.map_congr_left
  intro i hi
  exact h _ (by omega) (by simp at hi; omega)

theorem bytes_add (d : Image n) (off a b : Nat) :
    d.bytes off (a + b) = d.bytes off a ++ d.bytes (off + a) b := by
  simp [bytes, List.range_add, List.map_append, Nat.add_assoc]

/-- A write is read back unchanged. -/
theorem bytes_splice_same (d : Image n) {off : Nat} {bs : List UInt8}
    (hfit : off + bs.length ≤ n) : (d.splice off bs).bytes off bs.length = bs := by
  apply List.ext_getElem? fun i => ?_
  by_cases hi : i < bs.length
  · rw [getElem?_bytes _ hi, get_splice d hfit]
    simp [hi]
  · rw [List.getElem?_eq_none (by simpa using hi), List.getElem?_eq_none (by omega)]

/-- Writing what is there already changes nothing. -/
theorem splice_self {d : Image n} {off : Nat} {bs : List UInt8} (hfit : off + bs.length ≤ n)
    (h : d.bytes off bs.length = bs) : d.splice off bs = d := by
  apply ext_get
  intro i _
  rw [get_splice d hfit]
  split
  · rename_i hin
    have hget : (d.bytes off bs.length)[i - off]? = some (d.get (off + (i - off))) :=
      getElem?_bytes d (by omega)
    rw [h, Nat.add_sub_cancel' hin.1] at hget
    rw [List.getD_eq_getElem?_getD, hget, Option.getD_some]
  · rfl

/-- A write does not change a range that it does not touch. -/
theorem bytes_splice_of_disjoint (d : Image n) {off off' len : Nat} {bs : List UInt8}
    (hfit : off + bs.length ≤ n) (h : off' + len ≤ off ∨ off + bs.length ≤ off') :
    (d.splice off bs).bytes off' len = d.bytes off' len := by
  apply bytes_congr
  intro i hlo hup
  rw [get_splice d hfit, if_neg (by omega)]

/-- The part of a range on which two images agree. -/
theorem bytes_sub {d e : Image n} {off len off' len' : Nat} (h : e.bytes off len = d.bytes off len)
    (hlo : off ≤ off') (hup : off' + len' ≤ off + len) : e.bytes off' len' = d.bytes off' len' := by
  have hsplit : ∀ x : Image n,
      x.bytes off' len' = ((x.bytes off len).drop (off' - off)).take len' := by
    intro x
    have hlen : len = (off' - off) + (len' + (len - (off' - off) - len')) := by omega
    rw [hlen, bytes_add, List.drop_left' (by simp), bytes_add, List.take_left' (by simp),
      Nat.add_sub_cancel' hlo]
  rw [hsplit, hsplit, h]

@[simp] theorem bytes_zero (off len : Nat) :
    (zero : Image n).bytes off len = List.replicate len 0 := by
  apply List.ext_getElem? fun i => ?_
  by_cases hi : i < len
  · rw [getElem?_bytes _ hi, List.getElem?_replicate_of_lt hi]
    simp
  · rw [List.getElem?_eq_none (by simpa using hi), List.getElem?_eq_none (by simpa using hi)]

/-! ## Numbers at an offset -/

/-- The little-endian number of `w` bytes at offset `off`. -/
def readNat (d : Image n) (off w : Nat) : Nat := leNat (d.bytes off w)

/-- Writes `v` as a little-endian number of `w` bytes at offset `off`. -/
def writeNat (d : Image n) (off w v : Nat) : Image n := d.splice off (leBytes w v)

/-- Two images that agree on a range agree on every number in it. -/
theorem readNat_congr {d e : Image n} {off w : Nat} (h : e.bytes off w = d.bytes off w) :
    e.readNat off w = d.readNat off w := by
  rw [readNat, h, readNat]

theorem readNat_lt (d : Image n) (off w : Nat) : d.readNat off w < 256 ^ w := by
  simpa [readNat] using leNat_lt (d.bytes off w)

theorem readNat_writeNat_same (d : Image n) {off w v : Nat} (hfit : off + w ≤ n) :
    (d.writeNat off w v).readNat off w = v % 256 ^ w := by
  have h : (d.splice off (leBytes w v)).bytes off (leBytes w v).length = leBytes w v :=
    bytes_splice_same d (by simpa using hfit)
  rw [length_leBytes] at h
  rw [readNat, writeNat, h, leNat_leBytes]

/-- Writing the number zero over zeros changes nothing. -/
theorem writeNat_zero_self {d : Image n} {off w : Nat} (hfit : off + w ≤ n)
    (h : d.bytes off w = List.replicate w 0) : d.writeNat off w 0 = d := by
  apply splice_self (by simpa using hfit)
  rw [length_leBytes, h, leBytes_zero]

theorem bytes_writeNat_of_disjoint (d : Image n) {off w v off' len : Nat} (hfit : off + w ≤ n)
    (h : off' + len ≤ off ∨ off + w ≤ off') :
    (d.writeNat off w v).bytes off' len = d.bytes off' len :=
  bytes_splice_of_disjoint d (by simpa using hfit) (by simpa using h)

theorem readNat_writeNat_of_disjoint (d : Image n) {off w v off' w' : Nat} (hfit : off + w ≤ n)
    (h : off' + w' ≤ off ∨ off + w ≤ off') :
    (d.writeNat off w v).readNat off' w' = d.readNat off' w' := by
  rw [readNat, bytes_writeNat_of_disjoint d hfit h, readNat]

theorem readNat_splice_of_disjoint (d : Image n) {off off' w : Nat} {bs : List UInt8}
    (hfit : off + bs.length ≤ n) (h : off' + w ≤ off ∨ off + bs.length ≤ off') :
    (d.splice off bs).readNat off' w = d.readNat off' w := by
  rw [readNat, bytes_splice_of_disjoint d hfit h, readNat]

theorem readNat_zero (off w : Nat) : (zero : Image n).readNat off w = 0 := by
  rw [readNat, bytes_zero, leNat_replicate_zero]

theorem bytes_clear_same (d : Image n) {off len : Nat} (hfit : off + len ≤ n) :
    (d.clear off len).bytes off len = List.replicate len 0 := by
  have h : (d.splice off (List.replicate len 0)).bytes off (List.replicate len (0 : UInt8)).length =
      List.replicate len 0 := bytes_splice_same d (by simpa using hfit)
  rwa [List.length_replicate] at h

/-- A range of zeros is cleared without a change. -/
theorem clear_self {d : Image n} {off len : Nat} (hfit : off + len ≤ n)
    (h : d.bytes off len = List.replicate len 0) : d.clear off len = d := by
  apply splice_self (by simpa using hfit)
  rwa [List.length_replicate]

theorem bytes_clear_of_disjoint (d : Image n) {off len off' len' : Nat} (hfit : off + len ≤ n)
    (h : off' + len' ≤ off ∨ off + len ≤ off') :
    (d.clear off len).bytes off' len' = d.bytes off' len' :=
  bytes_splice_of_disjoint d (by simpa using hfit) (by simpa using h)

end Image

end Lib
