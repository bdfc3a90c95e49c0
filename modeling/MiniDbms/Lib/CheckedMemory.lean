import MiniDbms.Lib.Image

/-!
# Checked memory

Computations on memory that look at each access before they make it: `none` is an access outside the
memory, or a number that does not fit the type it is computed in. A checked computation that
always gives the result of a function on bytes says that the function never needs such an
access.

* `slice?` reads from a list of bytes, `number?` and `range?` from the part of an image before some
  bounds;
* `Checked` computes on an image.
-/

namespace Lib

/-- `len` bytes from offset `off` on, if the list has them. -/
def slice? (bs : List UInt8) (off len : Nat) : Option (List UInt8) :=
  if off + len ≤ bs.length then some ((bs.drop off).take len) else none

theorem slice?_eq {bs : List UInt8} {off len : Nat} (h : off + len ≤ bs.length) :
    slice? bs off len = some ((bs.drop off).take len) := if_pos h

/-- The little-endian number of `w` bytes at offset `off` of an image, if it ends before each of the
bounds. -/
def number? {n : Nat} (d : Image n) (bounds : List Nat) (off w : Nat) : Option Nat :=
  if off + w ≤ n ∧ ∀ bound ∈ bounds, off + w ≤ bound then some (d.readNat off w) else none

/-- `len` bytes at offset `off` of an image, if they end before each of the bounds. -/
def range? {n : Nat} (d : Image n) (bounds : List Nat) (off len : Nat) : Option (List UInt8) :=
  if off + len ≤ n ∧ ∀ bound ∈ bounds, off + len ≤ bound then some (d.bytes off len) else none

theorem number?_eq {n : Nat} {d : Image n} {bounds : List Nat} {off w : Nat} (h : off + w ≤ n)
    (hb : ∀ bound ∈ bounds, off + w ≤ bound) : number? d bounds off w = some (d.readNat off w) :=
  if_pos ⟨h, hb⟩

theorem range?_eq {n : Nat} {d : Image n} {bounds : List Nat} {off len : Nat} (h : off + len ≤ n)
    (hb : ∀ bound ∈ bounds, off + len ≤ bound) : range? d bounds off len = some (d.bytes off len) :=
  if_pos ⟨h, hb⟩

/-- A computation on an image of `n` bytes. -/
abbrev Checked (n : Nat) (α : Type) : Type := StateT (Image n) Option α

namespace Checked

variable {n : Nat} {α β : Type} {d d' : Image n}

/-- The little-endian number of `w` bytes at offset `off`. -/
def loadNat (off w : Nat) : Checked n Nat := fun d =>
  if off + w ≤ n then some (d.readNat off w, d) else none

/-- `len` bytes from offset `off` on. -/
def load (off len : Nat) : Checked n (List UInt8) := fun d =>
  if off + len ≤ n then some (d.bytes off len, d) else none

def storeNat (off w v : Nat) : Checked n Unit := fun d =>
  if off + w ≤ n ∧ v < 256 ^ w then some ((), d.writeNat off w v) else none

def store (off : Nat) (bs : List UInt8) : Checked n Unit := fun d =>
  if off + bs.length ≤ n then some ((), d.splice off bs) else none

def fillZero (off len : Nat) : Checked n Unit := fun d =>
  if off + len ≤ n then some ((), d.clear off len) else none

/-- A difference of unsigned numbers that must fit into 16 bits. -/
def sub16 (a b : Nat) : Checked n Nat := fun d =>
  if b ≤ a ∧ a - b < 65536 then some (a - b, d) else none

/-- `p` makes no access outside the image, returns `r` and leaves `d'`. -/
def Gives (p : Checked n α) (d : Image n) (r : α) (d' : Image n) : Prop := p.run d = some (r, d')

theorem Gives.pure (r : α) (d : Image n) : Gives (pure r) d r d := rfl

theorem Gives.bind {p : Checked n α} {f : α → Checked n β} {r : α} {s : β} {d'' : Image n}
    (h : Gives p d r d') (hf : Gives (f r) d' s d'') : Gives (p >>= f) d s d'' := by
  unfold Gives at h
  unfold Gives
  rw [StateT.run_bind, h]
  exact hf

theorem gives_loadNat {off w : Nat} (h : off + w ≤ n) :
    Gives (loadNat off w) d (d.readNat off w) d := if_pos h

theorem gives_load {off len : Nat} (h : off + len ≤ n) :
    Gives (load off len) d (d.bytes off len) d := if_pos h

theorem gives_storeNat {off w v : Nat} (h : off + w ≤ n) (hv : v < 256 ^ w) :
    Gives (storeNat off w v) d () (d.writeNat off w v) := if_pos ⟨h, hv⟩

theorem gives_store {off : Nat} {bs : List UInt8} (h : off + bs.length ≤ n) :
    Gives (store off bs) d () (d.splice off bs) := if_pos h

theorem gives_fillZero {off len : Nat} (h : off + len ≤ n) :
    Gives (fillZero off len) d () (d.clear off len) := if_pos h

theorem gives_sub16 {a b : Nat} (hle : b ≤ a) (hlt : a - b < 65536) :
    Gives (sub16 a b) d (a - b) d := if_pos ⟨hle, hlt⟩

end Checked

end Lib
