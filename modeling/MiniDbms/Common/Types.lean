import MiniDbms.Lib.Image

/-!
# Status codes, page ids and record ids

The types of `include/common`: `StatusCode`, `Status`, `PageId`, `SlotId`, `RecordID`,
and the 4096-byte image of a page. A `std::string` and the bytes of a record are both
lists of bytes. A function that returns a `Status` and fills an output is a function
into `Except Status`; the value `Status::OK()` is `.ok`.
-/

namespace MiniDbms

open Lib

/-- `std::string`, `std::vector<char>`. -/
abbrev Bytes := List UInt8

/-- The bytes of a message. -/
def str (s : String) : Bytes := s.toList.map fun c => UInt8.ofNat c.toNat

inductive StatusCode where
  | notFound
  | invalidArgument
  | ioError
  | outOfMemory
  | pagePinned
  deriving DecidableEq, Repr

/-- A status that is not OK. -/
structure Status where
  code : StatusCode
  msg : Bytes
  deriving DecidableEq, Repr

namespace Status

def invalidArgument (msg : String) : Status := ⟨.invalidArgument, str msg⟩
def notFound (msg : String) : Status := ⟨.notFound, str msg⟩
def ioError (msg : String) : Status := ⟨.ioError, str msg⟩
def outOfMemory (msg : String) : Status := ⟨.outOfMemory, str msg⟩

@[simp] theorem code_invalidArgument (m : String) :
    (invalidArgument m).code = .invalidArgument := rfl
@[simp] theorem code_notFound (m : String) : (notFound m).code = .notFound := rfl
@[simp] theorem code_ioError (m : String) : (ioError m).code = .ioError := rfl
@[simp] theorem code_outOfMemory (m : String) : (outOfMemory m).code = .outOfMemory := rfl

end Status

/-- `using PageId = int32_t`. -/
abbrev PageId := Int32

/-- `using FrameId = int32_t`: an index into the frames of a pool, never negative in the model. -/
abbrev FrameId := Nat

/-- `using SlotId = uint16_t`. -/
abbrev SlotId := UInt16

def pageSize : Nat := 4096

theorem pageSize_eq : pageSize = 4096 := rfl

def invalidPageId : PageId := -1

def headerPageId : PageId := 0

/-- The `PAGE_SIZE` bytes of a page. -/
abbrev PageData := Image pageSize

theorem mapM_ok {α β : Type} {f : α → Except Status β} {g : α → β} {l : List α}
    (h : ∀ a ∈ l, f a = .ok (g a)) : l.mapM f = .ok (l.map g) := by
  induction l with
  | nil => rfl
  | cons a l ih =>
    rw [List.mapM_cons, h a List.mem_cons_self, ih fun b hb => h b (List.mem_cons_of_mem a hb)]
    rfl

structure RecordID where
  pageId : PageId := invalidPageId
  slotId : SlotId := 0
  deriving DecidableEq, Repr

/-- A conversion to `uint16_t`. -/
def toU16 (n : Int) : Nat := (n % 65536).toNat

theorem toU16_of_lt {n : Nat} (h : n < 65536) : toU16 n = n := by
  unfold toU16
  omega

theorem toU16_sub {a b : Nat} (hle : b ≤ a) (h : a < 65536) : toU16 ((a : Int) - b) = a - b := by
  unfold toU16
  omega

/-! ## Page ids in a byte image -/

namespace PageData

/-- `ReadValue<PageId>`. -/
def readPageId (d : PageData) (off : Nat) : PageId :=
  (UInt32.ofNat (d.readNat off 4)).toInt32

/-- `WriteValue<PageId>`. -/
def writePageId (d : PageData) (off : Nat) (p : PageId) : PageData :=
  d.writeNat off 4 p.toUInt32.toNat

theorem readPageId_writePageId_same (d : PageData) {off : Nat} (p : PageId)
    (hfit : off + 4 ≤ pageSize) : readPageId (writePageId d off p) off = p := by
  have hlt : p.toUInt32.toNat < 256 ^ 4 := p.toUInt32.toNat_lt
  rw [readPageId, writePageId, Image.readNat_writeNat_same d hfit, Nat.mod_eq_of_lt hlt]
  simp

theorem readPageId_congr {d e : PageData} {off off' : Nat}
    (h : d.readNat off 4 = e.readNat off' 4) : readPageId d off = readPageId e off' := by
  rw [readPageId, readPageId, h]

end PageData

theorem toInt_invalidPageId : invalidPageId.toInt = -1 := by decide

theorem toInt_headerPageId : headerPageId.toInt = 0 := by decide

theorem ne_invalid_of_pos {p : PageId} (h : 0 < p.toInt) : p ≠ invalidPageId := by
  rintro rfl
  rw [toInt_invalidPageId] at h
  omega

end MiniDbms
