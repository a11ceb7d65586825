import Mathlib.Data.List.OfFn
import Mathlib.Data.Fintype.Basic

/-!
# Little-endian bytes

The records of the mesh settings store are the in-memory images of the `*_val`
structs of `settings.c`, copied to flash with `memcpy` and copied back the same
way.  The target is little-endian: a multi-byte integer is stored low byte
first, and a C bit-field takes the low bits of its storage unit first.  This
file fixes that layout once.  `leBytes w n` is the `w`-byte image of `n`,
`takeLE w` reads such a field off the front of a record, and `takeBlock` does
the same for the sixteen-byte arrays (keys, device keys, label UUIDs).
-/

namespace MeshSettings

abbrev Bytes := List UInt8

/-- The `w` little-endian bytes of `n`; bits above `8 * w` are dropped. -/
def leBytes : Nat → Nat → Bytes
  | 0, _ => []
  | w + 1, n => UInt8.ofNat (n % 256) :: leBytes w (n / 256)

def leValue : Bytes → Nat
  | [] => 0
  | b :: bs => b.toNat + 256 * leValue bs

@[simp] theorem length_leBytes (w n : Nat) : (leBytes w n).length = w := by
  induction w generalizing n with
  | zero => rfl
  | succ w ih => simp [leBytes, ih]

theorem u8_toNat_ofNat (n : Nat) : (UInt8.ofNat n).toNat = n % 256 := by
  simp [UInt8.toNat, UInt8.ofNat]

theorem leValue_leBytes (w n : Nat) : leValue (leBytes w n) = n % 256 ^ w := by
  induction w generalizing n with
  | zero => simp [leBytes, leValue, Nat.mod_one]
  | succ w ih =>
      simp only [leBytes, leValue, ih, u8_toNat_ofNat, Nat.mod_mod, pow_succ']
      rw [Nat.mod_mul, Nat.mul_comm 256 (n / 256 % 256 ^ w)]

def takeLE (w : Nat) (bs : Bytes) : Nat × Bytes := (leValue (bs.take w), bs.drop w)

@[simp] theorem takeLE_leBytes_append (w n : Nat) (rest : Bytes) :
    takeLE w (leBytes w n ++ rest) = (n % 256 ^ w, rest) := by
  simp [takeLE, List.take_left', List.drop_left', leValue_leBytes]

@[simp] theorem takeLE_leBytes (w n : Nat) :
    takeLE w (leBytes w n) = (n % 256 ^ w, []) := by
  simpa using takeLE_leBytes_append w n []

/-! ## C integer fields -/

theorem u16_toNat_ofNat (n : Nat) : (UInt16.ofNat n).toNat = n % 2 ^ 16 := by
  simp [UInt16.toNat, UInt16.ofNat]

theorem u32_toNat_ofNat (n : Nat) : (UInt32.ofNat n).toNat = n % 2 ^ 32 := by
  simp [UInt32.toNat, UInt32.ofNat]

theorem u8_ofNat_toNat (x : UInt8) : UInt8.ofNat x.toNat = x :=
  UInt8.toNat.inj (by rw [u8_toNat_ofNat]; exact Nat.mod_eq_of_lt x.toNat_lt_size)

theorem u16_ofNat_toNat (x : UInt16) : UInt16.ofNat x.toNat = x :=
  UInt16.toNat.inj (by rw [u16_toNat_ofNat]; exact Nat.mod_eq_of_lt x.toNat_lt_size)

theorem u32_ofNat_toNat (x : UInt32) : UInt32.ofNat x.toNat = x :=
  UInt32.toNat.inj (by rw [u32_toNat_ofNat]; exact Nat.mod_eq_of_lt x.toNat_lt_size)

theorem u32_toNat_add_one (a : UInt32) (h : a.toNat + 1 < 2 ^ 32) : (a + 1).toNat = a.toNat + 1 := by
  simp only [UInt32.toNat] at h
  simp [UInt32.toNat, UInt32.add_def]
  omega

def takeU8 (bs : Bytes) : UInt8 × Bytes := (bs.headD 0, bs.tail)

def u16Bytes (v : UInt16) : Bytes := leBytes 2 v.toNat

def takeU16 (bs : Bytes) : UInt16 × Bytes :=
  let (v, rest) := takeLE 2 bs
  (UInt16.ofNat v, rest)

def u32Bytes (v : UInt32) : Bytes := leBytes 4 v.toNat

def takeU32 (bs : Bytes) : UInt32 × Bytes :=
  let (v, rest) := takeLE 4 bs
  (UInt32.ofNat v, rest)

@[simp] theorem takeU8_cons (v : UInt8) (rest : Bytes) : takeU8 (v :: rest) = (v, rest) := rfl

@[simp] theorem length_u16Bytes (v : UInt16) : (u16Bytes v).length = 2 := length_leBytes _ _

@[simp] theorem length_u32Bytes (v : UInt32) : (u32Bytes v).length = 4 := length_leBytes _ _

@[simp] theorem takeU16_u16Bytes_append (v : UInt16) (rest : Bytes) :
    takeU16 (u16Bytes v ++ rest) = (v, rest) := by
  have hv := v.toNat_lt_size
  simp only [takeU16, u16Bytes, takeLE_leBytes_append, Prod.mk.injEq, and_true]
  apply UInt16.toNat.inj
  rw [u16_toNat_ofNat]
  simp [UInt16.size] at hv ⊢
  omega

@[simp] theorem takeU32_u32Bytes_append (v : UInt32) (rest : Bytes) :
    takeU32 (u32Bytes v ++ rest) = (v, rest) := by
  have hv := v.toNat_lt_size
  simp only [takeU32, u32Bytes, takeLE_leBytes_append, Prod.mk.injEq, and_true]
  apply UInt32.toNat.inj
  rw [u32_toNat_ofNat]
  simp [UInt32.size] at hv ⊢
  omega

@[simp] theorem takeU16_u16Bytes (v : UInt16) : takeU16 (u16Bytes v) = (v, []) := by
  simpa using takeU16_u16Bytes_append v []

/-! ## Bit-fields -/

def testBitField (unit k : Nat) : Bool := unit / 2 ^ k % 2 = 1

theorem testBitField_add_mul (low k : Nat) (b : Bool) (high : Nat) (h : low < 2 ^ k) :
    testBitField (low + 2 ^ k * (b.toNat + 2 * high)) k = b := by
  have hpos : 0 < 2 ^ k := Nat.two_pow_pos k
  have hdiv : (low + 2 ^ k * (b.toNat + 2 * high)) / 2 ^ k = b.toNat + 2 * high := by
    rw [Nat.add_mul_div_left _ _ hpos, Nat.div_eq_of_lt h, Nat.zero_add]
  rw [testBitField, hdiv]
  cases b <;> simp [Nat.add_mul_mod_self_left]

theorem bitVec_ofNat_add_mul (k : Nat) (v : BitVec k) (m : Nat) :
    BitVec.ofNat k (v.toNat + 2 ^ k * m) = v := by
  apply BitVec.eq_of_toNat_eq
  rw [BitVec.toNat_ofNat, Nat.add_mul_mod_self_left, Nat.mod_eq_of_lt v.isLt]

/-! ## Sixteen-byte arrays -/

abbrev Bytes16 := Fin 16 → UInt8

def Bytes16.toBytes (b : Bytes16) : Bytes := List.ofFn b

@[simp] theorem Bytes16.length_toBytes (b : Bytes16) : b.toBytes.length = 16 :=
  List.length_ofFn b

def takeBlock (bs : Bytes) : Bytes16 × Bytes := (fun i => bs.getD i 0, bs.drop 16)

@[simp] theorem takeBlock_toBytes_append (b : Bytes16) (rest : Bytes) :
    takeBlock (b.toBytes ++ rest) = (b, rest) := by
  refine Prod.ext (funext fun i => ?_) (List.drop_left' (Bytes16.length_toBytes b))
  have hi : (i : Nat) < b.toBytes.length := by simp
  show (b.toBytes ++ rest).getD i 0 = b i
  rw [List.getD_eq_getElem?_getD, List.getElem?_append_left hi]
  simp only [Bytes16.toBytes, List.getElem?_ofFn, List.ofFnNthVal, dif_pos i.isLt,
    Option.getD_some]

@[simp] theorem takeBlock_toBytes (b : Bytes16) : takeBlock b.toBytes = (b, []) := by
  simpa using takeBlock_toBytes_append b []

end MeshSettings
