import MeshSettings.Foundation.Bytes

/-!
# Record layouts

The value `settings.c` stores for each category is the byte image of one of
its `*_val` structs, and the loader `memcpy`s a value of the right length back
into the same struct.  Each struct is a structure here, with the widths of its
members in their types: `UInt8`, `UInt16` and `UInt32` for the C integers,
`BitVec k` for a `k`-bit bit-field and `Bool` for a one-bit one.  `encode` is
the byte image and `decode` the `memcpy` back.  Three structs end in a storage
unit whose top bits no member names; they are a field `pad` here, since the
byte image carries them and the store side leaves them as the stack held them.
Every record reads back as itself (`decode_encode`).
-/

namespace MeshSettings

/-- A storage unit holding a `k`-bit field in its low bits, a flag above it, and unnamed bits above
that. -/
def lowFieldUnit {k j : Nat} (field : BitVec k) (flag : Bool) (pad : BitVec j) : Nat :=
  field.toNat + 2 ^ k * (flag.toNat + 2 * pad.toNat)

def flagFirstUnit {k : Nat} (flag : Bool) (field : BitVec k) : Nat :=
  flag.toNat + 2 * field.toNat

theorem lowFieldUnit_eq {k j : Nat} (field : BitVec k) (flag : Bool) (pad : BitVec j) :
    lowFieldUnit field flag pad = (field.toNat + 2 ^ k * flag.toNat) + 2 ^ (k + 1) * pad.toNat := by
  rw [lowFieldUnit, Nat.mul_add, pow_succ, Nat.mul_assoc, Nat.add_assoc]

theorem low_lt_two_pow_succ {k : Nat} (field : BitVec k) (flag : Bool) :
    field.toNat + 2 ^ k * flag.toNat < 2 ^ (k + 1) := by
  have h1 := field.isLt
  rw [pow_succ]
  cases flag <;> simp <;> omega

theorem lowFieldUnit_lt {k j : Nat} (field : BitVec k) (flag : Bool) (pad : BitVec j) :
    lowFieldUnit field flag pad < 2 ^ (k + 1 + j) :=
  calc lowFieldUnit field flag pad
      = (field.toNat + 2 ^ k * flag.toNat) + 2 ^ (k + 1) * pad.toNat := lowFieldUnit_eq _ _ _
    _ < 2 ^ (k + 1) + 2 ^ (k + 1) * pad.toNat := Nat.add_lt_add_right (low_lt_two_pow_succ _ _) _
    _ = 2 ^ (k + 1) * (pad.toNat + 1) := by rw [Nat.mul_add, Nat.mul_one, Nat.add_comm]
    _ ≤ 2 ^ (k + 1) * 2 ^ j := Nat.mul_le_mul_left _ pad.isLt
    _ = 2 ^ (k + 1 + j) := (pow_add 2 (k + 1) j).symm

theorem flagFirstUnit_lt {k : Nat} (flag : Bool) (field : BitVec k) :
    flagFirstUnit flag field < 2 ^ (k + 1) := by
  have h1 := field.isLt
  rw [flagFirstUnit, pow_succ]
  cases flag <;> simp only [Bool.toNat_false, Bool.toNat_true] <;> omega

@[simp] theorem bitVec_ofNat_lowFieldUnit {k j : Nat} (field : BitVec k) (flag : Bool)
    (pad : BitVec j) : BitVec.ofNat k (lowFieldUnit field flag pad) = field :=
  bitVec_ofNat_add_mul k field _

@[simp] theorem testBitField_lowFieldUnit {k j : Nat} (field : BitVec k) (flag : Bool)
    (pad : BitVec j) : testBitField (lowFieldUnit field flag pad) k = flag :=
  testBitField_add_mul field.toNat k flag pad.toNat field.isLt

@[simp] theorem bitVec_ofNat_lowFieldUnit_div {k j : Nat} (field : BitVec k) (flag : Bool)
    (pad : BitVec j) {d : Nat} (hd : d = 2 ^ (k + 1)) :
    BitVec.ofNat j (lowFieldUnit field flag pad / d) = pad := by
  rw [hd, lowFieldUnit_eq, Nat.add_mul_div_left _ _ (Nat.two_pow_pos _),
    Nat.div_eq_of_lt (low_lt_two_pow_succ field flag), Nat.zero_add]
  exact BitVec.eq_of_toNat_eq (by simp [Nat.mod_eq_of_lt pad.isLt])

@[simp] theorem testBitField_flagFirstUnit {k : Nat} (flag : Bool) (field : BitVec k) :
    testBitField (flagFirstUnit flag field) 0 = flag := by
  cases flag <;> simp [flagFirstUnit, testBitField, Nat.add_mul_mod_self_left]

@[simp] theorem bitVec_ofNat_flagFirstUnit {k : Nat} (flag : Bool) (field : BitVec k) :
    BitVec.ofNat k (flagFirstUnit flag field / 2) = field := by
  have : flagFirstUnit flag field / 2 = field.toNat := by
    cases flag <;> simp only [flagFirstUnit, Bool.toNat_false, Bool.toNat_true] <;> omega
  rw [this]
  exact BitVec.eq_of_toNat_eq (by simp [Nat.mod_eq_of_lt field.isLt])

theorem u8_ofNat_toNat_of_lt {n : Nat} (h : n < 2 ^ 8) : (UInt8.ofNat n).toNat = n := by
  rw [u8_toNat_ofNat]
  exact Nat.mod_eq_of_lt h

/-! ## Singletons -/

structure NetVal where
  primaryAddr : UInt16
  devKey : Bytes16
  deriving DecidableEq

def NetVal.encode (v : NetVal) : Bytes := u16Bytes v.primaryAddr ++ v.devKey.toBytes

def NetVal.decode (bs : Bytes) : NetVal :=
  let (primaryAddr, bs) := takeU16 bs
  let (devKey, _) := takeBlock bs
  { primaryAddr, devKey }

@[simp] theorem NetVal.decode_encode (v : NetVal) : NetVal.decode v.encode = v := by
  simp [NetVal.decode, NetVal.encode]

@[simp] theorem NetVal.length_encode (v : NetVal) : v.encode.length = 18 := by
  simp [NetVal.encode]

structure IvVal where
  ivIndex : UInt32
  ivUpdate : Bool
  ivDuration : BitVec 7
  deriving DecidableEq

def IvVal.encode (v : IvVal) : Bytes :=
  u32Bytes v.ivIndex ++ [UInt8.ofNat (flagFirstUnit v.ivUpdate v.ivDuration)]

def IvVal.decode (bs : Bytes) : IvVal :=
  let (ivIndex, bs) := takeU32 bs
  let (unit, _) := takeU8 bs
  { ivIndex, ivUpdate := testBitField unit.toNat 0,
    ivDuration := BitVec.ofNat 7 (unit.toNat / 2) }

@[simp] theorem IvVal.decode_encode (v : IvVal) : IvVal.decode v.encode = v := by
  simp [IvVal.decode, IvVal.encode, u8_ofNat_toNat_of_lt (flagFirstUnit_lt _ _)]

@[simp] theorem IvVal.length_encode (v : IvVal) : v.encode.length = 5 := by
  simp [IvVal.encode]

structure SeqVal where
  val : BitVec 24
  deriving DecidableEq

def SeqVal.encode (v : SeqVal) : Bytes := leBytes 3 v.val.toNat

def SeqVal.decode (bs : Bytes) : SeqVal := ⟨BitVec.ofNat 24 (takeLE 3 bs).1⟩

@[simp] theorem SeqVal.decode_encode (v : SeqVal) : SeqVal.decode v.encode = v := by
  simp only [SeqVal.decode, SeqVal.encode, takeLE_leBytes]
  congr
  exact BitVec.eq_of_toNat_eq (by simp [Nat.mod_eq_of_lt v.val.isLt])

@[simp] theorem SeqVal.length_encode (v : SeqVal) : v.encode.length = 3 := by
  simp [SeqVal.encode]

/-- `struct hb_pub_val`: `net_idx:12, indefinite:1` share the last `u16_t`, over 3 unnamed bits. -/
structure HbPubVal where
  dst : UInt16
  period : UInt8
  ttl : UInt8
  feat : UInt16
  netIdx : BitVec 12
  indefinite : Bool
  pad : BitVec 3
  deriving DecidableEq

def HbPubVal.encode (v : HbPubVal) : Bytes :=
  u16Bytes v.dst ++ [v.period, v.ttl] ++ u16Bytes v.feat ++
    leBytes 2 (lowFieldUnit v.netIdx v.indefinite v.pad)

def HbPubVal.decode (bs : Bytes) : HbPubVal :=
  let (dst, bs) := takeU16 bs
  let (period, bs) := takeU8 bs
  let (ttl, bs) := takeU8 bs
  let (feat, bs) := takeU16 bs
  let (unit, _) := takeLE 2 bs
  { dst, period, ttl, feat, netIdx := BitVec.ofNat 12 unit,
    indefinite := testBitField unit 12, pad := BitVec.ofNat 3 (unit / 2 ^ 13) }

@[simp] theorem HbPubVal.decode_encode (v : HbPubVal) : HbPubVal.decode v.encode = v := by
  have h : lowFieldUnit v.netIdx v.indefinite v.pad % 65536 =
      lowFieldUnit v.netIdx v.indefinite v.pad :=
    Nat.mod_eq_of_lt (lowFieldUnit_lt v.netIdx v.indefinite v.pad)
  simp [HbPubVal.decode, HbPubVal.encode, h]

@[simp] theorem HbPubVal.length_encode (v : HbPubVal) : v.encode.length = 8 := by
  simp [HbPubVal.encode]

structure CfgVal where
  netTransmit : UInt8
  relay : UInt8
  relayRetransmit : UInt8
  beacon : UInt8
  gattProxy : UInt8
  frnd : UInt8
  defaultTtl : UInt8
  deriving DecidableEq

def CfgVal.encode (v : CfgVal) : Bytes :=
  [v.netTransmit, v.relay, v.relayRetransmit, v.beacon, v.gattProxy, v.frnd, v.defaultTtl]

def CfgVal.decode (bs : Bytes) : CfgVal :=
  ⟨bs.getD 0 0, bs.getD 1 0, bs.getD 2 0, bs.getD 3 0, bs.getD 4 0, bs.getD 5 0,
    bs.getD 6 0⟩

@[simp] theorem CfgVal.decode_encode (v : CfgVal) : CfgVal.decode v.encode = v := rfl

@[simp] theorem CfgVal.length_encode (v : CfgVal) : v.encode.length = 7 := rfl

/-! ## Indexed categories -/

/-- `struct rpl_val`: `seq:24, old_iv:1` in one `u32_t`, over 7 unnamed bits. -/
structure RplVal where
  seq : BitVec 24
  oldIv : Bool
  pad : BitVec 7
  deriving DecidableEq

def RplVal.encode (v : RplVal) : Bytes := leBytes 4 (lowFieldUnit v.seq v.oldIv v.pad)

def RplVal.decode (bs : Bytes) : RplVal :=
  let (unit, _) := takeLE 4 bs
  { seq := BitVec.ofNat 24 unit, oldIv := testBitField unit 24,
    pad := BitVec.ofNat 7 (unit / 2 ^ 25) }

@[simp] theorem RplVal.decode_encode (v : RplVal) : RplVal.decode v.encode = v := by
  have h : lowFieldUnit v.seq v.oldIv v.pad % 256 ^ 4 = lowFieldUnit v.seq v.oldIv v.pad :=
    Nat.mod_eq_of_lt (lowFieldUnit_lt v.seq v.oldIv v.pad)
  simp only [RplVal.decode, RplVal.encode, takeLE_leBytes, h, bitVec_ofNat_lowFieldUnit,
    testBitField_lowFieldUnit, bitVec_ofNat_lowFieldUnit_div _ _ _ rfl]

@[simp] theorem RplVal.length_encode (v : RplVal) : v.encode.length = 4 := by
  simp [RplVal.encode]

structure NetKeyVal where
  krFlag : Bool
  krPhase : BitVec 7
  val0 : Bytes16
  val1 : Bytes16
  deriving DecidableEq

def NetKeyVal.encode (v : NetKeyVal) : Bytes :=
  UInt8.ofNat (flagFirstUnit v.krFlag v.krPhase) :: v.val0.toBytes ++ v.val1.toBytes

def NetKeyVal.decode (bs : Bytes) : NetKeyVal :=
  let (unit, bs) := takeU8 bs
  let (val0, bs) := takeBlock bs
  let (val1, _) := takeBlock bs
  { krFlag := testBitField unit.toNat 0, krPhase := BitVec.ofNat 7 (unit.toNat / 2), val0, val1 }

@[simp] theorem NetKeyVal.decode_encode (v : NetKeyVal) : NetKeyVal.decode v.encode = v := by
  simp [NetKeyVal.decode, NetKeyVal.encode, u8_ofNat_toNat_of_lt (flagFirstUnit_lt _ _)]

@[simp] theorem NetKeyVal.length_encode (v : NetKeyVal) : v.encode.length = 33 := by
  simp [NetKeyVal.encode]

structure AppKeyVal where
  netIdx : UInt16
  updated : Bool
  val0 : Bytes16
  val1 : Bytes16
  deriving DecidableEq

def AppKeyVal.encode (v : AppKeyVal) : Bytes :=
  u16Bytes v.netIdx ++ UInt8.ofNat v.updated.toNat :: v.val0.toBytes ++ v.val1.toBytes

def AppKeyVal.decode (bs : Bytes) : AppKeyVal :=
  let (netIdx, bs) := takeU16 bs
  let (updated, bs) := takeU8 bs
  let (val0, bs) := takeBlock bs
  let (val1, _) := takeBlock bs
  { netIdx, updated := updated ≠ 0, val0, val1 }

@[simp] theorem AppKeyVal.decode_encode (v : AppKeyVal) : AppKeyVal.decode v.encode = v := by
  cases v with
  | mk netIdx updated val0 val1 => cases updated <;> simp [AppKeyVal.decode, AppKeyVal.encode]

@[simp] theorem AppKeyVal.length_encode (v : AppKeyVal) : v.encode.length = 35 := by
  simp [AppKeyVal.encode]

/-- `struct mod_pub_val`: `period_div:4, cred:1` share the last byte, over 3 unnamed bits. -/
structure ModPubVal where
  addr : UInt16
  key : UInt16
  ttl : UInt8
  retransmit : UInt8
  period : UInt8
  periodDiv : BitVec 4
  cred : Bool
  pad : BitVec 3
  deriving DecidableEq

def ModPubVal.encode (v : ModPubVal) : Bytes :=
  u16Bytes v.addr ++ u16Bytes v.key ++
    [v.ttl, v.retransmit, v.period, UInt8.ofNat (lowFieldUnit v.periodDiv v.cred v.pad)]

def ModPubVal.decode (bs : Bytes) : ModPubVal :=
  let (addr, bs) := takeU16 bs
  let (key, bs) := takeU16 bs
  let (ttl, bs) := takeU8 bs
  let (retransmit, bs) := takeU8 bs
  let (period, bs) := takeU8 bs
  let (unit, _) := takeU8 bs
  { addr, key, ttl, retransmit, period, periodDiv := BitVec.ofNat 4 unit.toNat,
    cred := testBitField unit.toNat 4, pad := BitVec.ofNat 3 (unit.toNat / 2 ^ 5) }

def ModPubVal.zero : ModPubVal := ⟨0, 0, 0, 0, 0, 0, false, 0⟩

@[simp] theorem ModPubVal.decode_encode (v : ModPubVal) : ModPubVal.decode v.encode = v := by
  have h := u8_ofNat_toNat_of_lt (lowFieldUnit_lt v.periodDiv v.cred v.pad)
  simp [ModPubVal.decode, ModPubVal.encode, h]

@[simp] theorem ModPubVal.length_encode (v : ModPubVal) : v.encode.length = 8 := by
  simp [ModPubVal.encode]

structure VaVal where
  ref : UInt16
  addr : UInt16
  uuid : Bytes16
  deriving DecidableEq

def VaVal.encode (v : VaVal) : Bytes := u16Bytes v.ref ++ u16Bytes v.addr ++ v.uuid.toBytes

def VaVal.decode (bs : Bytes) : VaVal :=
  let (ref, bs) := takeU16 bs
  let (addr, bs) := takeU16 bs
  let (uuid, _) := takeBlock bs
  { ref, addr, uuid }

@[simp] theorem VaVal.decode_encode (v : VaVal) : VaVal.decode v.encode = v := by
  simp [VaVal.decode, VaVal.encode]

@[simp] theorem VaVal.length_encode (v : VaVal) : v.encode.length = 20 := by
  simp [VaVal.encode]

structure NodeVal where
  netIdx : UInt16
  devKey : Bytes16
  numElem : UInt8
  deriving DecidableEq

def NodeVal.encode (v : NodeVal) : Bytes := u16Bytes v.netIdx ++ v.devKey.toBytes ++ [v.numElem]

def NodeVal.decode (bs : Bytes) : NodeVal :=
  let (netIdx, bs) := takeU16 bs
  let (devKey, bs) := takeBlock bs
  let (numElem, _) := takeU8 bs
  { netIdx, devKey, numElem }

@[simp] theorem NodeVal.decode_encode (v : NodeVal) : NodeVal.decode v.encode = v := by
  simp [NodeVal.decode, NodeVal.encode]

@[simp] theorem NodeVal.length_encode (v : NodeVal) : v.encode.length = 19 := by
  simp [NodeVal.encode]

end MeshSettings
