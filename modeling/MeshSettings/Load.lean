import MeshSettings.Save

/-!
# Loading the store at boot

`conf_load` walks every record of the store once and hands it to
`mesh_set_bin`, which cuts the key at its first `/` and dispatches on the
prefix through the `settings[]` table.  Each handler restores one category:
a zero-length value clears the entity, a value of the record's size restores
it, and anything else is refused with an error code that `conf_load` ignores.
Indexed categories read their index back with `strtol(key + n, NULL, 16)`.

Slots of the live arrays are found and allocated as the stack does it
(`bt_mesh_subnet_get`, `bt_mesh_app_key_alloc`, `rpl_alloc`, ...): the first
matching slot, else the first free one.  A handler that copies more bytes than
its destination holds writes past it; `LoadState.outside` keeps those bytes,
so that such writes are visible in the model.  A failed `assert` sets
`LoadState.aborted`: the firmware stops there.
-/

namespace MeshSettings

/--
What loading restores into: the live state, the staged configuration, the
bytes handlers wrote past the end of their destination, and whether an
`assert` has failed.  Nothing the model computes from an aborted state runs on
the device.
-/
structure LoadState where
  mesh : Mesh
  storedCfg : StoredCfg
  outside : Bytes
  aborted : Bool

def LoadState.boot : LoadState := ⟨Mesh.empty, ⟨false, ⟨0, 0, 0, 0, 0, 0, 0⟩⟩, [], false⟩

/-- A `*_set_bin` handler: the full key and the value, to the new state and the return code. -/
abbrev Handler := Path → Bytes → LoadState → LoadState × Int

def eNoent : Int := -2
def eNomem : Int := -12
def eInval : Int := -22
def eNobufs : Int := -105

def strstr (hay needle : List Char) : Bool :=
  match hay with
  | [] => needle.isEmpty
  | c :: cs => needle.isPrefixOf (c :: cs) || strstr cs needle

def keyIndex (key : Path) (skip : Nat) : UInt16 := toU16 (strtol16 (key.drop skip))

/-! ## Slots of the live arrays (modelled from the spec) -/

def Subnet.free : Subnet := ⟨keyUnused, false, 0, fun _ => 0, fun _ => 0⟩

def AppKey.free : AppKey := ⟨keyUnused, keyUnused, false, fun _ => 0, fun _ => 0⟩

def Node.free : Node := ⟨addrUnassigned, 0, fun _ => 0, 0⟩

def subnetSlot (m : Mesh) (netIdx : UInt16) : Option (Nat × Subnet) :=
  firstSlot (·.netIdx == netIdx) m.sub

def appKeySlot (m : Mesh) (appIdx : UInt16) : Option (Nat × AppKey) :=
  firstSlot (fun key => key.netIdx ≠ keyUnused ∧ key.appIdx = appIdx) m.appKeys

/-- `rpl_find`: the first entry with this source; for source 0, the first free entry. -/
def rplFind (m : Mesh) (src : UInt16) : Option (Nat × Rpl) :=
  firstSlot (·.src == src) m.rpl

def nodeSlot (m : Mesh) (addr : UInt16) : Option (Nat × Node) :=
  firstSlot (·.addr == addr) m.nodes

def modelGet (m : Mesh) (vnd : Bool) (elemIdx modIdx : UInt8) : Option (Nat × Model) :=
  firstSlot (fun mod => mod.vnd == vnd && mod.elemIdx == elemIdx && mod.modIdx == modIdx) m.models

/-! ## Singleton categories -/

def roleSetBin : Handler := fun _ value l =>
  let role := value.headD 0
  let flags :=
    if role = 1 then l.mesh.flags.setTo .node true
    else if role = 2 then l.mesh.flags.setTo .provisioner true
    else l.mesh.flags
  ({ l with mesh := { l.mesh with flags } }, 0)

def netSetBin : Handler := fun _ value l =>
  if value.length = 0 then
    ({ l with mesh := { l.mesh with primaryAddr := addrUnassigned, devKey := fun _ => 0 } }, 0)
  else if value.length ≠ 18 then (l, eInval)
  else
    let net := NetVal.decode value
    ({ l with mesh := { l.mesh with devKey := net.devKey, primaryAddr := net.primaryAddr } }, 0)

def ivSetBin : Handler := fun _ value l =>
  if value.length = 0 then
    ({ l with mesh := { l.mesh with
        ivIndex := 0, flags := l.mesh.flags.setTo .ivuInProgress false } }, 0)
  else if value.length ≠ 5 then (l, eInval)
  else
    let iv := IvVal.decode value
    ({ l with mesh := { l.mesh with
        ivIndex := iv.ivIndex, flags := l.mesh.flags.setTo .ivuInProgress iv.ivUpdate,
        ivuDuration := UInt8.ofNat iv.ivDuration.toNat } }, 0)

/--
The sequence number `seq_set_bin` restores from a persisted value `seq`: for a
store rate `rate > 0`, rounded up to the next multiple of `rate`, less one.
-/
def seqRestore (rate seq : Nat) : Nat :=
  if rate > 0 then seq + (rate - seq % rate) - 1 else seq

def seqSetBin (rate : Nat) : Handler := fun _ value l =>
  if value.length = 0 then ({ l with mesh := { l.mesh with seq := 0 } }, 0)
  else if value.length ≠ 3 then (l, eInval)
  else
    let seq := (SeqVal.decode value).val.toNat
    ({ l with mesh := { l.mesh with seq := UInt32.ofNat (seqRestore rate seq) } }, 0)

def hbPubSetBin : Handler := fun _ value l =>
  match l.mesh.hbPub with
  | none => (l, eNoent)
  | some pub =>
      if value.length = 0 then
        let pub := { pub with dst := addrUnassigned, count := 0, ttl := 0, period := 0, feat := 0 }
        ({ l with mesh := { l.mesh with hbPub := some pub } }, 0)
      else if value.length ≠ 8 then (l, eInval)
      else
        let v := HbPubVal.decode value
        let pub := { pub with
          dst := v.dst, period := v.period, ttl := v.ttl, feat := v.feat,
          netIdx := UInt16.ofNat v.netIdx.toNat, count := if v.indefinite then 0xffff else 0 }
        ({ l with mesh := { l.mesh with hbPub := some pub } }, 0)

def cfgSetBin : Handler := fun _ value l =>
  match l.mesh.cfg with
  | none => (l, eNoent)
  | some _ =>
      if value.length = 0 then ({ l with storedCfg := { l.storedCfg with valid := false } }, 0)
      else if value.length ≠ 7 then (l, eInval)
      else ({ l with storedCfg := ⟨true, CfgVal.decode value⟩ }, 0)

/-! ## Indexed categories -/

/-- `rpl_set_bin`.  `rpl_alloc` writes the source into the free slot it returns. -/
def rplSetBin : Handler := fun key value l =>
  let src := keyIndex key 4
  let entry := rplFind l.mesh src
  if value.length = 0 then
    match entry with
    | some (i, _) => ({ l with mesh := { l.mesh with rpl := l.mesh.rpl.set i Rpl.empty } }, 0)
    | none => (l, 0)
  else
    match entry.or (firstSlot (·.src == 0) l.mesh.rpl) with
    | none => (l, eNomem)
    | some (i, e) =>
        let l := { l with mesh := { l.mesh with rpl := l.mesh.rpl.set i { e with src } } }
        if value.length ≠ 4 then (l, eInval)
        else
          let rpl := RplVal.decode value
          let e := { e with src, seq := UInt32.ofNat rpl.seq.toNat, oldIv := rpl.oldIv }
          ({ l with mesh := { l.mesh with rpl := l.mesh.rpl.set i e } }, 0)

def netKeySetBin : Handler := fun key value l =>
  let netIdx := keyIndex key 7
  let sub := subnetSlot l.mesh netIdx
  if value.length = 0 then
    match sub with
    | none => (l, eNoent)
    | some (i, _) => ({ l with mesh := { l.mesh with sub := l.mesh.sub.set i Subnet.free } }, 0)
  else if value.length ≠ 33 then (l, eInval)
  else
    let k := NetKeyVal.decode value
    match sub.or (firstSlot (·.netIdx == keyUnused) l.mesh.sub) with
    | none => (l, eNomem)
    | some (i, _) =>
        let sub : Subnet := ⟨netIdx, k.krFlag, UInt8.ofNat k.krPhase.toNat, k.val0, k.val1⟩
        ({ l with mesh := { l.mesh with sub := l.mesh.sub.set i sub } }, 0)

def appKeySetBin : Handler := fun key value l =>
  let appIdx := keyIndex key 7
  if value.length = 0 then
    match appKeySlot l.mesh appIdx with
    | some (i, _) =>
        ({ l with mesh := { l.mesh with appKeys := l.mesh.appKeys.set i AppKey.free } }, 0)
    | none => (l, 0)
  else if value.length ≠ 35 then (l, eInval)
  else
    let k := AppKeyVal.decode value
    match (appKeySlot l.mesh appIdx).or (firstSlot (·.netIdx == keyUnused) l.mesh.appKeys) with
    | none => (l, eNomem)
    | some (i, _) =>
        let app : AppKey := ⟨k.netIdx, appIdx, k.updated, k.val0, k.val1⟩
        ({ l with mesh := { l.mesh with appKeys := l.mesh.appKeys.set i app } }, 0)

def vaSetBin : Handler := fun key value l =>
  let index := keyIndex key 3
  if value.length = 0 then (l, 0)
  else if value.length ≠ 20 then (l, eInval)
  else
    let va := VaVal.decode value
    if va.ref = 0 then (l, 0)
    else
      match getLabel l.mesh index.toNat with
      | none => (l, eNobufs)
      | some lab =>
          let lab := { lab with uuid := va.uuid, addr := va.addr, ref := va.ref }
          ({ l with mesh := { l.mesh with labels := l.mesh.labels.set index.toNat lab } }, 0)

/--
`node_set_bin`: a known node gets the device key only; `bt_mesh_node_alloc`
fills the first free slot with the address, element count and NetKey index.
-/
def nodeSetBin : Handler := fun key value l =>
  let addr := keyIndex key 5
  if value.length = 0 then
    match nodeSlot l.mesh addr with
    | some (i, _) => ({ l with mesh := { l.mesh with nodes := l.mesh.nodes.set i Node.free } }, 0)
    | none => (l, 0)
  else if value.length ≠ 19 then (l, eInval)
  else
    let val := NodeVal.decode value
    match nodeSlot l.mesh addr with
    | some (i, node) =>
        let node := { node with devKey := val.devKey }
        ({ l with mesh := { l.mesh with nodes := l.mesh.nodes.set i node } }, 0)
    | none =>
        match firstSlot (·.addr == addrUnassigned) l.mesh.nodes with
        | none => (l, eNomem)
        | some (i, _) =>
            let node : Node := ⟨addr, val.netIdx, val.devKey, val.numElem⟩
            ({ l with mesh := { l.mesh with nodes := l.mesh.nodes.set i node } }, 0)

/-! ## Model records -/

/--
`memcpy` of `val` over an array of `u16_t`: two bytes per entry from the front,
little-endian, an odd last byte replacing the low byte of its entry; what does
not fit lands past the array (the second component).
-/
def memcpyU16 : List UInt16 → Bytes → List UInt16 × Bytes
  | arr, [] => (arr, [])
  | [], val => ([], val)
  | a :: arr, [b] => (UInt16.ofNat (a.toNat / 256 * 256 + b.toNat) :: arr, [])
  | _ :: arr, b0 :: b1 :: val =>
      let (arr, past) := memcpyU16 arr val
      (UInt16.ofNat (b0.toNat + 256 * b1.toNat) :: arr, past)

@[simp] theorem memcpyU16_u16Bytes_append (a k : UInt16) (arr : List UInt16) (rest : Bytes) :
    memcpyU16 (a :: arr) (u16Bytes k ++ rest) =
      (k :: (memcpyU16 arr rest).1, (memcpyU16 arr rest).2) := by
  have hk : UInt16.ofNat ((UInt8.ofNat (k.toNat % 256)).toNat +
      256 * (UInt8.ofNat (k.toNat / 256 % 256)).toNat) = k := by
    apply UInt16.toNat.inj
    have := k.toNat_lt_size
    simp only [u8_toNat_ofNat, u16_toNat_ofNat, Nat.mod_mod]
    simp only [UInt16.size] at this
    omega
  simp [u16Bytes, leBytes, memcpyU16, hk]

theorem memcpyU16_flatMap (ks : List UInt16) :
    ∀ arr : List UInt16, ks.length ≤ arr.length →
      memcpyU16 arr (ks.flatMap u16Bytes) = (ks ++ arr.drop ks.length, []) := by
  induction ks with
  | nil => intro arr _; cases arr <;> rfl
  | cons k ks ih =>
      intro arr h
      cases arr with
      | nil => simp at h
      | cons a arr =>
          rw [List.flatMap_cons, memcpyU16_u16Bytes_append, ih arr (by simpa using h)]
          rfl

theorem memcpyU16_length : ∀ (arr : List UInt16) (val : Bytes),
    (memcpyU16 arr val).1.length = arr.length
  | arr, [] => by cases arr <;> rfl
  | [], _ :: _ => rfl
  | _ :: _, [_] => rfl
  | _ :: arr, _ :: _ :: val => by
      show (memcpyU16 arr val).1.length + 1 = arr.length + 1
      rw [memcpyU16_length arr val]

theorem memcpyU16_past : ∀ (arr : List UInt16) (val : Bytes),
    (memcpyU16 arr val).2 = val.drop (2 * arr.length)
  | arr, [] => by cases arr <;> rfl
  | [], _ :: _ => rfl
  | _ :: _, [_] => rfl
  | _ :: arr, _ :: _ :: val => by
      simp only [memcpyU16, memcpyU16_past arr val, List.length_cons]
      rfl

def modSetBindBin (mod : Model) (val : Bytes) : Model × Bytes × Int :=
  let keys := mod.keys.map fun _ => keyUnused
  if val.length = 0 then ({ mod with keys }, [], 0)
  else
    let (keys, past) := memcpyU16 keys val
    ({ mod with keys }, past, 0)

def modSetSubBin (mod : Model) (val : Bytes) : Model × Bytes × Int :=
  let groups := mod.groups.map fun _ => addrUnassigned
  if val.length = 0 then ({ mod with groups }, [], 0)
  else
    let (groups, past) := memcpyU16 groups val
    ({ mod with groups }, past, 0)

/-- `mod_set_pub_bin`: `period_div` is not restored, and the retransmit count restarts. -/
def modSetPubBin (mod : Model) (val : Bytes) : Model × Int :=
  match mod.pub with
  | none => (mod, eInval)
  | some pub =>
      if val.length = 0 then
        let pub := { pub with
          addr := addrUnassigned, key := 0, cred := false, ttl := 0, period := 0,
          retransmit := 0, count := 0 }
        ({ mod with pub := some pub }, 0)
      else if val.length ≠ 8 then (mod, eInval)
      else
        let v := ModPubVal.decode val
        let pub := { pub with
          addr := v.addr, key := v.key, cred := v.cred, ttl := v.ttl, period := v.period,
          retransmit := v.retransmit, count := 0 }
        ({ mod with pub := some pub }, 0)

def modDataSize : Nat := 128

/--
`mod_set_bin`: the model named by `s/<key>` or `v/<key>`, then the record kind
found anywhere in the key.  For opaque data the model's `settings_set` callback
is handed the copy, after `assert(value_len <= sizeof(mod_data))`; the
callback's own effect and result are the model's, and are taken here as
success.
-/
def modSetBin (vnd : Bool) : Handler := fun key value l =>
  let modKey := keyIndex key 2
  match modelGet l.mesh vnd (UInt8.ofNat (modKey.toNat / 256)) (UInt8.ofNat modKey.toNat) with
  | none => (l, eNoent)
  | some (i, mod) =>
      let put (mod : Model) (past : Bytes) : LoadState :=
        { l with mesh := { l.mesh with models := l.mesh.models.set i mod },
                 outside := l.outside ++ past }
      if strstr key "bind".toList then
        let (mod, past, err) := modSetBindBin mod value
        (put mod past, err)
      else if strstr key "sub".toList then
        let (mod, past, err) := modSetSubBin mod value
        (put mod past, err)
      else if strstr key "pub".toList then
        let (mod, err) := modSetPubBin mod value
        (put mod [], err)
      else if strstr key "data".toList then
        let mod := { mod with flags := { mod.flags with dataPresent := true } }
        if mod.hasSettingsSet then
          if modDataSize < value.length then ({ put mod [] with aborted := true }, 0)
          else (put mod (if value.length < modDataSize then [] else [0]), 0)
        else (put mod [], eNoent)
      else (l, eNoent)

def sigModSetBin : Handler := modSetBin false

def vndModSetBin : Handler := modSetBin true

/-! ## Dispatch -/

def settings (rate : Nat) : List (String × Handler) :=
  [("Net", netSetBin), ("IV", ivSetBin), ("Seq", seqSetBin rate), ("RPL", rplSetBin),
    ("NetKey", netKeySetBin), ("AppKey", appKeySetBin), ("HBPub", hbPubSetBin),
    ("Cfg", cfgSetBin), ("s", sigModSetBin), ("v", vndModSetBin), ("Role", roleSetBin),
    ("Va", vaSetBin), ("Node", nodeSetBin)]

def meshSetBin (cfg : Config) : Handler := fun key value l =>
  match (settings cfg.seqStoreRate).find? (·.1.toList = key.takeWhile (· ≠ '/')) with
  | some (_, handler) => handler key value l
  | none => (l, eNoent)

def confLoad (cfg : Config) (records : List (Path × Bytes)) (l : LoadState) : LoadState :=
  records.foldl (fun l r => (meshSetBin cfg r.1 r.2 l).1) l

/-- `mesh_commit`, on the persisted state: nothing unless subnet slot 0 is in use. -/
def meshCommit (l : LoadState) : LoadState :=
  match l.mesh.sub.head? with
  | some sub0 =>
      if sub0.netIdx = keyUnused then l
      else
        let cfg := match l.mesh.cfg, l.storedCfg.valid with
          | some _, true => some l.storedCfg.cfg
          | cfg, _ => cfg
        { l with mesh := { l.mesh with cfg, flags := l.mesh.flags.setTo .valid true } }
  | none => l

def btMeshSettingsLoad (cfg : Config) (roleNode : Bool) (records : List (Path × Bytes))
    (l : LoadState) : LoadState × Int :=
  let l := confLoad cfg records l
  if (l.mesh.flags .node && roleNode) || (l.mesh.flags .provisioner && !roleNode) then
    (meshCommit l, 0)
  else (l, -2)

end MeshSettings
