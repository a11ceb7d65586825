import MeshSettings.State

/-!
# The store side

Every function of `settings.c` that writes a record: the `store_pending_*`
functions the flush runs, the direct writers `store_net_key`, `store_app_key`,
`store_node` and `store_rpl`, and the `clear_*` functions that delete a key.
Each builds the category's `*_val` struct from the live state and hands its
bytes to `settings_save_one` under the key `snprintk` prints.
-/

namespace MeshSettings

def indexPath (name : String) (index : Nat) : Path := name.toList ++ '/' :: hex index

theorem indexPath_injective (name : String) : Function.Injective (indexPath name) :=
  fun i j h => hex_injective (by simpa [indexPath] using h)

/-! ## Singleton categories -/

def clearIv (st : Store) : Store := settingsSaveOne st "IV".toList []

def clearNet (st : Store) : Store := settingsSaveOne st "Net".toList []

def clearCfg (st : Store) : Store := settingsSaveOne st "Cfg".toList []

def storePendingNet (m : Mesh) (st : Store) : Store :=
  settingsSaveOne st "Net".toList (NetVal.encode ⟨m.primaryAddr, m.devKey⟩)

def storePendingIv (m : Mesh) (st : Store) : Store :=
  settingsSaveOne st "IV".toList
    (IvVal.encode ⟨m.ivIndex, m.flags .ivuInProgress, BitVec.ofNat 7 m.ivuDuration.toNat⟩)

def storePendingSeq (m : Mesh) (st : Store) : Store :=
  settingsSaveOne st "Seq".toList (SeqVal.encode ⟨BitVec.ofNat 24 m.seq.toNat⟩)

def storePendingRole (m : Mesh) (st : Store) : Store :=
  if m.flags .provisioner then settingsSaveOne st "Role".toList [2]
  else if m.flags .node then settingsSaveOne st "Role".toList [1]
  else st

/--
The record `store_pending_hb_pub` writes: all zero (`memset`) when the destination is
unassigned, else the members it sets over the `pad` bits the stack held.
-/
def hbPubValOf (pub : HbPub) (pad : Nat) : HbPubVal :=
  if pub.dst = addrUnassigned then ⟨0, 0, 0, 0, 0, false, 0⟩
  else ⟨pub.dst, pub.period, pub.ttl, pub.feat, BitVec.ofNat 12 pub.netIdx.toNat,
    pub.count = 0xffff, BitVec.ofNat 3 pad⟩

def storePendingHbPub (stack : Path → Nat) (m : Mesh) (st : Store) : Store :=
  match m.hbPub with
  | none => st
  | some pub => settingsSaveOne st "HBPub".toList (hbPubValOf pub (stack "HBPub".toList)).encode

def storePendingCfg (m : Mesh) (st : Store) : Store :=
  match m.cfg with
  | none => st
  | some cfg => settingsSaveOne st "Cfg".toList cfg.encode

/-! ## Keys and nodes -/

def netKeyValOf (sub : Subnet) : NetKeyVal :=
  ⟨sub.krFlag, BitVec.ofNat 7 sub.krPhase.toNat, sub.net0, sub.net1⟩

def appKeyValOf (app : AppKey) : AppKeyVal := ⟨app.netIdx, app.updated, app.val0, app.val1⟩

def nodeValOf (node : Node) : NodeVal := ⟨node.netIdx, node.devKey, node.numElem⟩

def clearAppKey (st : Store) (appIdx : UInt16) : Store :=
  settingsSaveOne st (indexPath "AppKey" appIdx.toNat) []

def clearNetKey (st : Store) (netIdx : UInt16) : Store :=
  settingsSaveOne st (indexPath "NetKey" netIdx.toNat) []

def storeNetKey (st : Store) (sub : Subnet) : Store :=
  settingsSaveOne st (indexPath "NetKey" sub.netIdx.toNat) (netKeyValOf sub).encode

def storeAppKey (st : Store) (app : AppKey) : Store :=
  settingsSaveOne st (indexPath "AppKey" app.appIdx.toNat) (appKeyValOf app).encode

def storeNode (st : Store) (node : Node) : Store :=
  settingsSaveOne st (indexPath "Node" node.addr.toNat) (nodeValOf node).encode

def clearNode (st : Store) (addr : UInt16) : Store :=
  settingsSaveOne st (indexPath "Node" addr.toNat) []

/-! ## Replay protection -/

/-- The `rpl_val` `store_rpl` fills in: `seq` and `old_iv` over the `pad` bits the stack held. -/
def rplValOf (entry : Rpl) (pad : Nat) : RplVal :=
  ⟨BitVec.ofNat 24 entry.seq.toNat, entry.oldIv, BitVec.ofNat 7 pad⟩

def storeRpl (stack : Path → Nat) (st : Store) (entry : Rpl) : Store :=
  let path := indexPath "RPL" entry.src.toNat
  settingsSaveOne st path (rplValOf entry (stack path)).encode

def storePendingRpl (s : Settings) : Settings :=
  { s with
    store := s.mesh.rpl.foldl (fun st e => if e.store then storeRpl s.stack st e else st) s.store
    mesh := { s.mesh with rpl := s.mesh.rpl.map fun e => { e with store := false } } }

def clearRpl (s : Settings) : Settings :=
  { s with
    store := s.mesh.rpl.foldl
      (fun st e => if e.src ≠ 0 then settingsSaveOne st (indexPath "RPL" e.src.toNat) [] else st)
      s.store
    mesh := { s.mesh with rpl := s.mesh.rpl.map fun e => if e.src ≠ 0 then Rpl.empty else e } }

/-! ## Models -/

def Model.modKey (mod : Model) : Nat := mod.elemIdx.toNat * 256 + mod.modIdx.toNat

def encodeModPath (mod : Model) (vnd : Bool) (key : String) : Path :=
  (if vnd then 'v' else 's') :: '/' :: hex mod.modKey ++ '/' :: key.toList

def bindRecord (keys : List UInt16) : Bytes := (keys.filter (· ≠ keyUnused)).flatMap u16Bytes

def subRecord (groups : List UInt16) : Bytes :=
  let used := groups.filter (· ≠ addrUnassigned)
  (used ++ List.replicate (groups.length - used.length) 0).flatMap u16Bytes

def storePendingModBind (st : Store) (mod : Model) (vnd : Bool) : Store :=
  settingsSaveOne st (encodeModPath mod vnd "bind") (bindRecord mod.keys)

def storePendingModSub (st : Store) (mod : Model) (vnd : Bool) : Store :=
  settingsSaveOne st (encodeModPath mod vnd "sub") (subRecord mod.groups)

/--
The record `store_pending_mod_pub` writes: all zero (`memset`) without a publication
address, else the members it sets over the `pad` bits the stack held.
-/
def modPubValOf : Option ModelPub → Nat → ModPubVal
  | some pub, pad =>
      if pub.addr = addrUnassigned then ModPubVal.zero
      else ⟨pub.addr, pub.key, pub.ttl, pub.retransmit, pub.period, pub.periodDiv, pub.cred,
        BitVec.ofNat 3 pad⟩
  | none, _ => ModPubVal.zero

def storePendingModPub (stack : Path → Nat) (st : Store) (mod : Model) (vnd : Bool) : Store :=
  let path := encodeModPath mod vnd "pub"
  settingsSaveOne st path (modPubValOf mod.pub (stack path)).encode

def storePendingMod (stack : Path → Nat) (st : Store) (mod : Model) : Store × Model :=
  let st := if mod.flags.bindPending then storePendingModBind st mod mod.vnd else st
  let st := if mod.flags.subPending then storePendingModSub st mod mod.vnd else st
  let st := if mod.flags.pubPending then storePendingModPub stack st mod mod.vnd else st
  (st, { mod with flags := { mod.flags with
    bindPending := false, subPending := false, pubPending := false } })

def storePendingMods (s : Settings) : Settings :=
  { s with
    store := s.mesh.models.foldl (fun st mod => (storePendingMod s.stack st mod).1) s.store
    mesh := { s.mesh with
      models := s.mesh.models.map fun mod => (storePendingMod s.stack s.store mod).2 } }

/-! ## Virtual addresses -/

def vaValOf (lab : Label) : VaVal := ⟨lab.ref, lab.addr, lab.uuid⟩

def storePendingVaStep (m : Mesh) (st : Store) (i : Nat) : Store :=
  match getLabel m i with
  | some lab =>
      if lab.changed then
        if lab.ref = 0 then st
        else settingsSaveOne st (indexPath "Va" i) (vaValOf lab).encode
      else st
  | none => st

/--
`store_pending_va`: for every label whose `BT_MESH_VA_CHANGED` was set, clear
the flag and write the label.  A label whose reference count dropped to zero
(`IS_VA_DEL`) only has its `va_val` zeroed; no record is written or deleted.
-/
def storePendingVa (s : Settings) : Settings :=
  { s with
    store := (List.range s.mesh.labels.length).foldl (storePendingVaStep s.mesh) s.store
    mesh := { s.mesh with labels := s.mesh.labels.map fun lab => { lab with changed := false } } }

def vaWrite (m : Mesh) (i : Nat) : Option Bytes :=
  match getLabel m i with
  | some lab => if lab.changed ∧ lab.ref ≠ 0 then some (vaValOf lab).encode else none
  | none => none

theorem storePendingVaStep_apply (m : Mesh) (st : Store) (i : Nat) (p : Path) :
    storePendingVaStep m st i p =
      if (vaWrite m i).isSome = true ∧ indexPath "Va" i = p then (vaWrite m i).or (st p)
      else st p := by
  unfold storePendingVaStep
  unfold vaWrite
  cases getLabel m i with
  | none => simp
  | some lab =>
      by_cases hp : indexPath "Va" i = p
      · subst hp
        by_cases hc : lab.changed = true <;> by_cases hr : lab.ref = 0 <;> simp [hc, hr]
      · by_cases hc : lab.changed = true <;> by_cases hr : lab.ref = 0 <;>
          simp [hc, hr, hp, settingsSaveOne_other _ _ (Ne.symm hp)]

theorem storePendingVa_store (s : Settings) :
    (storePendingVa s).store =
      (List.range s.mesh.labels.length).foldl (storePendingVaStep s.mesh) s.store := rfl

@[simp] theorem storePendingVa_labels (s : Settings) :
    (storePendingVa s).mesh.labels = s.mesh.labels.map fun lab => { lab with changed := false } :=
  rfl

end MeshSettings
