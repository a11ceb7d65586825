import MeshSettings.Load

/-!
# Records read back

What the store side writes for an entity, read back by the load side.  Bound
keys and subscribed groups are written compacted, the used entries first, and
the handlers copy the record over an emptied array; so the array comes back
compacted (`bind_sub_records_restore`).

Every fixed-size record comes back through `mesh_set_bin` to the entity at the
index its key prints, provided the slot it is loaded into exists.  Two fields
do not come back as they were: `mod_set_pub_bin` leaves `period_div` as it
was, and `node_set_bin` gives a node already in the table only its device key.
-/

namespace MeshSettings

/-! ## Reading keys back -/

theorem takeWhile_append_slash {l : List Char} (rest : List Char) (h : '/' ∉ l) :
    (l ++ '/' :: rest).takeWhile (· ≠ '/') = l := by
  induction l with
  | nil => simp
  | cons c l ih =>
      simp only [List.mem_cons, not_or] at h
      rw [List.cons_append, List.takeWhile_cons_of_pos (by simpa using Ne.symm h.1), ih h.2]

theorem meshSetBin_indexPath (cfg : Config) (name : String) (handler : Handler)
    (n : Nat) (value : Bytes) (l : LoadState) (hname : '/' ∉ name.toList)
    (hfind : (settings cfg.seqStoreRate).find? (·.1.toList = name.toList) = some (name, handler)) :
    meshSetBin cfg (indexPath name n) value l = handler (indexPath name n) value l := by
  simp only [meshSetBin, indexPath, takeWhile_append_slash _ hname, hfind]

theorem meshSetBin_encodeModPath (cfg : Config) (mod : Model) (vnd : Bool) (key : String)
    (value : Bytes) (l : LoadState) :
    meshSetBin cfg (encodeModPath mod vnd key) value l =
      modSetBin vnd (encodeModPath mod vnd key) value l := by
  cases vnd <;> rfl

theorem drop_append_slash (l rest : List Char) : (l ++ '/' :: rest).drop (l.length + 1) = rest := by
  induction l with
  | nil => rfl
  | cons c l ih => exact ih

theorem keyIndex_indexPath (name : String) (skip : Nat) (hskip : skip = name.toList.length + 1)
    (v : UInt16) : keyIndex (indexPath name v.toNat) skip = v := by
  have h := toU16_strtol16_hex_append v [] (by simp)
  rw [List.append_nil] at h
  rw [hskip, keyIndex, indexPath, drop_append_slash, h]

theorem keyIndex_encodeModPath (mod : Model) (vnd : Bool) (key : String) :
    UInt8.ofNat ((keyIndex (encodeModPath mod vnd key) 2).toNat / 256) = mod.elemIdx ∧
      UInt8.ofNat (keyIndex (encodeModPath mod vnd key) 2).toNat = mod.modIdx := by
  have he := mod.elemIdx.toNat_lt_size
  have hm := mod.modIdx.toNat_lt_size
  have hk : mod.modKey < 2 ^ 16 := by
    simp only [Model.modKey, UInt8.size] at he hm ⊢
    omega
  have hread : (keyIndex (encodeModPath mod vnd key) 2).toNat = mod.modKey := by
    have h := toU16_strtol16_hex_append (UInt16.ofNat mod.modKey) ('/' :: key.toList) (by simp)
    rw [u16_toNat_ofNat, Nat.mod_eq_of_lt hk] at h
    rw [show keyIndex (encodeModPath mod vnd key) 2 =
      toU16 (strtol16 (hex mod.modKey ++ '/' :: key.toList)) from rfl, h, u16_toNat_ofNat,
      Nat.mod_eq_of_lt hk]
  rw [hread]
  constructor <;> apply UInt8.toNat.inj <;>
    simp only [u8_toNat_ofNat, Model.modKey, UInt8.size] at he hm ⊢ <;> omega

theorem strstr_append_self (pre : List Char) {needle : List Char} (h : needle ≠ []) :
    strstr (pre ++ needle) needle = true := by
  induction pre with
  | nil =>
      obtain ⟨c, cs, rfl⟩ := List.exists_cons_of_ne_nil h
      simp [strstr, List.isPrefixOf_iff_prefix.mpr (List.prefix_refl _)]
  | cons c pre ih => simp [strstr, ih]

theorem strstr_eq_false {hay needle : List Char} {c : Char} (hc : c ∈ needle) (hn : c ∉ hay) :
    strstr hay needle = false := by
  induction hay with
  | nil =>
      cases needle with
      | nil => simp at hc
      | cons _ _ => rfl
  | cons x xs ih =>
      have hpre : needle.isPrefixOf (x :: xs) = false := by
        cases h : needle.isPrefixOf (x :: xs)
        · rfl
        · exact absurd ((List.isPrefixOf_iff_prefix.mp h).subset hc) hn
      simp only [strstr, hpre, ih (fun h => hn (List.mem_cons_of_mem x h)), Bool.or_false]

theorem strstr_encodeModPath_pub (mod : Model) (vnd : Bool) :
    strstr (encodeModPath mod vnd "pub") "bind".toList = false ∧
      strstr (encodeModPath mod vnd "pub") "sub".toList = false ∧
      strstr (encodeModPath mod vnd "pub") "pub".toList = true := by
  have htail : ∀ c ∈ '/' :: (hex mod.modKey ++ '/' :: "pub".toList), c ≠ 'i' ∧ c ≠ 's' := by
    intro c hc
    simp only [List.mem_cons, List.mem_append] at hc
    rcases hc with rfl | hc | rfl | hc
    · decide
    · obtain ⟨d, hd, rfl⟩ := mem_hex hc
      clear hc
      revert d
      decide
    · decide
    · revert c
      decide
  have hkey : encodeModPath mod vnd "pub" =
      (if vnd then 'v' else 's') :: ('/' :: (hex mod.modKey ++ '/' :: "pub".toList)) := rfl
  refine ⟨?_, ?_, ?_⟩
  · rw [hkey, strstr, strstr_eq_false (c := 'i') (by decide) fun h => (htail _ h).1 rfl]
    cases vnd <;> rfl
  · rw [hkey, strstr, strstr_eq_false (c := 's') (by decide) fun h => (htail _ h).2 rfl]
    cases vnd <;> rfl
  · rw [show encodeModPath mod vnd "pub" =
      ((if vnd then 'v' else 's') :: '/' :: hex mod.modKey ++ ['/']) ++ "pub".toList by
        simp [encodeModPath]]
    exact strstr_append_self _ (by decide)

/-! ## Slots found again -/

theorem subnetGet_eq (m : Mesh) (netIdx : UInt16) :
    subnetGet m netIdx = (subnetSlot m netIdx).map Prod.snd :=
  find?_eq_map_firstSlot _ _

theorem appKeyFind_eq (m : Mesh) (appIdx : UInt16) :
    appKeyFind m appIdx = (appKeySlot m appIdx).map Prod.snd :=
  find?_eq_map_firstSlot _ _

theorem nodeFind_eq (m : Mesh) (addr : UInt16) :
    nodeFind m addr = (nodeSlot m addr).map Prod.snd :=
  find?_eq_map_firstSlot _ _

/-! ## Singleton records -/

section Singletons

variable (cfg : Config) (stack : Path → Nat) (st : Store) (l : LoadState) {v : Bytes}

theorem net_record_restores (m : Mesh) (hv : storePendingNet m st "Net".toList = some v) :
    (meshSetBin cfg "Net".toList v l).1.mesh.primaryAddr = m.primaryAddr ∧
      (meshSetBin cfg "Net".toList v l).1.mesh.devKey = m.devKey := by
  obtain rfl := eq_of_settingsSaveOne_same hv
  rw [show meshSetBin cfg "Net".toList _ l = netSetBin "Net".toList _ l from rfl]
  simp [netSetBin]

theorem iv_record_restores (m : Mesh) (hdur : m.ivuDuration.toNat < 2 ^ 7)
    (hv : storePendingIv m st "IV".toList = some v) :
    (meshSetBin cfg "IV".toList v l).1.mesh.ivIndex = m.ivIndex ∧
      (meshSetBin cfg "IV".toList v l).1.mesh.flags .ivuInProgress = m.flags .ivuInProgress ∧
      (meshSetBin cfg "IV".toList v l).1.mesh.ivuDuration = m.ivuDuration := by
  obtain rfl := eq_of_settingsSaveOne_same hv
  rw [show meshSetBin cfg "IV".toList _ l = ivSetBin "IV".toList _ l from rfl]
  simp [ivSetBin, show m.ivuDuration.toNat % 128 = m.ivuDuration.toNat from Nat.mod_eq_of_lt hdur,
    u8_ofNat_toNat]

theorem hbPub_record_restores (m : Mesh) (pub : HbPub) (hpub : m.hbPub = some pub)
    (hdst : pub.dst ≠ addrUnassigned) (hnet : pub.netIdx.toNat < 2 ^ 12)
    (htarget : l.mesh.hbPub.isSome) (hv : storePendingHbPub stack m st "HBPub".toList = some v) :
    ∃ p, (meshSetBin cfg "HBPub".toList v l).1.mesh.hbPub = some p ∧ p.dst = pub.dst ∧
      p.period = pub.period ∧ p.ttl = pub.ttl ∧ p.feat = pub.feat ∧ p.netIdx = pub.netIdx ∧
      (p.count = 0xffff ↔ pub.count = 0xffff) := by
  rw [storePendingHbPub, hpub] at hv
  obtain rfl := eq_of_settingsSaveOne_same hv
  obtain ⟨target, ht⟩ := Option.isSome_iff_exists.mp htarget
  have hnetIdx : UInt16.ofNat (BitVec.ofNat 12 pub.netIdx.toNat).toNat = pub.netIdx := by
    rw [BitVec.toNat_ofNat, Nat.mod_eq_of_lt hnet, u16_ofNat_toNat]
  rw [show meshSetBin cfg "HBPub".toList _ l = hbPubSetBin "HBPub".toList _ l from rfl]
  simp only [hbPubSetBin, ht, hbPubValOf, hdst, if_false, HbPubVal.length_encode,
    HbPubVal.decode_encode, hnetIdx]
  refine ⟨_, rfl, rfl, rfl, rfl, rfl, rfl, ?_⟩
  by_cases hc : pub.count = 0xffff <;> simp [hc]

theorem cfg_record_restores (m : Mesh) (c : CfgVal) (hcfg : m.cfg = some c)
    (htarget : l.mesh.cfg.isSome) (hsub : ∃ s0, l.mesh.sub.head? = some s0 ∧ s0.netIdx ≠ keyUnused)
    (hv : storePendingCfg m st "Cfg".toList = some v) :
    (meshCommit (meshSetBin cfg "Cfg".toList v l).1).mesh.cfg = some c := by
  rw [storePendingCfg, hcfg] at hv
  obtain rfl := eq_of_settingsSaveOne_same hv
  obtain ⟨target, ht⟩ := Option.isSome_iff_exists.mp htarget
  obtain ⟨s0, hs0, hused⟩ := hsub
  rw [show meshSetBin cfg "Cfg".toList _ l = cfgSetBin "Cfg".toList _ l from rfl]
  simp [cfgSetBin, meshCommit, ht, hs0, hused]

theorem role_record_restores (m : Mesh) (hv : storePendingRole m st "Role".toList = some v) :
    (m.flags .provisioner = true →
        (meshSetBin cfg "Role".toList v l).1.mesh.flags .provisioner = true) ∧
      (m.flags .provisioner = false → m.flags .node = true →
        (meshSetBin cfg "Role".toList v l).1.mesh.flags .node = true) := by
  rw [show meshSetBin cfg "Role".toList v l = roleSetBin "Role".toList v l from rfl]
  refine ⟨fun hp => ?_, fun hp hn => ?_⟩
  · rw [storePendingRole, if_pos hp] at hv
    obtain rfl := eq_of_settingsSaveOne_same hv
    simp [roleSetBin]
  · rw [storePendingRole, if_neg (by simp [hp]), if_pos hn] at hv
    obtain rfl := eq_of_settingsSaveOne_same hv
    simp [roleSetBin]

end Singletons

/-! ## Indexed records -/

section Indexed

variable (cfg : Config) (stack : Path → Nat) (st : Store) (l : LoadState) {v : Bytes}

theorem rpl_record_restores (e : Rpl) (hseq : e.seq.toNat < 2 ^ 24)
    (hroom : ∃ x ∈ l.mesh.rpl, x.src = e.src ∨ x.src = 0)
    (hv : storeRpl stack st e (indexPath "RPL" e.src.toNat) = some v) :
    ∃ i r, rplFind (meshSetBin cfg (indexPath "RPL" e.src.toNat) v l).1.mesh e.src = some (i, r) ∧
      r.seq = e.seq ∧ r.oldIv = e.oldIv := by
  dsimp only [storeRpl] at hv
  obtain rfl := eq_of_settingsSaveOne_same hv
  rw [meshSetBin_indexPath cfg "RPL" rplSetBin _ _ l (by decide) rfl]
  obtain ⟨x, hx, hmatch⟩ := hroom
  obtain ⟨⟨i, y⟩, hslot⟩ := Option.ne_none_iff_exists'.mp
    (firstSlot_or_ne_none (p := (·.src == e.src)) (q := (·.src == 0)) hx (by simpa using hmatch))
  obtain ⟨hi, -, hbefore⟩ := firstSlot_or_spec hslot
  have hseq' : UInt32.ofNat (BitVec.ofNat 24 e.seq.toNat).toNat = e.seq := by
    rw [BitVec.toNat_ofNat, Nat.mod_eq_of_lt hseq, u32_ofNat_toNat]
  have hslot' : (rplFind l.mesh e.src).or (firstSlot (·.src == 0) l.mesh.rpl) = some (i, y) := hslot
  simp only [rplSetBin, keyIndex_indexPath "RPL" 4 rfl e.src, hslot', RplVal.length_encode,
    OfNat.ofNat_ne_zero, if_false, ne_eq, not_true_eq_false,
    RplVal.decode_encode, rplValOf, hseq', List.set_set]
  exact ⟨i, _, firstSlot_set (by simp) _ _ hi hbefore, rfl, rfl⟩

theorem netKey_record_restores (sub : Subnet) (hphase : sub.krPhase.toNat < 2 ^ 7)
    (hroom : ∃ x ∈ l.mesh.sub, x.netIdx = sub.netIdx ∨ x.netIdx = keyUnused)
    (hv : storeNetKey st sub (indexPath "NetKey" sub.netIdx.toNat) = some v) :
    subnetGet (meshSetBin cfg (indexPath "NetKey" sub.netIdx.toNat) v l).1.mesh sub.netIdx =
      some sub := by
  obtain rfl := eq_of_settingsSaveOne_same hv
  rw [meshSetBin_indexPath cfg "NetKey" netKeySetBin _ _ l (by decide) rfl]
  obtain ⟨x, hx, hmatch⟩ := hroom
  obtain ⟨⟨i, y⟩, hslot⟩ := Option.ne_none_iff_exists'.mp
    (firstSlot_or_ne_none (p := (·.netIdx == sub.netIdx)) (q := (·.netIdx == keyUnused)) hx
      (by simpa using hmatch))
  obtain ⟨hi, -, hbefore⟩ := firstSlot_or_spec hslot
  have hslot' : (subnetSlot l.mesh sub.netIdx).or (firstSlot (·.netIdx == keyUnused) l.mesh.sub) =
      some (i, y) := hslot
  have hsub : (⟨sub.netIdx, sub.krFlag, UInt8.ofNat (BitVec.ofNat 7 sub.krPhase.toNat).toNat,
      sub.net0, sub.net1⟩ : Subnet) = sub := by
    rw [BitVec.toNat_ofNat, Nat.mod_eq_of_lt hphase, u8_ofNat_toNat]
  simp only [netKeySetBin, keyIndex_indexPath "NetKey" 7 rfl sub.netIdx, hslot',
    NetKeyVal.length_encode, OfNat.ofNat_ne_zero, if_false, ne_eq, not_true_eq_false, NetKeyVal.decode_encode, netKeyValOf, hsub]
  rw [subnetGet_eq, subnetSlot, firstSlot_set (by simp) _ _ hi hbefore]
  rfl

theorem appKey_record_restores (app : AppKey) (hused : app.netIdx ≠ keyUnused)
    (hroom : ∃ x ∈ l.mesh.appKeys,
      (x.netIdx ≠ keyUnused ∧ x.appIdx = app.appIdx) ∨ x.netIdx = keyUnused)
    (hv : storeAppKey st app (indexPath "AppKey" app.appIdx.toNat) = some v) :
    appKeyFind (meshSetBin cfg (indexPath "AppKey" app.appIdx.toNat) v l).1.mesh app.appIdx =
      some app := by
  obtain rfl := eq_of_settingsSaveOne_same hv
  rw [meshSetBin_indexPath cfg "AppKey" appKeySetBin _ _ l (by decide) rfl]
  obtain ⟨x, hx, hmatch⟩ := hroom
  obtain ⟨⟨i, y⟩, hslot⟩ := Option.ne_none_iff_exists'.mp
    (firstSlot_or_ne_none (p := fun key => key.netIdx ≠ keyUnused ∧ key.appIdx = app.appIdx)
      (q := (·.netIdx == keyUnused)) hx (by simpa using hmatch))
  obtain ⟨hi, -, hbefore⟩ := firstSlot_or_spec hslot
  have hslot' : (appKeySlot l.mesh app.appIdx).or
      (firstSlot (·.netIdx == keyUnused) l.mesh.appKeys) = some (i, y) := hslot
  simp only [appKeySetBin, keyIndex_indexPath "AppKey" 7 rfl app.appIdx, hslot',
    AppKeyVal.length_encode, OfNat.ofNat_ne_zero, if_false, ne_eq, not_true_eq_false,
    AppKeyVal.decode_encode, appKeyValOf]
  rw [appKeyFind_eq, appKeySlot, firstSlot_set (by simpa using hused) _ _ hi hbefore]
  rfl

theorem modPub_record_restores (mod : Model) (vnd : Bool) (pub : ModelPub)
    (hpub : mod.pub = some pub) (haddr : pub.addr ≠ addrUnassigned) {i : Nat} {target : Model}
    (htarget : modelGet l.mesh vnd mod.elemIdx mod.modIdx = some (i, target)) {tpub : ModelPub}
    (htpub : target.pub = some tpub)
    (hv : storePendingModPub stack st mod vnd (encodeModPath mod vnd "pub") = some v) :
    ∃ t p, modelGet (meshSetBin cfg (encodeModPath mod vnd "pub") v l).1.mesh vnd mod.elemIdx
        mod.modIdx = some (i, t) ∧ t.pub = some p ∧
      p.addr = pub.addr ∧ p.key = pub.key ∧ p.cred = pub.cred ∧ p.ttl = pub.ttl ∧
      p.period = pub.period ∧ p.retransmit = pub.retransmit ∧ p.periodDiv = tpub.periodDiv := by
  dsimp only [storePendingModPub] at hv
  obtain rfl := eq_of_settingsSaveOne_same hv
  rw [meshSetBin_encodeModPath]
  obtain ⟨hel, hmi⟩ := keyIndex_encodeModPath mod vnd "pub"
  obtain ⟨hbind, hsub, hpubKey⟩ := strstr_encodeModPath_pub mod vnd
  obtain ⟨hi, -, hmatch, hbefore⟩ := firstSlot_spec htarget
  simp only [modSetBin, hel, hmi, htarget, hbind, hsub, hpubKey, Bool.false_eq_true, if_false,
    if_true, modSetPubBin, htpub, ModPubVal.length_encode, OfNat.ofNat_ne_zero, ne_eq,
    not_true_eq_false, ModPubVal.decode_encode, modPubValOf, hpub, haddr]
  exact ⟨_, _, firstSlot_set
    (p := fun m : Model => m.vnd == vnd && m.elemIdx == mod.elemIdx && m.modIdx == mod.modIdx)
    (by exact hmatch) _ _ hi hbefore, rfl, rfl, rfl, rfl, rfl, rfl, rfl, rfl⟩

theorem va_record_restores (m : Mesh) (i : Nat) (hi : i < 2 ^ 16) (lab : Label)
    (hlab : getLabel m i = some lab) (htarget : (getLabel l.mesh i).isSome)
    (hv : vaWrite m i = some v) :
    ∃ r, getLabel (meshSetBin cfg (indexPath "Va" i) v l).1.mesh i = some r ∧
      r.ref = lab.ref ∧ r.addr = lab.addr ∧ r.uuid = lab.uuid := by
  simp only [vaWrite, hlab] at hv
  split_ifs at hv with hc
  obtain rfl := (Option.some.inj hv).symm
  rw [meshSetBin_indexPath cfg "Va" vaSetBin _ _ l (by decide) rfl]
  have hidx : keyIndex (indexPath "Va" i) 3 = UInt16.ofNat i := by
    have h := keyIndex_indexPath "Va" 3 rfl (UInt16.ofNat i)
    rwa [u16_toNat_ofNat, Nat.mod_eq_of_lt hi] at h
  obtain ⟨t, ht⟩ := Option.isSome_iff_exists.mp htarget
  have hlen : i < l.mesh.labels.length := (List.get?_eq_some.mp ht).1
  simp only [vaSetBin, hidx, u16_toNat_ofNat, Nat.mod_eq_of_lt hi, VaVal.length_encode,
    OfNat.ofNat_ne_zero, if_false, ne_eq, not_true_eq_false, VaVal.decode_encode, vaValOf, hc.2, ht]
  exact ⟨{ t with uuid := lab.uuid, addr := lab.addr, ref := lab.ref }, by simp [getLabel, hlen],
    rfl, rfl, rfl⟩

theorem node_record_restores (node : Node)
    (hnew : nodeFind l.mesh node.addr = none) (hroom : ∃ x ∈ l.mesh.nodes, x.addr = addrUnassigned)
    (hv : storeNode st node (indexPath "Node" node.addr.toNat) = some v) :
    nodeFind (meshSetBin cfg (indexPath "Node" node.addr.toNat) v l).1.mesh node.addr =
      some node := by
  obtain rfl := eq_of_settingsSaveOne_same hv
  rw [meshSetBin_indexPath cfg "Node" nodeSetBin _ _ l (by decide) rfl]
  have hslot : nodeSlot l.mesh node.addr = none := by
    rwa [nodeFind_eq, Option.map_eq_none'] at hnew
  obtain ⟨x, hx, hfree⟩ := hroom
  have hfree' : firstSlot (·.addr == addrUnassigned) l.mesh.nodes ≠ none := fun h => by
    simpa [hfree] using firstSlot_eq_none_iff.mp h x hx
  obtain ⟨⟨i, y⟩, hfirst⟩ := Option.ne_none_iff_exists'.mp hfree'
  obtain ⟨hi, -, -, -⟩ := firstSlot_spec hfirst
  simp only [nodeSetBin, keyIndex_indexPath "Node" 5 rfl node.addr, hslot, hfirst,
    NodeVal.length_encode, OfNat.ofNat_ne_zero, if_false, ne_eq, not_true_eq_false,
    NodeVal.decode_encode, nodeValOf]
  rw [nodeFind_eq, nodeSlot, firstSlot_set (by simp) _ _ hi fun j hj _ =>
    firstSlot_eq_none_iff.mp hslot _ (List.getElem_mem hj)]
  rfl

theorem node_record_known (node : Node) (hv : storeNode st node (indexPath "Node" node.addr.toNat) = some v)
    {i : Nat} {known : Node} (hknown : nodeSlot l.mesh node.addr = some (i, known)) :
    (meshSetBin cfg (indexPath "Node" node.addr.toNat) v l).1.mesh.nodes =
      l.mesh.nodes.set i { known with devKey := node.devKey } := by
  obtain rfl := eq_of_settingsSaveOne_same hv
  rw [meshSetBin_indexPath cfg "Node" nodeSetBin _ _ l (by decide) rfl]
  simp only [nodeSetBin, keyIndex_indexPath "Node" 5 rfl node.addr, hknown,
    NodeVal.length_encode, OfNat.ofNat_ne_zero, if_false, ne_eq, not_true_eq_false,
    NodeVal.decode_encode, nodeValOf]

end Indexed

/-! ## Every fixed-size category -/

/--
Every fixed-size record the store side writes comes back through
`mesh_set_bin` (for `Cfg`, then `mesh_commit`) to the entity at the index its
key prints, with the fields the record carries, when the entity's bit fields
fit their widths and the destination exists: the heartbeat publication and the
configuration server are there, subnet slot 0 is in use for `Cfg`, and an
indexed record finds its entry or a free slot.  Two fields are the exception:
a publication's `period_div` keeps the value of the model it is loaded into,
and a node already in the table gets only the device key.
-/
theorem fixed_records_restore (cfg : Config) (stack : Path → Nat) (st : Store) (l : LoadState) :
    (∀ m v, storePendingNet m st "Net".toList = some v →
      (meshSetBin cfg "Net".toList v l).1.mesh.primaryAddr = m.primaryAddr ∧
        (meshSetBin cfg "Net".toList v l).1.mesh.devKey = m.devKey) ∧
    (∀ m v, m.ivuDuration.toNat < 2 ^ 7 → storePendingIv m st "IV".toList = some v →
      (meshSetBin cfg "IV".toList v l).1.mesh.ivIndex = m.ivIndex ∧
        (meshSetBin cfg "IV".toList v l).1.mesh.flags .ivuInProgress = m.flags .ivuInProgress ∧
        (meshSetBin cfg "IV".toList v l).1.mesh.ivuDuration = m.ivuDuration) ∧
    (∀ m pub v, m.hbPub = some pub → pub.dst ≠ addrUnassigned → pub.netIdx.toNat < 2 ^ 12 →
      l.mesh.hbPub.isSome → storePendingHbPub stack m st "HBPub".toList = some v →
      ∃ p, (meshSetBin cfg "HBPub".toList v l).1.mesh.hbPub = some p ∧ p.dst = pub.dst ∧
        p.period = pub.period ∧ p.ttl = pub.ttl ∧ p.feat = pub.feat ∧ p.netIdx = pub.netIdx ∧
        (p.count = 0xffff ↔ pub.count = 0xffff)) ∧
    (∀ m c v, m.cfg = some c → l.mesh.cfg.isSome →
      (∃ s0, l.mesh.sub.head? = some s0 ∧ s0.netIdx ≠ keyUnused) →
      storePendingCfg m st "Cfg".toList = some v →
      (meshCommit (meshSetBin cfg "Cfg".toList v l).1).mesh.cfg = some c) ∧
    (∀ m v, storePendingRole m st "Role".toList = some v →
      (m.flags .provisioner = true →
        (meshSetBin cfg "Role".toList v l).1.mesh.flags .provisioner = true) ∧
      (m.flags .provisioner = false → m.flags .node = true →
        (meshSetBin cfg "Role".toList v l).1.mesh.flags .node = true)) ∧
    (∀ e v, e.seq.toNat < 2 ^ 24 → (∃ x ∈ l.mesh.rpl, x.src = e.src ∨ x.src = 0) →
      storeRpl stack st e (indexPath "RPL" e.src.toNat) = some v →
      ∃ i r, rplFind (meshSetBin cfg (indexPath "RPL" e.src.toNat) v l).1.mesh e.src =
        some (i, r) ∧ r.seq = e.seq ∧ r.oldIv = e.oldIv) ∧
    (∀ sub v, sub.krPhase.toNat < 2 ^ 7 →
      (∃ x ∈ l.mesh.sub, x.netIdx = sub.netIdx ∨ x.netIdx = keyUnused) →
      storeNetKey st sub (indexPath "NetKey" sub.netIdx.toNat) = some v →
      subnetGet (meshSetBin cfg (indexPath "NetKey" sub.netIdx.toNat) v l).1.mesh sub.netIdx =
        some sub) ∧
    (∀ app v, app.netIdx ≠ keyUnused →
      (∃ x ∈ l.mesh.appKeys,
        (x.netIdx ≠ keyUnused ∧ x.appIdx = app.appIdx) ∨ x.netIdx = keyUnused) →
      storeAppKey st app (indexPath "AppKey" app.appIdx.toNat) = some v →
      appKeyFind (meshSetBin cfg (indexPath "AppKey" app.appIdx.toNat) v l).1.mesh app.appIdx =
        some app) ∧
    (∀ mod vnd pub i target tpub v, mod.pub = some pub → pub.addr ≠ addrUnassigned →
      modelGet l.mesh vnd mod.elemIdx mod.modIdx = some (i, target) → target.pub = some tpub →
      storePendingModPub stack st mod vnd (encodeModPath mod vnd "pub") = some v →
      ∃ t p, modelGet (meshSetBin cfg (encodeModPath mod vnd "pub") v l).1.mesh vnd mod.elemIdx
          mod.modIdx = some (i, t) ∧ t.pub = some p ∧
        p.addr = pub.addr ∧ p.key = pub.key ∧ p.cred = pub.cred ∧ p.ttl = pub.ttl ∧
        p.period = pub.period ∧ p.retransmit = pub.retransmit ∧ p.periodDiv = tpub.periodDiv) ∧
    (∀ m i lab v, i < 2 ^ 16 → getLabel m i = some lab → (getLabel l.mesh i).isSome →
      vaWrite m i = some v →
      ∃ r, getLabel (meshSetBin cfg (indexPath "Va" i) v l).1.mesh i = some r ∧
        r.ref = lab.ref ∧ r.addr = lab.addr ∧ r.uuid = lab.uuid) ∧
    (∀ node v, storeNode st node (indexPath "Node" node.addr.toNat) = some v →
      (nodeFind l.mesh node.addr = none → (∃ x ∈ l.mesh.nodes, x.addr = addrUnassigned) →
        nodeFind (meshSetBin cfg (indexPath "Node" node.addr.toNat) v l).1.mesh node.addr =
          some node) ∧
      (∀ i known, nodeSlot l.mesh node.addr = some (i, known) →
        (meshSetBin cfg (indexPath "Node" node.addr.toNat) v l).1.mesh.nodes =
          l.mesh.nodes.set i { known with devKey := node.devKey })) :=
  ⟨fun m _ hv => net_record_restores cfg st l m hv,
    fun m _ hdur hv => iv_record_restores cfg st l m hdur hv,
    fun m pub _ hpub hdst hnet ht hv =>
      hbPub_record_restores cfg stack st l m pub hpub hdst hnet ht hv,
    fun m c _ hc ht hsub hv => cfg_record_restores cfg st l m c hc ht hsub hv,
    fun m _ hv => role_record_restores cfg st l m hv,
    fun e _ hseq hroom hv => rpl_record_restores cfg stack st l e hseq hroom hv,
    fun sub _ hphase hroom hv => netKey_record_restores cfg st l sub hphase hroom hv,
    fun app _ hused hroom hv => appKey_record_restores cfg st l app hused hroom hv,
    fun mod vnd pub _ _ _ _ hpub haddr ht htp hv =>
      modPub_record_restores cfg stack st l mod vnd pub hpub haddr ht htp hv,
    fun m i lab _ hi hlab ht hv => va_record_restores cfg l m i hi lab hlab ht hv,
    fun node _ hv => ⟨fun hnew hroom => node_record_restores cfg st l node hnew hroom hv,
      fun _ _ hknown => node_record_known cfg st l node hv hknown⟩⟩

def subnetOne : Subnet := ⟨1, false, 0, fun i => UInt8.ofNat i, fun _ => 0⟩

def oneFreeSubnet : LoadState := { LoadState.boot with mesh := { Mesh.empty with sub := [Subnet.free] } }

theorem fixed_records_restore_subnetOne :
    subnetOne.krPhase.toNat < 2 ^ 7 ∧
      (∃ x ∈ oneFreeSubnet.mesh.sub, x.netIdx = subnetOne.netIdx ∨ x.netIdx = keyUnused) ∧
      storeNetKey (fun _ => none) subnetOne (indexPath "NetKey" subnetOne.netIdx.toNat) =
        some (netKeyValOf subnetOne).encode ∧
      subnetGet (meshSetBin ⟨2, 1, 16⟩ (indexPath "NetKey" subnetOne.netIdx.toNat)
        (netKeyValOf subnetOne).encode oneFreeSubnet).1.mesh subnetOne.netIdx = some subnetOne :=
  have hroom : ∃ x ∈ oneFreeSubnet.mesh.sub, x.netIdx = subnetOne.netIdx ∨ x.netIdx = keyUnused :=
    ⟨Subnet.free, List.mem_singleton_self _, .inr rfl⟩
  have hv : storeNetKey (fun _ => none) subnetOne (indexPath "NetKey" subnetOne.netIdx.toNat) =
      some (netKeyValOf subnetOne).encode := by simp [storeNetKey]
  ⟨by decide, hroom, hv,
    (fixed_records_restore ⟨2, 1, 16⟩ (fun _ => 0) (fun _ => none) oneFreeSubnet).2.2.2.2.2.2.1
      subnetOne _
      (by decide) hroom hv⟩

def publishingModel : Model :=
  ⟨false, 0, 0, [], [], some ⟨1, 0, false, 0, 0, 0, 1, 0⟩, ⟨false, false, false, false⟩, false⟩

def clearedPublication : LoadState :=
  { LoadState.boot with mesh := { Mesh.empty with
      models := [{ publishingModel with pub := some ⟨0, 0, false, 0, 0, 0, 0, 0⟩ }] } }

/--
`store_pending_mod_pub` writes `period_div` 1 into the record, and loading the
record leaves the model's `period_div` at 0.
-/
theorem modSetPubBin_drops_periodDiv :
    (modPubValOf publishingModel.pub 0).periodDiv = 1 ∧
      (meshSetBin ⟨2, 1, 16⟩ (encodeModPath publishingModel false "pub")
          (modPubValOf publishingModel.pub 0).encode clearedPublication).1.mesh.models.map
        (·.pub.map (·.periodDiv)) = [some 0] := by
  decide

/-! ## Bindings and subscriptions -/

def compacted (unused : UInt16) (arr : List UInt16) : List UInt16 :=
  arr.filter (· ≠ unused) ++ List.replicate (arr.length - (arr.filter (· ≠ unused)).length) unused

theorem length_flatMap_u16Bytes (ks : List UInt16) : (ks.flatMap u16Bytes).length = 2 * ks.length := by
  induction ks with
  | nil => rfl
  | cons k ks ih => simp [ih]; omega

theorem memcpyU16_replicate (u : UInt16) {n : Nat} (ks : List UInt16) (h : ks.length ≤ n) :
    memcpyU16 (List.replicate n u) (ks.flatMap u16Bytes) =
      (ks ++ List.replicate (n - ks.length) u, []) := by
  rw [memcpyU16_flatMap ks _ (by simpa using h), List.drop_replicate]

theorem modSetBindBin_bindRecord (target : Model) (keys : List UInt16)
    (h : target.keys.length = keys.length) :
    modSetBindBin target (bindRecord keys) =
      ({ target with keys := compacted keyUnused keys }, [], 0) := by
  have hle : (keys.filter (· ≠ keyUnused)).length ≤ keys.length := List.length_filter_le _ _
  simp only [modSetBindBin, bindRecord, List.map_const', h, length_flatMap_u16Bytes]
  split_ifs with h0
  · have hnil : keys.filter (· ≠ keyUnused) = [] := List.eq_nil_of_length_eq_zero (by omega)
    rw [compacted, hnil]
    rfl
  · rw [memcpyU16_replicate _ _ hle]
    rfl

theorem modSetSubBin_subRecord (target : Model) (groups : List UInt16)
    (h : target.groups.length = groups.length) :
    modSetSubBin target (subRecord groups) =
      ({ target with groups := compacted addrUnassigned groups }, [], 0) := by
  have hle : (groups.filter (· ≠ addrUnassigned)).length ≤ groups.length :=
    List.length_filter_le _ _
  have hpad : (groups.filter (· ≠ addrUnassigned) ++
      List.replicate (groups.length - (groups.filter (· ≠ addrUnassigned)).length) 0).length =
      groups.length := by
    simp only [List.length_append, List.length_replicate]
    omega
  simp only [modSetSubBin, subRecord, List.map_const', h, length_flatMap_u16Bytes, hpad]
  split_ifs with h0
  · have hnil : groups = [] := List.eq_nil_of_length_eq_zero (by omega)
    simp [compacted, hnil]
  · rw [memcpyU16_replicate _ _ hpad.le, hpad, Nat.sub_self, List.replicate_zero, List.append_nil]
    rfl

/--
The records `store_pending_mod_bind` and `store_pending_mod_sub` write for a
live model, loaded into a model with arrays of the same sizes, restore the
used entries in their order followed only by unused entries, and write nothing
past the arrays.
-/
theorem bind_sub_records_restore (live target : Model)
    (hk : target.keys.length = live.keys.length)
    (hg : target.groups.length = live.groups.length) :
    modSetBindBin target (bindRecord live.keys) =
        ({ target with keys := compacted keyUnused live.keys }, [], 0) ∧
      modSetSubBin target (subRecord live.groups) =
        ({ target with groups := compacted addrUnassigned live.groups }, [], 0) :=
  ⟨modSetBindBin_bindRecord target live.keys hk, modSetSubBin_subRecord target live.groups hg⟩

def boundModel : Model :=
  ⟨false, 0, 0, [3, keyUnused, 5], [0, 0xc001], none, ⟨false, false, false, false⟩, false⟩

def freshModel : Model := { boundModel with keys := List.replicate 3 keyUnused, groups := [0, 0] }

theorem bind_sub_records_restore_boundModel :
    freshModel.keys.length = boundModel.keys.length ∧
      freshModel.groups.length = boundModel.groups.length ∧
      (modSetBindBin freshModel (bindRecord boundModel.keys) =
          ({ freshModel with keys := compacted keyUnused boundModel.keys }, [], 0) ∧
        modSetSubBin freshModel (subRecord boundModel.groups) =
          ({ freshModel with groups := compacted addrUnassigned boundModel.groups }, [], 0)) :=
  ⟨rfl, rfl, bind_sub_records_restore boundModel freshModel rfl rfl⟩

example : compacted keyUnused boundModel.keys = [3, 5, keyUnused] := by decide

end MeshSettings
