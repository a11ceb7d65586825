import MeshSettings.LoadRefinement

/-!
# Any order of the records

`conf_load` hands the records to `mesh_set_bin` in whatever order the store
yields them.  The abstract load does not see the order of records with
distinct keys (`LoadView.foldl_perm`), and a well-formed state is fixed by its
view up to the order of the slots of its four tables (`slotsPerm_of_view`).
So two orders of one set of records that fit, with a free slot for each table
record, load states that differ at most in the order of those slots
(`confLoad_slotsPerm`).
-/

namespace MeshSettings

/-! ## A state from its view -/

def LoadState.withTables (a b : LoadState) : LoadState :=
  { a with
    mesh := { a.mesh with
      rpl := b.mesh.rpl, sub := b.mesh.sub, appKeys := b.mesh.appKeys, nodes := b.mesh.nodes } }

/-- Two load states equal up to the order of the slots of each table. -/
structure SlotsPerm (a b : LoadState) : Prop where
  rpl : a.mesh.rpl.Perm b.mesh.rpl
  sub : a.mesh.sub.Perm b.mesh.sub
  appKeys : a.mesh.appKeys.Perm b.mesh.appKeys
  nodes : a.mesh.nodes.Perm b.mesh.nodes
  others : a.withTables b = b

theorem Model.eq_of_skeleton {m1 m2 : Model} (h : m1.skeleton = m2.skeleton)
    (hget : ∀ kind : ModKind, kind.get m1 = kind.get m2) : m1 = m2 := by
  have hk := hget .bind
  have hg := hget .sub
  have hp := hget .pub
  have hd := hget .data
  obtain ⟨v1, e1, i1, k1, g1, p1, ⟨b1, s1, q1, d1⟩, h1⟩ := m1
  obtain ⟨v2, e2, i2, k2, g2, p2, ⟨b2, s2, q2, d2⟩, h2⟩ := m2
  simp only [Model.skeleton, Model.mk.injEq, ModFlags.mk.injEq] at h
  simp only [ModKind.get] at hk hg hp hd
  obtain ⟨rfl, rfl, rfl, -, -, -, ⟨rfl, rfl, rfl, -⟩, rfl⟩ := h
  subst hk hg hp hd
  rfl

theorem modelGet_ident (m : Mesh) (hn : (m.models.map Model.ident).Nodup) {j : Nat}
    (hj : j < m.models.length) :
    modelGet m m.models[j].vnd m.models[j].elemIdx m.models[j].modIdx = some (j, m.models[j]) := by
  refine firstSlot_of_first _ _ hj (by simp) fun i hi hij => ?_
  have hne : m.models[i].ident ≠ m.models[j].ident := fun h =>
    Nat.ne_of_lt hij ((@List.Nodup.getElem_inj_iff _ _ hn i (by simpa using hi) j
      (by simpa using hj)).mp (by simpa using h))
  rw [Bool.eq_false_iff]
  intro h
  simp only [Bool.and_eq_true, beq_iff_eq] at h
  exact hne (by simp only [Model.ident, h])

theorem models_eq_of_view {a b : LoadState} (ha : LoadWF a) (hb : LoadWF b)
    (hrest : rest a = rest b) (hv : view a = view b) : a.mesh.models = b.mesh.models := by
  have hsk : a.mesh.models.map Model.skeleton = b.mesh.models.map Model.skeleton :=
    congrArg (·.mesh.models) hrest
  have hlen : a.mesh.models.length = b.mesh.models.length := by
    simpa using congrArg List.length hsk
  refine List.ext_getElem hlen fun j hja hjb => ?_
  have hskj : a.mesh.models[j].skeleton = b.mesh.models[j].skeleton := by
    have h := congrArg (·[j]?) hsk
    simp only [List.getElem?_map, List.getElem?_eq_getElem hja, List.getElem?_eq_getElem hjb,
      Option.map_some', Option.some.injEq] at h
    exact h
  refine Model.eq_of_skeleton hskj fun kind => ?_
  · have h1 := congrArg Model.vnd hskj
    have h2 := congrArg Model.elemIdx hskj
    have h3 := congrArg Model.modIdx hskj
    dsimp only [Model.skeleton] at h1 h2 h3
    have hview := congrFun hv (some (.mod a.mesh.models[j].vnd a.mesh.models[j].elemIdx
      a.mesh.models[j].modIdx kind))
    simp only [view] at hview
    rw [modelGet_ident a.mesh ha.models hja, h1, h2, h3, modelGet_ident b.mesh hb.models hjb]
      at hview
    simp only [Option.map_some'] at hview
    exact Option.some.inj hview

theorem labels_eq_of_view {a b : LoadState} (ha : LoadWF a) (hrest : rest a = rest b)
    (hv : view a = view b) : a.mesh.labels = b.mesh.labels := by
  have hlen : a.mesh.labels.length = b.mesh.labels.length := by
    simpa [rest] using congrArg (·.mesh.labels.length) hrest
  have hbound := ha.labels
  apply List.ext_getElem?
  intro n
  by_cases hn : n < 2 ^ 16
  · have := congrFun hv (some (.va (UInt16.ofNat n)))
    simpa [view, getLabel, u16_toNat_ofNat, Nat.mod_eq_of_lt (show n < 65536 from hn)] using this
  · rw [List.getElem?_eq_none (by omega), List.getElem?_eq_none (by omega)]

theorem Flags.eq_of_erase {f g : Flags} (h : f.erase = g.erase) (hivu : f .ivuInProgress = g .ivuInProgress)
    (hnode : f .node = g .node) (hprov : f .provisioner = g .provisioner) : f = g := by
  funext flag
  have hflag := congrFun h flag
  cases flag <;> assumption

theorem slotsPerm_of_view {a b : LoadState} (ha : LoadWF a) (hb : LoadWF b) (hv : view a = view b) :
    SlotsPerm a b := by
  have hrest : rest a = rest b := congrFun hv none
  refine ⟨ha.rpl.perm hb.rpl (by simpa [rest] using congrArg (·.mesh.rpl.length) hrest)
      (funext fun k => congrFun hv (some (.rpl k))),
    ha.sub.perm hb.sub (by simpa [rest] using congrArg (·.mesh.sub.length) hrest)
      (funext fun k => congrFun hv (some (.netKey k))),
    ha.appKeys.perm hb.appKeys (by simpa [rest] using congrArg (·.mesh.appKeys.length) hrest)
      (funext fun k => congrFun hv (some (.appKey k))),
    ha.nodes.perm hb.nodes (by simpa [rest] using congrArg (·.mesh.nodes.length) hrest)
      (funext fun k => congrFun hv (some (.node k))), ?_⟩
  have hmodels := models_eq_of_view ha hb hrest hv
  have hlabels := labels_eq_of_view ha hrest hv
  have hnet : (a.mesh.primaryAddr, a.mesh.devKey) = (b.mesh.primaryAddr, b.mesh.devKey) :=
    congrFun hv (some .net)
  have hiv : (a.mesh.ivIndex, a.mesh.flags .ivuInProgress, a.mesh.ivuDuration) =
      (b.mesh.ivIndex, b.mesh.flags .ivuInProgress, b.mesh.ivuDuration) := congrFun hv (some .iv)
  have hseq : a.mesh.seq = b.mesh.seq := congrFun hv (some .seq)
  have hrole : (a.mesh.flags .node, a.mesh.flags .provisioner) =
      (b.mesh.flags .node, b.mesh.flags .provisioner) := congrFun hv (some .role)
  have hhb : a.mesh.hbPub = b.mesh.hbPub := congrFun hv (some .hbPub)
  have hcfg : a.storedCfg = b.storedCfg := congrFun hv (some .cfg)
  simp only [Prod.mk.injEq] at hnet hiv hrole
  have hflags := Flags.eq_of_erase (congrArg (·.mesh.flags) hrest) hiv.2.1 hrole.1 hrole.2
  have hcfgm : a.mesh.cfg = b.mesh.cfg := congrArg (·.mesh.cfg) hrest
  have hout : a.outside = b.outside := congrArg (·.outside) hrest
  have hab : a.aborted = b.aborted := congrArg (·.aborted) hrest
  obtain ⟨⟨fa, iva, dura, seqa, deva, addra, rpla, suba, appa, modsa, labsa, nodesa, hba, cfga⟩,
    sca, outa, aba⟩ := a
  obtain ⟨⟨fb, ivb, durb, seqb, devb, addrb, rplb, subb, appb, modsb, labsb, nodesb, hbb, cfgb⟩,
    scb, outb, abb⟩ := b
  simp only at hmodels hlabels hflags hcfgm hout hab hnet hiv hseq hhb hcfg
  simp only [LoadState.withTables, hmodels, hlabels, hflags, hcfgm, hout, hab, hnet, hiv, hseq,
    hhb, hcfg]

theorem SlotsPerm.flags {a b : LoadState} (h : SlotsPerm a b) : a.mesh.flags = b.mesh.flags :=
  congrArg (·.mesh.flags) h.others

/-! ## Two orders of one set of records -/

theorem Room.perm {l : LoadState} {rs rs' : List (RecordKey × Bytes)} (hp : rs.Perm rs')
    (h : Room l rs) : Room l rs' :=
  fun t => (List.Perm.countP_eq _ hp) ▸ h t

/-- Two orders of records with distinct keys load states equal up to the order of slots. -/
theorem confLoad_slotsPerm (cfg : Config) {l : LoadState} (hwf : LoadWF l)
    {rs rs' : List (RecordKey × Bytes)} (hp : rs.Perm rs') (hkeys : (rs.map (·.1)).Nodup)
    (hfit : ∀ r ∈ rs, r.1.fits l r.2 = true) (hroom : Room l rs) :
    SlotsPerm (confLoad cfg (storeRecords rs) l) (confLoad cfg (storeRecords rs') l) := by
  obtain ⟨hv, hwf1⟩ := view_confLoad cfg rs l hwf hfit hroom
  obtain ⟨hv', hwf2⟩ := view_confLoad cfg rs' l hwf (fun r hr => hfit r (hp.symm.subset hr))
    (hroom.perm hp)
  exact slotsPerm_of_view hwf1 hwf2 (by rw [hv, hv', LoadView.foldl_perm _ hp hkeys])

/-! ## The provisioned check -/

theorem meshCommit_slotsPerm {a b : LoadState} (h : SlotsPerm a b)
    (hhead : a.mesh.sub.head?.map Subnet.used = b.mesh.sub.head?.map Subnet.used) :
    SlotsPerm (meshCommit a) (meshCommit b) := by
  unfold meshCommit
  cases ha : a.mesh.sub.head? with
  | none =>
      cases hb : b.mesh.sub.head? with
      | none => exact h
      | some t => rw [ha, hb] at hhead; cases hhead
  | some s =>
      cases hb : b.mesh.sub.head? with
      | none => rw [ha, hb] at hhead; cases hhead
      | some t =>
          rw [ha, hb] at hhead
          have hst : s.netIdx = keyUnused ↔ t.netIdx = keyUnused := by
            simp only [Option.map_some', Option.some.injEq, Subnet.used] at hhead
            by_cases hs : s.netIdx = keyUnused <;> by_cases ht : t.netIdx = keyUnused <;> simp_all
          by_cases hs : s.netIdx = keyUnused
          · simp only [hs, hst.mp hs, if_true]
            exact h
          · simp only [hs, (not_congr hst).mp hs, if_false]
            refine ⟨h.rpl, h.sub, h.appKeys, h.nodes, ?_⟩
            conv_rhs => rw [← h.others]
            rfl

theorem handler_sub {k : RecordKey} (hk : k.table ≠ some .sub) (rate : Nat) (value : Bytes)
    (l : LoadState) : (k.handler rate k.path value l).1.mesh.sub = l.mesh.sub := by
  cases hkt : k.table with
  | none => exact congrArg (·.2.1) (handler_tables hkt rate value l)
  | some t =>
      cases k <;> simp only [RecordKey.table, reduceCtorEq, Option.some.injEq, ne_eq,
        not_true_eq_false] at hkt hk
      case rpl => exact congrArg (·.2.1) (rplSetBin_tables _ value l)
      case appKey => exact congrArg (·.2.1) (appKeySetBin_tables _ value l)
      case node => exact congrArg (·.2.1) (nodeSetBin_tables _ value l)

theorem netKeySetBin_headFills {value : Bytes} {l : LoadState}
    (hwf : TableWF Subnet.used Subnet.netIdx Subnet.free l.mesh.sub) {netIdx : UInt16}
    (hidx : netIdx ≠ keyUnused) (hroom : ∃ x ∈ l.mesh.sub, Subnet.used x = false)
    {l0 : List Subnet} (hp : HeadFills Subnet.used l0 l.mesh.sub) (hne : value ≠ []) :
    HeadFills Subnet.used l0 (netKeySetBin (RecordKey.netKey netIdx).path value l).1.mesh.sub := by
  have hkey : keyIndex (RecordKey.netKey netIdx).path 7 = netIdx :=
    keyIndex_indexPath "NetKey" 7 rfl netIdx
  have h0 : ¬value.length = 0 := fun h => hne (List.length_eq_zero.mp h)
  simp only [netKeySetBin, hkey, subnetSlot_eq _ hidx, firstSlot_sub_free, h0, if_false]
  split_ifs with h33
  · exact hp
  · obtain ⟨i, hi, halloc, hcase, -⟩ := hwf.alloc netIdx hroom
    simp only [halloc]
    have hy : Subnet.used ⟨netIdx, (NetKeyVal.decode value).krFlag,
        UInt8.ofNat (NetKeyVal.decode value).krPhase.toNat, (NetKeyVal.decode value).val0,
        (NetKeyVal.decode value).val1⟩ = true := by simp [Subnet.used, hidx]
    rcases hcase with ⟨hu, -⟩ | ⟨hfree, hnone⟩
    · exact hp.set_of_used_eq hi (hy.trans hu.symm)
    · have hf : firstSlot (fun x => Subnet.used x && x.netIdx == netIdx) l.mesh.sub = none := by
        have h := firstSlot_entryFor Subnet.used Subnet.netIdx l.mesh.sub netIdx
        rw [hnone] at h
        exact Option.map_eq_none'.mp h
      rw [hf, Option.none_or] at halloc
      obtain ⟨-, -, -, hbefore⟩ := firstSlot_spec halloc
      exact hp.set_first_free hi (by rw [hfree]; rfl)
        (fun j hj hji => by simpa using hbefore j hj hji) hy

theorem headFills_meshSetBin (cfg : Config) {l : LoadState} (hwf : LoadWF l) {k : RecordKey}
    {value : Bytes} (hfit : k.fits l value = true) (hroom : ∀ t, k.table = some t → 0 < l.freeIn t)
    {l0 : List Subnet} (hp : HeadFills Subnet.used l0 l.mesh.sub)
    (hne : k.table = some .sub → value ≠ []) :
    HeadFills Subnet.used l0 (meshSetBin cfg k.path value l).1.mesh.sub := by
  rw [meshSetBin_path]
  by_cases hk : k.table = some .sub
  · cases k <;> simp only [RecordKey.table, reduceCtorEq, Option.some.injEq] at hk
    rename_i netIdx
    exact netKeySetBin_headFills hwf.sub (by simpa [RecordKey.fits] using hfit)
      (exists_free_of_freeSlots_pos (hroom .sub rfl)) hp (hne rfl)
  · rw [handler_sub hk]
    exact hp

/--
Without empty `NetKey` records a load frees no subnet slot and fills the first
free slot each time, so the first slot ends in use exactly when it was, or when
some slot was filled.
-/
theorem headFills_confLoad (cfg : Config) :
    ∀ (rs : List (RecordKey × Bytes)) (l : LoadState), LoadWF l →
      (∀ r ∈ rs, r.1.fits l r.2 = true) → Room l rs →
      (∀ r ∈ rs, r.1.table = some .sub → r.2 ≠ []) → ∀ l0, HeadFills Subnet.used l0 l.mesh.sub →
      HeadFills Subnet.used l0 (confLoad cfg (storeRecords rs) l).mesh.sub
  | [], _, _, _, _, _, _, hp => hp
  | (k, value) :: rs, l, hwf, hfit, hroom, hne, l0, hp => by
      have hk := hfit _ (List.mem_cons_self _ _)
      obtain ⟨hv, hwf', hfree⟩ := loadStep cfg hwf hk hroom.head
      exact headFills_confLoad cfg rs _ hwf' (fits_tail hv hfit) (hroom.tail hfree)
        (fun r hr => hne r (List.mem_cons_of_mem _ hr)) l0
        (headFills_meshSetBin cfg hwf hk hroom.head hp (hne _ (List.mem_cons_self _ _)))

/-! ## Settings load in any order -/

/--
Two orders of one set of records with distinct keys, each fitting the state
it is loaded into, with a free slot in its table for each table record:
`conf_load` gives states equal up to the order of slots, and the role check of
`bt_mesh_settings_load` returns the same code.  When no `NetKey` record is
empty, `mesh_commit`'s provisioned check agrees too and the committed states
are equal up to the order of slots.
-/
theorem settingsLoad_any_order (cfg : Config) (roleNode : Bool) {l : LoadState} (hwf : LoadWF l)
    {rs rs' : List (RecordKey × Bytes)} (hp : rs.Perm rs') (hkeys : (rs.map (·.1)).Nodup)
    (hfit : ∀ r ∈ rs, r.1.fits l r.2 = true) (hroom : Room l rs) :
    SlotsPerm (confLoad cfg (storeRecords rs) l) (confLoad cfg (storeRecords rs') l) ∧
      (btMeshSettingsLoad cfg roleNode (storeRecords rs) l).2 =
        (btMeshSettingsLoad cfg roleNode (storeRecords rs') l).2 ∧
      ((∀ r ∈ rs, r.1.table = some .sub → r.2 ≠ []) →
        (confLoad cfg (storeRecords rs) l).mesh.sub.head?.map Subnet.used =
            (confLoad cfg (storeRecords rs') l).mesh.sub.head?.map Subnet.used ∧
          SlotsPerm (btMeshSettingsLoad cfg roleNode (storeRecords rs) l).1
            (btMeshSettingsLoad cfg roleNode (storeRecords rs') l).1) := by
  have h := confLoad_slotsPerm cfg hwf hp hkeys hfit hroom
  refine ⟨h, by simp only [btMeshSettingsLoad, h.flags]; split_ifs <;> rfl, fun hne => ?_⟩
  have hhead := HeadFills.head?_map_eq
    (headFills_confLoad cfg rs l hwf hfit hroom hne _ (.refl _))
    (headFills_confLoad cfg rs' l hwf (fun r hr => hfit r (hp.symm.subset hr)) (hroom.perm hp)
      (fun r hr => hne r (hp.symm.subset hr)) _ (.refl _)) h.sub
  refine ⟨hhead, ?_⟩
  simp only [btMeshSettingsLoad, h.flags]
  split_ifs
  · exact meshCommit_slotsPerm h hhead
  · exact h

def twoFreeSubnets : LoadState :=
  { LoadState.boot with mesh := { Mesh.empty with sub := List.replicate 2 Subnet.free } }

def twoNetKeys : List (RecordKey × Bytes) :=
  [(.netKey 1, NetKeyVal.encode ⟨false, 0, fun _ => 0, fun _ => 0⟩),
    (.netKey 2, NetKeyVal.encode ⟨false, 0, fun _ => 1, fun _ => 1⟩)]

theorem twoFreeSubnets_wf : LoadWF twoFreeSubnets :=
  ⟨.replicate rfl 0, .replicate rfl 2, .replicate rfl 0, .replicate rfl 0, List.nodup_nil,
    by decide⟩

theorem settingsLoad_any_order_twoNetKeys :
    LoadWF twoFreeSubnets ∧ twoNetKeys.Perm twoNetKeys.reverse ∧ (twoNetKeys.map (·.1)).Nodup ∧
      (∀ r ∈ twoNetKeys, r.1.fits twoFreeSubnets r.2 = true) ∧ Room twoFreeSubnets twoNetKeys ∧
      SlotsPerm (confLoad ⟨2, 1, 16⟩ (storeRecords twoNetKeys) twoFreeSubnets)
        (confLoad ⟨2, 1, 16⟩ (storeRecords twoNetKeys.reverse) twoFreeSubnets) ∧
      (btMeshSettingsLoad ⟨2, 1, 16⟩ true (storeRecords twoNetKeys) twoFreeSubnets).2 =
        (btMeshSettingsLoad ⟨2, 1, 16⟩ true (storeRecords twoNetKeys.reverse) twoFreeSubnets).2 ∧
      ((∀ r ∈ twoNetKeys, r.1.table = some .sub → r.2 ≠ []) →
        (confLoad ⟨2, 1, 16⟩ (storeRecords twoNetKeys) twoFreeSubnets).mesh.sub.head?.map
            Subnet.used =
          (confLoad ⟨2, 1, 16⟩ (storeRecords twoNetKeys.reverse) twoFreeSubnets).mesh.sub.head?.map
            Subnet.used ∧
        SlotsPerm (btMeshSettingsLoad ⟨2, 1, 16⟩ true (storeRecords twoNetKeys) twoFreeSubnets).1
          (btMeshSettingsLoad ⟨2, 1, 16⟩ true (storeRecords twoNetKeys.reverse) twoFreeSubnets).1) :=
  have hroom : Room twoFreeSubnets twoNetKeys := fun t => by cases t <;> decide
  ⟨twoFreeSubnets_wf, by decide, by decide, by decide, hroom,
    settingsLoad_any_order ⟨2, 1, 16⟩ true twoFreeSubnets_wf (by decide) (by decide) (by decide)
      hroom⟩

def subnetSevenFirst : LoadState :=
  { LoadState.boot with
    mesh := { Mesh.empty with sub := [{ Subnet.free with netIdx := 7 }, Subnet.free] } }

/--
Two `NetKey` records, no more than the array has slots, loaded in the two
orders into an array whose slot 0 already holds index 7: the first record
takes the free slot and the second finds none, so the arrays differ in more
than order.
-/
theorem confLoad_order_takes_last_slot :
    (twoNetKeys.map (·.1)).Nodup ∧ twoNetKeys.length ≤ subnetSevenFirst.mesh.sub.length ∧
      (confLoad ⟨2, 1, 16⟩ (storeRecords twoNetKeys) subnetSevenFirst).mesh.sub.map (·.netIdx) =
        [7, 1] ∧
      (confLoad ⟨2, 1, 16⟩ (storeRecords twoNetKeys.reverse) subnetSevenFirst).mesh.sub.map
        (·.netIdx) = [7, 2] ∧
      ¬(confLoad ⟨2, 1, 16⟩ (storeRecords twoNetKeys) subnetSevenFirst).mesh.sub.Perm
        (confLoad ⟨2, 1, 16⟩ (storeRecords twoNetKeys.reverse) subnetSevenFirst).mesh.sub := by
  have h1 : (confLoad ⟨2, 1, 16⟩ (storeRecords twoNetKeys) subnetSevenFirst).mesh.sub.map
      (·.netIdx) = [7, 1] := by decide
  have h2 : (confLoad ⟨2, 1, 16⟩ (storeRecords twoNetKeys.reverse) subnetSevenFirst).mesh.sub.map
      (·.netIdx) = [7, 2] := by decide
  refine ⟨by decide, by decide, h1, h2, fun hp => ?_⟩
  have := hp.map Subnet.netIdx
  rw [h1, h2] at this
  exact absurd this (by decide)

end MeshSettings
