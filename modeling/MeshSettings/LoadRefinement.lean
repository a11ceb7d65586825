import MeshSettings.LoadView

/-!
# Loading refines the abstract model

Each handler, run on a well-formed load state with a record that fits,
changes the part of the state the record's key owns exactly as
`RecordKey.effect` says and leaves every other part alone
(`loadStep`).  A whole `conf_load` therefore refines the abstract fold of
`LoadView.load` over its records (`view_confLoad`).
-/

namespace MeshSettings

theorem view_eq_update {l l' : LoadState} {k : RecordKey} {x : LocVal (some k)}
    (hk : view l' (some k) = x) (hrest : rest l' = rest l)
    (hother : ∀ k', k' ≠ k → view l' (some k') = view l (some k')) :
    view l' = Function.update (view l) (some k) x := by
  funext loc
  rcases loc with _ | k'
  · exact hrest
  · by_cases h : k' = k
    · subst h
      rw [Function.update_same]
      exact hk
    · rw [Function.update_noteq (by simpa using h)]
      exact hother k' h

theorem LoadView.load_of_effect_eq {rate : Nat} {v : LoadView} {k : RecordKey} {value : Bytes}
    (h : k.effect rate value (v none) (v (some k)) = v (some k)) : v.load rate (k, value) = v := by
  rw [LoadView.load, h, Function.update_eq_self]

/-! ## Singleton records -/

section Singletons

variable (rate : Nat) (key : Path) (value : Bytes) (l : LoadState)

theorem view_netSetBin :
    view (netSetBin key value l).1 = (view l).load rate (.net, value) := by
  refine view_eq_update (k := .net) ?_ ?_ fun k hk => ?_
  · unfold netSetBin
    simp only [RecordKey.effect]
    split_ifs <;> rfl
  · unfold netSetBin
    split_ifs <;> rfl
  · unfold netSetBin
    split_ifs <;> cases k <;> first | rfl | exact absurd rfl hk

theorem Flags.erase_setTo (f : Flags) {flag : Flag}
    (h : flag = .ivuInProgress ∨ flag = .node ∨ flag = .provisioner) (b : Bool) :
    (f.setTo flag b).erase = f.erase := by
  funext x
  cases x <;> rcases h with rfl | rfl | rfl <;> rfl

theorem view_ivSetBin :
    view (ivSetBin key value l).1 = (view l).load rate (.iv, value) := by
  refine view_eq_update (k := .iv) ?_ ?_ fun k hk => ?_
  · unfold ivSetBin
    simp only [RecordKey.effect]
    split_ifs <;> simp [view]
  · unfold ivSetBin
    split_ifs <;> simp only [rest, Flags.erase_setTo _ (.inl rfl)]
  · unfold ivSetBin
    split_ifs <;> cases k <;> first | rfl | exact absurd rfl hk

theorem view_seqSetBin :
    view (seqSetBin rate key value l).1 = (view l).load rate (.seq, value) := by
  refine view_eq_update (k := .seq) ?_ ?_ fun k hk => ?_
  · unfold seqSetBin
    simp only [RecordKey.effect]
    split_ifs <;> rfl
  · unfold seqSetBin
    split_ifs <;> rfl
  · unfold seqSetBin
    split_ifs <;> cases k <;> first | rfl | exact absurd rfl hk

theorem view_roleSetBin :
    view (roleSetBin key value l).1 = (view l).load rate (.role, value) := by
  refine view_eq_update (k := .role) ?_ ?_ fun k hk => ?_
  · dsimp only [roleSetBin]
    simp only [RecordKey.effect]
    split_ifs <;> simp [view, Flags.setTo]
  · dsimp only [roleSetBin]
    split_ifs <;> simp only [rest, Flags.erase_setTo _ (.inr (.inl rfl)),
      Flags.erase_setTo _ (.inr (.inr rfl))]
  · dsimp only [roleSetBin]
    split_ifs <;> cases k <;> first | rfl | exact absurd rfl hk

theorem view_hbPubSetBin :
    view (hbPubSetBin key value l).1 = (view l).load rate (.hbPub, value) := by
  refine view_eq_update (k := .hbPub) ?_ ?_ fun k hk => ?_
  · unfold hbPubSetBin
    simp only [RecordKey.effect]
    cases h : l.mesh.hbPub with
    | none => simp [view, h]
    | some pub => split_ifs <;> simp [view, h]
  · unfold hbPubSetBin
    cases h : l.mesh.hbPub with
    | none => rfl
    | some pub => split_ifs <;> rfl
  · unfold hbPubSetBin
    cases h : l.mesh.hbPub with
    | none => rfl
    | some pub => split_ifs <;> cases k <;> first | rfl | exact absurd rfl hk

theorem view_cfgSetBin :
    view (cfgSetBin key value l).1 = (view l).load rate (.cfg, value) := by
  refine view_eq_update (k := .cfg) ?_ ?_ fun k hk => ?_
  · unfold cfgSetBin
    simp only [RecordKey.effect]
    cases h : l.mesh.cfg with
    | none => simp [view, rest, h]
    | some c => split_ifs <;> simp [view, rest, h]
  · unfold cfgSetBin
    cases h : l.mesh.cfg with
    | none => rfl
    | some c => split_ifs <;> rfl
  · unfold cfgSetBin
    cases h : l.mesh.cfg with
    | none => rfl
    | some c => split_ifs <;> cases k <;> first | rfl | exact absurd rfl hk

end Singletons

/-! ## Table records -/

section Tables

variable {rate : Nat} {value : Bytes} {l : LoadState}

theorem view_setRpl (l : LoadState) {i : Nat} {y : Rpl} {src : UInt16} {x : Option Rpl}
    (hview : entryFor Rpl.used Rpl.src (l.mesh.rpl.set i y) =
      Function.update (entryFor Rpl.used Rpl.src l.mesh.rpl) src x) :
    view { l with mesh := { l.mesh with rpl := l.mesh.rpl.set i y } } =
      Function.update (view l) (some (.rpl src)) x := by
  refine view_eq_update ?_ (by simp only [rest, List.length_set]) fun k hk => ?_
  · show entryFor _ _ _ src = x
    rw [hview, Function.update_same]
  · cases k with
    | rpl j =>
        show entryFor _ _ _ j = entryFor _ _ _ j
        rw [hview, Function.update_noteq fun h => hk (by rw [h])]
    | _ => rfl

theorem rplFind_eq (m : Mesh) {src : UInt16} (hsrc : src ≠ 0) :
    rplFind m src = firstSlot (fun x => Rpl.used x && x.src == src) m.rpl :=
  firstSlot_congr fun x _ => by by_cases h : x.src = src <;> simp [Rpl.used, h, hsrc]

theorem view_rplSetBin (hwf : TableWF Rpl.used Rpl.src Rpl.empty l.mesh.rpl) {src : UInt16}
    (hsrc : src ≠ 0) (hroom : ∃ x ∈ l.mesh.rpl, Rpl.used x = false) :
    view (rplSetBin (RecordKey.rpl src).path value l).1 = (view l).load rate (.rpl src, value) ∧
      TableWF Rpl.used Rpl.src Rpl.empty (rplSetBin (RecordKey.rpl src).path value l).1.mesh.rpl ∧
      freeSlots Rpl.used l.mesh.rpl ≤
        freeSlots Rpl.used (rplSetBin (RecordKey.rpl src).path value l).1.mesh.rpl + 1 := by
  have hkey : keyIndex (RecordKey.rpl src).path 4 = src := keyIndex_indexPath "RPL" 4 rfl src
  have hfree : firstSlot (·.src == 0) l.mesh.rpl = firstSlot (fun x => !Rpl.used x) l.mesh.rpl :=
    firstSlot_congr fun x _ => by simp [Rpl.used, bne]
  have hcur : view l (some (.rpl src)) = entryFor Rpl.used Rpl.src l.mesh.rpl src := rfl
  simp only [rplSetBin, hkey, rplFind_eq _ hsrc, hfree]
  by_cases h0 : value.length = 0
  · simp only [h0, if_true]
    cases hf : firstSlot (fun x => Rpl.used x && x.src == src) l.mesh.rpl with
    | none =>
        have hnone : view l (some (.rpl src)) = none := by
          rw [hcur, ← firstSlot_entryFor, hf]; rfl
        refine ⟨(LoadView.load_of_effect_eq ?_).symm, hwf, Nat.le_succ _⟩
        simp only [RecordKey.effect, h0, if_true, hnone]
    | some p =>
        obtain ⟨i, x⟩ := p
        obtain ⟨hi, hx, ux, kx, -⟩ := firstSlot_match_some hf
        obtain ⟨hwf', hentry⟩ := hwf.set rfl hi (.inl ⟨hx ▸ ux, hx ▸ kx⟩) (.inl rfl)
        refine ⟨?_, hwf', freeSlots_le_set _ hi _⟩
        rw [view_setRpl l hentry, LoadView.load]
        simp only [RecordKey.effect, h0, if_true]
        rfl
  · obtain ⟨i, hi, hslot, hcase, hget⟩ := hwf.alloc src hroom
    rw [← hcur] at hget
    simp only [h0, if_false, hslot]
    split_ifs with h4
    · obtain ⟨hwf', hentry⟩ := hwf.set (y := { l.mesh.rpl[i] with src }) rfl hi hcase
        (.inr ⟨by simp [Rpl.used, hsrc], rfl⟩)
      refine ⟨?_, hwf', freeSlots_le_set _ hi _⟩
      rw [view_setRpl l hentry, LoadView.load]
      simp [RecordKey.effect, h0, h4, hget, Rpl.used, hsrc]
    · simp only [List.set_set]
      let v := RplVal.decode value
      obtain ⟨hwf', hentry⟩ := hwf.set rfl hi hcase
        (y := { l.mesh.rpl[i] with src, seq := UInt32.ofNat v.seq.toNat, oldIv := v.oldIv })
        (.inr ⟨by simp [Rpl.used, hsrc], rfl⟩)
      refine ⟨?_, hwf', freeSlots_le_set _ hi _⟩
      rw [view_setRpl l hentry, LoadView.load]
      simp [RecordKey.effect, h0, h4, hget, Rpl.used, hsrc, v]

theorem view_setSub (l : LoadState) {i : Nat} {y : Subnet} {netIdx : UInt16} {x : Option Subnet}
    (hview : entryFor Subnet.used Subnet.netIdx (l.mesh.sub.set i y) =
      Function.update (entryFor Subnet.used Subnet.netIdx l.mesh.sub) netIdx x) :
    view { l with mesh := { l.mesh with sub := l.mesh.sub.set i y } } =
      Function.update (view l) (some (.netKey netIdx)) x := by
  refine view_eq_update ?_ (by simp only [rest, List.length_set]) fun k hk => ?_
  · show entryFor _ _ _ netIdx = x
    rw [hview, Function.update_same]
  · cases k with
    | netKey j =>
        show entryFor _ _ _ j = entryFor _ _ _ j
        rw [hview, Function.update_noteq fun h => hk (by rw [h])]
    | _ => rfl

theorem subnetSlot_eq (m : Mesh) {netIdx : UInt16} (hidx : netIdx ≠ keyUnused) :
    subnetSlot m netIdx = firstSlot (fun x => Subnet.used x && x.netIdx == netIdx) m.sub :=
  firstSlot_congr fun x _ => by by_cases h : x.netIdx = netIdx <;> simp [Subnet.used, h, hidx]

theorem firstSlot_sub_free (m : Mesh) :
    firstSlot (·.netIdx == keyUnused) m.sub = firstSlot (fun x => !Subnet.used x) m.sub :=
  firstSlot_congr fun x _ => by simp [Subnet.used, bne]

theorem view_netKeySetBin (hwf : TableWF Subnet.used Subnet.netIdx Subnet.free l.mesh.sub)
    {netIdx : UInt16} (hidx : netIdx ≠ keyUnused) (hroom : ∃ x ∈ l.mesh.sub, Subnet.used x = false) :
    view (netKeySetBin (RecordKey.netKey netIdx).path value l).1 =
        (view l).load rate (.netKey netIdx, value) ∧
      TableWF Subnet.used Subnet.netIdx Subnet.free
        (netKeySetBin (RecordKey.netKey netIdx).path value l).1.mesh.sub ∧
      freeSlots Subnet.used l.mesh.sub ≤
        freeSlots Subnet.used (netKeySetBin (RecordKey.netKey netIdx).path value l).1.mesh.sub + 1 := by
  have hkey : keyIndex (RecordKey.netKey netIdx).path 7 = netIdx :=
    keyIndex_indexPath "NetKey" 7 rfl netIdx
  have hcur : view l (some (.netKey netIdx)) = entryFor Subnet.used Subnet.netIdx l.mesh.sub netIdx :=
    rfl
  simp only [netKeySetBin, hkey, subnetSlot_eq _ hidx, firstSlot_sub_free]
  by_cases h0 : value.length = 0
  · simp only [h0, if_true]
    cases hf : firstSlot (fun x => Subnet.used x && x.netIdx == netIdx) l.mesh.sub with
    | none =>
        have hnone : view l (some (.netKey netIdx)) = none := by
          rw [hcur, ← firstSlot_entryFor, hf]; rfl
        refine ⟨(LoadView.load_of_effect_eq ?_).symm, hwf, Nat.le_succ _⟩
        simp only [RecordKey.effect, h0, if_true, hnone]
    | some p =>
        obtain ⟨i, x⟩ := p
        obtain ⟨hi, hx, ux, kx, -⟩ := firstSlot_match_some hf
        obtain ⟨hwf', hentry⟩ := hwf.set rfl hi (.inl ⟨hx ▸ ux, hx ▸ kx⟩) (.inl rfl)
        refine ⟨?_, hwf', freeSlots_le_set _ hi _⟩
        rw [view_setSub l hentry, LoadView.load]
        simp only [RecordKey.effect, h0, if_true]
        rfl
  · simp only [h0, if_false]
    split_ifs with h33
    · exact ⟨(LoadView.load_of_effect_eq (by simp only [RecordKey.effect, h0, if_false,
        if_pos h33])).symm, hwf, Nat.le_succ _⟩
    · obtain ⟨i, hi, halloc, hcase, -⟩ := hwf.alloc netIdx hroom
      simp only [halloc]
      let k := NetKeyVal.decode value
      obtain ⟨hwf', hentry⟩ := hwf.set rfl hi hcase
        (y := ⟨netIdx, k.krFlag, UInt8.ofNat k.krPhase.toNat, k.val0, k.val1⟩)
        (.inr ⟨by simp [Subnet.used, hidx], rfl⟩)
      refine ⟨?_, hwf', freeSlots_le_set _ hi _⟩
      rw [view_setSub l hentry, LoadView.load]
      simp [RecordKey.effect, h0, h33, Subnet.used, hidx, k]

theorem view_setAppKeys (l : LoadState) {i : Nat} {y : AppKey} {appIdx : UInt16}
    {x : Option AppKey}
    (hview : entryFor AppKey.used AppKey.appIdx (l.mesh.appKeys.set i y) =
      Function.update (entryFor AppKey.used AppKey.appIdx l.mesh.appKeys) appIdx x) :
    view { l with mesh := { l.mesh with appKeys := l.mesh.appKeys.set i y } } =
      Function.update (view l) (some (.appKey appIdx)) x := by
  refine view_eq_update ?_ (by simp only [rest, List.length_set]) fun k hk => ?_
  · show entryFor _ _ _ appIdx = x
    rw [hview, Function.update_same]
  · cases k with
    | appKey j =>
        show entryFor _ _ _ j = entryFor _ _ _ j
        rw [hview, Function.update_noteq fun h => hk (by rw [h])]
    | _ => rfl

theorem view_appKeySetBin (hwf : TableWF AppKey.used AppKey.appIdx AppKey.free l.mesh.appKeys)
    {appIdx : UInt16} (hfit : value.length = 35 → (AppKeyVal.decode value).netIdx ≠ keyUnused)
    (hroom : ∃ x ∈ l.mesh.appKeys, AppKey.used x = false) :
    view (appKeySetBin (RecordKey.appKey appIdx).path value l).1 =
        (view l).load rate (.appKey appIdx, value) ∧
      TableWF AppKey.used AppKey.appIdx AppKey.free
        (appKeySetBin (RecordKey.appKey appIdx).path value l).1.mesh.appKeys ∧
      freeSlots AppKey.used l.mesh.appKeys ≤
        freeSlots AppKey.used (appKeySetBin (RecordKey.appKey appIdx).path value l).1.mesh.appKeys +
          1 := by
  have hkey : keyIndex (RecordKey.appKey appIdx).path 7 = appIdx :=
    keyIndex_indexPath "AppKey" 7 rfl appIdx
  have hslot : appKeySlot l.mesh appIdx =
      firstSlot (fun x => AppKey.used x && x.appIdx == appIdx) l.mesh.appKeys :=
    firstSlot_congr fun x _ => by
      by_cases h1 : x.netIdx = keyUnused <;> by_cases h2 : x.appIdx = appIdx <;>
        simp [AppKey.used, h1, h2]
  have hfree : firstSlot (·.netIdx == keyUnused) l.mesh.appKeys =
      firstSlot (fun x => !AppKey.used x) l.mesh.appKeys :=
    firstSlot_congr fun x _ => by simp [AppKey.used, bne]
  have hcur : view l (some (.appKey appIdx)) =
      entryFor AppKey.used AppKey.appIdx l.mesh.appKeys appIdx := rfl
  simp only [appKeySetBin, hkey, hslot, hfree]
  by_cases h0 : value.length = 0
  · simp only [h0, if_true]
    cases hf : firstSlot (fun x => AppKey.used x && x.appIdx == appIdx) l.mesh.appKeys with
    | none =>
        have hnone : view l (some (.appKey appIdx)) = none := by
          rw [hcur, ← firstSlot_entryFor, hf]; rfl
        refine ⟨(LoadView.load_of_effect_eq ?_).symm, hwf, Nat.le_succ _⟩
        simp only [RecordKey.effect, h0, if_true, hnone]
    | some p =>
        obtain ⟨i, x⟩ := p
        obtain ⟨hi, hx, ux, kx, -⟩ := firstSlot_match_some hf
        obtain ⟨hwf', hentry⟩ := hwf.set rfl hi (.inl ⟨hx ▸ ux, hx ▸ kx⟩) (.inl rfl)
        refine ⟨?_, hwf', freeSlots_le_set _ hi _⟩
        rw [view_setAppKeys l hentry, LoadView.load]
        simp only [RecordKey.effect, h0, if_true]
        rfl
  · simp only [h0, if_false]
    split_ifs with h35
    · exact ⟨(LoadView.load_of_effect_eq (by simp only [RecordKey.effect, h0, if_false,
        if_pos h35])).symm, hwf, Nat.le_succ _⟩
    · obtain ⟨i, hi, halloc, hcase, -⟩ := hwf.alloc appIdx hroom
      simp only [halloc]
      let k := AppKeyVal.decode value
      have hnet : k.netIdx ≠ keyUnused := hfit (not_not.mp h35)
      obtain ⟨hwf', hentry⟩ := hwf.set rfl hi hcase
        (y := ⟨k.netIdx, appIdx, k.updated, k.val0, k.val1⟩)
        (.inr ⟨by simp [AppKey.used, hnet], rfl⟩)
      refine ⟨?_, hwf', freeSlots_le_set _ hi _⟩
      rw [view_setAppKeys l hentry, LoadView.load]
      simp [RecordKey.effect, h0, h35, AppKey.used, hnet, k]

theorem view_setNodes (l : LoadState) {i : Nat} {y : Node} {addr : UInt16} {x : Option Node}
    (hview : entryFor Node.used Node.addr (l.mesh.nodes.set i y) =
      Function.update (entryFor Node.used Node.addr l.mesh.nodes) addr x) :
    view { l with mesh := { l.mesh with nodes := l.mesh.nodes.set i y } } =
      Function.update (view l) (some (.node addr)) x := by
  refine view_eq_update ?_ (by simp only [rest, List.length_set]) fun k hk => ?_
  · show entryFor _ _ _ addr = x
    rw [hview, Function.update_same]
  · cases k with
    | node j =>
        show entryFor _ _ _ j = entryFor _ _ _ j
        rw [hview, Function.update_noteq fun h => hk (by rw [h])]
    | _ => rfl

theorem view_nodeSetBin (hwf : TableWF Node.used Node.addr Node.free l.mesh.nodes)
    {addr : UInt16} (haddr : addr ≠ addrUnassigned) (hroom : ∃ x ∈ l.mesh.nodes, Node.used x = false) :
    view (nodeSetBin (RecordKey.node addr).path value l).1 = (view l).load rate (.node addr, value) ∧
      TableWF Node.used Node.addr Node.free (nodeSetBin (RecordKey.node addr).path value l).1.mesh.nodes ∧
      freeSlots Node.used l.mesh.nodes ≤
        freeSlots Node.used (nodeSetBin (RecordKey.node addr).path value l).1.mesh.nodes + 1 := by
  have hkey : keyIndex (RecordKey.node addr).path 5 = addr := keyIndex_indexPath "Node" 5 rfl addr
  have hslot : nodeSlot l.mesh addr = firstSlot (fun x => Node.used x && x.addr == addr) l.mesh.nodes :=
    firstSlot_congr fun x _ => by by_cases h : x.addr = addr <;> simp [Node.used, h, haddr]
  have hfree : firstSlot (·.addr == addrUnassigned) l.mesh.nodes =
      firstSlot (fun x => !Node.used x) l.mesh.nodes :=
    firstSlot_congr fun x _ => by simp [Node.used, bne]
  have hcur : view l (some (.node addr)) = entryFor Node.used Node.addr l.mesh.nodes addr := rfl
  simp only [nodeSetBin, hkey, hslot, hfree]
  cases hf : firstSlot (fun x => Node.used x && x.addr == addr) l.mesh.nodes with
  | none =>
      have hnone : view l (some (.node addr)) = none := by
        rw [hcur, ← firstSlot_entryFor, hf]; rfl
      split_ifs with h0 h19
      · refine ⟨(LoadView.load_of_effect_eq ?_).symm, hwf, Nat.le_succ _⟩
        simp only [RecordKey.effect, h0, if_true, hnone]
      · exact ⟨(LoadView.load_of_effect_eq (by simp only [RecordKey.effect, h0, if_false,
          if_pos h19])).symm, hwf, Nat.le_succ _⟩
      · obtain ⟨i, hi, hfirst, hifree⟩ := hwf.firstFree hroom
        simp only [hfirst]
        let v := NodeVal.decode value
        obtain ⟨hwf', hentry⟩ := hwf.set rfl hi (.inr ⟨hifree, hcur ▸ hnone⟩)
          (y := ⟨addr, v.netIdx, v.devKey, v.numElem⟩) (.inr ⟨by simp [Node.used, haddr], rfl⟩)
        refine ⟨?_, hwf', freeSlots_le_set _ hi _⟩
        rw [view_setNodes l hentry, LoadView.load]
        simp [RecordKey.effect, h0, h19, Node.used, haddr, hnone, v]
  | some p =>
      obtain ⟨i, x⟩ := p
      obtain ⟨hi, hx, ux, kx, hsome⟩ := firstSlot_match_some hf
      have hcurx : view l (some (.node addr)) = some x := hcur.trans hsome
      split_ifs with h0 h19
      · obtain ⟨hwf', hentry⟩ := hwf.set rfl hi (.inl ⟨hx ▸ ux, hx ▸ kx⟩) (.inl rfl)
        refine ⟨?_, hwf', freeSlots_le_set _ hi _⟩
        rw [view_setNodes l hentry, LoadView.load]
        simp only [RecordKey.effect, h0, if_true]
        rfl
      · exact ⟨(LoadView.load_of_effect_eq (by simp only [RecordKey.effect, h0, if_false,
          if_pos h19])).symm, hwf, Nat.le_succ _⟩
      · have hu : Node.used { x with devKey := (NodeVal.decode value).devKey } = true := ux
        obtain ⟨hwf', hentry⟩ := hwf.set rfl hi (.inl ⟨hx ▸ ux, hx ▸ kx⟩) (.inr ⟨hu, kx⟩)
        refine ⟨?_, hwf', freeSlots_le_set _ hi _⟩
        rw [view_setNodes l hentry, LoadView.load]
        simp [RecordKey.effect, h0, h19, hcurx, hu]

end Tables

/-! ## Label records -/

theorem view_vaSetBin {rate : Nat} {value : Bytes} {l : LoadState} (index : UInt16) :
    view (vaSetBin (RecordKey.va index).path value l).1 = (view l).load rate (.va index, value) := by
  have hkey : keyIndex (RecordKey.va index).path 3 = index := keyIndex_indexPath "Va" 3 rfl index
  have hcur : view l (some (.va index)) = getLabel l.mesh index.toNat := rfl
  simp only [vaSetBin, hkey]
  split_ifs with h0 h20 href
  · exact (LoadView.load_of_effect_eq (by simp only [RecordKey.effect, if_pos (Or.inl h0)])).symm
  · exact (LoadView.load_of_effect_eq (by simp only [RecordKey.effect, if_pos (Or.inr h20)])).symm
  · exact (LoadView.load_of_effect_eq (by simp [RecordKey.effect, h0, h20, href])).symm
  · cases hlab : getLabel l.mesh index.toNat with
    | none => exact (LoadView.load_of_effect_eq (by simp [RecordKey.effect, h0, h20, href, hcur, hlab])).symm
    | some lab =>
        have hi : index.toNat < l.mesh.labels.length := by
          simp only [getLabel, List.get?_eq_getElem?, List.getElem?_eq_some_iff] at hlab
          exact hlab.1
        rw [LoadView.load]
        refine view_eq_update ?_ (by simp only [rest, List.length_set]) fun k hk => ?_
        · rw [show view l (some (.va index)) = some lab from hcur.trans hlab]
          simp [view, getLabel, RecordKey.effect, h0, h20, href, hi]
        · cases k with
          | va j =>
              have hj : index.toNat ≠ j.toNat := fun h => hk (by rw [UInt16.toNat.inj h])
              simp only [view, getLabel, List.get?_eq_getElem?, List.getElem?_set_ne hj]
          | _ => rfl

/-! ## Model records -/

section Models

variable {rate : Nat} {value : Bytes} {l : LoadState}

theorem ModKind.get_put (kind : ModKind) (mod : Model) (x : kind.Field) :
    kind.get (kind.put mod x) = x := by
  cases kind <;> rfl

theorem ModKind.get_put_other {kind other : ModKind} (h : other ≠ kind) (mod : Model)
    (x : kind.Field) : other.get (kind.put mod x) = other.get mod := by
  cases kind <;> cases other <;> first | exact absurd rfl h | rfl

theorem ModKind.load_eq_put (kind : ModKind) (mod : Model) (value : Bytes) :
    (kind.load mod value).1 = kind.put mod (kind.get (kind.load mod value).1) := by
  cases kind
  case pub =>
    simp only [ModKind.load, ModKind.get, ModKind.put, modSetPubBin]
    split
    · rfl
    · split_ifs <;> rfl
  all_goals simp only [ModKind.load, ModKind.get, ModKind.put, modSetBindBin, modSetSubBin]
  all_goals split_ifs <;> rfl

theorem ModKind.get_load_other {kind other : ModKind} (h : other ≠ kind) (mod : Model)
    (value : Bytes) : other.get (kind.load mod value).1 = other.get mod := by
  rw [kind.load_eq_put]
  exact ModKind.get_put_other h _ _

theorem ModKind.get_load_congr (kind : ModKind) {m1 m2 : Model} (h : kind.get m1 = kind.get m2)
    (value : Bytes) : kind.get (kind.load m1 value).1 = kind.get (kind.load m2 value).1 := by
  cases kind
  case pub =>
    simp only [ModKind.load, ModKind.get, modSetPubBin] at h ⊢
    rw [h]
    split
    · exact h
    · split_ifs <;> first | rfl | exact h
  all_goals simp only [ModKind.load, ModKind.get, modSetBindBin, modSetSubBin] at h ⊢
  all_goals first | rw [h] | skip
  all_goals split_ifs <;> rfl

theorem ModKind.skeleton_load (kind : ModKind) (mod : Model) (value : Bytes) :
    (kind.load mod value).1.skeleton = mod.skeleton := by
  rw [kind.load_eq_put]
  cases kind
  case bind =>
    have hlen : (modSetBindBin mod value).1.keys.length = mod.keys.length := by
      simp only [modSetBindBin]
      split_ifs
      · simp
      · exact (memcpyU16_length _ _).trans (List.length_map _ _)
    simp only [ModKind.put, ModKind.get, ModKind.load, Model.skeleton, List.map_const', hlen]
  case sub =>
    have hlen : (modSetSubBin mod value).1.groups.length = mod.groups.length := by
      simp only [modSetSubBin]
      split_ifs
      · simp
      · exact (memcpyU16_length _ _).trans (List.length_map _ _)
    simp only [ModKind.put, ModKind.get, ModKind.load, Model.skeleton, List.map_const', hlen]
  all_goals rfl

def ModKind.fits : ModKind → Model → Bytes → Bool
  | .bind, mod, value => decide (value.length ≤ 2 * mod.keys.length)
  | .sub, mod, value => decide (value.length ≤ 2 * mod.groups.length)
  | .pub, _, _ => true
  | .data, _, value => decide (value.length < modDataSize)

theorem ModKind.aborts_of_fits {kind : ModKind} {mod : Model} {value : Bytes}
    (h : kind.fits mod value = true) : kind.aborts mod value = false := by
  cases kind
  case data =>
    simp only [ModKind.fits, decide_eq_true_eq] at h
    simp [ModKind.aborts, Nat.not_lt.mpr h.le]
  all_goals rfl

theorem ModKind.past_of_fits {kind : ModKind} {mod : Model} {value : Bytes}
    (h : kind.fits mod value = true) : (kind.load mod value).2.1 = [] := by
  cases kind
  case bind =>
    simp only [ModKind.fits, decide_eq_true_eq] at h
    simp only [ModKind.load, modSetBindBin]
    split_ifs
    · rfl
    · show (memcpyU16 _ value).2 = []
      rw [memcpyU16_past, List.drop_eq_nil_iff, List.length_map]
      exact h
  case sub =>
    simp only [ModKind.fits, decide_eq_true_eq] at h
    simp only [ModKind.load, modSetSubBin]
    split_ifs
    · rfl
    · show (memcpyU16 _ value).2 = []
      rw [memcpyU16_past, List.drop_eq_nil_iff, List.length_map]
      exact h
  case pub => rfl
  case data =>
    simp only [ModKind.fits, decide_eq_true_eq] at h
    simp only [ModKind.load]
    split_ifs <;> rfl

theorem modelGet_rest (l : LoadState) (vnd : Bool) (elemIdx modIdx : UInt8) :
    modelGet (rest l).mesh vnd elemIdx modIdx =
      (modelGet l.mesh vnd elemIdx modIdx).map fun jx => (jx.1, jx.2.skeleton) :=
  firstSlot_map _ _ _

theorem modelGet_set (m : Mesh) {i : Nat} (hi : i < m.models.length) {y : Model}
    (hy : y.skeleton = m.models[i].skeleton) (vnd : Bool) (elemIdx modIdx : UInt8) :
    modelGet { m with models := m.models.set i y } vnd elemIdx modIdx =
      (modelGet m vnd elemIdx modIdx).map fun jx => if jx.1 = i then (i, y) else jx := by
  have h1 := congrArg Model.vnd hy
  have h2 := congrArg Model.elemIdx hy
  have h3 := congrArg Model.modIdx hy
  dsimp only [Model.skeleton] at h1 h2 h3
  exact firstSlot_set_of_eq _ _ hi (by simp only [h1, h2, h3])

theorem view_modSetBin {vnd : Bool} {elemIdx modIdx : UInt8} {kind : ModKind}
    (hfit : (modelGet l.mesh vnd elemIdx modIdx).all (fun jx => kind.fits jx.2 value) = true) :
    view (modSetBin vnd (RecordKey.mod vnd elemIdx modIdx kind).path value l).1 =
      (view l).load rate (.mod vnd elemIdx modIdx kind, value) := by
  show view (modSetBin vnd (modPath vnd elemIdx modIdx kind.name) value l).1 = _
  rw [modSetBin_modPath]
  have hcur : view l (some (.mod vnd elemIdx modIdx kind)) =
      (modelGet l.mesh vnd elemIdx modIdx).map (kind.get ·.2) := rfl
  cases hget : modelGet l.mesh vnd elemIdx modIdx with
  | none =>
      refine (LoadView.load_of_effect_eq ?_).symm
      simp only [RecordKey.effect, hcur, hget, Option.map_none']
  | some p =>
      obtain ⟨i, mod⟩ := p
      obtain ⟨hi, hmod, hmatch, -⟩ := firstSlot_spec hget
      have hfits : kind.fits mod value = true := by simpa only [hget, Option.all_some] using hfit
      have hpast := ModKind.past_of_fits hfits
      have hskel : (kind.load mod value).1.skeleton = l.mesh.models[i].skeleton := by
        rw [hmod]; exact kind.skeleton_load mod value
      have hset := modelGet_set l.mesh hi hskel
      simp only [ModKind.aborts_of_fits hfits, Bool.false_eq_true, if_false]
      show view { l with
        mesh := { l.mesh with models := l.mesh.models.set i (kind.load mod value).1 },
        outside := l.outside ++ (kind.load mod value).2.1 } = _
      rw [hpast, List.append_nil, LoadView.load]
      refine view_eq_update ?_ ?_ fun k hk => ?_
      · show (modelGet { l.mesh with models := _ } vnd elemIdx modIdx).map (kind.get ·.2) = _
        have hrest : view l none = rest l := rfl
        rw [hset, hget]
        simp only [RecordKey.effect, hcur, hrest, hget, modelGet_rest, Option.map_some', if_true]
        rw [kind.get_load_congr (kind.get_put _ _)]
      · simp only [rest, map_set_of_eq _ _ hi hskel]
      · cases k with
        | mod v e m other =>
            show (modelGet { l.mesh with models := _ } v e m).map (other.get ·.2) =
              (modelGet l.mesh v e m).map (other.get ·.2)
            rw [hset]
            cases hg : modelGet l.mesh v e m with
            | none => rfl
            | some q =>
                obtain ⟨j, x⟩ := q
                by_cases hj : j = i
                · subst hj
                  obtain ⟨_, hx, hmx, -⟩ := firstSlot_spec hg
                  have hxm : x = mod := hx.symm.trans hmod
                  subst hxm
                  simp only [Bool.and_eq_true, beq_iff_eq] at hmatch hmx
                  have hother : other ≠ kind := fun h => hk (by
                    rw [h, ← hmatch.1.1, ← hmatch.1.2, ← hmatch.2, hmx.1.1, hmx.1.2, hmx.2])
                  simp [ModKind.get_load_other hother]
                · simp [hj]
        | _ => rfl

theorem ModKind.fits_skeleton (kind : ModKind) (mod : Model) (value : Bytes) :
    kind.fits mod.skeleton value = kind.fits mod value := by
  cases kind <;> simp [ModKind.fits, Model.skeleton]

end Models

/-! ## One record, then a whole load -/

/-- A record its handler loads into the part its key names, with nothing written elsewhere. -/
def RecordKey.fits (l : LoadState) : RecordKey → Bytes → Bool
  | .rpl src, _ => src != 0
  | .netKey netIdx, _ => netIdx != keyUnused
  | .appKey _, value => value.length != 35 || (AppKeyVal.decode value).netIdx != keyUnused
  | .node addr, _ => addr != addrUnassigned
  | .mod vnd elemIdx modIdx kind, value =>
      (modelGet l.mesh vnd elemIdx modIdx).all fun jx => kind.fits jx.2 value
  | _, _ => true

theorem RecordKey.fits_rest (l : LoadState) (k : RecordKey) (value : Bytes) :
    k.fits (rest l) value = k.fits l value := by
  cases k with
  | mod vnd elemIdx modIdx kind =>
      simp only [RecordKey.fits, modelGet_rest]
      cases modelGet l.mesh vnd elemIdx modIdx with
      | none => rfl
      | some jx => exact kind.fits_skeleton jx.2 value
  | _ => rfl

theorem RecordKey.fits_of_rest_eq {l l' : LoadState} (h : rest l' = rest l) (k : RecordKey)
    (value : Bytes) : k.fits l' value = k.fits l value := by
  rw [← k.fits_rest l', h, k.fits_rest]

inductive Table
  | rpl | sub | appKeys | nodes
  deriving DecidableEq

def RecordKey.table : RecordKey → Option Table
  | .rpl _ => some .rpl
  | .netKey _ => some .sub
  | .appKey _ => some .appKeys
  | .node _ => some .nodes
  | _ => none

def LoadState.freeIn (l : LoadState) : Table → Nat
  | .rpl => freeSlots Rpl.used l.mesh.rpl
  | .sub => freeSlots Subnet.used l.mesh.sub
  | .appKeys => freeSlots AppKey.used l.mesh.appKeys
  | .nodes => freeSlots Node.used l.mesh.nodes

def LoadState.tables (l : LoadState) : List Rpl × List Subnet × List AppKey × List Node :=
  (l.mesh.rpl, l.mesh.sub, l.mesh.appKeys, l.mesh.nodes)

theorem ite_tables {c : Prop} [Decidable c] {l : LoadState} {a b : LoadState × Int}
    (ha : a.1.tables = l.tables) (hb : b.1.tables = l.tables) :
    (if c then a else b).1.tables = l.tables := by
  split
  · exact ha
  · exact hb

def Model.ident (mod : Model) : Bool × UInt8 × UInt8 := (mod.vnd, mod.elemIdx, mod.modIdx)

/--
The load states the refinement holds on: every table well formed, no two
models with one identity, and every label index within the 16 bits of a key.
-/
structure LoadWF (l : LoadState) : Prop where
  rpl : TableWF Rpl.used Rpl.src Rpl.empty l.mesh.rpl
  sub : TableWF Subnet.used Subnet.netIdx Subnet.free l.mesh.sub
  appKeys : TableWF AppKey.used AppKey.appIdx AppKey.free l.mesh.appKeys
  nodes : TableWF Node.used Node.addr Node.free l.mesh.nodes
  models : (l.mesh.models.map Model.ident).Nodup
  labels : l.mesh.labels.length ≤ 2 ^ 16

theorem rest_of_load {l l' : LoadState} {rate : Nat} {r : RecordKey × Bytes}
    (h : view l' = (view l).load rate r) : rest l' = rest l :=
  (congrFun h none).trans (Function.update_noteq (Option.some_ne_none _).symm _ _)

theorem LoadWF.of_rest {l l' : LoadState} (hwf : LoadWF l) (hrest : rest l' = rest l)
    (hrpl : TableWF Rpl.used Rpl.src Rpl.empty l'.mesh.rpl)
    (hsub : TableWF Subnet.used Subnet.netIdx Subnet.free l'.mesh.sub)
    (happ : TableWF AppKey.used AppKey.appIdx AppKey.free l'.mesh.appKeys)
    (hnodes : TableWF Node.used Node.addr Node.free l'.mesh.nodes) : LoadWF l' where
  rpl := hrpl
  sub := hsub
  appKeys := happ
  nodes := hnodes
  models := by
    have hid : ∀ ms : List Model, (ms.map Model.skeleton).map Model.ident = ms.map Model.ident :=
      fun ms => by rw [List.map_map]; rfl
    have h := congrArg (fun r => r.mesh.models.map Model.ident) hrest
    simp only [rest, hid] at h
    exact h ▸ hwf.models
  labels := by
    have h := congrArg (fun r => r.mesh.labels.length) hrest
    simp only [rest, List.length_replicate] at h
    exact h ▸ hwf.labels

theorem handler_tables {k : RecordKey} (hk : k.table = none) (rate : Nat) (value : Bytes)
    (l : LoadState) : (k.handler rate k.path value l).1.tables = l.tables := by
  cases k <;> simp only [RecordKey.table, reduceCtorEq] at hk
  case net => dsimp only [RecordKey.handler, netSetBin]; split_ifs <;> rfl
  case iv => dsimp only [RecordKey.handler, ivSetBin]; split_ifs <;> rfl
  case seq => dsimp only [RecordKey.handler, seqSetBin]; split_ifs <;> rfl
  case role => dsimp only [RecordKey.handler, roleSetBin]; split_ifs <;> rfl
  case hbPub => dsimp only [RecordKey.handler, hbPubSetBin]; split <;> (try split_ifs) <;> rfl
  case cfg => dsimp only [RecordKey.handler, cfgSetBin]; split <;> (try split_ifs) <;> rfl
  case va => dsimp only [RecordKey.handler, vaSetBin]; split_ifs <;> (try split) <;> rfl
  case mod vnd elemIdx modIdx kind =>
    show (modSetBin vnd (modPath vnd elemIdx modIdx kind.name) value l).1.tables = l.tables
    rw [modSetBin_modPath]
    split
    · rfl
    · exact ite_tables rfl rfl

theorem rplSetBin_tables (key : Path) (value : Bytes) (l : LoadState) :
    (rplSetBin key value l).1.tables =
      ((rplSetBin key value l).1.mesh.rpl, l.mesh.sub, l.mesh.appKeys, l.mesh.nodes) := by
  simp only [rplSetBin]
  (repeat' split) <;> rfl

theorem netKeySetBin_tables (key : Path) (value : Bytes) (l : LoadState) :
    (netKeySetBin key value l).1.tables =
      (l.mesh.rpl, (netKeySetBin key value l).1.mesh.sub, l.mesh.appKeys, l.mesh.nodes) := by
  simp only [netKeySetBin]
  (repeat' split) <;> rfl

theorem appKeySetBin_tables (key : Path) (value : Bytes) (l : LoadState) :
    (appKeySetBin key value l).1.tables =
      (l.mesh.rpl, l.mesh.sub, (appKeySetBin key value l).1.mesh.appKeys, l.mesh.nodes) := by
  simp only [appKeySetBin]
  (repeat' split) <;> rfl

theorem nodeSetBin_tables (key : Path) (value : Bytes) (l : LoadState) :
    (nodeSetBin key value l).1.tables =
      (l.mesh.rpl, l.mesh.sub, l.mesh.appKeys, (nodeSetBin key value l).1.mesh.nodes) := by
  simp only [nodeSetBin]
  (repeat' split) <;> rfl

section Step

variable {rate : Nat} {l l' : LoadState} {k : RecordKey} {value : Bytes}

theorem LoadWF.step_of_tables (hwf : LoadWF l) (hv : view l' = (view l).load rate (k, value))
    (ht : l'.tables = l.tables) :
    LoadWF l' ∧ ∀ t, l.freeIn t ≤ l'.freeIn t + if k.table = some t then 1 else 0 := by
  have hrpl : l'.mesh.rpl = l.mesh.rpl := congrArg (·.1) ht
  have hsub : l'.mesh.sub = l.mesh.sub := congrArg (·.2.1) ht
  have happ : l'.mesh.appKeys = l.mesh.appKeys := congrArg (·.2.2.1) ht
  have hnodes : l'.mesh.nodes = l.mesh.nodes := congrArg (·.2.2.2) ht
  refine ⟨hwf.of_rest (rest_of_load hv) (hrpl ▸ hwf.rpl) (hsub ▸ hwf.sub) (happ ▸ hwf.appKeys)
    (hnodes ▸ hwf.nodes), fun t => ?_⟩
  cases t <;> simp only [LoadState.freeIn, hrpl, hsub, happ, hnodes] <;> omega

/--
One record through `mesh_set_bin`: on a well-formed state, with a record that
fits and a free slot in its table, the state changes as the abstract load
says, stays well formed, and uses at most one free slot of the record's table.
-/
theorem loadStep (cfg : Config) (hwf : LoadWF l) (hfit : k.fits l value = true)
    (hroom : ∀ t, k.table = some t → 0 < l.freeIn t) :
    view (meshSetBin cfg k.path value l).1 = (view l).load cfg.seqStoreRate (k, value) ∧
      LoadWF (meshSetBin cfg k.path value l).1 ∧
      ∀ t, l.freeIn t ≤ (meshSetBin cfg k.path value l).1.freeIn t +
        if k.table = some t then 1 else 0 := by
  rw [meshSetBin_path]
  have frame := fun (hv : view (k.handler cfg.seqStoreRate k.path value l).1 =
      (view l).load cfg.seqStoreRate (k, value)) (hk : k.table = none) =>
    And.intro hv (hwf.step_of_tables hv (handler_tables hk _ _ _))
  cases k with
  | net => exact frame (view_netSetBin _ RecordKey.net.path value l) rfl
  | iv => exact frame (view_ivSetBin _ RecordKey.iv.path value l) rfl
  | seq => exact frame (view_seqSetBin _ RecordKey.seq.path value l) rfl
  | role => exact frame (view_roleSetBin _ RecordKey.role.path value l) rfl
  | hbPub => exact frame (view_hbPubSetBin _ RecordKey.hbPub.path value l) rfl
  | cfg => exact frame (view_cfgSetBin _ RecordKey.cfg.path value l) rfl
  | va index => exact frame (view_vaSetBin index) rfl
  | mod vnd elemIdx modIdx kind => exact frame (view_modSetBin hfit) rfl
  | rpl src =>
      simp only [RecordKey.handler]
      obtain ⟨hv, hw, hf⟩ := view_rplSetBin hwf.rpl (by simpa [RecordKey.fits] using hfit)
        (exists_free_of_freeSlots_pos (hroom .rpl rfl))
      have ht := rplSetBin_tables (RecordKey.rpl src).path value l
      have hsub := congrArg (·.2.1) ht
      have happ := congrArg (·.2.2.1) ht
      have hnodes := congrArg (·.2.2.2) ht
      simp only [LoadState.tables] at hsub happ hnodes
      refine ⟨hv, hwf.of_rest (rest_of_load hv) hw (hsub ▸ hwf.sub) (happ ▸ hwf.appKeys)
        (hnodes ▸ hwf.nodes), fun t => ?_⟩
      cases t <;> simp only [LoadState.freeIn, RecordKey.table, hsub, happ, hnodes] <;>
        simp only [if_true, reduceCtorEq, if_false, Option.some.injEq] <;> omega
  | netKey netIdx =>
      simp only [RecordKey.handler]
      obtain ⟨hv, hw, hf⟩ := view_netKeySetBin hwf.sub (by simpa [RecordKey.fits] using hfit)
        (exists_free_of_freeSlots_pos (hroom .sub rfl))
      have ht := netKeySetBin_tables (RecordKey.netKey netIdx).path value l
      have hrpl := congrArg (·.1) ht
      have happ := congrArg (·.2.2.1) ht
      have hnodes := congrArg (·.2.2.2) ht
      simp only [LoadState.tables] at hrpl happ hnodes
      refine ⟨hv, hwf.of_rest (rest_of_load hv) (hrpl ▸ hwf.rpl) hw (happ ▸ hwf.appKeys)
        (hnodes ▸ hwf.nodes), fun t => ?_⟩
      cases t <;> simp only [LoadState.freeIn, RecordKey.table, hrpl, happ, hnodes] <;>
        simp only [if_true, reduceCtorEq, if_false, Option.some.injEq] <;> omega
  | appKey appIdx =>
      simp only [RecordKey.handler]
      have hnet : value.length = 35 → (AppKeyVal.decode value).netIdx ≠ keyUnused := fun h35 => by
        simpa [RecordKey.fits, h35] using hfit
      obtain ⟨hv, hw, hf⟩ := view_appKeySetBin hwf.appKeys hnet
        (exists_free_of_freeSlots_pos (hroom .appKeys rfl))
      have ht := appKeySetBin_tables (RecordKey.appKey appIdx).path value l
      have hrpl := congrArg (·.1) ht
      have hsub := congrArg (·.2.1) ht
      have hnodes := congrArg (·.2.2.2) ht
      simp only [LoadState.tables] at hrpl hsub hnodes
      refine ⟨hv, hwf.of_rest (rest_of_load hv) (hrpl ▸ hwf.rpl) (hsub ▸ hwf.sub) hw
        (hnodes ▸ hwf.nodes), fun t => ?_⟩
      cases t <;> simp only [LoadState.freeIn, RecordKey.table, hrpl, hsub, hnodes] <;>
        simp only [if_true, reduceCtorEq, if_false, Option.some.injEq] <;> omega
  | node addr =>
      simp only [RecordKey.handler]
      obtain ⟨hv, hw, hf⟩ := view_nodeSetBin hwf.nodes (by simpa [RecordKey.fits] using hfit)
        (exists_free_of_freeSlots_pos (hroom .nodes rfl))
      have ht := nodeSetBin_tables (RecordKey.node addr).path value l
      have hrpl := congrArg (·.1) ht
      have hsub := congrArg (·.2.1) ht
      have happ := congrArg (·.2.2.1) ht
      simp only [LoadState.tables] at hrpl hsub happ
      refine ⟨hv, hwf.of_rest (rest_of_load hv) (hrpl ▸ hwf.rpl) (hsub ▸ hwf.sub)
        (happ ▸ hwf.appKeys) hw, fun t => ?_⟩
      cases t <;> simp only [LoadState.freeIn, RecordKey.table, hrpl, hsub, happ] <;>
        simp only [if_true, reduceCtorEq, if_false, Option.some.injEq] <;> omega

end Step

/-! ## A whole load -/

def storeRecords (rs : List (RecordKey × Bytes)) : List (Path × Bytes) :=
  rs.map fun r => (r.1.path, r.2)

/-- Every table has a free slot for each remaining record of its keys. -/
def Room (l : LoadState) (rs : List (RecordKey × Bytes)) : Prop :=
  ∀ t : Table, rs.countP (fun r => r.1.table == some t) ≤ l.freeIn t

theorem Room.tail {l l' : LoadState} {r : RecordKey × Bytes} {rs : List (RecordKey × Bytes)}
    (h : Room l (r :: rs))
    (hfree : ∀ t, l.freeIn t ≤ l'.freeIn t + if r.1.table = some t then 1 else 0) : Room l' rs :=
  fun t => by
    have ht := h t
    have hf := hfree t
    rw [List.countP_cons] at ht
    by_cases hk : r.1.table = some t <;> simp only [hk, beq_self_eq_true, if_true, if_false] at ht hf
    · omega
    · simp only [beq_iff_eq, hk, decide_False, Bool.false_eq_true, if_false] at ht
      omega

theorem Room.head {l : LoadState} {r : RecordKey × Bytes} {rs : List (RecordKey × Bytes)}
    (h : Room l (r :: rs)) : ∀ t, r.1.table = some t → 0 < l.freeIn t := fun t hk => by
  have ht := h t
  rw [List.countP_cons] at ht
  simp only [hk, beq_self_eq_true, if_true] at ht
  omega

theorem fits_tail {l l' : LoadState} {rate : Nat} {r : RecordKey × Bytes}
    {rs : List (RecordKey × Bytes)} (hv : view l' = (view l).load rate r)
    (hfit : ∀ s ∈ r :: rs, s.1.fits l s.2 = true) : ∀ s ∈ rs, s.1.fits l' s.2 = true :=
  fun s hs => (s.1.fits_of_rest_eq (rest_of_load hv) s.2).trans (hfit s (List.mem_cons_of_mem _ hs))

/--
`conf_load` refines the abstract load: on a well-formed state, with records
that fit and a free slot for each table record, loading them in order gives
the view the abstract fold gives, and a well-formed state.
-/
theorem view_confLoad (cfg : Config) :
    ∀ (rs : List (RecordKey × Bytes)) (l : LoadState), LoadWF l →
      (∀ r ∈ rs, r.1.fits l r.2 = true) → Room l rs →
      view (confLoad cfg (storeRecords rs) l) = rs.foldl (LoadView.load cfg.seqStoreRate) (view l) ∧
        LoadWF (confLoad cfg (storeRecords rs) l)
  | [], _, hwf, _, _ => ⟨rfl, hwf⟩
  | (k, value) :: rs, l, hwf, hfit, hroom => by
      obtain ⟨hv, hwf', hfree⟩ := loadStep cfg hwf (hfit _ (List.mem_cons_self _ _)) hroom.head
      have ih := view_confLoad cfg rs _ hwf' (fits_tail hv hfit) (hroom.tail hfree)
      rw [hv] at ih
      exact ih

end MeshSettings
