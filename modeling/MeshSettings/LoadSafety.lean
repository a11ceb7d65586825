import MeshSettings.LoadRefinement

/-!
# Loading never duplicates a key

`rpl_set_bin`, `net_key_set_bin`, `app_key_set_bin` and `node_set_bin` look the
key up before they allocate, so whatever the store yields (any key string, any
value, any order, a corrupted record included) no array ends up with two
entries in use for one source, NetKey index, AppKey index or node address
(`confLoad_keeps_keys_unique`).  Each handler writes at the slot that holds its
key or, when none does, at a free one (`firstSlot_or_found`), and
`KeysUnique.set_of_found` does the rest; every other handler leaves the four
arrays alone.
-/

namespace MeshSettings

structure TablesUnique (l : LoadState) : Prop where
  rpl : KeysUnique Rpl.used Rpl.src l.mesh.rpl
  sub : KeysUnique Subnet.used Subnet.netIdx l.mesh.sub
  appKeys : KeysUnique AppKey.used AppKey.appIdx l.mesh.appKeys
  nodes : KeysUnique Node.used Node.addr l.mesh.nodes

theorem TablesUnique.of_tables {l l' : LoadState} (h : TablesUnique l)
    (ht : l'.tables = l.tables) : TablesUnique l' := by
  simp only [LoadState.tables, Prod.mk.injEq] at ht
  obtain ⟨h1, h2, h3, h4⟩ := ht
  exact ⟨h1 ▸ h.rpl, h2 ▸ h.sub, h3 ▸ h.appKeys, h4 ▸ h.nodes⟩

/-! ## The four table handlers -/

section Handlers

variable (key : Path) (value : Bytes) {l : LoadState}

theorem rplSetBin_unique (h : TablesUnique l) : TablesUnique (rplSetBin key value l).1 := by
  have keep : ∀ rpl, KeysUnique Rpl.used Rpl.src rpl →
      TablesUnique { l with mesh := { l.mesh with rpl } } :=
    fun _ hr => ⟨hr, h.sub, h.appKeys, h.nodes⟩
  unfold rplSetBin
  dsimp only
  split
  · split
    · rename_i i _ hfind
      obtain ⟨hi, -⟩ := firstSlot_spec hfind
      exact keep _ (h.rpl.set_of_found hi fun hu => by simp [Rpl.used, Rpl.empty] at hu)
    · exact h
  · split
    · exact h
    · rename_i i e hslot
      obtain ⟨hi, -, hfound⟩ := firstSlot_or_found hslot
      have hy : ∀ y : Rpl, y.src = keyIndex key 4 → Rpl.used y = true →
          (Rpl.used l.mesh.rpl[i] = true ∧ l.mesh.rpl[i].src = y.src) ∨
            ∀ x ∈ l.mesh.rpl, Rpl.used x = true → x.src ≠ y.src := fun y hys hu => by
        rcases hfound with hsrc | hnone
        · simp only [beq_iff_eq] at hsrc
          exact .inl ⟨by rwa [Rpl.used, hsrc, ← hys], hsrc.trans hys.symm⟩
        · exact .inr fun x hx _ hxs => by simpa [hxs, hys] using hnone x hx
      split_ifs
      · exact keep _ (h.rpl.set_of_found hi (hy _ rfl))
      · rw [List.set_set]
        exact keep _ (h.rpl.set_of_found hi (hy _ rfl))

theorem netKeySetBin_unique (h : TablesUnique l) : TablesUnique (netKeySetBin key value l).1 := by
  have keep : ∀ sub, KeysUnique Subnet.used Subnet.netIdx sub →
      TablesUnique { l with mesh := { l.mesh with sub } } :=
    fun _ hs => ⟨h.rpl, hs, h.appKeys, h.nodes⟩
  unfold netKeySetBin
  dsimp only
  split
  · split
    · exact h
    · rename_i i _ hfind
      obtain ⟨hi, -⟩ := firstSlot_spec hfind
      exact keep _ (h.sub.set_of_found hi fun hu => by simp [Subnet.used, Subnet.free] at hu)
  · split
    · exact h
    · split
      · exact h
      · rename_i i _ hslot
        obtain ⟨hi, -, hfound⟩ := firstSlot_or_found hslot
        refine keep _ (h.sub.set_of_found hi fun hu => ?_)
        rcases hfound with hidx | hnone
        · simp only [beq_iff_eq] at hidx
          exact .inl ⟨by simpa [Subnet.used, hidx] using hu, hidx⟩
        · exact .inr fun x hx _ hxi => by simpa [hxi] using hnone x hx

theorem appKeySetBin_unique (h : TablesUnique l) : TablesUnique (appKeySetBin key value l).1 := by
  have keep : ∀ appKeys, KeysUnique AppKey.used AppKey.appIdx appKeys →
      TablesUnique { l with mesh := { l.mesh with appKeys } } :=
    fun _ ha => ⟨h.rpl, h.sub, ha, h.nodes⟩
  unfold appKeySetBin
  dsimp only
  split
  · split
    · rename_i i _ hfind
      obtain ⟨hi, -⟩ := firstSlot_spec hfind
      exact keep _ (h.appKeys.set_of_found hi fun hu => by simp [AppKey.used, AppKey.free] at hu)
    · exact h
  · split
    · exact h
    · split
      · exact h
      · rename_i i _ hslot
        obtain ⟨hi, -, hfound⟩ := firstSlot_or_found hslot
        refine keep _ (h.appKeys.set_of_found hi fun _ => ?_)
        rcases hfound with hused | hnone
        · simp only [decide_eq_true_eq] at hused
          exact .inl ⟨by simpa [AppKey.used] using hused.1, hused.2⟩
        · refine .inr fun x hx hxu hxi => ?_
          have := hnone x hx
          simp only [decide_eq_false_iff_not, not_and] at this
          exact this (by simpa [AppKey.used] using hxu) hxi

theorem nodeSetBin_unique (h : TablesUnique l) : TablesUnique (nodeSetBin key value l).1 := by
  have keep : ∀ nodes, KeysUnique Node.used Node.addr nodes →
      TablesUnique { l with mesh := { l.mesh with nodes } } :=
    fun _ hn => ⟨h.rpl, h.sub, h.appKeys, hn⟩
  unfold nodeSetBin
  dsimp only
  split
  · split
    · rename_i i _ hfind
      obtain ⟨hi, -⟩ := firstSlot_spec hfind
      exact keep _ (h.nodes.set_of_found hi fun hu => by simp [Node.used, Node.free] at hu)
    · exact h
  · split
    · exact h
    · split
      · rename_i i node hfind
        obtain ⟨hi, hnode, -⟩ := firstSlot_spec hfind
        refine keep _ (h.nodes.set_of_found hi fun hu => .inl ?_)
        rw [hnode]
        exact ⟨hu, rfl⟩
      · rename_i hnone
        split
        · exact h
        · rename_i i _ hfree
          obtain ⟨hi, -⟩ := firstSlot_spec hfree
          refine keep _ (h.nodes.set_of_found hi fun _ => .inr fun x hx _ hxa => ?_)
          have := firstSlot_eq_none_iff.mp hnone x hx
          simp [hxa] at this

end Handlers

/-! ## Every handler and every load -/

theorem otherHandlers_tables (rate : Nat) (key : Path) (value : Bytes) (l : LoadState) :
    (netSetBin key value l).1.tables = l.tables ∧ (ivSetBin key value l).1.tables = l.tables ∧
      (seqSetBin rate key value l).1.tables = l.tables ∧
      (roleSetBin key value l).1.tables = l.tables ∧
      (hbPubSetBin key value l).1.tables = l.tables ∧
      (cfgSetBin key value l).1.tables = l.tables ∧ (vaSetBin key value l).1.tables = l.tables ∧
      ∀ vnd, (modSetBin vnd key value l).1.tables = l.tables := by
  -- each `ite_tables` is one `if` of the handler, in the handler's order
  refine ⟨ite_tables rfl (ite_tables rfl rfl), ite_tables rfl (ite_tables rfl rfl),
    ite_tables rfl (ite_tables rfl rfl), rfl, ?_, ?_, ?_, fun vnd => ?_⟩
  · unfold hbPubSetBin
    cases l.mesh.hbPub with
    | none => rfl
    | some _ => exact ite_tables rfl (ite_tables rfl rfl)
  · unfold cfgSetBin
    cases l.mesh.cfg with
    | none => rfl
    | some _ => exact ite_tables rfl (ite_tables rfl rfl)
  · unfold vaSetBin
    refine ite_tables rfl (ite_tables rfl (ite_tables rfl ?_))
    cases getLabel l.mesh (keyIndex key 3).toNat <;> rfl
  · dsimp only [modSetBin]
    cases modelGet l.mesh vnd (UInt8.ofNat ((keyIndex key 2).toNat / 256))
      (UInt8.ofNat (keyIndex key 2).toNat) with
    | none => rfl
    | some _ =>
        exact ite_tables rfl (ite_tables rfl (ite_tables rfl
          (ite_tables (ite_tables (ite_tables rfl rfl) rfl) rfl)))

theorem meshSetBin_unique (cfg : Config) (key : Path) (value : Bytes) {l : LoadState}
    (h : TablesUnique l) : TablesUnique (meshSetBin cfg key value l).1 := by
  obtain ⟨hnet, hiv, hseq, hrole, hhb, hcfg, hva, hmod⟩ :=
    otherHandlers_tables cfg.seqStoreRate key value l
  have hall : ∀ nh ∈ settings cfg.seqStoreRate, TablesUnique (nh.2 key value l).1 := by
    simp only [settings, List.forall_mem_cons, List.not_mem_nil, false_implies, implies_true,
      and_true]
    exact ⟨h.of_tables hnet, h.of_tables hiv, h.of_tables hseq, rplSetBin_unique key value h,
      netKeySetBin_unique key value h, appKeySetBin_unique key value h, h.of_tables hhb,
      h.of_tables hcfg, h.of_tables (hmod false), h.of_tables (hmod true), h.of_tables hrole,
      h.of_tables hva, nodeSetBin_unique key value h⟩
  unfold meshSetBin
  split
  · rename_i name handler hfind
    exact hall _ (List.mem_of_find?_eq_some hfind)
  · exact h

/--
Whatever records the store yields, in whatever order, loading them into arrays
without a key held twice leaves no source, NetKey index, AppKey index or node
address held by two entries in use, and `bt_mesh_settings_load`'s commit keeps
it so.
-/
theorem confLoad_keeps_keys_unique (cfg : Config) (roleNode : Bool)
    (records : List (Path × Bytes)) {l : LoadState} (h : TablesUnique l) :
    TablesUnique (confLoad cfg records l) ∧
      TablesUnique (btMeshSettingsLoad cfg roleNode records l).1 := by
  have hload : ∀ (rs : List (Path × Bytes)) (l : LoadState), TablesUnique l →
      TablesUnique (confLoad cfg rs l) := fun rs => by
    induction rs with
    | nil => exact fun _ h => h
    | cons r rs ih => exact fun l h => ih _ (meshSetBin_unique cfg r.1 r.2 h)
  have hl := hload records l h
  refine ⟨hl, ?_⟩
  unfold btMeshSettingsLoad meshCommit
  dsimp only
  split_ifs
  · split
    · split_ifs
      · exact hl
      · exact ⟨hl.rpl, hl.sub, hl.appKeys, hl.nodes⟩
    · exact hl
  · exact hl

def strayRecords : List (Path × Bytes) :=
  [(RecordKey.netKey 1).path, (RecordKey.netKey 1).path, (RecordKey.rpl 0).path,
      (RecordKey.node 2).path, (RecordKey.node 2).path].zip
    [List.replicate 33 1, List.replicate 33 2, [1, 2, 3, 4], List.replicate 19 3,
      List.replicate 19 4]

def twoSlotsEach : LoadState :=
  { LoadState.boot with mesh := { Mesh.empty with
      rpl := [Rpl.empty, Rpl.empty], sub := [Subnet.free, Subnet.free],
      appKeys := [AppKey.free, AppKey.free], nodes := [Node.free, Node.free] } }

theorem confLoad_keeps_keys_unique_strayRecords :
    TablesUnique twoSlotsEach ∧ TablesUnique (confLoad ⟨2, 1, 16⟩ strayRecords twoSlotsEach) ∧
      TablesUnique (btMeshSettingsLoad ⟨2, 1, 16⟩ true strayRecords twoSlotsEach).1 := by
  have h0 : TablesUnique twoSlotsEach :=
    ⟨keysUnique_of_free (by decide), keysUnique_of_free (by decide),
      keysUnique_of_free (by decide), keysUnique_of_free (by decide)⟩
  exact ⟨h0, confLoad_keeps_keys_unique ⟨2, 1, 16⟩ true strayRecords h0⟩

/-! ## Records of the wrong size -/

/-- The record size a handler checks before it touches anything; the RPL, model and role
handlers check none first. -/
def RecordKey.size : RecordKey → Option Nat
  | .net => some 18
  | .iv => some 5
  | .seq => some 3
  | .netKey _ => some 33
  | .appKey _ => some 35
  | .hbPub => some 8
  | .cfg => some 7
  | .va _ => some 20
  | .node _ => some 19
  | _ => none

def RecordKey.refuses (k : RecordKey) (value : Bytes) : Bool :=
  match k.size with
  | some n => value.length != 0 && value.length != n
  | none => false

theorem meshSetBin_refused (cfg : Config) {k : RecordKey} {value : Bytes}
    (h : k.refuses value = true) (l : LoadState) : (meshSetBin cfg k.path value l).1 = l := by
  rw [meshSetBin_path]
  cases k <;> simp only [RecordKey.refuses, RecordKey.size, Bool.and_eq_true, bne_iff_ne,
    Bool.false_eq_true] at h
  all_goals obtain ⟨h0, hn⟩ := h
  case hbPub => dsimp only [RecordKey.handler, hbPubSetBin]; split <;> simp [h0, hn]
  case cfg => dsimp only [RecordKey.handler, cfgSetBin]; split <;> simp [h0, hn]
  all_goals simp [RecordKey.handler, netSetBin, ivSetBin, seqSetBin, netKeySetBin, appKeySetBin,
    vaSetBin, nodeSetBin, h0, hn]

end MeshSettings
