import MeshSettings.ModelData
import MeshSettings.LoadOrder

/-!
# Loading starts the model data invariant

`mod_set_bin` sets `BT_MESH_MOD_DATA_PRESENT` on the model a `data` record
names, whatever the record's bytes.  So a load of the store's records, into
models without the flag, leaves each model's flag saying whether the store
holds its `data` record (`settingsLoad_data_flags`): the state
`bt_mesh_settings_load` hands to the running node is one the run of
`model_data_follows_calls` may start from.

One record read back: the key `bt_mesh_model_data_store` writes leads
`mesh_set_bin` to the same model, which gets the flag.  The store side puts no
bound on the data, and the load side copies it into the 128 bytes of
`mod_data` with a terminating zero: more than 128 bytes fail its assert
(`ModKind.aborts`), and exactly 128 write the zero past the buffer.
-/

namespace MeshSettings

theorem effect_data (rate : Nat) {vnd : Bool} {e m : UInt8} (value : Bytes) (r : LoadState)
    (hm : (modelGet r.mesh vnd e m).isSome) (cur : Option Bool) (hcur : cur.isSome) :
    RecordKey.effect rate (.mod vnd e m .data) value r cur = some true := by
  obtain ⟨field, rfl⟩ := Option.isSome_iff_exists.mp hcur
  obtain ⟨⟨i, skel⟩, hget⟩ := Option.isSome_iff_exists.mp hm
  simp only [RecordKey.effect, hget, ModKind.load]
  split <;> rfl

theorem foldl_load_none (rate : Nat) :
    ∀ (rs : List (RecordKey × Bytes)) (v : LoadView),
      rs.foldl (LoadView.load rate) v none = v none
  | [], _ => rfl
  | _ :: rs, _ => (foldl_load_none rate rs _).trans
      (Function.update_noteq (Option.some_ne_none _).symm _ _)

theorem foldl_load_data (rate : Nat) (vnd : Bool) (e m : UInt8) :
    ∀ (rs : List (RecordKey × Bytes)) (v : LoadView),
      (modelGet (v none : LoadState).mesh vnd e m).isSome →
      (v (some (.mod vnd e m .data)) : Option Bool).isSome →
      (rs.foldl (LoadView.load rate) v (some (.mod vnd e m .data)) : Option Bool) =
        if RecordKey.mod vnd e m .data ∈ rs.map (·.1) then some true
        else v (some (.mod vnd e m .data))
  | [], _, _, _ => by simp
  | (k, value) :: rs, v, hm, hcur => by
      have hnone : v.load rate (k, value) none = v none :=
        Function.update_noteq (Option.some_ne_none _).symm _ _
      have hstep : (v.load rate (k, value) (some (.mod vnd e m .data)) : Option Bool) =
          if k = .mod vnd e m .data then some true else v (some (.mod vnd e m .data)) := by
        unfold LoadView.load
        split_ifs with hk
        · subst hk
          rw [Function.update_same]
          exact effect_data rate value _ hm _ hcur
        · exact Function.update_noteq (by simpa using Ne.symm hk) _ _
      have hcur' : (v.load rate (k, value) (some (.mod vnd e m .data)) : Option Bool).isSome := by
        rw [hstep]
        split_ifs
        · rfl
        · exact hcur
      rw [List.foldl_cons, foldl_load_data rate vnd e m rs _ (hnone ▸ hm) hcur', hstep]
      by_cases hk : k = .mod vnd e m .data <;>
        by_cases hrs : RecordKey.mod vnd e m .data ∈ rs.map (·.1) <;> simp [hk, hrs, eq_comm]

theorem meshCommit_models (l : LoadState) : (meshCommit l).mesh.models = l.mesh.models := by
  unfold meshCommit
  split
  · split_ifs <;> rfl
  · rfl

theorem btMeshSettingsLoad_models (cfg : Config) (roleNode : Bool) (records : List (Path × Bytes))
    (l : LoadState) :
    (btMeshSettingsLoad cfg roleNode records l).1.mesh.models =
      (confLoad cfg records l).mesh.models := by
  dsimp only [btMeshSettingsLoad]
  split_ifs
  · exact meshCommit_models _
  · rfl

theorem confLoad_dataPresent (cfg : Config) {l : LoadState} (hwf : LoadWF l)
    {rs : List (RecordKey × Bytes)} (hfit : ∀ r ∈ rs, r.1.fits l r.2 = true)
    (hroom : Room l rs)
    (hclear : ∀ mod ∈ l.mesh.models, mod.flags.dataPresent = false) {j : Nat} {mod : Model}
    (hj : j < (confLoad cfg (storeRecords rs) l).mesh.models.length)
    (hmod : (confLoad cfg (storeRecords rs) l).mesh.models[j] = mod) :
    mod.flags.dataPresent =
      decide (RecordKey.mod mod.vnd mod.elemIdx mod.modIdx .data ∈ rs.map (·.1)) := by
  obtain ⟨hview, hwfL⟩ := view_confLoad cfg rs l hwf hfit hroom
  have hrest : rest (confLoad cfg (storeRecords rs) l) = rest l :=
    (congrFun hview none).trans (foldl_load_none _ rs _)
  have hget := modelGet_ident _ hwfL.models hj
  rw [hmod] at hget
  -- the model's slot before the load
  have hget0 : (modelGet l.mesh mod.vnd mod.elemIdx mod.modIdx).isSome := by
    have h := modelGet_rest (confLoad cfg (storeRecords rs) l) mod.vnd mod.elemIdx mod.modIdx
    rw [hrest, modelGet_rest, hget] at h
    cases h0 : modelGet l.mesh mod.vnd mod.elemIdx mod.modIdx <;> simp_all
  obtain ⟨⟨i, mod0⟩, h0⟩ := Option.isSome_iff_exists.mp hget0
  have hclear0 : mod0.flags.dataPresent = false := by
    obtain ⟨hi, rfl, -⟩ := firstSlot_spec h0
    exact hclear _ (List.getElem_mem _)
  have hfold := foldl_load_data cfg.seqStoreRate mod.vnd mod.elemIdx mod.modIdx rs (view l)
    (by simp [view, modelGet_rest, h0]) (by simp [view, h0])
  rw [← congrFun hview] at hfold
  simp only [view, hget, h0, Option.map_some', ModKind.get, hclear0] at hfold
  split_ifs at hfold with hk
  · rw [decide_eq_true hk]
    exact Option.some.inj hfold
  · rw [decide_eq_false hk]
    exact Option.some.inj hfold

/--
Loading the store's records into models without `DATA_PRESENT`, on a
well-formed state with records that fit and room in the tables: in the node
that starts on the loaded state and the same store, each model's flag says
whether its `data` record is stored.
-/
theorem settingsLoad_data_flags (cfg : Config) (roleNode : Bool) {l : LoadState} (hwf : LoadWF l)
    {rs : List (RecordKey × Bytes)} (hfit : ∀ r ∈ rs, r.1.fits l r.2 = true)
    (hroom : Room l rs)
    (hclear : ∀ mod ∈ l.mesh.models, mod.flags.dataPresent = false) {st : Store}
    (hst : ∀ k : RecordKey, (st k.path).isSome = decide (k ∈ rs.map (·.1)))
    (keySlots nodeSlots : Nat) :
    DataAgrees (Settings.boot (btMeshSettingsLoad cfg roleNode (storeRecords rs) l).1.mesh st
      keySlots nodeSlots) := by
  obtain ⟨-, hwfL⟩ := view_confLoad cfg rs l hwf hfit hroom
  have hmodels := btMeshSettingsLoad_models cfg roleNode (storeRecords rs) l
  refine ⟨by simpa only [Settings.boot, hmodels] using hwfL.models, ?_⟩
  simp only [dataView, Settings.boot, hmodels, List.map_map]
  apply List.ext_getElem (by simp)
  intro j hj _
  simp only [List.length_map] at hj
  simp only [List.getElem_map, Function.comp]
  rw [confLoad_dataPresent cfg hwf hfit hroom hclear hj rfl, dataPath_eq]
  exact hst _

/-! ## One record back -/

theorem meshSetBin_dataPath (cfg : Config) (mod : Model) (data : Bytes) {l : LoadState}
    (hn : (l.mesh.models.map Model.ident).Nodup) {j : Nat}
    (hj : j < l.mesh.models.length) (hid : l.mesh.models[j].ident = mod.ident) :
    meshSetBin cfg (dataPath mod) data l =
      let (mod', past, err) := ModKind.data.load l.mesh.models[j] data
      let mesh := { l.mesh with models := l.mesh.models.set j mod' }
      if ModKind.data.aborts l.mesh.models[j] data then ({ l with mesh, aborted := true }, 0)
      else ({ l with mesh, outside := l.outside ++ past }, err) := by
  obtain ⟨hv, he, hm⟩ : l.mesh.models[j].vnd = mod.vnd ∧
      l.mesh.models[j].elemIdx = mod.elemIdx ∧ l.mesh.models[j].modIdx = mod.modIdx := by
    simpa [Model.ident] using hid
  have hget := modelGet_ident l.mesh hn hj
  rw [hv, he, hm] at hget
  rw [dataPath_eq, identDataPath, meshSetBin_path]
  simp only [Model.ident, RecordKey.handler, RecordKey.path]
  rw [modSetBin_modPath, hget]

theorem meshSetBin_dataPath_aborted (cfg : Config) (mod : Model) (data : Bytes)
    (hlong : modDataSize < data.length) {l : LoadState}
    (hn : (l.mesh.models.map Model.ident).Nodup) {j : Nat}
    (hj : j < l.mesh.models.length) (hid : l.mesh.models[j].ident = mod.ident)
    (hset : l.mesh.models[j].hasSettingsSet = true) :
    (meshSetBin cfg (dataPath mod) data l).1.aborted = true := by
  rw [meshSetBin_dataPath cfg mod data hn hj hid]
  simp [ModKind.aborts, hset, hlong]

def oneModelLoad : LoadState :=
  { LoadState.boot with
    mesh := { Mesh.empty with
      models := [⟨false, 0, 0, [], [], none, ⟨false, false, false, false⟩, true⟩] } }

def oneDataStore : Store := fun p =>
  if p = (RecordKey.mod false 0 0 .data).path then some [5, 6] else none

theorem settingsLoad_data_flags_oneModel :
    LoadWF oneModelLoad ∧
      (∀ r ∈ [(RecordKey.mod false 0 0 .data, [5, 6])], r.1.fits oneModelLoad r.2 = true) ∧
      Room oneModelLoad [(.mod false 0 0 .data, [5, 6])] ∧
      (∀ mod ∈ oneModelLoad.mesh.models, mod.flags.dataPresent = false) ∧
      (∀ k : RecordKey, (oneDataStore k.path).isSome =
        decide (k ∈ [(RecordKey.mod false 0 0 .data, ([5, 6] : Bytes))].map (·.1))) ∧
      DataAgrees (Settings.boot (btMeshSettingsLoad ⟨2, 1, 16⟩ true
        (storeRecords [(.mod false 0 0 .data, [5, 6])]) oneModelLoad).1.mesh oneDataStore 0 0) := by
  have hwf : LoadWF oneModelLoad :=
    ⟨.replicate rfl 0, .replicate rfl 0, .replicate rfl 0, .replicate rfl 0, by decide,
      by decide⟩
  have hroom : Room oneModelLoad [(.mod false 0 0 .data, [5, 6])] := fun t => by cases t <;> decide
  have hst : ∀ k : RecordKey, (oneDataStore k.path).isSome =
      decide (k ∈ [(RecordKey.mod false 0 0 .data, ([5, 6] : Bytes))].map (·.1)) := fun k => by
    by_cases hk : k = .mod false 0 0 .data
    · subst hk
      decide
    · have hp : k.path ≠ (RecordKey.mod false 0 0 .data).path :=
        fun h => hk (RecordKey.eq_mod_of_path h)
      simp [oneDataStore, hp, hk]
  exact ⟨hwf, by decide, hroom, by decide, hst,
    settingsLoad_data_flags ⟨2, 1, 16⟩ true hwf (by decide) hroom (by decide) hst 0 0⟩

def fullData : Bytes := List.replicate modDataSize 7

example : (if fullData.length < modDataSize then [] else [0] : Bytes) = [0] := by
  simp [fullData]

end MeshSettings
