import MeshSettings.Footprint
import MeshSettings.Tracker
import MeshSettings.LoadRefinement

/-!
# Model data

`bt_mesh_model_data_store` writes a model's opaque data under its `data` key
at once, not through `store_pending`: non-empty data is written and sets
`BT_MESH_MOD_DATA_PRESENT`; empty data deletes the record if the flag says
there is one, and clears the flag.

No marking call and no flush of `store_pending` touches a `data` record or the
flag (`MarkCall.dataKept`, `storePending_dataKept`).  So over any interleaving
of data stores, marking calls and flushes, if the models have distinct
identities and each data store passes its model's own `vnd`, every model's
flag says whether its record is stored, and the records are those of the
abstract run in which each data store replaces its model's record by its data,
or by none for empty data (`model_data_follows_calls`).
-/

namespace MeshSettings

/--
`bt_mesh_model_data_store` on `mod`: the model with its `DATA_PRESENT` flag,
and the store.  `settings_save_one` is `conf_save_one`, which returns 0, so the
call returns 0.
-/
def btMeshModelDataStore (st : Store) (mod : Model) (vnd : Bool) (data : Bytes) : Model × Store :=
  let path := encodeModPath mod vnd "data"
  if data.length ≠ 0 then
    ({ mod with flags := { mod.flags with dataPresent := true } }, settingsSaveOne st path data)
  else if mod.flags.dataPresent then
    ({ mod with flags := { mod.flags with dataPresent := false } }, settingsSaveOne st path [])
  else (mod, st)

def modelDataStore (i : Nat) (vnd : Bool) (data : Bytes) (s : Settings) : Settings :=
  match s.mesh.models[i]? with
  | some mod =>
      { s with
        store := (btMeshModelDataStore s.store mod vnd data).2
        mesh := { s.mesh with
          models := s.mesh.models.set i (btMeshModelDataStore s.store mod vnd data).1 } }
  | none => s

/-! ## One call -/

def dataPath (mod : Model) : Path := encodeModPath mod mod.vnd "data"

theorem dataPath_eq (mod : Model) : dataPath mod = identDataPath mod.ident := rfl

def dataRecord (data : Bytes) : Option Bytes := if data.length = 0 then none else some data

theorem dataRecord_isSome (data : Bytes) :
    (dataRecord data).isSome = decide (data.length ≠ 0) := by
  unfold dataRecord
  split <;> simp_all

theorem btMeshModelDataStore_spec (st : Store) (mod : Model) (data : Bytes)
    (h : (st (dataPath mod)).isSome = mod.flags.dataPresent) :
    (btMeshModelDataStore st mod mod.vnd data).1 =
        { mod with flags := { mod.flags with dataPresent := decide (data.length ≠ 0) } } ∧
      (btMeshModelDataStore st mod mod.vnd data).2 =
        Function.update st (dataPath mod) (dataRecord data) := by
  unfold btMeshModelDataStore dataRecord
  by_cases hd : data.length = 0
  · have hempty : decide (data.length ≠ 0) = false := by simp [hd]
    rw [hempty, if_neg (by simpa using hd), if_pos hd]
    split
    · exact ⟨rfl, rfl⟩
    · rename_i hp
      have hnone : st (dataPath mod) = none := by simpa [hp] using h
      refine ⟨?_, by rw [← hnone, Function.update_eq_self]⟩
      cases mod with
      | mk _ _ _ _ _ _ flags _ => cases flags; simp_all
  · rw [if_pos hd]
    exact ⟨by simp [hd], rfl⟩

/-! ## The records and the flags -/

def dataView (s : Settings) : List (Option Bytes) :=
  s.mesh.models.map fun mod => s.store (dataPath mod)

/-- Models have distinct identities, and each model's `DATA_PRESENT` says whether its record is
stored. -/
structure DataAgrees (s : Settings) : Prop where
  idents : (s.mesh.models.map Model.ident).Nodup
  present : (dataView s).map Option.isSome = s.mesh.models.map fun mod => mod.flags.dataPresent

theorem DataAgrees.present_get {s : Settings} (h : DataAgrees s) {i : Nat}
    (hi : i < s.mesh.models.length) :
    (s.store (dataPath s.mesh.models[i])).isSome = s.mesh.models[i].flags.dataPresent := by
  have := congrArg (·[i]?) h.present
  simpa [dataView, hi] using this

theorem dataPath_ne {models : List Model} (hn : (models.map Model.ident).Nodup) {i j : Nat}
    (hi : i < models.length) (hj : j < models.length) (hij : i ≠ j) :
    dataPath models[i] ≠ dataPath models[j] := fun h => hij <| by
  rw [dataPath_eq, dataPath_eq] at h
  refine (@List.Nodup.getElem_inj_iff _ _ hn i (by simpa using hi) j (by simpa using hj)).mp ?_
  simpa only [List.getElem_map] using identDataPath_injective h

theorem idents_set {models : List Model} {i : Nat} (hi : i < models.length) {mod : Model}
    (hid : mod.ident = models[i].ident) :
    (models.set i mod).map Model.ident = models.map Model.ident := by
  apply List.ext_getElem (by simp)
  intro j _ _
  simp only [List.getElem_map, List.getElem_set]
  split_ifs with hij
  · subst hij
    exact hid
  · rfl

theorem dataView_set {s : Settings} (hn : (s.mesh.models.map Model.ident).Nodup) {i : Nat}
    (hi : i < s.mesh.models.length) {mod : Model} (hid : mod.ident = s.mesh.models[i].ident)
    (r : Option Bytes) :
    dataView
        { s with
          store := Function.update s.store (dataPath s.mesh.models[i]) r
          mesh := { s.mesh with models := s.mesh.models.set i mod } } =
      (dataView s).set i r := by
  apply List.ext_getElem (by simp [dataView])
  intro j hj _
  simp only [dataView, List.length_map, List.length_set] at hj
  simp only [dataView, List.getElem_map]
  by_cases hij : i = j
  · subst hij
    have hpath : dataPath mod = dataPath s.mesh.models[i] := by rw [dataPath_eq, dataPath_eq, hid]
    rw [List.getElem_set_self, List.getElem_set_self, hpath]
    exact Function.update_same _ _ _
  · rw [List.getElem_set_ne hij, List.getElem_set_ne hij, List.getElem_map]
    exact Function.update_noteq (dataPath_ne hn hj hi (Ne.symm hij)) _ _

theorem modelDataStore_step {s : Settings} (h : DataAgrees s) {i : Nat} {vnd : Bool}
    (data : Bytes) (hvnd : ((s.mesh.models.map Model.ident)[i]?).all (·.1 == vnd) = true) :
    DataAgrees (modelDataStore i vnd data s) ∧
      (modelDataStore i vnd data s).mesh.models.map Model.ident = s.mesh.models.map Model.ident ∧
      dataView (modelDataStore i vnd data s) = (dataView s).set i (dataRecord data) := by
  unfold modelDataStore
  cases hmod : s.mesh.models[i]? with
  | none =>
      have hlen : (dataView s).length ≤ i := by
        simpa [dataView] using List.getElem?_eq_none_iff.mp hmod
      exact ⟨h, rfl, (List.set_eq_of_length_le hlen).symm⟩
  | some mod =>
      obtain ⟨hi, rfl⟩ := List.getElem?_eq_some_iff.mp hmod
      have hown : s.mesh.models[i].vnd = vnd := by
        simpa [List.getElem?_map, hmod, Model.ident] using hvnd
      subst hown
      obtain ⟨hm, hst⟩ := btMeshModelDataStore_spec s.store _ data (h.present_get hi)
      have hid : (btMeshModelDataStore s.store s.mesh.models[i] s.mesh.models[i].vnd data).1.ident =
          s.mesh.models[i].ident := by rw [hm]; rfl
      have hids := idents_set hi hid
      have hview := dataView_set h.idents hi hid (dataRecord data)
      dsimp only
      rw [hst]
      refine ⟨⟨by rw [hids]; exact h.idents, ?_⟩, hids, hview⟩
      rw [hview, List.map_set, h.present, dataRecord_isSome, List.map_set, hm]

/-! ## Calls that leave the data alone -/

def Model.dataKey (mod : Model) : (Bool × UInt8 × UInt8) × Bool :=
  (mod.ident, mod.flags.dataPresent)

structure DataKept (s s' : Settings) : Prop where
  models : s'.mesh.models.map Model.dataKey = s.mesh.models.map Model.dataKey
  records : ∀ id, s'.store (identDataPath id) = s.store (identDataPath id)

theorem DataKept.refl (s : Settings) : DataKept s s := ⟨rfl, fun _ => rfl⟩

theorem DataKept.trans {a b c : Settings} (h1 : DataKept a b) (h2 : DataKept b c) : DataKept a c :=
  ⟨h2.models.trans h1.models, fun id => (h2.records id).trans (h1.records id)⟩

theorem dataView_eq_keys (s : Settings) :
    dataView s = (s.mesh.models.map Model.dataKey).map fun k => s.store (identDataPath k.1) := by
  simp only [dataView, List.map_map]
  rfl

theorem DataKept.idents {s s' : Settings} (h : DataKept s s') :
    s'.mesh.models.map Model.ident = s.mesh.models.map Model.ident := by
  simpa only [List.map_map] using congrArg (List.map Prod.fst) h.models

theorem DataKept.view {s s' : Settings} (h : DataKept s s') : dataView s' = dataView s := by
  rw [dataView_eq_keys, dataView_eq_keys, h.models]
  exact List.map_congr_left fun k _ => h.records k.1

theorem DataKept.agrees {s s' : Settings} (h : DataKept s s') (ha : DataAgrees s) :
    DataAgrees s' where
  idents := h.idents ▸ ha.idents
  present := by
    have hflags := congrArg (List.map Prod.snd) h.models
    simp only [List.map_map] at hflags
    rw [h.view]
    exact ha.present.trans hflags.symm

theorem settingsSaveOne_identDataPath {path : Path} (hs : pathName path ≠ ['s'])
    (hv : pathName path ≠ ['v']) (st : Store) (v : Bytes) (id : Bool × UInt8 × UInt8) :
    settingsSaveOne st path v (identDataPath id) = st (identDataPath id) :=
  settingsSaveOne_other _ _ fun h => by
    obtain ⟨vnd, _, _⟩ := id
    rw [← h, pathName_identDataPath] at hs hv
    cases vnd
    · exact hs rfl
    · exact hv rfl

theorem indexPath_keeps_data (name : String) (hname : '/' ∉ name.toList)
    (hs : name.toList ≠ ['s']) (hv : name.toList ≠ ['v']) (n : Nat) (st : Store) (v : Bytes)
    (id : Bool × UInt8 × UInt8) :
    settingsSaveOne st (indexPath name n) v (identDataPath id) = st (identDataPath id) :=
  settingsSaveOne_identDataPath (by rwa [pathName_indexPath _ _ hname])
    (by rwa [pathName_indexPath _ _ hname]) st v id

theorem keyUpdateSchedule_dataKept (cfg : Config) (appKey clear : Bool) (keyIdx : UInt16)
    {direct : Store → Store}
    (hd : ∀ st id, direct st (identDataPath id) = st (identDataPath id)) (s : Settings) :
    DataKept s (keyUpdateSchedule cfg appKey clear keyIdx direct s) := by
  unfold keyUpdateSchedule
  split
  · exact ⟨rfl, fun _ => rfl⟩
  · exact ⟨rfl, hd s.store⟩
  · exact ⟨rfl, fun _ => rfl⟩

theorem nodeUpdateSchedule_dataKept (cfg : Config) (clear : Bool) (addr : UInt16)
    {direct : Store → Store}
    (hd : ∀ st id, direct st (identDataPath id) = st (identDataPath id)) (s : Settings) :
    DataKept s (nodeUpdateSchedule cfg clear addr direct s) := by
  unfold nodeUpdateSchedule
  split
  · exact ⟨rfl, fun _ => rfl⟩
  · exact ⟨rfl, hd s.store⟩
  · exact ⟨rfl, fun _ => rfl⟩

theorem map_modify_of_comp {α β : Type} {f : α → α} {g : α → β} (h : ∀ a, g (f a) = g a)
    (l : List α) (i : Nat) : (l.modify f i).map g = l.map g := by
  apply List.ext_getElem (by simp)
  intro j _ _
  simp only [List.getElem_map, List.getElem_modify]
  split_ifs
  · exact h _
  · rfl

theorem storeModPending_dataKept (cfg : Config) {mark : ModFlags → ModFlags}
    (hmark : ∀ f, (mark f).dataPresent = f.dataPresent) (i : Nat) (s : Settings) :
    DataKept s (storeModPending cfg mark i s) :=
  ⟨map_modify_of_comp (fun mod => by simp only [Model.dataKey, Model.ident, hmark]) _ _,
    fun _ => rfl⟩

theorem MarkCall.dataKept (cfg : Config) (c : MarkCall) (s : Settings) :
    DataKept s (c.apply cfg s) := by
  have netKey := indexPath_keeps_data "NetKey" (by decide) (by decide) (by decide)
  have appKey := indexPath_keeps_data "AppKey" (by decide) (by decide) (by decide)
  have node := indexPath_keeps_data "Node" (by decide) (by decide) (by decide)
  cases c with
  | storeSubnet sub => exact keyUpdateSchedule_dataKept cfg _ _ _ (fun st => netKey _ st _) s
  | clearSubnet sub => exact keyUpdateSchedule_dataKept cfg _ _ _ (fun st => netKey _ st _) s
  | storeAppKey key => exact keyUpdateSchedule_dataKept cfg _ _ _ (fun st => appKey _ st _) s
  | clearAppKey key => exact keyUpdateSchedule_dataKept cfg _ _ _ (fun st => appKey _ st _) s
  | storeNode n => exact nodeUpdateSchedule_dataKept cfg _ _ (fun st => node _ st _) s
  | clearNode n => exact nodeUpdateSchedule_dataKept cfg _ _ (fun st => node _ st _) s
  | storeModBind i | storeModSub i | storeModPub i =>
      dsimp only [MarkCall.apply, btMeshStoreModBind, btMeshStoreModSub, btMeshStoreModPub]
      refine storeModPending_dataKept cfg ?_ i s
      exact fun _ => rfl
  | storeSeq =>
      show DataKept s (btMeshStoreSeq cfg s)
      unfold btMeshStoreSeq
      split
      · exact .refl s
      · exact ⟨rfl, fun _ => rfl⟩
  | storeIv onlyDuration => cases onlyDuration <;> exact ⟨rfl, fun _ => rfl⟩
  | _ => exact ⟨rfl, fun _ => rfl⟩

theorem pendingStages_dataKept : ∀ st ∈ pendingStages, ∀ s, DataKept s (st.2 s) := by
  intro st hst s
  have hw := pendingStages_writesUnder st hst s
  have hrec (hs : ['s'] ∉ stageNames st.1) (hv : ['v'] ∉ stageNames st.1)
      (id : Bool × UInt8 × UInt8) :
      (st.2 s).store (identDataPath id) = s.store (identDataPath id) :=
    hw _ (by rw [pathName_identDataPath]; split <;> assumption)
  have hmods : DataKept s (storePendingMods s) :=
    ⟨by simp only [storePendingMods, List.map_map]; rfl, storePendingMods_data s⟩
  simp only [pendingStages, List.mem_cons, List.mem_singleton, List.not_mem_nil, or_false] at hst
  rcases hst with rfl | rfl | rfl | rfl | rfl | rfl | rfl | rfl | rfl | rfl | rfl
  all_goals first
    | exact ⟨rfl, hrec (by decide) (by decide)⟩
    | exact hmods
    | exact ⟨by dsimp only; split <;> rfl, hrec (by decide) (by decide)⟩

theorem storePending_dataKept (s : Settings) : DataKept s (storePending s) :=
  DataKept.trans (b := { s with deadline := none }) ⟨rfl, fun _ => rfl⟩ <|
    runStages_frame DataKept.refl DataKept.trans (fun _ _ => ⟨rfl, fun _ => rfl⟩) _
      pendingStages_dataKept _

theorem trackerStep_dataKept (cfg : Config) (s : Settings) (e : TrackerEvent) :
    DataKept s (trackerStep cfg s e) := by
  cases e with
  | mark t c =>
      exact DataKept.trans (b := { s with now := max s.now t }) ⟨rfl, fun _ => rfl⟩
        (MarkCall.dataKept cfg c _)
  | expire =>
      show DataKept s (expire s)
      unfold expire
      split
      · exact DataKept.trans (b := { s with now := max s.now _ }) ⟨rfl, fun _ => rfl⟩
          (storePending_dataKept _)
      · exact .refl s

/-! ## Runs -/

inductive DataCall
  | dataStore (i : Nat) (vnd : Bool) (data : Bytes)
  | event (e : TrackerEvent)

def DataCall.apply (cfg : Config) : DataCall → Settings → Settings
  | .dataStore i vnd data => modelDataStore i vnd data
  | .event e => fun s => trackerStep cfg s e

def runData (cfg : Config) (s : Settings) (cs : List DataCall) : Settings :=
  cs.foldl (fun s c => c.apply cfg s) s

def DataCall.ownVnd (ids : List (Bool × UInt8 × UInt8)) : DataCall → Bool
  | .dataStore i vnd _ => ids[i]?.all (·.1 == vnd)
  | .event _ => true

/-- What the records are for: a data store replaces its model's record, nothing else changes one. -/
def DataCall.record : DataCall → List (Option Bytes) → List (Option Bytes)
  | .dataStore i _ data, r => r.set i (dataRecord data)
  | .event _, r => r

theorem DataCall.step (cfg : Config) (c : DataCall) {s : Settings} (h : DataAgrees s)
    (hc : c.ownVnd (s.mesh.models.map Model.ident) = true) :
    DataAgrees (c.apply cfg s) ∧
      (c.apply cfg s).mesh.models.map Model.ident = s.mesh.models.map Model.ident ∧
      dataView (c.apply cfg s) = c.record (dataView s) := by
  cases c with
  | dataStore i vnd data => exact modelDataStore_step h data hc
  | event e =>
      have hk := trackerStep_dataKept cfg s e
      exact ⟨hk.agrees h, hk.idents, hk.view⟩

/--
Over any run of data stores and tracker events, from models with distinct
identities whose flags agree with their records, with each data store given
its model's own `vnd`: the flags keep agreeing with the records, and the
records are those of the abstract run.
-/
theorem model_data_follows_calls (cfg : Config) {s : Settings} (h : DataAgrees s)
    (cs : List DataCall) (hcs : ∀ c ∈ cs, c.ownVnd (s.mesh.models.map Model.ident) = true) :
    DataAgrees (runData cfg s cs) ∧
      dataView (runData cfg s cs) = cs.foldl (fun r c => c.record r) (dataView s) := by
  induction cs generalizing s with
  | nil => exact ⟨h, rfl⟩
  | cons c cs ih =>
      obtain ⟨h1, hids, hview⟩ := c.step cfg h (hcs c (List.mem_cons_self _ _))
      have hrest := ih h1 fun c' hc' => by
        rw [hids]
        exact hcs c' (List.mem_cons_of_mem _ hc')
      rw [hview] at hrest
      exact hrest

def twoModels : Settings :=
  Settings.boot
    { Mesh.empty with
      models := [⟨false, 0, 0, [], [], none, ⟨false, false, false, false⟩, true⟩,
        ⟨true, 0, 1, [], [], none, ⟨false, false, false, false⟩, true⟩] }
    (fun _ => none) 0 0

def dataCalls : List DataCall :=
  [.dataStore 0 false [1, 2], .event (.mark 5 (.storeModBind 1)), .dataStore 1 true [7],
    .event .expire, .dataStore 0 false []]

theorem model_data_follows_calls_twoModels :
    DataAgrees twoModels ∧
      (∀ c ∈ dataCalls, c.ownVnd (twoModels.mesh.models.map Model.ident) = true) ∧
      DataAgrees (runData ⟨2, 1, 16⟩ twoModels dataCalls) ∧
      dataView (runData ⟨2, 1, 16⟩ twoModels dataCalls) =
        dataCalls.foldl (fun r c => c.record r) (dataView twoModels) := by
  have h0 : DataAgrees twoModels := ⟨by decide, by decide⟩
  have hcalls : ∀ c ∈ dataCalls, c.ownVnd (twoModels.mesh.models.map Model.ident) = true := by
    decide
  exact ⟨h0, hcalls, model_data_follows_calls ⟨2, 1, 16⟩ h0 dataCalls hcalls⟩

end MeshSettings
