import MeshSettings.Pending
import MeshSettings.RecordKeys

/-!
# What each stage of `store_pending` writes

A key's name is its part up to the first `/`, the part `mesh_set_bin`
dispatches on.  Every stage of `store_pending` writes records only under the
names of its own category (`pendingStages_writesUnder`), so a record under any
other name keeps its value through the stage, and through a run of stages none
of which owns its name (`runStages_outside`); a relation every stage keeps holds
across a run (`runStages_frame`).  A whole flush writes only under the names of
the categories whose bits were set when it ran
(`storePending_writes_only_pending`).  The model stage writes only the `bind`,
`sub` and `pub` records, so a model's `data` record keeps its value through the
whole flush as well (`storePendingMods_data`).
-/

namespace MeshSettings

def pathName (p : Path) : List Char := p.takeWhile (· ≠ '/')

theorem pathName_indexPath (name : String) (n : Nat) (h : '/' ∉ name.toList) :
    pathName (indexPath name n) = name.toList :=
  takeWhile_append_slash _ h

theorem pathName_singleton (name : String) (h : '/' ∉ name.toList) :
    pathName name.toList = name.toList :=
  List.takeWhile_eq_self_iff.mpr fun c hc => by simpa using ne_of_mem_of_not_mem hc h

theorem pathName_encodeModPath (mod : Model) (vnd : Bool) (key : String) :
    pathName (encodeModPath mod vnd key) = [if vnd then 'v' else 's'] := by
  cases vnd <;> rfl

/-- The names of the keys each stage of `store_pending` writes. -/
def stageNames : Flag → List (List Char)
  | .rplPending => ["RPL".toList]
  | .keysPending => ["NetKey".toList, "AppKey".toList]
  | .netPending => ["Net".toList]
  | .ivPending => ["IV".toList]
  | .seqPending => ["Seq".toList]
  | .hbPubPending => ["HBPub".toList]
  | .cfgPending => ["Cfg".toList]
  | .modPending => [['s'], ['v']]
  | .vaPending => ["Va".toList]
  | .rolePending => ["Role".toList]
  | .nodesPending => ["Node".toList]
  | _ => []

/-- A write that changes the store only under keys with one of these names. -/
def WritesUnder (names : List (List Char)) (w : Settings → Settings) : Prop :=
  ∀ s q, pathName q ∉ names → (w s).store q = s.store q

section Writes

variable {names : List (List Char)} {q : Path}

theorem settingsSaveOne_outside {path : Path} (hpath : pathName path ∈ names)
    (hq : pathName q ∉ names) (st : Store) (v : Bytes) : settingsSaveOne st path v q = st q :=
  settingsSaveOne_other _ _ fun h => hq (h ▸ hpath)

theorem WritesUnder.of_store {w : Mesh → Store → Store}
    (h : ∀ m st q, pathName q ∉ names → w m st q = st q) :
    WritesUnder names fun s => { s with store := w s.mesh s.store } :=
  fun s q hq => h s.mesh s.store q hq

theorem writesUnder_storeOrClear {w : Mesh → Store → Store} {clear : Store → Store}
    (hw : ∀ m st q, pathName q ∉ names → w m st q = st q)
    (hc : ∀ st q, pathName q ∉ names → clear st q = st q) :
    WritesUnder names (storeOrClear w clear) := fun s q hq => by
  unfold storeOrClear
  split
  · exact hw _ _ _ hq
  · exact hc _ _ hq

theorem writesUnder_pendingStage {flag : Flag} {w : Settings → Settings}
    (hw : WritesUnder names w) : WritesUnder names (pendingStage flag w) := fun s q hq => by
  unfold pendingStage
  split
  · exact hw _ _ hq
  · rfl

theorem settingsSaveOne_singleton (name : String) (hname : '/' ∉ name.toList)
    (hmem : name.toList ∈ names) (hq : pathName q ∉ names) (st : Store) (v : Bytes) :
    settingsSaveOne st name.toList v q = st q :=
  settingsSaveOne_outside (by rwa [pathName_singleton _ hname]) hq _ _

end Writes

theorem storePendingKey_outside (m : Mesh) (st : Store) (u : KeyUpdate) {q : Path}
    (hq : pathName q ∉ stageNames .keysPending) : storePendingKey m st u q = st q := by
  rw [storePendingKey_apply, if_neg]
  rintro ⟨-, rfl⟩
  apply hq
  rw [KeyUpdate.path, keyPath, pathName_indexPath _ _ (by split <;> decide)]
  split <;> decide

theorem storePendingMod_outside (stack : Path → Nat) (st : Store) (mod : Model) {q : Path}
    (hq : pathName q ∉ stageNames .modPending) : (storePendingMod stack st mod).1 q = st q := by
  have hmem : ∀ key, pathName (encodeModPath mod mod.vnd key) ∈ stageNames .modPending :=
    fun key => by rw [pathName_encodeModPath]; cases mod.vnd <;> decide
  simp only [storePendingMod, storePendingModBind, storePendingModSub, storePendingModPub]
  split_ifs <;> simp only [settingsSaveOne_outside (hmem _) hq]

theorem storePendingNode_outside (m : Mesh) (st : Store) (u : NodeUpdate) {q : Path}
    (hq : pathName q ∉ stageNames .nodesPending) : storePendingNode m st u q = st q := by
  have hmem : ∀ n, pathName (indexPath "Node" n) ∈ stageNames .nodesPending := fun n => by
    rw [pathName_indexPath _ _ (by decide)]
    decide
  unfold storePendingNode
  split_ifs
  · rfl
  · exact settingsSaveOne_outside (hmem _) hq _ _
  · cases nodeFind m u.addr with
    | none => rfl
    | some node => exact settingsSaveOne_outside (hmem _) hq _ _

theorem rplStage_writesUnder :
    WritesUnder (stageNames .rplPending)
      fun s => if s.mesh.flags .valid then storePendingRpl s else clearRpl s := fun s q hq => by
  have hmem : ∀ n, pathName (indexPath "RPL" n) ∈ stageNames .rplPending := fun n => by
    rw [pathName_indexPath _ _ (by decide)]
    decide
  dsimp only
  split
  · exact foldl_apply_of_forall (fun st e => by
      split
      · exact settingsSaveOne_outside (hmem _) hq _ _
      · rfl) _ _
  · exact foldl_apply_of_forall (fun st e => by
      split
      · exact settingsSaveOne_outside (hmem _) hq _ _
      · rfl) _ _

theorem pendingStages_writesUnder :
    ∀ st ∈ pendingStages, WritesUnder (stageNames st.1) st.2 := by
  have single (flag : Flag) (name : String) (hname : '/' ∉ name.toList)
      (hmem : name.toList ∈ stageNames flag) :
      ∀ st q v, pathName q ∉ stageNames flag → settingsSaveOne st name.toList v q = st q :=
    fun st q v hq => settingsSaveOne_singleton name hname hmem hq st v
  have hkeys : WritesUnder (stageNames .keysPending) storePendingKeys := fun s q hq =>
    foldl_apply_of_forall (fun st u => storePendingKey_outside s.mesh st u hq) _ _
  have hmods : WritesUnder (stageNames .modPending) storePendingMods := fun s q hq =>
    foldl_apply_of_forall (fun st mod => storePendingMod_outside s.stack st mod hq) _ _
  have hva : WritesUnder (stageNames .vaPending) storePendingVa := fun s q hq => by
    rw [storePendingVa_store]
    refine foldl_apply_of_forall (fun st i => ?_) _ _
    rw [storePendingVaStep_apply, if_neg]
    rintro ⟨-, rfl⟩
    exact hq (by rw [pathName_indexPath _ _ (by decide)]; decide)
  have hnodes : WritesUnder (stageNames .nodesPending) storePendingNodes := fun s q hq =>
    foldl_apply_of_forall (fun st u => storePendingNode_outside s.mesh st u hq) _ _
  have hhb : WritesUnder (stageNames .hbPubPending)
      fun s => { s with store := storePendingHbPub s.stack s.mesh s.store } :=
    fun s q hq => by
      show storePendingHbPub s.stack s.mesh s.store q = s.store q
      unfold storePendingHbPub
      cases s.mesh.hbPub with
      | none => rfl
      | some pub => exact single .hbPubPending "HBPub" (by decide) (by decide) _ _ _ hq
  have hcfg : ∀ m st q, pathName q ∉ stageNames .cfgPending → storePendingCfg m st q = st q :=
    fun m st q hq => by
      unfold storePendingCfg
      cases m.cfg with
      | none => rfl
      | some cfg => exact single .cfgPending "Cfg" (by decide) (by decide) _ _ _ hq
  have hrole :
      ∀ m st q, pathName q ∉ stageNames .rolePending → storePendingRole m st q = st q :=
    fun m st q hq => by
      unfold storePendingRole
      split_ifs
      · exact single .rolePending "Role" (by decide) (by decide) _ _ _ hq
      · exact single .rolePending "Role" (by decide) (by decide) _ _ _ hq
      · rfl
  simp only [pendingStages, List.forall_mem_cons, List.not_mem_nil, false_implies,
    implies_true, and_true]
  exact ⟨rplStage_writesUnder, hkeys,
    writesUnder_storeOrClear (fun _ _ _ => single .netPending "Net" (by decide) (by decide) _ _ _)
      (fun _ _ => single .netPending "Net" (by decide) (by decide) _ _ _),
    writesUnder_storeOrClear (fun _ _ _ => single .ivPending "IV" (by decide) (by decide) _ _ _)
      (fun _ _ => single .ivPending "IV" (by decide) (by decide) _ _ _),
    .of_store fun _ _ _ => single .seqPending "Seq" (by decide) (by decide) _ _ _,
    hhb,
    writesUnder_storeOrClear hcfg
      (fun _ _ => single .cfgPending "Cfg" (by decide) (by decide) _ _ _),
    hmods, hva, .of_store hrole, hnodes⟩

theorem runStages_outside :
    ∀ (stages : List (Flag × (Settings → Settings))),
      (∀ st ∈ stages, WritesUnder (stageNames st.1) st.2) →
      ∀ s q, (∀ st ∈ stages, pathName q ∉ stageNames st.1) →
        (runStages stages s).store q = s.store q
  | [], _, _, _, _ => rfl
  | (flag, w) :: stages, h, s, q, hq => by
      show (runStages stages (pendingStage flag w s)).store q = s.store q
      rw [runStages_outside stages (fun st hst => h st (List.mem_cons_of_mem _ hst)) _ q
        (fun st hst => hq st (List.mem_cons_of_mem _ hst))]
      exact writesUnder_pendingStage (h _ (List.mem_cons_self _ _)) s q
        (hq _ (List.mem_cons_self _ _))

theorem runStages_frame_of_set {R : Settings → Settings → Prop} (hrefl : ∀ s, R s s)
    (htrans : ∀ {a b c}, R a b → R b c → R a c) :
    ∀ stages : List (Flag × (Settings → Settings)),
      (∀ st ∈ stages, ∀ s, s.mesh.flags st.1 = true → R s (st.2 (s.setFlag st.1 false))) →
      ∀ s, R s (runStages stages s)
  | [], _, s => hrefl s
  | (flag, w) :: stages, h, s => by
      have hstage : R s (pendingStage flag w s) := by
        unfold pendingStage
        split
        · exact h _ (List.mem_cons_self _ _) s ‹_›
        · exact hrefl s
      exact htrans hstage (runStages_frame_of_set hrefl htrans stages
        (fun st hst => h st (List.mem_cons_of_mem _ hst)) _)

theorem runStages_frame {R : Settings → Settings → Prop} (hrefl : ∀ s, R s s)
    (htrans : ∀ {a b c}, R a b → R b c → R a c)
    (hflag : ∀ s flag, R s (s.setFlag flag false))
    (stages : List (Flag × (Settings → Settings))) (h : ∀ st ∈ stages, ∀ s, R s (st.2 s))
    (s : Settings) : R s (runStages stages s) :=
  runStages_frame_of_set hrefl htrans stages
    (fun st hst s _ => htrans (hflag s st.1) (h st hst _)) s

/-! ## What a flush writes -/

theorem pendingStages_flags :
    ∀ st ∈ pendingStages, ∀ s, (st.2 s).mesh.flags = s.mesh.flags := by
  intro st hst s
  simp only [pendingStages, List.mem_cons, List.mem_singleton, List.not_mem_nil, or_false] at hst
  rcases hst with rfl | rfl | rfl | rfl | rfl | rfl | rfl | rfl | rfl | rfl | rfl <;>
    first | rfl | (dsimp only; split <;> rfl)

def KeepsUnowned (q : Path) (a b : Settings) : Prop :=
  (∀ f, b.mesh.flags f = true → a.mesh.flags f = true) ∧
    ((∀ f, a.mesh.flags f = true → pathName q ∉ stageNames f) → b.store q = a.store q)

theorem KeepsUnowned.refl (q : Path) (s : Settings) : KeepsUnowned q s s :=
  ⟨fun _ h => h, fun _ => rfl⟩

theorem KeepsUnowned.trans {q : Path} {a b c : Settings} (h1 : KeepsUnowned q a b)
    (h2 : KeepsUnowned q b c) : KeepsUnowned q a c :=
  ⟨fun f hf => h1.1 f (h2.1 f hf),
    fun hq => (h2.2 fun f hf => hq f (h1.1 f hf)).trans (h1.2 hq)⟩

theorem pendingStages_keepsUnowned (q : Path) :
    ∀ st ∈ pendingStages, ∀ s, s.mesh.flags st.1 = true →
      KeepsUnowned q s (st.2 (s.setFlag st.1 false)) := by
  intro st hst s hset
  refine ⟨fun f hf => ?_, fun hq => pendingStages_writesUnder st hst _ q (hq _ hset)⟩
  rw [pendingStages_flags st hst] at hf
  by_cases hfe : f = st.1
  · subst hfe
    exact hset
  · simpa only [Settings.setFlag, Flags.setTo_other _ _ hfe] using hf

/-- A flush writes only the records of the categories whose bits were set when it ran. -/
theorem storePending_writes_only_pending (s : Settings) {q : Path}
    (hq : ∀ f, s.mesh.flags f = true → pathName q ∉ stageNames f) :
    (storePending s).store q = s.store q :=
  (runStages_frame_of_set (KeepsUnowned.refl q) KeepsUnowned.trans pendingStages
    (pendingStages_keepsUnowned q) { s with deadline := none }).2 hq

def seqPendingBoot : Settings :=
  (Settings.boot Mesh.empty (fun p => if p = indexPath "RPL" 5 then some [7, 0, 0, 0] else none)
    0 0).setFlag .seqPending true

theorem storePending_writes_only_pending_seqPendingBoot :
    (∀ f, seqPendingBoot.mesh.flags f = true →
        pathName (indexPath "RPL" 5) ∉ stageNames f) ∧
      (storePending seqPendingBoot).store (indexPath "RPL" 5) =
        seqPendingBoot.store (indexPath "RPL" 5) := by
  have hq : ∀ f, seqPendingBoot.mesh.flags f = true →
      pathName (indexPath "RPL" 5) ∉ stageNames f := by
    intro f hf
    cases f <;> first | exact absurd hf (by decide) | decide
  exact ⟨hq, storePending_writes_only_pending seqPendingBoot hq⟩

/-! ## Model data -/

def identDataPath (id : Bool × UInt8 × UInt8) : Path :=
  (RecordKey.mod id.1 id.2.1 id.2.2 .data).path

theorem identDataPath_injective : Function.Injective identDataPath :=
  fun ⟨_, _, _⟩ ⟨_, _, _⟩ h => by
    obtain ⟨rfl, rfl, rfl, -⟩ := modKey_path_inj h
    rfl

theorem pathName_identDataPath (id : Bool × UInt8 × UInt8) :
    pathName (identDataPath id) = [if id.1 then 'v' else 's'] :=
  RecordKey.takeWhile_path _

theorem storePendingMod_data (stack : Path → Nat) (st : Store) (mod : Model)
    (id : Bool × UInt8 × UInt8) :
    (storePendingMod stack st mod).1 (identDataPath id) = st (identDataPath id) := by
  have hne : ∀ kind : ModKind, kind ≠ .data →
      identDataPath id ≠ (RecordKey.mod mod.vnd mod.elemIdx mod.modIdx kind).path :=
    fun _ hk h => hk (modKey_path_inj h).2.2.2.symm
  have hbind : identDataPath id ≠ encodeModPath mod mod.vnd "bind" := hne .bind (by decide)
  have hsub : identDataPath id ≠ encodeModPath mod mod.vnd "sub" := hne .sub (by decide)
  have hpub : identDataPath id ≠ encodeModPath mod mod.vnd "pub" := hne .pub (by decide)
  simp only [storePendingMod, storePendingModBind, storePendingModSub, storePendingModPub]
  split_ifs <;> simp only [settingsSaveOne_other _ _ hbind, settingsSaveOne_other _ _ hsub,
    settingsSaveOne_other _ _ hpub]

theorem storePendingMods_data (s : Settings) (id : Bool × UInt8 × UInt8) :
    (storePendingMods s).store (identDataPath id) = s.store (identDataPath id) :=
  foldl_apply_of_forall (fun st m => storePendingMod_data s.stack st m id) _ _

end MeshSettings
