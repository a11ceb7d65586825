import MeshSettings.KeyUpdates
import MeshSettings.NodeUpdates

/-!
# The dirty tracker and the deferred flush

The persistence API marks a category by setting its bit in `bt_mesh.flags`
through `schedule_store`, which arms the single `pending_store` work; some
calls also mark the entity itself (an RPL entry's `store`, a model's pending
bits, a label's `BT_MESH_VA_CHANGED`).  When the work runs, `store_pending`
takes each category whose bit is set, in a fixed order, clears the bit and
writes the category.
-/

namespace MeshSettings

/-! ## Marking calls -/

def btMeshStoreNet (cfg : Config) (s : Settings) : Settings := scheduleStore cfg s .netPending

/-- `bt_mesh_store_iv`: the sequence number is stored again whenever the IV index changes. -/
def btMeshStoreIv (cfg : Config) (onlyDuration : Bool) (s : Settings) : Settings :=
  let s := scheduleStore cfg s .ivPending
  if onlyDuration then s else scheduleStore cfg s .seqPending

def btMeshStoreRole (cfg : Config) (s : Settings) : Settings := scheduleStore cfg s .rolePending

/-- `bt_mesh_store_seq`: only every `CONFIG_BT_MESH_SEQ_STORE_RATE`th sequence number is stored. -/
def btMeshStoreSeq (cfg : Config) (s : Settings) : Settings :=
  if cfg.seqStoreRate ≠ 0 ∧ s.mesh.seq.toNat % cfg.seqStoreRate ≠ 0 then s
  else scheduleStore cfg s .seqPending

def btMeshStoreRpl (cfg : Config) (i : Nat) (s : Settings) : Settings :=
  scheduleStore cfg
    { s with mesh := { s.mesh with rpl := s.mesh.rpl.modify (fun e => { e with store := true }) i } }
    .rplPending

def btMeshStoreHbPub (cfg : Config) (s : Settings) : Settings := scheduleStore cfg s .hbPubPending

def btMeshStoreCfg (cfg : Config) (flush : Bool) (s : Settings) : Settings :=
  if flush then { s with store := storePendingCfg s.mesh s.store }
  else scheduleStore cfg s .cfgPending

def btMeshClearNet (cfg : Config) (s : Settings) : Settings :=
  scheduleStore cfg (scheduleStore cfg (scheduleStore cfg s .netPending) .ivPending) .cfgPending

def storeModPending (cfg : Config) (mark : ModFlags → ModFlags) (i : Nat) (s : Settings) :
    Settings :=
  scheduleStore cfg
    { s with mesh := { s.mesh with
        models := s.mesh.models.modify (fun mod => { mod with flags := mark mod.flags }) i } }
    .modPending

def btMeshStoreModBind (cfg : Config) (i : Nat) (s : Settings) : Settings :=
  storeModPending cfg (fun f => { f with bindPending := true }) i s

def btMeshStoreModSub (cfg : Config) (i : Nat) (s : Settings) : Settings :=
  storeModPending cfg (fun f => { f with subPending := true }) i s

def btMeshStoreModPub (cfg : Config) (i : Nat) (s : Settings) : Settings :=
  storeModPending cfg (fun f => { f with pubPending := true }) i s

def btMeshStoreLabel (cfg : Config) (s : Settings) : Settings := scheduleStore cfg s .vaPending

/-! ## `store_pending` -/

def pendingStage (flag : Flag) (write : Settings → Settings) (s : Settings) : Settings :=
  if s.mesh.flags flag then write (s.setFlag flag false) else s

def storeOrClear (store : Mesh → Store → Store) (clear : Store → Store) (s : Settings) :
    Settings :=
  { s with store := if s.mesh.flags .valid then store s.mesh s.store else clear s.store }

/-- The writes of `store_pending`, in its order, each behind the flag that asks for it. -/
def pendingStages : List (Flag × (Settings → Settings)) :=
  [(.rplPending, fun s => if s.mesh.flags .valid then storePendingRpl s else clearRpl s),
    (.keysPending, storePendingKeys),
    (.netPending, storeOrClear storePendingNet clearNet),
    (.ivPending, storeOrClear storePendingIv clearIv),
    (.seqPending, fun s => { s with store := storePendingSeq s.mesh s.store }),
    (.hbPubPending, fun s => { s with store := storePendingHbPub s.stack s.mesh s.store }),
    (.cfgPending, storeOrClear storePendingCfg clearCfg),
    (.modPending, storePendingMods),
    (.vaPending, storePendingVa),
    (.rolePending, fun s => { s with store := storePendingRole s.mesh s.store }),
    (.nodesPending, storePendingNodes)]

def runStages (stages : List (Flag × (Settings → Settings))) (s : Settings) : Settings :=
  stages.foldl (fun s stage => pendingStage stage.1 stage.2 s) s

/-- `store_pending`, run by the `pending_store` work, which is then no longer armed. -/
def storePending (s : Settings) : Settings := runStages pendingStages { s with deadline := none }

/-! ## What a stage leaves alone -/

def seqPath : Path := "Seq".toList

theorem ne_of_head?_ne {p q : Path} (h : p.head? ≠ q.head?) : p ≠ q := fun hpq => h (hpq ▸ rfl)

theorem indexPath_head? (name : String) (n : Nat) (h : name.toList ≠ []) :
    (indexPath name n).head? = name.toList.head? := by
  obtain ⟨c, cs, hc⟩ := List.exists_cons_of_ne_nil h
  simp only [indexPath, hc, List.cons_append, List.head?_cons]

def SeqFrame (write : Settings → Settings) : Prop :=
  ∀ s, (write s).mesh.seq = s.mesh.seq ∧
    (write s).mesh.flags .seqPending = s.mesh.flags .seqPending ∧
    (write s).store seqPath = s.store seqPath

theorem SeqFrame.of_store {write : Settings → Settings}
    (hmesh : ∀ s, (write s).mesh.seq = s.mesh.seq ∧ (write s).mesh.flags = s.mesh.flags)
    (hstore : ∀ s, (write s).store seqPath = s.store seqPath) : SeqFrame write :=
  fun s => ⟨(hmesh s).1, by rw [(hmesh s).2], hstore s⟩

theorem pendingStage_seqFrame {flag : Flag} {write : Settings → Settings}
    (hflag : flag ≠ .seqPending) (hw : SeqFrame write) : SeqFrame (pendingStage flag write) := by
  intro s
  unfold pendingStage
  split
  · obtain ⟨h1, h2, h3⟩ := hw (s.setFlag flag false)
    refine ⟨h1, ?_, h3⟩
    rw [h2]
    exact Flags.setTo_other _ _ (Ne.symm hflag)
  · exact ⟨rfl, rfl, rfl⟩

theorem runStages_seqFrame (stages : List (Flag × (Settings → Settings)))
    (h : ∀ x ∈ stages, x.1 ≠ .seqPending ∧ SeqFrame x.2) : SeqFrame (runStages stages) := by
  induction stages with
  | nil => exact fun _ => ⟨rfl, rfl, rfl⟩
  | cons x xs ih =>
      intro s
      have hx := h x (List.mem_cons_self _ _)
      obtain ⟨h1, h2, h3⟩ := pendingStage_seqFrame hx.1 hx.2 s
      obtain ⟨g1, g2, g3⟩ := ih (fun y hy => h y (List.mem_cons_of_mem _ hy)) (pendingStage x.1 x.2 s)
      exact ⟨g1.trans h1, g2.trans h2, g3.trans h3⟩

theorem storeRpl_seqPath (stack : Path → Nat) (st : Store) (e : Rpl) :
    storeRpl stack st e seqPath = st seqPath :=
  settingsSaveOne_other _ _ (ne_of_head?_ne (by rw [indexPath_head? _ _ (by decide)]; decide)).symm

theorem storePendingKey_seqPath (m : Mesh) (st : Store) (u : KeyUpdate) :
    storePendingKey m st u seqPath = st seqPath := by
  rw [storePendingKey_apply, if_neg]
  rintro ⟨-, h⟩
  revert h
  simp only [KeyUpdate.path, keyPath]
  cases u.appKey <;> simp only [Bool.false_eq_true, if_true, if_false] <;>
    exact ne_of_head?_ne (by rw [indexPath_head? _ _ (by decide)]; decide)

theorem storePendingMod_seqPath (stack : Path → Nat) (st : Store) (mod : Model) :
    (storePendingMod stack st mod).1 seqPath = st seqPath := by
  have hne : ∀ key, encodeModPath mod mod.vnd key ≠ seqPath := fun key => ne_of_head?_ne <| by
    rw [show (encodeModPath mod mod.vnd key).head? = some (if mod.vnd then 'v' else 's') from rfl]
    cases mod.vnd <;> decide
  simp only [storePendingMod, storePendingModBind, storePendingModSub, storePendingModPub]
  split_ifs <;> simp only [settingsSaveOne_other _ _ (hne _).symm]

theorem storePendingNode_seqPath (m : Mesh) (st : Store) (u : NodeUpdate) :
    storePendingNode m st u seqPath = st seqPath := by
  have hne : ∀ n, indexPath "Node" n ≠ seqPath := fun n =>
    ne_of_head?_ne (by rw [indexPath_head? _ _ (by decide)]; decide)
  unfold storePendingNode
  split_ifs
  · rfl
  · exact settingsSaveOne_other _ _ (hne _).symm
  · cases nodeFind m u.addr with
    | none => rfl
    | some node => exact settingsSaveOne_other _ _ (hne _).symm

theorem storeOnly_seqFrame {w : Mesh → Store → Store} (h : ∀ m st, w m st seqPath = st seqPath) :
    SeqFrame fun s => { s with store := w s.mesh s.store } :=
  SeqFrame.of_store (fun _ => ⟨rfl, rfl⟩) fun s => h s.mesh s.store

theorem storeOrClear_seqFrame {w : Mesh → Store → Store} {clear : Store → Store}
    (hw : ∀ m st, w m st seqPath = st seqPath) (hc : ∀ st, clear st seqPath = st seqPath) :
    SeqFrame (storeOrClear w clear) :=
  SeqFrame.of_store (fun _ => ⟨rfl, rfl⟩) fun s => by
    unfold storeOrClear
    split
    · exact hw _ _
    · exact hc _

theorem settingsSaveOne_seqPath {name : List Char} (h : name ≠ seqPath) (st : Store) (v : Bytes) :
    settingsSaveOne st name v seqPath = st seqPath :=
  settingsSaveOne_other _ _ h.symm

theorem seqFrame_before :
    ∀ x ∈ pendingStages.take 4, x.1 ≠ .seqPending ∧ SeqFrame x.2 := by
  have hrpl : SeqFrame fun s => if s.mesh.flags .valid then storePendingRpl s else clearRpl s :=
    SeqFrame.of_store (fun s => by split <;> exact ⟨rfl, rfl⟩) fun s => by
      split
      · exact foldl_apply_of_forall (fun st e => by
          split
          · exact storeRpl_seqPath _ _ _
          · rfl) _ _
      · exact foldl_apply_of_forall (fun st e => by
          split
          · exact settingsSaveOne_other _ _
              (ne_of_head?_ne (by rw [indexPath_head? _ _ (by decide)]; decide)).symm
          · rfl) _ _
  have hkeys : SeqFrame storePendingKeys :=
    SeqFrame.of_store (fun _ => ⟨rfl, rfl⟩) fun s =>
      foldl_apply_of_forall (storePendingKey_seqPath s.mesh) _ _
  simp only [pendingStages, List.take, List.forall_mem_cons, List.not_mem_nil, false_implies,
    implies_true, and_true]
  have hnet : "Net".toList ≠ seqPath := by decide
  have hiv : "IV".toList ≠ seqPath := by decide
  exact ⟨⟨by decide, hrpl⟩, ⟨by decide, hkeys⟩,
    ⟨by decide, storeOrClear_seqFrame (fun _ _ => settingsSaveOne_seqPath hnet _ _)
      (fun _ => settingsSaveOne_seqPath hnet _ _)⟩,
    ⟨by decide, storeOrClear_seqFrame (fun _ _ => settingsSaveOne_seqPath hiv _ _)
      (fun _ => settingsSaveOne_seqPath hiv _ _)⟩⟩

theorem seqFrame_after :
    ∀ x ∈ pendingStages.drop 5, x.1 ≠ .seqPending ∧ SeqFrame x.2 := by
  have hcfgPath : "Cfg".toList ≠ seqPath := by decide
  have hhb : ∀ stack m st, storePendingHbPub stack m st seqPath = st seqPath := fun _ m st => by
    unfold storePendingHbPub
    cases m.hbPub with
    | none => rfl
    | some pub => exact settingsSaveOne_seqPath (by decide) _ _
  have hcfg : ∀ m st, storePendingCfg m st seqPath = st seqPath := fun m st => by
    unfold storePendingCfg
    cases m.cfg with
    | none => rfl
    | some cfg => exact settingsSaveOne_seqPath hcfgPath _ _
  have hrole : ∀ m st, storePendingRole m st seqPath = st seqPath := fun m st => by
    unfold storePendingRole
    split_ifs
    · exact settingsSaveOne_seqPath (by decide) _ _
    · exact settingsSaveOne_seqPath (by decide) _ _
    · rfl
  have hmods : SeqFrame storePendingMods :=
    SeqFrame.of_store (fun _ => ⟨rfl, rfl⟩) fun s =>
      foldl_apply_of_forall (fun st mod => storePendingMod_seqPath s.stack st mod) _ _
  have hva : SeqFrame storePendingVa :=
    SeqFrame.of_store (fun _ => ⟨rfl, rfl⟩) fun s => by
      rw [storePendingVa_store]
      exact foldl_apply_of_forall (fun st i => by
        rw [storePendingVaStep_apply, if_neg]
        exact fun h => ne_of_head?_ne (by rw [indexPath_head? _ _ (by decide)]; decide) h.2) _ _
  have hnodes : SeqFrame storePendingNodes :=
    SeqFrame.of_store (fun _ => ⟨rfl, rfl⟩) fun s =>
      foldl_apply_of_forall (storePendingNode_seqPath s.mesh) _ _
  simp only [pendingStages, List.drop, List.forall_mem_cons, List.not_mem_nil, false_implies,
    implies_true, and_true]
  exact ⟨⟨by decide, SeqFrame.of_store (fun _ => ⟨rfl, rfl⟩) fun s => hhb s.stack s.mesh s.store⟩,
    ⟨by decide, storeOrClear_seqFrame hcfg (fun _ => settingsSaveOne_seqPath hcfgPath _ _)⟩,
    ⟨by decide, hmods⟩, ⟨by decide, hva⟩, ⟨by decide, storeOnly_seqFrame hrole⟩,
    ⟨by decide, hnodes⟩⟩

/--
`store_pending` leaves the live sequence number alone, clears its flag, and
writes the `Seq` record exactly when that flag was set.
-/
theorem storePending_seq (s : Settings) :
    (storePending s).mesh.seq = s.mesh.seq ∧ (storePending s).mesh.flags .seqPending = false ∧
      (storePending s).store seqPath =
        if s.mesh.flags .seqPending then some (SeqVal.encode ⟨BitVec.ofNat 24 s.mesh.seq.toNat⟩)
        else s.store seqPath := by
  have hsplit : pendingStages = pendingStages.take 4 ++
      (.seqPending, fun s => { s with store := storePendingSeq s.mesh s.store }) ::
        pendingStages.drop 5 := rfl
  have hrun : ∀ s, storePending s = runStages (pendingStages.drop 5)
      (pendingStage .seqPending (fun s => { s with store := storePendingSeq s.mesh s.store })
        (runStages (pendingStages.take 4) { s with deadline := none })) := fun s => by
    rw [storePending, hsplit, runStages, List.foldl_append, List.foldl_cons]
    rfl
  rw [hrun]
  obtain ⟨a1, a2, a3⟩ := runStages_seqFrame _ seqFrame_after
    (pendingStage .seqPending (fun s => { s with store := storePendingSeq s.mesh s.store })
      (runStages (pendingStages.take 4) { s with deadline := none }))
  obtain ⟨b1, b2, b3⟩ := runStages_seqFrame _ seqFrame_before { s with deadline := none }
  rw [a1, a2, a3]
  unfold pendingStage
  by_cases hf : s.mesh.flags .seqPending = true
  · rw [if_pos (b2.trans hf), if_pos hf]
    exact ⟨b1, by simp [Settings.setFlag], by
      simp only [Settings.setFlag, storePendingSeq, seqPath, settingsSaveOne_same, b1]
      rfl⟩
  · rw [if_neg (b2.trans_ne hf), if_neg hf]
    exact ⟨b1, by simpa using b2.trans_ne hf, b3⟩

end MeshSettings
