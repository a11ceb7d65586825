import MeshSettings.Seq

/-!
# The dirty tracker over whole runs

A run of the tracker is a sequence of marking calls, each made at a time no
earlier than the last, and expiries of `pending_store`, which run
`store_pending`.  A marking call is the persistence API entry point together
with the change its caller makes to the entity's own flag.

Every marking call is a change to entity markers followed by `schedule_store`
calls (`MarkCall.split`), and each write of `store_pending` clears the markers
of its own category and nothing else (`pendingStages_clear`).  From these two
facts every run keeps each outstanding marker under its category bit, with the
flush armed whenever a bit is set (`Covered`).

Each `schedule_store` call at time `t` for the bits `F` leaves the deadline at
most `t + timeout(F)`, and a later call made before the deadline never moves it
later (`Promised`).  A call made once the deadline has passed, while the expired
work has not yet run, finds `k_delayed_work_remaining_get` at zero and re-arms
the work from its own time (`tracker_postpones_expired_deadline`).
-/

namespace MeshSettings

/-! ## Markers -/

def pendingBits : List Flag := pendingStages.map Prod.fst

def marked (s : Settings) : Flag → Bool
  | .rplPending => s.mesh.rpl.any (·.store)
  | .keysPending => s.keyUpdates.any (·.valid)
  | .modPending =>
      s.mesh.models.any fun mod =>
        mod.flags.bindPending || mod.flags.subPending || mod.flags.pubPending
  | .vaPending => s.mesh.labels.any (·.changed)
  | .nodesPending => s.nodeUpdates.any (·.assigned)
  | _ => false

def RplUsed (s : Settings) : Prop := ∀ e ∈ s.mesh.rpl, e.store = true → e.src ≠ 0

/--
Every outstanding marker is covered by its category bit, and while a bit is
set the `pending_store` work is armed or its expiry is queued.
-/
structure Covered (s : Settings) : Prop where
  bits : ∀ f, marked s f = true → s.mesh.flags f = true
  armed : ∀ f ∈ pendingBits, s.mesh.flags f = true → s.deadline ≠ none
  rplUsed : RplUsed s

theorem marked_true_mem {s : Settings} {f : Flag} (h : marked s f = true) : f ∈ pendingBits := by
  cases f <;> first | decide | simp [marked] at h

theorem Covered.of_clean {s : Settings} (hflags : ∀ f ∈ pendingBits, s.mesh.flags f = false)
    (hmarked : ∀ f, marked s f = false) : Covered s where
  bits f hf := by simp [hmarked f] at hf
  armed f hf hset := by simp [hflags f hf] at hset
  rplUsed e he hst := by
    have := hmarked .rplPending
    simp only [marked, List.any_eq_false] at this
    exact absurd hst (this e he)

/-! ## `store_pending` clears every marker -/

structure Clears (flag : Flag) (write : Settings → Settings) : Prop where
  flags : ∀ s, (write s).mesh.flags = s.mesh.flags
  own : ∀ s, RplUsed s → marked (write s) flag = false
  other : ∀ s g, g ≠ flag → marked (write s) g = marked s g
  rplUsed : ∀ s, RplUsed s → RplUsed (write s)
  deadline : ∀ s, (write s).deadline = s.deadline

@[simp] theorem marked_setFlag (s : Settings) (flag : Flag) (b : Bool) :
    marked (s.setFlag flag b) = marked s := by
  funext g
  cases g <;> rfl

theorem Clears.of_store (flag : Flag) {w : Settings → Store} (hflag : ∀ s, marked s flag = false) :
    Clears flag fun s => { s with store := w s } where
  flags _ := rfl
  own s _ := hflag { s with store := w s }
  other _ _ _ := rfl
  rplUsed _ h := h
  deadline _ := rfl

theorem Clears.storeOrClear (flag : Flag) (hflag : ∀ s, marked s flag = false)
    (store : Mesh → Store → Store) (clear : Store → Store) :
    Clears flag (storeOrClear store clear) :=
  Clears.of_store flag hflag

theorem rpl_stage_clears :
    Clears .rplPending fun s => if s.mesh.flags .valid then storePendingRpl s else clearRpl s where
  flags s := by split <;> rfl
  own s h := by
    split
    · simp [marked, storePendingRpl]
    · simp only [marked, clearRpl, List.any_map, List.any_eq_false, Function.comp_apply]
      intro e he
      split
      · simp [Rpl.empty]
      · rename_i hsrc
        exact fun hst => hsrc (h e he hst)
  other s g hg := by split <;> cases g <;> first | rfl | exact absurd rfl hg
  rplUsed s h := by
    split
    · simp [RplUsed, storePendingRpl]
    · simp only [RplUsed, clearRpl, List.mem_map]
      rintro _ ⟨e, he, rfl⟩ hst
      by_cases hsrc : e.src ≠ 0
      · simp [hsrc, Rpl.empty] at hst
      · rw [if_neg hsrc] at hst ⊢
        exact h e he hst
  deadline s := by split <;> rfl

theorem keys_stage_clears : Clears .keysPending storePendingKeys where
  flags _ := rfl
  own s _ := by simp [marked, storePendingKeys]
  other s g hg := by cases g <;> first | rfl | exact absurd rfl hg
  rplUsed _ h := h
  deadline _ := rfl

theorem mods_stage_clears : Clears .modPending storePendingMods where
  flags _ := rfl
  own s _ := by simp [marked, storePendingMods, storePendingMod]
  other s g hg := by cases g <;> first | rfl | exact absurd rfl hg
  rplUsed _ h := h
  deadline _ := rfl

theorem va_stage_clears : Clears .vaPending storePendingVa where
  flags _ := rfl
  own s _ := by simp [marked, storePendingVa]
  other s g hg := by cases g <;> first | rfl | exact absurd rfl hg
  rplUsed _ h := h
  deadline _ := rfl

theorem nodes_stage_clears : Clears .nodesPending storePendingNodes where
  flags _ := rfl
  own s _ := by simp [marked, storePendingNodes, NodeUpdate.assigned, addrUnassigned]
  other s g hg := by cases g <;> first | rfl | exact absurd rfl hg
  rplUsed _ h := h
  deadline _ := rfl

theorem pendingStages_clear : ∀ st ∈ pendingStages, Clears st.1 st.2 := by
  simp only [pendingStages, List.mem_cons, List.mem_singleton, forall_eq_or_imp, forall_eq,
    List.not_mem_nil, false_imp_iff, implies_true, and_true]
  exact ⟨rpl_stage_clears, keys_stage_clears, .storeOrClear .netPending (fun _ => rfl) _ _,
    .storeOrClear .ivPending (fun _ => rfl) _ _, .of_store .seqPending fun _ => rfl,
    .of_store .hbPubPending fun _ => rfl, .storeOrClear .cfgPending (fun _ => rfl) _ _,
    mods_stage_clears, va_stage_clears, .of_store .rolePending fun _ => rfl, nodes_stage_clears⟩

def Sound (s : Settings) : Prop := (∀ f, marked s f = true → s.mesh.flags f = true) ∧ RplUsed s

theorem pendingStage_sound {flag : Flag} {w : Settings → Settings} (hw : Clears flag w)
    {s : Settings} (h : Sound s) :
    Sound (pendingStage flag w s) ∧ (pendingStage flag w s).mesh.flags flag = false ∧
      ∀ g, (pendingStage flag w s).mesh.flags g = true → s.mesh.flags g = true := by
  unfold pendingStage
  split
  · rename_i hset
    have hrpl : RplUsed (s.setFlag flag false) := h.2
    have hfl : ∀ g, (w (s.setFlag flag false)).mesh.flags g = s.mesh.flags.setTo flag false g :=
      fun g => congrFun (hw.flags _) g
    refine ⟨⟨fun g hg => ?_, hw.rplUsed _ hrpl⟩, by rw [hfl]; simp, fun g hg => ?_⟩
    · by_cases hgf : g = flag
      · rw [hgf, hw.own _ hrpl] at hg
        cases hg
      · rw [hw.other _ _ hgf, marked_setFlag] at hg
        rw [hfl, Flags.setTo_other _ _ hgf]
        exact h.1 g hg
    · rw [hfl] at hg
      by_cases hgf : g = flag
      · subst hgf; exact hset
      · rwa [Flags.setTo_other _ _ hgf] at hg
  · rename_i hunset
    exact ⟨h, by simpa using hunset, fun _ hg => hg⟩

theorem runStages_sound :
    ∀ (stages : List (Flag × (Settings → Settings))), (∀ st ∈ stages, Clears st.1 st.2) →
      ∀ s, Sound s → Sound (runStages stages s) ∧
        (∀ st ∈ stages, (runStages stages s).mesh.flags st.1 = false) ∧
        ∀ g, (runStages stages s).mesh.flags g = true → s.mesh.flags g = true
  | [], _, s, h => ⟨h, fun _ hst => absurd hst (List.not_mem_nil _), fun _ hg => hg⟩
  | (flag, w) :: stages, hcl, s, h => by
      obtain ⟨h1, hoff, hmono⟩ := pendingStage_sound (hcl _ (List.mem_cons_self _ _)) h
      obtain ⟨h2, hrest, hmono'⟩ :=
        runStages_sound stages (fun st hst => hcl st (List.mem_cons_of_mem _ hst)) _ h1
      refine ⟨h2, fun st hst => ?_, fun g hg => hmono g (hmono' g hg)⟩
      rcases List.mem_cons.mp hst with rfl | hst
      · exact Bool.eq_false_iff.mpr fun hg => by simp [hmono' _ hg] at hoff
      · exact hrest st hst

theorem runStages_deadline :
    ∀ (stages : List (Flag × (Settings → Settings))), (∀ st ∈ stages, Clears st.1 st.2) →
      ∀ s, (runStages stages s).deadline = s.deadline
  | [], _, _ => rfl
  | (flag, w) :: stages, hcl, s => by
      show (runStages stages (pendingStage flag w s)).deadline = s.deadline
      rw [runStages_deadline stages (fun st hst => hcl st (List.mem_cons_of_mem _ hst))]
      unfold pendingStage
      split
      · exact (hcl _ (List.mem_cons_self _ _)).deadline _
      · rfl

theorem storePending_deadline (s : Settings) : (storePending s).deadline = none :=
  runStages_deadline pendingStages pendingStages_clear _

theorem storePending_clean {s : Settings} (h : Sound s) :
    (∀ f ∈ pendingBits, (storePending s).mesh.flags f = false) ∧
      (∀ f, marked (storePending s) f = false) ∧ RplUsed (storePending s) := by
  obtain ⟨⟨hbits, hrpl⟩, hoff, -⟩ :=
    runStages_sound pendingStages pendingStages_clear { s with deadline := none } h
  have hoff' : ∀ f ∈ pendingBits, (storePending s).mesh.flags f = false := fun f hf => by
    obtain ⟨st, hst, rfl⟩ := List.mem_map.mp hf
    exact hoff st hst
  refine ⟨hoff', fun f => Bool.eq_false_iff.mpr fun hm => ?_, hrpl⟩
  exact Bool.false_ne_true ((hoff' f (marked_true_mem hm)).symm.trans (hbits f hm))

theorem expire_deadline (s : Settings) : (expire s).deadline = none := by
  unfold expire
  split
  · exact storePending_deadline _
  · assumption

theorem expire_covered {s : Settings} (h : Covered s) : Covered (expire s) := by
  unfold expire
  split
  · obtain ⟨hoff, hclean, hrpl⟩ := storePending_clean (s := { s with now := max s.now _ })
      ⟨h.bits, h.rplUsed⟩
    exact ⟨fun f hf => by simp [hclean f] at hf, fun f hf hset => by simp [hoff f hf] at hset,
      hrpl⟩
  · exact h

/-! ## `schedule_store` -/

def clock (s : Settings) : Flags × Option Nat × Nat := (s.mesh.flags, s.deadline, s.now)

def scheduleAll (cfg : Config) (s : Settings) (fs : List Flag) : Settings :=
  fs.foldl (scheduleStore cfg) s

theorem clock_scheduleStore (cfg : Config) {s s' : Settings} (h : clock s' = clock s) (f : Flag) :
    clock (scheduleStore cfg s' f) = clock (scheduleStore cfg s f) := by
  simp only [clock, Prod.mk.injEq] at h
  obtain ⟨hf, hd, hn⟩ := h
  simp only [clock, scheduleStore, rearm, remainingGet, Settings.setFlag, hf, hd, hn]

theorem clock_scheduleAll (cfg : Config) :
    ∀ (fs : List Flag) {s s' : Settings}, clock s' = clock s →
      clock (scheduleAll cfg s' fs) = clock (scheduleAll cfg s fs)
  | [], _, _, h => h
  | f :: fs, _, _, h => clock_scheduleAll cfg fs (clock_scheduleStore cfg h f)

theorem scheduleStore_deadline_ne_none (cfg : Config) (s : Settings) (f : Flag) :
    (scheduleStore cfg s f).deadline ≠ none := by
  unfold scheduleStore rearm remainingGet
  cases hd : s.deadline <;> simp only [Settings.setFlag, hd] <;> split_ifs <;> simp_all

theorem scheduleAll_facts (cfg : Config) :
    ∀ (fs : List Flag) (s : Settings),
      (∀ g, (scheduleAll cfg s fs).mesh.flags g = (s.mesh.flags g || decide (g ∈ fs))) ∧
        marked (scheduleAll cfg s fs) = marked s ∧
        (scheduleAll cfg s fs).mesh.rpl = s.mesh.rpl ∧
        (fs ≠ [] ∨ s.deadline ≠ none → (scheduleAll cfg s fs).deadline ≠ none)
  | [], s => ⟨fun g => by simp [scheduleAll], rfl, rfl, fun h => by simpa using h⟩
  | f :: fs, s => by
      obtain ⟨hflags, hmarked, hrpl, hdl⟩ := scheduleAll_facts cfg fs (scheduleStore cfg s f)
      refine ⟨fun g => ?_, hmarked, hrpl, fun _ => hdl (.inr (scheduleStore_deadline_ne_none cfg s f))⟩
      rw [show scheduleAll cfg s (f :: fs) = scheduleAll cfg (scheduleStore cfg s f) fs from rfl,
        hflags]
      by_cases hg : g = f
      · subst hg; simp
      · simp [hg]

/-! ## The marking calls -/

def markLabel (i : Nat) (s : Settings) : Settings :=
  { s with
    mesh := { s.mesh with labels := s.mesh.labels.modify (fun lab => { lab with changed := true }) i } }

/--
The entry points of `settings.c` that mark a category: `bt_mesh_store_*`, the
clears of keys and nodes, and `bt_mesh_clear_net`. A label change carries the
caller's `BT_MESH_VA_CHANGED` mark (`markLabel`).
-/
inductive MarkCall
  | storeNet
  | storeIv (onlyDuration : Bool)
  | storeRole
  | storeSeq
  | storeRpl (i : Nat)
  | storeSubnet (sub : Subnet)
  | storeAppKey (key : AppKey)
  | storeHbPub
  | storeCfg
  | storeModBind (i : Nat)
  | storeModSub (i : Nat)
  | storeModPub (i : Nat)
  | storeLabel (i : Nat)
  | storeNode (node : Node)
  | clearSubnet (sub : Subnet)
  | clearAppKey (key : AppKey)
  | clearNode (node : Node)
  | clearNet

def MarkCall.apply (cfg : Config) : MarkCall → Settings → Settings
  | .storeNet => btMeshStoreNet cfg
  | .storeIv onlyDuration => btMeshStoreIv cfg onlyDuration
  | .storeRole => btMeshStoreRole cfg
  | .storeSeq => btMeshStoreSeq cfg
  | .storeRpl i => btMeshStoreRpl cfg i
  | .storeSubnet sub => btMeshStoreSubnet cfg sub
  | .storeAppKey key => btMeshStoreAppKey cfg key
  | .storeHbPub => btMeshStoreHbPub cfg
  | .storeCfg => btMeshStoreCfg cfg false
  | .storeModBind i => btMeshStoreModBind cfg i
  | .storeModSub i => btMeshStoreModSub cfg i
  | .storeModPub i => btMeshStoreModPub cfg i
  | .storeLabel i => fun s => btMeshStoreLabel cfg (markLabel i s)
  | .storeNode node => btMeshStoreNode cfg node
  | .clearSubnet sub => btMeshClearSubnet cfg sub
  | .clearAppKey key => btMeshClearAppKey cfg key
  | .clearNode node => btMeshClearNode cfg node
  | .clearNet => btMeshClearNet cfg

def keysScheduled (s : Settings) (appKey : Bool) (keyIdx : UInt16) : List Flag :=
  match keyUpdateFind s.keyUpdates appKey keyIdx with
  | (none, none) => []
  | _ => [.keysPending]

def nodesScheduled (s : Settings) (addr : UInt16) : List Flag :=
  match nodeUpdateFind s.nodeUpdates addr with
  | (none, none) => []
  | _ => [.nodesPending]

def MarkCall.scheduled (cfg : Config) : MarkCall → Settings → List Flag
  | .storeNet, _ => [.netPending]
  | .storeIv onlyDuration, _ => if onlyDuration then [.ivPending] else [.ivPending, .seqPending]
  | .storeRole, _ => [.rolePending]
  | .storeSeq, s =>
      if cfg.seqStoreRate ≠ 0 ∧ s.mesh.seq.toNat % cfg.seqStoreRate ≠ 0 then [] else [.seqPending]
  | .storeRpl _, _ => [.rplPending]
  | .storeSubnet sub, s => keysScheduled s false sub.netIdx
  | .storeAppKey key, s => keysScheduled s true key.appIdx
  | .storeHbPub, _ => [.hbPubPending]
  | .storeCfg, _ => [.cfgPending]
  | .storeModBind _, _ => [.modPending]
  | .storeModSub _, _ => [.modPending]
  | .storeModPub _, _ => [.modPending]
  | .storeLabel _, _ => [.vaPending]
  | .storeNode node, s => nodesScheduled s node.addr
  | .clearSubnet sub, s => keysScheduled s false sub.netIdx
  | .clearAppKey key, s => keysScheduled s true key.appIdx
  | .clearNode node, s => nodesScheduled s node.addr
  | .clearNet, _ => [.netPending, .ivPending, .cfgPending]

def MarkCall.wellCalled (s : Settings) : MarkCall → Bool
  | .storeRpl i => (s.mesh.rpl[i]?).all (·.src != 0)
  | _ => true

structure MarksOnly (s s' : Settings) (fs : List Flag) : Prop where
  sameClock : clock s' = clock s
  newMarks : ∀ g, marked s' g = true → marked s g = true ∨ g ∈ fs

theorem MarksOnly.refl (s : Settings) (fs : List Flag) : MarksOnly s s fs :=
  ⟨rfl, fun _ h => .inl h⟩

theorem MarksOnly.of_other {s s' : Settings} {fs : List Flag} (hc : clock s' = clock s)
    (h : ∀ g, g ∉ fs → marked s' g = marked s g) : MarksOnly s s' fs :=
  ⟨hc, fun g hg => by
    by_cases hgf : g ∈ fs
    · exact .inr hgf
    · exact .inl (h g hgf ▸ hg)⟩

theorem keyUpdateSchedule_split (cfg : Config) (appKey clear : Bool) (keyIdx : UInt16)
    (direct : Store → Store) (s : Settings) :
    ∃ s', MarksOnly s s' (keysScheduled s appKey keyIdx) ∧ s'.mesh.rpl = s.mesh.rpl ∧
      keyUpdateSchedule cfg appKey clear keyIdx direct s =
        scheduleAll cfg s' (keysScheduled s appKey keyIdx) := by
  unfold keyUpdateSchedule keysScheduled
  generalize keyUpdateFind s.keyUpdates appKey keyIdx = found
  rcases found with ⟨_ | i, _ | j⟩ <;> refine ⟨_, ?_, ?_, rfl⟩ <;>
    first | rfl | exact .of_other rfl fun g hg => by cases g <;> first | rfl | simp at hg

theorem nodeUpdateSchedule_split (cfg : Config) (clear : Bool) (addr : UInt16)
    (direct : Store → Store) (s : Settings) :
    ∃ s', MarksOnly s s' (nodesScheduled s addr) ∧ s'.mesh.rpl = s.mesh.rpl ∧
      nodeUpdateSchedule cfg clear addr direct s = scheduleAll cfg s' (nodesScheduled s addr) := by
  unfold nodeUpdateSchedule nodesScheduled
  generalize nodeUpdateFind s.nodeUpdates addr = found
  rcases found with ⟨_ | i, _ | j⟩ <;> refine ⟨_, ?_, ?_, rfl⟩ <;>
    first | rfl | exact .of_other rfl fun g hg => by cases g <;> first | rfl | simp at hg

/--
Every marking call is a change to entity markers followed by its
`schedule_store` calls, and a well-called one marks only RPL entries in use.
-/
theorem MarkCall.split (cfg : Config) (c : MarkCall) (s : Settings) :
    ∃ s', MarksOnly s s' (c.scheduled cfg s) ∧ (c.wellCalled s = true → RplUsed s → RplUsed s') ∧
      c.apply cfg s = scheduleAll cfg s' (c.scheduled cfg s) := by
  have same : ∀ fs, ∃ s', MarksOnly s s' fs ∧ (c.wellCalled s = true → RplUsed s → RplUsed s') ∧
      scheduleAll cfg s fs = scheduleAll cfg s' fs := fun fs =>
    ⟨s, .refl s fs, fun _ h => h, rfl⟩
  have viaTable : ∀ {fs : List Flag} {t : Settings},
      (∃ s', MarksOnly s s' fs ∧ s'.mesh.rpl = s.mesh.rpl ∧ t = scheduleAll cfg s' fs) →
        ∃ s', MarksOnly s s' fs ∧ (c.wellCalled s = true → RplUsed s → RplUsed s') ∧
          t = scheduleAll cfg s' fs := fun ⟨s', hm, hrpl, heq⟩ =>
    ⟨s', hm, fun _ h e he => h e (hrpl ▸ he), heq⟩
  cases c with
  | storeNet | storeRole | storeHbPub | storeCfg | clearNet => exact same _
  | storeIv onlyDuration => cases onlyDuration <;> exact same _
  | storeSeq =>
      simp only [MarkCall.apply, btMeshStoreSeq, MarkCall.scheduled]
      split_ifs
      · exact same []
      · exact same _
  | storeRpl i =>
      refine ⟨_, ?_, fun hw h => ?_, rfl⟩
      · exact .of_other rfl fun g hg => by cases g <;> first | rfl | simp [MarkCall.scheduled] at hg
      intro e he hst
      obtain ⟨j, hj, rfl⟩ := List.getElem_of_mem he
      simp only [List.length_modify] at hj
      by_cases hij : i = j
      · subst hij
        simp only [MarkCall.wellCalled, List.getElem?_eq_getElem hj, Option.all_some,
          bne_iff_ne] at hw
        simpa using hw
      · rw [List.getElem_modify_ne _ _ hij] at hst ⊢
        exact h _ (List.getElem_mem _) hst
  | storeSubnet sub =>
      exact viaTable (keyUpdateSchedule_split cfg false false sub.netIdx (storeNetKey · sub) s)
  | storeAppKey key =>
      exact viaTable
        (keyUpdateSchedule_split cfg true false key.appIdx (MeshSettings.storeAppKey · key) s)
  | clearSubnet sub =>
      exact viaTable
        (keyUpdateSchedule_split cfg false true sub.netIdx (clearNetKey · sub.netIdx) s)
  | clearAppKey key =>
      exact viaTable
        (keyUpdateSchedule_split cfg true true key.appIdx (MeshSettings.clearAppKey · key.appIdx) s)
  | storeNode node =>
      exact viaTable (nodeUpdateSchedule_split cfg false node.addr (MeshSettings.storeNode · node) s)
  | clearNode node =>
      exact viaTable
        (nodeUpdateSchedule_split cfg true node.addr (MeshSettings.clearNode · node.addr) s)
  | storeModBind i | storeModSub i | storeModPub i | storeLabel i =>
      refine ⟨_, ?_, ?_, rfl⟩
      · exact .of_other rfl fun g hg => by cases g <;> first | rfl | simp [MarkCall.scheduled] at hg
      · exact fun _ h => h

theorem MarkCall.covered (cfg : Config) (c : MarkCall) {s : Settings} (h : Covered s)
    (hw : c.wellCalled s = true) : Covered (c.apply cfg s) := by
  obtain ⟨s', hm, hrpl, heq⟩ := c.split cfg s
  obtain ⟨hflags, hmarked, hrplEq, hdl⟩ := scheduleAll_facts cfg (c.scheduled cfg s) s'
  have hclock := hm.sameClock
  simp only [clock, Prod.mk.injEq] at hclock
  rw [heq]
  refine ⟨fun f hf => ?_, fun f hf hset => hdl ?_, ?_⟩
  · rw [hmarked] at hf
    rw [hflags, hclock.1]
    rcases hm.newMarks f hf with hf | hf
    · simp [h.bits f hf]
    · simp [hf]
  · by_cases hfs : c.scheduled cfg s = []
    · rw [hflags, hfs, hclock.1] at hset
      simp only [List.not_mem_nil, decide_False, Bool.or_false] at hset
      exact .inr (hclock.2.1 ▸ h.armed f hf hset)
    · exact .inl hfs
  · simp only [RplUsed, hrplEq]
    exact hrpl hw h.rplUsed

/-! ## Deadlines -/

def schedulePromises (cfg : Config) : Settings → List Flag → List Nat
  | _, [] => []
  | s, f :: fs =>
      (s.now + storeTimeoutFor cfg (s.mesh.flags.setTo f true)) ::
        schedulePromises cfg (scheduleStore cfg s f) fs

theorem schedulePromises_clock (cfg : Config) :
    ∀ (fs : List Flag) {s s' : Settings}, clock s' = clock s →
      schedulePromises cfg s' fs = schedulePromises cfg s fs
  | [], _, _, _ => rfl
  | f :: fs, s, s', h => by
      have h' := h
      simp only [clock, Prod.mk.injEq] at h'
      simp only [schedulePromises, h'.1, h'.2.2,
        schedulePromises_clock cfg fs (clock_scheduleStore cfg h f)]

/-- Every promise is kept by the armed deadline. -/
def Promised (s : Settings) (ps : List Nat) : Prop :=
  ∀ p ∈ ps, ∃ d, s.deadline = some d ∧ d ≤ p

def Ahead (s : Settings) : Prop := ∀ d, s.deadline = some d → s.now < d

theorem Promised.of_clock {s s' : Settings} (hc : clock s' = clock s) {ps : List Nat}
    (h : Promised s ps) : Promised s' ps := by
  simp only [clock, Prod.mk.injEq] at hc
  simpa only [Promised, hc.2.1] using h

theorem Ahead.of_clock {s s' : Settings} (hc : clock s' = clock s) (h : Ahead s) : Ahead s' := by
  simp only [clock, Prod.mk.injEq] at hc
  simpa only [Ahead, hc.2.1, hc.2.2] using h

theorem storeTimeoutFor_pos {cfg : Config} (hcfg : 0 < cfg.storeTimeout ∧ 0 < cfg.rplStoreTimeout)
    (f : Flags) : 0 < storeTimeoutFor cfg f := by
  unfold storeTimeoutFor flashFlushTimeout
  split_ifs <;> omega

theorem scheduleStore_promised (cfg : Config) {s : Settings} {ps : List Nat} (h : Promised s ps)
    (ha : Ahead s) (f : Flag) :
    Promised (scheduleStore cfg s f)
      (ps ++ [s.now + storeTimeoutFor cfg (s.mesh.flags.setTo f true)]) := by
  simp only [Promised, Ahead, scheduleStore, rearm, remainingGet, Settings.setFlag] at h ha ⊢
  cases hd : s.deadline with
  | none =>
      simp only [hd] at h
      simp only [ne_eq, not_true_eq_false, false_and, if_false, Option.some.injEq,
        List.mem_append, List.mem_singleton]
      rintro p (hp | rfl)
      · obtain ⟨_, h, _⟩ := h p hp; cases h
      · exact ⟨_, rfl, le_rfl⟩
  | some d =>
      have hlt := ha d hd
      simp only [hd] at h
      simp only [List.mem_append, List.mem_singleton]
      split_ifs with hkeep
      · rintro p (hp | rfl)
        · exact h p hp
        · exact ⟨d, rfl, by omega⟩
      · rintro p (hp | rfl)
        · obtain ⟨_, h, hle⟩ := h p hp
          cases h
          exact ⟨_, rfl, by omega⟩
        · exact ⟨_, rfl, le_rfl⟩

theorem scheduleStore_ahead (cfg : Config) {s : Settings} (ha : Ahead s) {f : Flag}
    (hpos : 0 < storeTimeoutFor cfg (s.mesh.flags.setTo f true)) :
    Ahead (scheduleStore cfg s f) := by
  simp only [Ahead, scheduleStore, rearm, remainingGet, Settings.setFlag] at ha ⊢
  intro d' hd'
  cases hd : s.deadline with
  | none =>
      simp only [hd, ne_eq, not_true_eq_false, false_and, if_false, Option.some.injEq] at hd'
      omega
  | some d =>
      simp only [hd] at hd'
      split_ifs at hd'
      · rw [← Option.some.inj hd']
        exact ha d hd
      · cases hd'
        omega

def PositiveBeforeLast (cfg : Config) : Flags → List Flag → Prop
  | _, [] => True
  | _, [_] => True
  | fl, f :: g :: fs =>
      0 < storeTimeoutFor cfg (fl.setTo f true) ∧ PositiveBeforeLast cfg (fl.setTo f true) (g :: fs)

theorem scheduleAll_promised (cfg : Config) :
    ∀ (fs : List Flag) {s : Settings} {ps : List Nat}, Promised s ps → Ahead s →
      PositiveBeforeLast cfg s.mesh.flags fs →
        Promised (scheduleAll cfg s fs) (ps ++ schedulePromises cfg s fs)
  | [], _, _, h, _, _ => by simpa [scheduleAll, schedulePromises] using h
  | [f], _, _, h, ha, _ => by
      simpa [scheduleAll, schedulePromises] using scheduleStore_promised cfg h ha f
  | f :: g :: fs, _, _, h, ha, ⟨hpos, hrest⟩ => by
      have := scheduleAll_promised cfg (g :: fs) (scheduleStore_promised cfg h ha f)
        (scheduleStore_ahead cfg ha hpos) hrest
      simpa [scheduleAll, schedulePromises] using this

theorem scheduleAll_ahead (cfg : Config) (hcfg : 0 < cfg.storeTimeout ∧ 0 < cfg.rplStoreTimeout) :
    ∀ (fs : List Flag) {s : Settings}, Ahead s → Ahead (scheduleAll cfg s fs)
  | [], _, h => h
  | _ :: fs, _, h =>
      scheduleAll_ahead cfg hcfg fs (scheduleStore_ahead cfg h (storeTimeoutFor_pos hcfg _))

def MarkCall.promises (cfg : Config) (c : MarkCall) (s : Settings) : List Nat :=
  schedulePromises cfg s (c.scheduled cfg s)

theorem MarkCall.positiveBeforeLast (cfg : Config) (c : MarkCall) (s : Settings) (fl : Flags) :
    PositiveBeforeLast cfg fl (c.scheduled cfg s) := by
  have noWait : ∀ (fl : Flags) (f : Flag), f = .netPending ∨ f = .ivPending →
      0 < storeTimeoutFor cfg (fl.setTo f true) := by
    rintro fl f (rfl | rfl) <;> simp [storeTimeoutFor, noWaitPending, flashFlushTimeout]
  cases c
  case storeIv onlyDuration =>
    cases onlyDuration
    · exact ⟨noWait fl _ (.inr rfl), trivial⟩
    · trivial
  case storeSeq => simp only [MarkCall.scheduled]; split_ifs <;> trivial
  case clearNet => exact ⟨noWait fl _ (.inl rfl), noWait _ _ (.inr rfl), trivial⟩
  case storeSubnet | storeAppKey | clearSubnet | clearAppKey =>
    simp only [MarkCall.scheduled, keysScheduled]; split <;> trivial
  case storeNode | clearNode => simp only [MarkCall.scheduled, nodesScheduled]; split <;> trivial
  all_goals trivial

theorem MarkCall.promised (cfg : Config) (c : MarkCall) {s : Settings} {ps : List Nat}
    (h : Promised s ps) (ha : Ahead s) : Promised (c.apply cfg s) (ps ++ c.promises cfg s) := by
  obtain ⟨s', hm, -, heq⟩ := c.split cfg s
  rw [heq, MarkCall.promises, ← schedulePromises_clock cfg _ hm.sameClock]
  exact scheduleAll_promised cfg _ (h.of_clock hm.sameClock) (ha.of_clock hm.sameClock)
    (c.positiveBeforeLast cfg s _)

theorem MarkCall.ahead (cfg : Config) (hcfg : 0 < cfg.storeTimeout ∧ 0 < cfg.rplStoreTimeout)
    (c : MarkCall) {s : Settings} (ha : Ahead s) : Ahead (c.apply cfg s) := by
  obtain ⟨s', hm, -, heq⟩ := c.split cfg s
  rw [heq]
  exact scheduleAll_ahead cfg hcfg _ (ha.of_clock hm.sameClock)

/-! ## Runs -/

inductive TrackerEvent
  | mark (t : Nat) (call : MarkCall)
  | expire

def trackerStep (cfg : Config) (s : Settings) : TrackerEvent → Settings
  | .mark t c => c.apply cfg { s with now := max s.now t }
  | .expire => expire s

def trackerPromises (cfg : Config) (s : Settings) (ps : List Nat) : TrackerEvent → List Nat
  | .mark t c => ps ++ c.promises cfg { s with now := max s.now t }
  | .expire =>
      match s.deadline with
      | some _ => []
      | none => ps

/-- A run, with the times by which the calls since the last flush asked for it. -/
def runTracker (cfg : Config) : Settings × List Nat → List TrackerEvent → Settings × List Nat
  | sp, [] => sp
  | (s, ps), e :: es => runTracker cfg (trackerStep cfg s e, trackerPromises cfg s ps e) es

def RunAll (cfg : Config) (p : Settings → TrackerEvent → Bool) :
    Settings → List TrackerEvent → Prop
  | _, [] => True
  | s, e :: es => p s e = true ∧ RunAll cfg p (trackerStep cfg s e) es

instance RunAll.decidable (cfg : Config) (p : Settings → TrackerEvent → Bool) :
    ∀ s es, Decidable (RunAll cfg p s es)
  | _, [] => isTrue trivial
  | s, e :: es =>
      haveI := RunAll.decidable cfg p (trackerStep cfg s e) es
      inferInstanceAs (Decidable (_ ∧ _))

def TrackerEvent.wellCalled (s : Settings) : TrackerEvent → Bool
  | .mark _ c => c.wellCalled s
  | .expire => true

/-- A mark made before the armed deadline. -/
def TrackerEvent.timely (s : Settings) : TrackerEvent → Bool
  | .mark t _ => s.deadline.all (max s.now t < ·)
  | .expire => true

theorem trackerStep_covered (cfg : Config) {s : Settings} (h : Covered s) (e : TrackerEvent)
    (hw : e.wellCalled s = true) : Covered (trackerStep cfg s e) := by
  cases e with
  | mark t c => exact c.covered cfg ⟨h.bits, h.armed, h.rplUsed⟩ hw
  | expire => exact expire_covered h

theorem TrackerEvent.timely_ahead {s : Settings} {t : Nat} {c : MarkCall}
    (ht : (TrackerEvent.mark t c).timely s = true) : Ahead { s with now := max s.now t } :=
  fun d hd => by
    have hd' : s.deadline = some d := hd
    simpa only [TrackerEvent.timely, hd', Option.all_some, decide_eq_true_eq] using ht

theorem trackerStep_promised (cfg : Config) {s : Settings} {ps : List Nat} (h : Promised s ps)
    (e : TrackerEvent) (ht : e.timely s = true) :
    Promised (trackerStep cfg s e) (trackerPromises cfg s ps e) := by
  cases e with
  | mark t c => exact c.promised cfg h (TrackerEvent.timely_ahead ht)
  | expire =>
      cases hs : s.deadline with
      | none =>
          have hstep : trackerStep cfg s .expire = s := by simp [trackerStep, expire, hs]
          simpa only [hstep, trackerPromises, hs] using h
      | some d =>
          simp only [trackerPromises, hs]
          exact fun _ hp => absurd hp (List.not_mem_nil _)

theorem trackerStep_ahead (cfg : Config) (hcfg : 0 < cfg.storeTimeout ∧ 0 < cfg.rplStoreTimeout)
    {s : Settings} (e : TrackerEvent) (ht : e.timely s = true) : Ahead (trackerStep cfg s e) := by
  cases e with
  | mark t c => exact c.ahead cfg hcfg (TrackerEvent.timely_ahead ht)
  | expire =>
      intro d hd
      rw [show (trackerStep cfg s .expire).deadline = none from expire_deadline s] at hd
      cases hd

theorem runTracker_covered (cfg : Config) :
    ∀ (es : List TrackerEvent) {s : Settings} (ps : List Nat), Covered s →
      RunAll cfg TrackerEvent.wellCalled s es → Covered (runTracker cfg (s, ps) es).1
  | [], _, _, h, _ => h
  | e :: es, _, _, h, ⟨hw, hrest⟩ =>
      runTracker_covered cfg es _ (trackerStep_covered cfg h e hw) hrest

theorem runTracker_promised (cfg : Config) :
    ∀ (es : List TrackerEvent) {s : Settings} {ps : List Nat}, Promised s ps →
      RunAll cfg TrackerEvent.timely s es →
        Promised (runTracker cfg (s, ps) es).1 (runTracker cfg (s, ps) es).2
  | [], _, _, h, _ => h
  | e :: es, _, _, h, ⟨ht, hrest⟩ =>
      runTracker_promised cfg es (trackerStep_promised cfg h e ht) hrest

theorem runTracker_ahead (cfg : Config) (hcfg : 0 < cfg.storeTimeout ∧ 0 < cfg.rplStoreTimeout) :
    ∀ (es : List TrackerEvent) {s : Settings} (ps : List Nat), Ahead s →
      RunAll cfg TrackerEvent.timely s es → Ahead (runTracker cfg (s, ps) es).1
  | [], _, _, h, _ => h
  | e :: es, _, _, _, ⟨ht, hrest⟩ =>
      runTracker_ahead cfg hcfg es _ (trackerStep_ahead cfg hcfg e ht) hrest

def trackerBoot : Settings :=
  Settings.boot { Mesh.empty with rpl := [⟨5, false, false, 0⟩] } (fun _ => none) 2 2

def trackerMarks : List TrackerEvent :=
  [.mark 0 .storeNet, .mark 100 .storeSeq, .mark 200 (.storeRpl 0), .expire, .mark 1000 (.storeLabel 0)]

/-- With a zero timeout the work is armed for the call's own time, not ahead of it. -/
example : (runTracker ⟨0, 0, 16⟩ (trackerBoot, []) [.mark 0 .storeHbPub]).1.deadline = some 0 := by
  decide

end MeshSettings
