import MeshSettings.KeyUpdates

/-!
# Pending key updates refine synchronous writes

The stack stores or clears a key right after it adds, updates or deletes the
live key.  Deferring these writes through `key_updates` must not change what
ends up on flash: after a flush, every `NetKey/<idx>` and `AppKey/<idx>`
record is the one the last intent for that index would have written had it
been performed at once by `store_net_key`, `clear_net_key`, `store_app_key` or
`clear_app_key`.

The invariant `KeysRefine` relates the deferred state to the store the
synchronous writes build: valid entries name distinct keys, and flushing now
would leave exactly that store.  A flush keeps it (`KeysRefine.flush`), and so
does every call, through whichever of its three paths it goes
(`keyUpdateSchedule_refines`).
-/

namespace MeshSettings

inductive KeyCall
  | storeSubnet (sub : Subnet)
  | clearSubnet (sub : Subnet)
  | storeAppKey (key : AppKey)
  | clearAppKey (key : AppKey)

namespace KeyCall

def run (cfg : Config) : KeyCall → Settings → Settings
  | storeSubnet sub => btMeshStoreSubnet cfg sub
  | clearSubnet sub => btMeshClearSubnet cfg sub
  | storeAppKey key => btMeshStoreAppKey cfg key
  | clearAppKey key => btMeshClearAppKey cfg key

def sync : KeyCall → Store → Store
  | storeSubnet sub => (storeNetKey · sub)
  | clearSubnet sub => (clearNetKey · sub.netIdx)
  | storeAppKey key => (MeshSettings.storeAppKey · key)
  | clearAppKey key => (MeshSettings.clearAppKey · key.appIdx)

def appKey : KeyCall → Bool
  | storeSubnet _ | clearSubnet _ => false
  | storeAppKey _ | clearAppKey _ => true

def keyIdx : KeyCall → UInt16
  | storeSubnet sub | clearSubnet sub => sub.netIdx
  | storeAppKey key | clearAppKey key => key.appIdx

def clear : KeyCall → Bool
  | storeSubnet _ | storeAppKey _ => false
  | clearSubnet _ | clearAppKey _ => true

def record : KeyCall → Option Bytes
  | storeSubnet sub => some (netKeyValOf sub).encode
  | clearSubnet _ => none
  | storeAppKey key => some (appKeyValOf key).encode
  | clearAppKey _ => none

theorem run_eq (cfg : Config) (c : KeyCall) :
    c.run cfg = keyUpdateSchedule cfg c.appKey c.clear c.keyIdx c.sync := by
  cases c <;> rfl

theorem sync_apply (c : KeyCall) (st : Store) (p : Path) :
    c.sync st p = if p = keyPath c.appKey c.keyIdx.toNat then c.record else st p := by
  cases c <;> simp [sync, record, appKey, keyIdx, storeNetKey, clearNetKey,
    MeshSettings.storeAppKey, MeshSettings.clearAppKey, settingsSaveOne_apply, keyPath]

theorem record_eq_none_iff (c : KeyCall) : c.record = none ↔ c.clear = true := by
  cases c <;> simp [record, clear]

structure Reports (c : KeyCall) (m m' : Mesh) : Prop where
  fits : c.keyIdx.toNat < 2 ^ 12
  self : liveKeyRecord m' c.appKey c.keyIdx = c.record
  frame : ∀ a k, (a, k) ≠ (c.appKey, c.keyIdx) → liveKeyRecord m' a k = liveKeyRecord m a k

end KeyCall

/-! ## The invariant -/

/--
Valid entries name distinct keys, and flushing now would leave exactly `ss`,
the store synchronous writes have built.
-/
structure KeysRefine (s : Settings) (ss : Store) : Prop where
  unique : KeysUnique KeyUpdate.valid KeyUpdate.path s.keyUpdates
  agree : ∀ p, ss p =
    match entryFor KeyUpdate.valid KeyUpdate.path s.keyUpdates p with
    | some u => pendingWrite s.mesh u (s.store p)
    | none => s.store p

theorem KeysRefine.init (s : Settings) (h : ∀ u ∈ s.keyUpdates, u.valid = false) :
    KeysRefine s s.store where
  unique := keysUnique_of_free h
  agree p := by
    rw [(entryFor_eq_none_iff.mpr fun u hu hv => by simp [h u hu] at hv)]

theorem KeysRefine.flush_store {s : Settings} {ss : Store} (h : KeysRefine s ss) :
    (storePendingKeys s).store = ss :=
  funext fun p => by
    rw [h.agree p]
    show List.foldl (storePendingKey s.mesh) s.store s.keyUpdates p = _
    rw [foldl_apply_of_keysUnique (storePendingKey_apply s.mesh) h.unique s.store p]
    cases entryFor KeyUpdate.valid KeyUpdate.path s.keyUpdates p <;> rfl

theorem KeysRefine.flush {s : Settings} {ss : Store} (h : KeysRefine s ss) :
    KeysRefine (storePendingKeys s) ss := by
  rw [← h.flush_store]
  exact KeysRefine.init _ fun u hu => by
    obtain ⟨v, -, rfl⟩ := List.mem_map.mp hu
    rfl

/-! ## One call -/

section Schedule

variable {a clr : Bool} {k : UInt16} {rec : Option Bytes}

theorem pendingWrite_called {m : Mesh} {u : KeyUpdate} (hu : u.path = keyPath a k.toNat)
    (hself : liveKeyRecord m a k = rec) (hrec : rec = none ↔ u.clear = true)
    (old : Option Bytes) : pendingWrite m u old = rec := by
  obtain ⟨ha, hidx⟩ := (path_eq_keyPath_iff u a k.toNat).mp hu
  have hk : UInt16.ofNat u.keyIdx.toNat = k :=
    UInt16.toNat.inj (by rw [u16_ofNat_bitVec12, hidx])
  cases hc : u.clear
  · obtain ⟨r, rfl⟩ := Option.ne_none_iff_exists'.mp (by simpa [hc] using hrec)
    simp [pendingWrite, hc, ha, hk, hself]
  · simp [pendingWrite, hc, hrec.mpr hc]

theorem pendingWrite_other {m m' : Mesh} {u : KeyUpdate} (hu : u.path ≠ keyPath a k.toNat)
    (hframe : ∀ b j, (b, j) ≠ (a, k) → liveKeyRecord m' b j = liveKeyRecord m b j)
    (old : Option Bytes) : pendingWrite m' u old = pendingWrite m u old := by
  have hne : (u.appKey, UInt16.ofNat u.keyIdx.toNat) ≠ (a, k) := by
    rintro h
    simp only [Prod.mk.injEq] at h
    apply hu
    rw [KeyUpdate.path, h.1, ← h.2, u16_ofNat_bitVec12]
  simp [pendingWrite, hframe _ _ hne]

/--
The shared body of the four entry points keeps the invariant, whether it
coalesces, takes a free entry or writes at once: `direct` is the synchronous
write, storing `rec` under the called key, and the live key now holds `rec`.
-/
theorem keyUpdateSchedule_refines (cfg : Config) {direct : Store → Store}
    (hk : k.toNat < 2 ^ 12)
    (hdirect : ∀ st p, direct st p = if p = keyPath a k.toNat then rec else st p)
    (hrec : rec = none ↔ clr = true) {s : Settings} {ss : Store} (h : KeysRefine s ss)
    (m' : Mesh) (hself : liveKeyRecord m' a k = rec)
    (hframe : ∀ b j, (b, j) ≠ (a, k) → liveKeyRecord m' b j = liveKeyRecord s.mesh b j) :
    KeysRefine (keyUpdateSchedule cfg a clr k direct { s with mesh := m' }) (direct ss) := by
  have hagree := h.agree
  have hother : ∀ p, p ≠ keyPath a k.toNat → ∀ u, entryFor KeyUpdate.valid KeyUpdate.path s.keyUpdates p = some u →
      ∀ old, pendingWrite m' u old = pendingWrite s.mesh u old := fun p hp u hu =>
    pendingWrite_other ((entryFor_some hu).2.2 ▸ hp) hframe
  unfold keyUpdateSchedule
  simp only [keyUpdateFind_eq]
  rcases hf : lastIndex (fun u => u.valid && u.path == keyPath a k.toNat) s.keyUpdates with _ | i
  · have hnone : entryFor KeyUpdate.valid KeyUpdate.path s.keyUpdates (keyPath a k.toNat) = none :=
      entryFor_eq_none_iff.mpr fun u hu hv hp => by
        simpa [hv, hp] using lastIndex_eq_none_iff.mp hf u hu
    rcases hfree : lastIndex (fun u => !u.valid) s.keyUpdates with _ | i
    · -- the table is full: the intent is written at once
      simp only [hf, hfree]
      refine ⟨h.unique, fun p => ?_⟩
      simp only [hdirect]
      by_cases hp : p = keyPath a k.toNat
      · subst hp; simp [hnone]
      · simp only [hp, if_false, hagree p]
        cases he : entryFor KeyUpdate.valid KeyUpdate.path s.keyUpdates p with
        | none => rfl
        | some u => simp [hother p hp u he]
    · -- a free entry records the intent
      simp only [hf, hfree]
      obtain ⟨hi, hinv⟩ := lastIndex_spec hfree
      set x : KeyUpdate := ⟨BitVec.ofNat 12 k.toNat, true, a, clr⟩
      have hx : x.path = keyPath a k.toNat := by
        simp [x, KeyUpdate.path, Nat.mod_eq_of_lt (show k.toNat < 4096 from hk)]
      have hothers : ∀ j (hj : j < s.keyUpdates.length), j ≠ i →
          s.keyUpdates[j].valid = true → s.keyUpdates[j].path ≠ x.path := fun j hj _ hv hp =>
        entryFor_eq_none_iff.mp hnone _ (List.getElem_mem hj) hv (hp.trans hx)
      refine ⟨h.unique.set fun _ => hothers, fun p => ?_⟩
      simp only [scheduleStore_keyUpdates, scheduleStore_store, scheduleStore_mesh, hdirect]
      by_cases hp : p = keyPath a k.toNat
      · subst hp
        rw [← hx, entryFor_set_self hi rfl hothers, hx]
        simp [pendingWrite_called hx hself hrec]
      · rw [entryFor_set_other (hx ▸ Ne.symm hp) fun _ => .inl (by simpa using hinv)]
        simp only [hp, if_false, hagree p]
        cases he : entryFor KeyUpdate.valid KeyUpdate.path s.keyUpdates p with
        | none => rfl
        | some u => simp [hother p hp u he]
  · -- the intent coalesces into the entry for the key
    simp only [hf]
    obtain ⟨hi, hmatch⟩ := lastIndex_spec hf
    simp only [Bool.and_eq_true, beq_iff_eq] at hmatch
    set x : KeyUpdate := { s.keyUpdates[i] with clear := clr }
    have hx : x.path = keyPath a k.toNat := hmatch.2
    have hothers : ∀ j (hj : j < s.keyUpdates.length), j ≠ i →
        s.keyUpdates[j].valid = true → s.keyUpdates[j].path ≠ x.path :=
      h.unique.others hi hmatch.1
    rw [modify_eq_set _ _ hi]
    refine ⟨h.unique.set fun _ => hothers, fun p => ?_⟩
    simp only [scheduleStore_keyUpdates, scheduleStore_store, scheduleStore_mesh, hdirect]
    by_cases hp : p = keyPath a k.toNat
    · subst hp
      rw [← hx, entryFor_set_self (x := x) hi hmatch.1 hothers, hx]
      simp [pendingWrite_called hx hself hrec]
    · rw [entryFor_set_other (hx ▸ Ne.symm hp) fun _ => .inr (hmatch.2 ▸ Ne.symm hp)]
      simp only [hp, if_false, hagree p]
      cases he : entryFor KeyUpdate.valid KeyUpdate.path s.keyUpdates p with
        | none => rfl
        | some u => simp [hother p hp u he]

end Schedule

/-! ## Runs -/

theorem keyUpdateSchedule_mesh (cfg : Config) (a clr : Bool) (k : UInt16) (direct : Store → Store)
    (s : Settings) :
    (keyUpdateSchedule cfg a clr k direct s).mesh.sub = s.mesh.sub ∧
      (keyUpdateSchedule cfg a clr k direct s).mesh.appKeys = s.mesh.appKeys := by
  unfold keyUpdateSchedule
  split <;> exact ⟨rfl, rfl⟩

theorem liveKeyRecord_congr {m m' : Mesh} (hs : m.sub = m'.sub) (ha : m.appKeys = m'.appKeys) :
    liveKeyRecord m = liveKeyRecord m' := by
  funext a k
  simp [liveKeyRecord, subnetGet, appKeyFind, hs, ha]

/-- One event of a run: a call made once the stack's key arrays became `sub` and `appKeys`,
or a run of the flush. -/
inductive KeyEvent
  | call (c : KeyCall) (sub : List Subnet) (appKeys : List AppKey)
  | flush

def runKeys (cfg : Config) : Settings → List KeyEvent → Settings
  | s, [] => s
  | s, .call c sub appKeys :: es =>
      runKeys cfg (c.run cfg { s with mesh := { s.mesh with sub, appKeys } }) es
  | s, .flush :: es => runKeys cfg (storePendingKeys s) es

def runKeysSync : Store → List KeyEvent → Store
  | st, [] => st
  | st, .call c _ _ :: es => runKeysSync (c.sync st) es
  | st, .flush :: es => runKeysSync st es

def LiveReports : Mesh → List KeyEvent → Prop
  | _, [] => True
  | m, .call c sub appKeys :: es =>
      c.Reports m { m with sub, appKeys } ∧ LiveReports { m with sub, appKeys } es
  | m, .flush :: es => LiveReports m es

theorem runKeys_refines (cfg : Config) (es : List KeyEvent) :
    ∀ (s : Settings) (ss : Store) (m : Mesh), KeysRefine s ss → s.mesh.sub = m.sub →
      s.mesh.appKeys = m.appKeys → LiveReports m es →
      KeysRefine (runKeys cfg s es) (runKeysSync ss es) := by
  induction es with
  | nil => exact fun s ss _ h _ _ _ => h
  | cons e es ih =>
      intro s ss m h hs ha hlive
      cases e with
      | flush => exact ih _ _ m h.flush hs ha hlive
      | call c sub appKeys =>
          obtain ⟨hrep, hlive⟩ := hlive
          have hview := liveKeyRecord_congr hs ha
          have hstep := keyUpdateSchedule_refines cfg hrep.fits (c.sync_apply) c.record_eq_none_iff h
            { s.mesh with sub, appKeys } hrep.self fun b j hbj => by
              rw [hview]; exact hrep.frame b j hbj
          rw [← c.run_eq] at hstep
          obtain ⟨hsub, happ⟩ := keyUpdateSchedule_mesh cfg c.appKey c.clear c.keyIdx c.sync
            { s with mesh := { s.mesh with sub, appKeys } }
          rw [← c.run_eq] at hsub happ
          exact ih _ _ { m with sub, appKeys } hstep hsub happ hlive

theorem LiveReports.take {m : Mesh} {es : List KeyEvent} (h : LiveReports m es) (n : Nat) :
    LiveReports m (es.take n) := by
  induction es generalizing m n with
  | nil => simpa using h
  | cons e es ih =>
      cases n with
      | zero => trivial
      | succ n =>
          cases e with
          | flush => exact ih h n
          | call c sub appKeys => exact ⟨h.1, ih h.2 n⟩

def KeysDistinct (t : List KeyUpdate) : Prop :=
  ∀ i j (hi : i < t.length) (hj : j < t.length), i ≠ j → t[i].valid = true →
    t[j].valid = true → (t[i].appKey, t[i].keyIdx) ≠ (t[j].appKey, t[j].keyIdx)

theorem KeysUnique.distinct {t : List KeyUpdate} (h : KeysUnique KeyUpdate.valid KeyUpdate.path t) :
    KeysDistinct t := by
  intro i j hi hj hij hvi hvj heq
  have hpath : t[i].path = t[j].path := by
    simp only [Prod.mk.injEq] at heq
    simp only [KeyUpdate.path, heq.1, heq.2]
  rcases Nat.lt_or_gt_of_ne hij with hlt | hlt
  · exact List.pairwise_iff_getElem.mp h i j hi hj hlt hvi hvj hpath
  · exact List.pairwise_iff_getElem.mp h j i hj hi hlt hvj hvi hpath.symm

/--
Deferring key writes through `key_updates` is unobservable: at every point of a
run the table names each key at most once, and a final flush leaves the store
the synchronous writes would have built.
-/
theorem keyUpdates_refine_sync (cfg : Config) (s : Settings) (es : List KeyEvent)
    (hidle : ∀ u ∈ s.keyUpdates, u.valid = false) (hlive : LiveReports s.mesh es) :
    (∀ n, KeysDistinct (runKeys cfg s (es.take n)).keyUpdates) ∧
      (storePendingKeys (runKeys cfg s es)).store = runKeysSync s.store es := by
  have hrun := fun es (hlive : LiveReports s.mesh es) =>
    runKeys_refines cfg es s s.store s.mesh (KeysRefine.init s hidle) rfl rfl hlive
  exact ⟨fun n => (hrun _ (hlive.take n)).unique.distinct, (hrun es hlive).flush_store⟩

def subnetFive : Subnet := ⟨5, false, 0, fun _ => 0, fun _ => 0⟩

theorem keyUpdates_refine_sync_store_subnet :
    (∀ u ∈ (Settings.boot Mesh.empty (fun _ => none) 2 0).keyUpdates, u.valid = false) ∧
      LiveReports Mesh.empty [.call (.storeSubnet subnetFive) [subnetFive] [], .flush] ∧
      (storePendingKeys (runKeys ⟨2, 1, 8⟩ (Settings.boot Mesh.empty (fun _ => none) 2 0)
        [.call (.storeSubnet subnetFive) [subnetFive] [], .flush])).store =
        runKeysSync (fun _ => none) [.call (.storeSubnet subnetFive) [subnetFive] [], .flush] := by
  have hidle : ∀ u ∈ (Settings.boot Mesh.empty (fun _ => none) 2 0).keyUpdates,
      u.valid = false := by
    simp [Settings.boot, List.mem_replicate]
  have hlive : LiveReports Mesh.empty [.call (.storeSubnet subnetFive) [subnetFive] [], .flush] := by
    refine ⟨⟨by decide, by rfl, fun a k hk => ?_⟩, trivial⟩
    cases a
    · have hk5 : (5 : UInt16) ≠ k := fun h => hk (by rw [← h]; rfl)
      simp [liveKeyRecord, subnetGet, subnetFive, Mesh.empty, hk5]
    · rfl
  exact ⟨hidle, hlive, (keyUpdates_refine_sync ⟨2, 1, 8⟩ _ _ hidle hlive).2⟩

end MeshSettings
