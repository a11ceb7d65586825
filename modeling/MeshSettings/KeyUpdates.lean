import MeshSettings.Save

/-!
# Pending updates of network and application keys

A deleted key's live slot may be reused before the flush, so the pending
writes for keys are tracked by index in `key_updates` rather than in the live
structs.  A store or clear of a key coalesces into the valid entry for that key,
else takes a free entry, else writes the record at once.  `store_pending_keys`
then stores or clears every valid entry's key and frees the entry.

The four entry points differ only in the key kind, the intent and the direct
write, so they share `keyUpdateSchedule`.
-/

namespace MeshSettings

def keyUpdateFind (t : List KeyUpdate) (appKey : Bool) (keyIdx : UInt16) :
    Option Nat × Option Nat :=
  slotFind (fun u => !u.valid) (fun u => u.appKey == appKey && u.keyIdx.toNat == keyIdx.toNat)
    t 0 (none, none)

/--
The body shared by `bt_mesh_store_subnet`, `bt_mesh_store_app_key`,
`bt_mesh_clear_subnet` and `bt_mesh_clear_app_key`: coalesce the intent into
the entry for the key, else record it in a free entry, else write through
`direct` at once.
-/
def keyUpdateSchedule (cfg : Config) (appKey clear : Bool) (keyIdx : UInt16)
    (direct : Store → Store) (s : Settings) : Settings :=
  match keyUpdateFind s.keyUpdates appKey keyIdx with
  | (some i, _) =>
      scheduleStore cfg
        { s with keyUpdates := s.keyUpdates.modify (fun u => { u with clear }) i } .keysPending
  | (none, none) => { s with store := direct s.store }
  | (none, some i) =>
      scheduleStore cfg
        { s with keyUpdates :=
            s.keyUpdates.set i ⟨BitVec.ofNat 12 keyIdx.toNat, true, appKey, clear⟩ }
        .keysPending

def btMeshStoreSubnet (cfg : Config) (sub : Subnet) (s : Settings) : Settings :=
  keyUpdateSchedule cfg false false sub.netIdx (storeNetKey · sub) s

def btMeshStoreAppKey (cfg : Config) (key : AppKey) (s : Settings) : Settings :=
  keyUpdateSchedule cfg true false key.appIdx (storeAppKey · key) s

def btMeshClearSubnet (cfg : Config) (sub : Subnet) (s : Settings) : Settings :=
  keyUpdateSchedule cfg false true sub.netIdx (clearNetKey · sub.netIdx) s

def btMeshClearAppKey (cfg : Config) (key : AppKey) (s : Settings) : Settings :=
  keyUpdateSchedule cfg true true key.appIdx (clearAppKey · key.appIdx) s

def storePendingKey (m : Mesh) (st : Store) (u : KeyUpdate) : Store :=
  let idx := UInt16.ofNat u.keyIdx.toNat
  if !u.valid then st
  else if u.clear then
    if u.appKey then clearAppKey st idx else clearNetKey st idx
  else if u.appKey then
    match appKeyFind m idx with
    | some key => storeAppKey st key
    | none => st
  else
    match subnetGet m idx with
    | some sub => storeNetKey st sub
    | none => st

def storePendingKeys (s : Settings) : Settings :=
  { s with
    store := s.keyUpdates.foldl (storePendingKey s.mesh) s.store
    keyUpdates := s.keyUpdates.map fun u => { u with valid := false } }

/-! ## What a flush writes -/

def keyPath (appKey : Bool) (k : Nat) : Path :=
  indexPath (if appKey then "AppKey" else "NetKey") k

theorem keyPath_inj {a b : Bool} {i j : Nat} (h : keyPath a i = keyPath b j) : a = b ∧ i = j := by
  cases a <;> cases b <;> simp only [keyPath, if_true, if_false, Bool.false_eq_true] at h
  · exact ⟨rfl, indexPath_injective _ h⟩
  · simp [indexPath] at h
  · simp [indexPath] at h
  · exact ⟨rfl, indexPath_injective _ h⟩

def KeyUpdate.path (u : KeyUpdate) : Path := keyPath u.appKey u.keyIdx.toNat

def liveKeyRecord (m : Mesh) (appKey : Bool) (idx : UInt16) : Option Bytes :=
  if appKey then (appKeyFind m idx).map fun key => (appKeyValOf key).encode
  else (subnetGet m idx).map fun sub => (netKeyValOf sub).encode

/-- What flushing a valid entry leaves under its key, given the value there before. -/
def pendingWrite (m : Mesh) (u : KeyUpdate) (old : Option Bytes) : Option Bytes :=
  if u.clear then none else (liveKeyRecord m u.appKey (UInt16.ofNat u.keyIdx.toNat)).or old

/-- The live key records do not depend on the flags `schedule_store` sets. -/
@[simp] theorem pendingWrite_flags (m : Mesh) (f : Flags) (u : KeyUpdate) (old : Option Bytes) :
    pendingWrite { m with flags := f } u old = pendingWrite m u old := rfl

theorem u16_ofNat_bitVec12 (k : BitVec 12) : (UInt16.ofNat k.toNat).toNat = k.toNat := by
  rw [u16_toNat_ofNat, Nat.mod_eq_of_lt (k.isLt.trans (by decide))]

theorem storePendingKey_apply (m : Mesh) (st : Store) (u : KeyUpdate) (p : Path) :
    storePendingKey m st u p =
      if u.valid ∧ u.path = p then pendingWrite m u (st p) else st p := by
  have hidx := u16_ofNat_bitVec12 u.keyIdx
  rcases u with ⟨k, valid, appKey, clear⟩
  cases valid
  · simp [storePendingKey]
  cases clear
  · cases appKey
    · cases hs : subnetGet m (UInt16.ofNat k.toNat) with
      | none => simp [storePendingKey, pendingWrite, liveKeyRecord, hs]
      | some sub =>
          have hsub : sub.netIdx = UInt16.ofNat k.toNat := by
            simpa using List.find?_some hs
          simp [storePendingKey, pendingWrite, liveKeyRecord, hs, storeNetKey,
            settingsSaveOne_apply, KeyUpdate.path, keyPath, hsub, hidx, eq_comm]
    · cases hs : appKeyFind m (UInt16.ofNat k.toNat) with
      | none => simp [storePendingKey, pendingWrite, liveKeyRecord, hs]
      | some key =>
          have hkey : key.appIdx = UInt16.ofNat k.toNat := by
            have := List.find?_some hs
            simp only [decide_eq_true_eq] at this
            exact this.2
          simp [storePendingKey, pendingWrite, liveKeyRecord, hs, storeAppKey,
            settingsSaveOne_apply, KeyUpdate.path, keyPath, hkey, hidx, eq_comm]
  · cases appKey <;>
      simp [storePendingKey, pendingWrite, clearNetKey, clearAppKey, settingsSaveOne_apply,
        KeyUpdate.path, keyPath, hidx, eq_comm]

theorem path_eq_keyPath_iff (u : KeyUpdate) (a : Bool) (n : Nat) :
    u.path = keyPath a n ↔ u.appKey = a ∧ u.keyIdx.toNat = n :=
  ⟨keyPath_inj, fun ⟨ha, hn⟩ => by rw [KeyUpdate.path, ha, hn]⟩

theorem keyUpdateFind_eq (t : List KeyUpdate) (a : Bool) (k : UInt16) :
    keyUpdateFind t a k =
      (lastIndex (fun u => u.valid && u.path == keyPath a k.toNat) t,
        lastIndex (fun u => !u.valid) t) := by
  have hmatch : (fun u : KeyUpdate => u.valid && (u.appKey == a && u.keyIdx.toNat == k.toNat)) =
      fun u => u.valid && u.path == keyPath a k.toNat := by
    funext u
    have := path_eq_keyPath_iff u a k.toNat
    cases h : (u.path == keyPath a k.toNat) <;> simp_all
  simp [keyUpdateFind, slotFind_eq]
  exact congrArg (lastIndex · t) hmatch

end MeshSettings
