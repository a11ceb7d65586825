import MeshSettings.Runtime
import MeshSettings.Foundation.Slots

/-!
# The persistence layer's own state

Besides the live structures it observes, `settings.c` owns the two pending
update tables, the staged configuration `stored_cfg`, and the delayed work
`pending_store` that runs the flush.  Together with the store and the live
state they make up `Settings`, the state every operation of this development
acts on.  `deadline` is the time `pending_store` is armed for, and `now` the
time of the current call, both in milliseconds.  `stack` stands for the stack
contents the store functions build their records on: `store_rpl`,
`store_pending_hb_pub` and `store_pending_mod_pub` leave some bits of their
`*_val` struct unset, and those bits are whatever the stack held, here
`stack` of the key written.  No operation sets it, and every result about a
state holds for every `stack`.

`schedule_store` is defined here, since every dirty mark goes through it.
-/

namespace MeshSettings

/-- The Kconfig values the code reads. -/
structure Config where
  /-- `CONFIG_BT_MESH_STORE_TIMEOUT`, in seconds. -/
  storeTimeout : Nat
  /-- `CONFIG_BT_MESH_RPL_STORE_TIMEOUT`, in seconds. -/
  rplStoreTimeout : Nat
  /-- `CONFIG_BT_MESH_SEQ_STORE_RATE`. -/
  seqStoreRate : Nat

structure KeyUpdate where
  keyIdx : BitVec 12
  valid : Bool
  appKey : Bool
  clear : Bool
  deriving DecidableEq, Repr

structure NodeUpdate where
  addr : UInt16
  clear : Bool
  deriving DecidableEq, Repr

structure StoredCfg where
  valid : Bool
  cfg : CfgVal
  deriving DecidableEq

structure Settings where
  mesh : Mesh
  store : Store
  keyUpdates : List KeyUpdate
  nodeUpdates : List NodeUpdate
  storedCfg : StoredCfg
  deadline : Option Nat
  now : Nat
  stack : Path → Nat

/--
The state before the first call: `key_updates` and `node_updates` are zeroed
static arrays of the given sizes, nothing is staged and no flush is armed.
The stack is taken as zero.
-/
def Settings.boot (m : Mesh) (st : Store) (keySlots nodeSlots : Nat) : Settings where
  mesh := m
  store := st
  keyUpdates := List.replicate keySlots ⟨0, false, false, false⟩
  nodeUpdates := List.replicate nodeSlots ⟨0, false⟩
  storedCfg := ⟨false, ⟨0, 0, 0, 0, 0, 0, 0⟩⟩
  deadline := none
  now := 0
  stack _ := 0

/-! ## `schedule_store` -/

def noWaitPending (f : Flags) : Bool := f .netPending || f .ivPending || f .rolePending

def genericPending (f : Flags) : Bool :=
  f .keysPending || f .hbPubPending || f .cfgPending || f .modPending || f .seqPending ||
    f .nodesPending

def flashFlushTimeout : Nat := 500

/-- The timeout `schedule_store` picks for the bits now pending, in milliseconds. -/
def storeTimeoutFor (cfg : Config) (f : Flags) : Nat :=
  if noWaitPending f then flashFlushTimeout
  else if f .rplPending && (!genericPending f || decide (cfg.rplStoreTimeout < cfg.storeTimeout))
  then cfg.rplStoreTimeout * 1000
  else cfg.storeTimeout * 1000

/-- `k_delayed_work_remaining_get(&pending_store)`; zero when the work is not armed. -/
def remainingGet (s : Settings) : Nat :=
  match s.deadline with
  | some d => d - s.now
  | none => 0

def Settings.setFlag (s : Settings) (flag : Flag) (b : Bool) : Settings :=
  { s with mesh := { s.mesh with flags := s.mesh.flags.setTo flag b } }

/--
The deadline `schedule_store` leaves for a new `timeout`: one that is armed and
less than `timeout` away is kept ("existing earlier deadline"), any other is
replaced by `now + timeout`.
-/
def rearm (s : Settings) (timeout : Nat) : Option Nat :=
  if remainingGet s ≠ 0 ∧ remainingGet s < timeout then s.deadline
  else some (s.now + timeout)

def scheduleStore (cfg : Config) (s : Settings) (flag : Flag) : Settings :=
  let s := s.setFlag flag true
  { s with deadline := rearm s (storeTimeoutFor cfg s.mesh.flags) }

section Frame

variable (cfg : Config) (s : Settings) (flag : Flag)

@[simp] theorem scheduleStore_store : (scheduleStore cfg s flag).store = s.store := rfl

@[simp] theorem scheduleStore_keyUpdates :
    (scheduleStore cfg s flag).keyUpdates = s.keyUpdates := rfl

@[simp] theorem scheduleStore_nodeUpdates :
    (scheduleStore cfg s flag).nodeUpdates = s.nodeUpdates := rfl

@[simp] theorem scheduleStore_now : (scheduleStore cfg s flag).now = s.now := rfl

@[simp] theorem scheduleStore_storedCfg :
    (scheduleStore cfg s flag).storedCfg = s.storedCfg := rfl

@[simp] theorem scheduleStore_mesh :
    (scheduleStore cfg s flag).mesh = { s.mesh with flags := s.mesh.flags.setTo flag true } :=
  rfl

end Frame

end MeshSettings
