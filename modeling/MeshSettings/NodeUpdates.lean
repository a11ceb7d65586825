import MeshSettings.Save

/-!
# Pending updates of provisioned nodes

A provisioner keeps the nodes it provisioned under `Node/<addr>`.  As for keys,
the writes are deferred through a table, `node_updates`, whose entries are free
while their address is unassigned.  A store or clear of a node coalesces into
the entry for its address, else takes a free entry, else writes at once, and
`store_pending_nodes` stores or clears every assigned entry's node and frees
the entry.

The two entry points share `nodeUpdateSchedule`.  Unlike the callers of
`key_update_find`, they do not write the intent into the free entry they take:
it keeps the `clear` flag its last use left behind.  The table still never
names an address twice (`runNodes_addrs_unique`), but a clear that takes a free
entry is lost (`storePendingNodes_keeps_cleared_node`).
-/

namespace MeshSettings

def NodeUpdate.assigned (u : NodeUpdate) : Bool := u.addr != addrUnassigned

def nodeUpdateFind (t : List NodeUpdate) (addr : UInt16) : Option Nat × Option Nat :=
  slotFind (fun u => u.addr == addrUnassigned) (fun u => u.addr == addr) t 0 (none, none)

/--
The body shared by `bt_mesh_store_node` and `bt_mesh_clear_node`: coalesce the
intent into the entry for the address, else give a free entry the address,
else write through `direct` at once.
-/
def nodeUpdateSchedule (cfg : Config) (clear : Bool) (addr : UInt16) (direct : Store → Store)
    (s : Settings) : Settings :=
  match nodeUpdateFind s.nodeUpdates addr with
  | (some i, _) =>
      scheduleStore cfg
        { s with nodeUpdates := s.nodeUpdates.modify (fun u => { u with clear }) i } .nodesPending
  | (none, none) => { s with store := direct s.store }
  | (none, some i) =>
      scheduleStore cfg
        { s with nodeUpdates := s.nodeUpdates.modify (fun u => { u with addr }) i } .nodesPending

def btMeshStoreNode (cfg : Config) (node : Node) (s : Settings) : Settings :=
  nodeUpdateSchedule cfg false node.addr (storeNode · node) s

def btMeshClearNode (cfg : Config) (node : Node) (s : Settings) : Settings :=
  nodeUpdateSchedule cfg true node.addr (clearNode · node.addr) s

def storePendingNode (m : Mesh) (st : Store) (u : NodeUpdate) : Store :=
  if u.addr = addrUnassigned then st
  else if u.clear then clearNode st u.addr
  else
    match nodeFind m u.addr with
    | some node => storeNode st node
    | none => st

def storePendingNodes (s : Settings) : Settings :=
  { s with
    store := s.nodeUpdates.foldl (storePendingNode s.mesh) s.store
    nodeUpdates := s.nodeUpdates.map fun u => { u with addr := addrUnassigned } }

theorem nodeUpdateFind_eq (t : List NodeUpdate) (addr : UInt16) :
    nodeUpdateFind t addr =
      (lastIndex (fun u => u.assigned && u.addr == addr) t, lastIndex (! ·.assigned) t) := by
  simp [nodeUpdateFind, slotFind_eq, NodeUpdate.assigned, bne]

/-! ## Assigned addresses stay distinct -/

theorem nodeUpdateSchedule_addrs_unique (cfg : Config) (clr : Bool) (addr : UInt16)
    (direct : Store → Store) {s : Settings}
    (h : KeysUnique NodeUpdate.assigned NodeUpdate.addr s.nodeUpdates) :
    KeysUnique NodeUpdate.assigned NodeUpdate.addr
      (nodeUpdateSchedule cfg clr addr direct s).nodeUpdates := by
  unfold nodeUpdateSchedule
  rw [nodeUpdateFind_eq]
  rcases hf : lastIndex (fun u => u.assigned && u.addr == addr) s.nodeUpdates with _ | i
  · rcases hfree : lastIndex (! ·.assigned) s.nodeUpdates with _ | i
    · simpa only [hf, hfree] using h
    · -- a free entry takes the address, which no assigned entry has
      obtain ⟨hi, -⟩ := lastIndex_spec hfree
      simp only [hf, hfree, scheduleStore_nodeUpdates, modify_eq_set _ _ hi]
      exact h.set fun _ j hj _ hv hj' => by
        simpa [hv, hj'] using lastIndex_eq_none_iff.mp hf _ (List.getElem_mem hj)
  · -- the intent coalesces: the entry keeps its address
    obtain ⟨hi, hmatch⟩ := lastIndex_spec hf
    simp only [Bool.and_eq_true] at hmatch
    simp only [hf, scheduleStore_nodeUpdates, modify_eq_set _ _ hi]
    exact h.set fun _ => h.others hi hmatch.1

theorem storePendingNodes_addrs_unique (s : Settings) :
    KeysUnique NodeUpdate.assigned NodeUpdate.addr (storePendingNodes s).nodeUpdates :=
  keysUnique_of_free fun u hu => by
    obtain ⟨v, -, rfl⟩ := List.mem_map.mp hu
    simp [NodeUpdate.assigned]

/-! ## Runs -/

inductive NodeCall
  | store (node : Node)
  | clear (node : Node)

namespace NodeCall

def run (cfg : Config) : NodeCall → Settings → Settings
  | store node => btMeshStoreNode cfg node
  | clear node => btMeshClearNode cfg node

def sync : NodeCall → Store → Store
  | store node => (storeNode · node)
  | clear node => (clearNode · node.addr)

end NodeCall

inductive NodeEvent
  | call (c : NodeCall) (nodes : List Node)
  | flush

def runNodes (cfg : Config) : Settings → List NodeEvent → Settings
  | s, [] => s
  | s, .call c nodes :: es => runNodes cfg (c.run cfg { s with mesh := { s.mesh with nodes } }) es
  | s, .flush :: es => runNodes cfg (storePendingNodes s) es

def runNodesSync : Store → List NodeEvent → Store
  | st, [] => st
  | st, .call c _ :: es => runNodesSync (c.sync st) es
  | st, .flush :: es => runNodesSync st es

/-- On every run, no two assigned entries of `node_updates` name the same address. -/
theorem runNodes_addrs_unique (cfg : Config) (es : List NodeEvent) :
    ∀ s : Settings, KeysUnique NodeUpdate.assigned NodeUpdate.addr s.nodeUpdates →
      KeysUnique NodeUpdate.assigned NodeUpdate.addr (runNodes cfg s es).nodeUpdates := by
  induction es with
  | nil => exact fun _ h => h
  | cons e es ih =>
      intro s h
      cases e with
      | flush => exact ih _ (storePendingNodes_addrs_unique s)
      | call c nodes =>
          cases c <;> exact ih _ (nodeUpdateSchedule_addrs_unique cfg _ _ _ h)

def nodeTwo : Node := ⟨2, 0, fun _ => 0, 1⟩

theorem runNodes_addrs_unique_twoEntries :
    KeysUnique NodeUpdate.assigned NodeUpdate.addr
        (Settings.boot Mesh.empty (fun _ => none) 0 2).nodeUpdates ∧
      KeysUnique NodeUpdate.assigned NodeUpdate.addr
        (runNodes ⟨2, 1, 8⟩ (Settings.boot Mesh.empty (fun _ => none) 0 2)
          [.call (.store nodeTwo) [nodeTwo], .call (.clear nodeTwo) [], .flush]).nodeUpdates :=
  have h : KeysUnique NodeUpdate.assigned NodeUpdate.addr
      (Settings.boot Mesh.empty (fun _ => none) 0 2).nodeUpdates := keysUnique_of_free (by decide)
  ⟨h, runNodes_addrs_unique ⟨2, 1, 8⟩ _ _ h⟩

/--
Node 2 is stored and flushed into a one-entry table, then deleted.  The clear
takes the freed entry without setting its `clear` flag, so the final flush looks
the node up, finds nothing and leaves its record, which the synchronous clear
deletes.
-/
theorem storePendingNodes_keeps_cleared_node :
    (storePendingNodes (runNodes ⟨2, 1, 8⟩ (Settings.boot Mesh.empty (fun _ => none) 0 1)
        [.call (.store nodeTwo) [nodeTwo], .flush, .call (.clear nodeTwo) []])).store
        (indexPath "Node" 2) = some (nodeValOf nodeTwo).encode ∧
      runNodesSync (fun _ => none)
        [.call (.store nodeTwo) [nodeTwo], .flush, .call (.clear nodeTwo) []]
        (indexPath "Node" 2) = none := by
  decide

end MeshSettings
