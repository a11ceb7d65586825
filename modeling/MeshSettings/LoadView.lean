import MeshSettings.Foundation.Tables
import MeshSettings.RecordKeys

/-!
# What each key owns of the loaded state

Each key of the store owns one part of the state loading builds: a singleton
key some members of `bt_mesh`, an indexed key the table entry for its index, a
model key one member of the model it names, a label key the label at its
index.  `view` sees a load state part by part, with `rest` for what no key
owns.  This is the abstract model of loading: `LoadView.load` replaces the part
a record's key owns by `RecordKey.effect` and leaves every other part alone, so
records with distinct keys commute (`LoadView.load_comm`) and any order of them
gives one view (`LoadView.foldl_perm`).
-/

namespace MeshSettings

/-! ## Slots in use -/

def Rpl.used (e : Rpl) : Bool := e.src != 0

def Subnet.used (sub : Subnet) : Bool := sub.netIdx != keyUnused

def AppKey.used (app : AppKey) : Bool := app.netIdx != keyUnused

def Node.used (node : Node) : Bool := node.addr != addrUnassigned

/-! ## Parts -/

def ModKind.Field : ModKind → Type
  | .bind => List UInt16
  | .sub => List UInt16
  | .pub => Option ModelPub
  | .data => Bool

def ModKind.get : (kind : ModKind) → Model → kind.Field
  | .bind, mod => mod.keys
  | .sub, mod => mod.groups
  | .pub, mod => mod.pub
  | .data, mod => mod.flags.dataPresent

def ModKind.put : (kind : ModKind) → Model → kind.Field → Model
  | .bind, mod, keys => { mod with keys }
  | .sub, mod, groups => { mod with groups }
  | .pub, mod, p => { mod with pub := p }
  | .data, mod, b => { mod with flags := { mod.flags with dataPresent := b } }

def LocVal : Option RecordKey → Type
  | some .net => UInt16 × Bytes16
  | some .iv => UInt32 × Bool × UInt8
  | some .seq => UInt32
  | some .role => Bool × Bool
  | some .hbPub => Option HbPub
  | some .cfg => StoredCfg
  | some (.rpl _) => Option Rpl
  | some (.netKey _) => Option Subnet
  | some (.appKey _) => Option AppKey
  | some (.node _) => Option Node
  | some (.mod _ _ _ kind) => Option kind.Field
  | some (.va _) => Option Label
  | none => LoadState

def Flags.erase (f : Flags) : Flags := fun flag =>
  match flag with
  | .ivuInProgress | .node | .provisioner => false
  | flag => f flag

def Model.skeleton (mod : Model) : Model :=
  { mod with
    keys := mod.keys.map fun _ => 0, groups := mod.groups.map fun _ => 0, pub := none,
    flags := { mod.flags with dataPresent := false } }

def Label.blank : Label := ⟨0, 0, fun _ => 0, false⟩

/-- What no key owns: every owned part cleared, the sizes of the tables kept. -/
def rest (l : LoadState) : LoadState :=
  let mesh := { l.mesh with
    flags := l.mesh.flags.erase, ivIndex := 0, ivuDuration := 0, seq := 0, devKey := fun _ => 0,
    primaryAddr := 0, hbPub := none,
    rpl := List.replicate l.mesh.rpl.length Rpl.empty,
    sub := List.replicate l.mesh.sub.length Subnet.free,
    appKeys := List.replicate l.mesh.appKeys.length AppKey.free,
    nodes := List.replicate l.mesh.nodes.length Node.free,
    models := l.mesh.models.map Model.skeleton,
    labels := List.replicate l.mesh.labels.length Label.blank }
  { l with mesh, storedCfg := ⟨false, ⟨0, 0, 0, 0, 0, 0, 0⟩⟩ }

def LoadView : Type := (k : Option RecordKey) → LocVal k

def view (l : LoadState) : LoadView
  | some .net => (l.mesh.primaryAddr, l.mesh.devKey)
  | some .iv => (l.mesh.ivIndex, l.mesh.flags .ivuInProgress, l.mesh.ivuDuration)
  | some .seq => l.mesh.seq
  | some .role => (l.mesh.flags .node, l.mesh.flags .provisioner)
  | some .hbPub => l.mesh.hbPub
  | some .cfg => l.storedCfg
  | some (.rpl src) => entryFor Rpl.used Rpl.src l.mesh.rpl src
  | some (.netKey netIdx) => entryFor Subnet.used Subnet.netIdx l.mesh.sub netIdx
  | some (.appKey appIdx) => entryFor AppKey.used AppKey.appIdx l.mesh.appKeys appIdx
  | some (.node addr) => entryFor Node.used Node.addr l.mesh.nodes addr
  | some (.mod vnd elemIdx modIdx kind) => (modelGet l.mesh vnd elemIdx modIdx).map (kind.get ·.2)
  | some (.va index) => getLabel l.mesh index.toNat
  | none => rest l

/-! ## What a record does to the part its key owns -/

/-- The abstract effect of loading `value` under `k` on the part `k` owns, given the rest. -/
def RecordKey.effect (rate : Nat) : (k : RecordKey) → Bytes → LoadState → LocVal (some k) → LocVal (some k)
  | .net, value, _, cur =>
      if value.length = 0 then (addrUnassigned, fun _ => 0)
      else if value.length ≠ 18 then cur
      else ((NetVal.decode value).primaryAddr, (NetVal.decode value).devKey)
  | .iv, value, _, cur =>
      if value.length = 0 then ((0 : UInt32), false, (cur : UInt32 × Bool × UInt8).2.2)
      else if value.length ≠ 5 then cur
      else
        let iv := IvVal.decode value
        (iv.ivIndex, iv.ivUpdate, UInt8.ofNat iv.ivDuration.toNat)
  | .seq, value, _, cur =>
      if value.length = 0 then (0 : UInt32)
      else if value.length ≠ 3 then cur
      else UInt32.ofNat (seqRestore rate (SeqVal.decode value).val.toNat)
  | .role, value, _, cur =>
      if value.headD 0 = 1 then (true, (cur : Bool × Bool).2)
      else if value.headD 0 = 2 then ((cur : Bool × Bool).1, true)
      else cur
  | .hbPub, value, _, cur =>
      cur.map fun pub =>
        if value.length = 0 then
          { pub with dst := addrUnassigned, count := 0, ttl := 0, period := 0, feat := 0 }
        else if value.length ≠ 8 then pub
        else
          let v := HbPubVal.decode value
          { pub with
            dst := v.dst, period := v.period, ttl := v.ttl, feat := v.feat,
            netIdx := UInt16.ofNat v.netIdx.toNat, count := if v.indefinite then 0xffff else 0 }
  | .cfg, value, r, cur =>
      match r.mesh.cfg with
      | none => cur
      | some _ =>
          if value.length = 0 then { (cur : StoredCfg) with valid := false }
          else if value.length ≠ 7 then cur
          else ⟨true, CfgVal.decode value⟩
  | .rpl src, value, _, cur =>
      if value.length = 0 then none
      else
        let e := cur.getD Rpl.empty
        if value.length ≠ 4 then some { e with src }
        else
          let v := RplVal.decode value
          some { e with src, seq := UInt32.ofNat v.seq.toNat, oldIv := v.oldIv }
  | .netKey netIdx, value, _, cur =>
      if value.length = 0 then none
      else if value.length ≠ 33 then cur
      else
        let k := NetKeyVal.decode value
        some ⟨netIdx, k.krFlag, UInt8.ofNat k.krPhase.toNat, k.val0, k.val1⟩
  | .appKey appIdx, value, _, cur =>
      if value.length = 0 then none
      else if value.length ≠ 35 then cur
      else
        let k := AppKeyVal.decode value
        some ⟨k.netIdx, appIdx, k.updated, k.val0, k.val1⟩
  | .node addr, value, _, cur =>
      if value.length = 0 then none
      else if value.length ≠ 19 then cur
      else
        let v := NodeVal.decode value
        match cur with
        | some known => some { known with devKey := v.devKey }
        | none => some ⟨addr, v.netIdx, v.devKey, v.numElem⟩
  | .mod vnd elemIdx modIdx kind, value, r, cur =>
      match cur, modelGet r.mesh vnd elemIdx modIdx with
      | some field, some (_, skel) => some (kind.get (kind.load (kind.put skel field) value).1)
      | _, _ => none
  | .va _, value, _, cur =>
      if value.length = 0 ∨ value.length ≠ 20 then cur
      else
        let va := VaVal.decode value
        if va.ref = 0 then cur
        else cur.map fun lab => { lab with uuid := va.uuid, addr := va.addr, ref := va.ref }

def LoadView.load (rate : Nat) (v : LoadView) (r : RecordKey × Bytes) : LoadView :=
  Function.update v (some r.1) (r.1.effect rate r.2 (v none) (v (some r.1)))

theorem LoadView.load_comm (rate : Nat) (v : LoadView) {r s : RecordKey × Bytes} (h : r.1 ≠ s.1) :
    (v.load rate r).load rate s = (v.load rate s).load rate r := by
  have hrs : (some r.1 : Option RecordKey) ≠ some s.1 := by simpa using h
  simp only [LoadView.load, Function.update_noteq (Option.some_ne_none _).symm,
    Function.update_noteq hrs, Function.update_noteq hrs.symm]
  exact Function.update_comm hrs _ _ _

theorem LoadView.foldl_perm (rate : Nat) {rs rs' : List (RecordKey × Bytes)} (hp : rs.Perm rs')
    (hkeys : (rs.map (·.1)).Nodup) (v : LoadView) :
    rs.foldl (LoadView.load rate) v = rs'.foldl (LoadView.load rate) v :=
  hp.foldl_eq' (fun r hr s hs z => by
    by_cases hrs : r = s
    · rw [hrs]
    · exact LoadView.load_comm rate z fun h => hrs (List.inj_on_of_nodup_map hkeys hr hs h)) v

end MeshSettings
