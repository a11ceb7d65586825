import MeshSettings.RoundTrip

/-!
# The keys of the store

The store side writes records under a fixed set of keys: the singletons
`Net`, `IV`, `Seq`, `Role`, `HBPub` and `Cfg`; `RPL/<src>`, `NetKey/<idx>`,
`AppKey/<idx>`, `Va/<index>` and `Node/<addr>` with the index printed by `%x`;
and `s/<key>/<kind>` or `v/<key>/<kind>` for a model.  `RecordKey` is that key
space as syntax and `RecordKey.path` prints a key as `snprintk` does.  Loading a
record under such a key reaches the handler the key names
(`meshSetBin_path`), which reads the index back, and for a model key selects
the branch its kind names (`modSetBin_modPath`).  The load side's own parse of a
key (the name up to `/`, the index `strtol` reads, the kind `strstr` finds)
gives a model key back (`RecordKey.eq_mod_of_path`).
-/

namespace MeshSettings

inductive ModKind
  | bind | sub | pub | data
  deriving DecidableEq

def ModKind.name : ModKind → String
  | .bind => "bind"
  | .sub => "sub"
  | .pub => "pub"
  | .data => "data"

/-- The keys the store side writes. -/
inductive RecordKey
  | net | iv | seq | role | hbPub | cfg
  | rpl (src : UInt16)
  | netKey (netIdx : UInt16)
  | appKey (appIdx : UInt16)
  | va (index : UInt16)
  | node (addr : UInt16)
  | mod (vnd : Bool) (elemIdx modIdx : UInt8) (kind : ModKind)
  deriving DecidableEq

def modPath (vnd : Bool) (elemIdx modIdx : UInt8) (key : String) : Path :=
  (if vnd then 'v' else 's') :: '/' :: hex (elemIdx.toNat * 256 + modIdx.toNat) ++ '/' :: key.toList

theorem encodeModPath_eq (mod : Model) (vnd : Bool) (key : String) :
    encodeModPath mod vnd key = modPath vnd mod.elemIdx mod.modIdx key := rfl

def RecordKey.path : RecordKey → Path
  | .net => "Net".toList
  | .iv => "IV".toList
  | .seq => "Seq".toList
  | .role => "Role".toList
  | .hbPub => "HBPub".toList
  | .cfg => "Cfg".toList
  | .rpl src => indexPath "RPL" src.toNat
  | .netKey netIdx => indexPath "NetKey" netIdx.toNat
  | .appKey appIdx => indexPath "AppKey" appIdx.toNat
  | .va index => indexPath "Va" index.toNat
  | .node addr => indexPath "Node" addr.toNat
  | .mod vnd elemIdx modIdx kind => modPath vnd elemIdx modIdx kind.name

def RecordKey.handler (rate : Nat) : RecordKey → Handler
  | .net => netSetBin
  | .iv => ivSetBin
  | .seq => seqSetBin rate
  | .role => roleSetBin
  | .hbPub => hbPubSetBin
  | .cfg => cfgSetBin
  | .rpl _ => rplSetBin
  | .netKey _ => netKeySetBin
  | .appKey _ => appKeySetBin
  | .va _ => vaSetBin
  | .node _ => nodeSetBin
  | .mod vnd _ _ _ => modSetBin vnd

theorem meshSetBin_path (cfg : Config) (k : RecordKey) (value : Bytes) (l : LoadState) :
    meshSetBin cfg k.path value l = k.handler cfg.seqStoreRate k.path value l := by
  cases k with
  | rpl src => exact meshSetBin_indexPath cfg "RPL" rplSetBin _ _ l (by decide) rfl
  | netKey idx => exact meshSetBin_indexPath cfg "NetKey" netKeySetBin _ _ l (by decide) rfl
  | appKey idx => exact meshSetBin_indexPath cfg "AppKey" appKeySetBin _ _ l (by decide) rfl
  | va index => exact meshSetBin_indexPath cfg "Va" vaSetBin _ _ l (by decide) rfl
  | node addr => exact meshSetBin_indexPath cfg "Node" nodeSetBin _ _ l (by decide) rfl
  | mod vnd elemIdx modIdx kind => cases vnd <;> rfl
  | _ => rfl

/-! ## Model keys -/

/-- A character of each kind's name that no other kind's name, no `/` and no hex digit has. -/
def ModKind.mark : ModKind → Char
  | .bind => 'i'
  | .sub => 's'
  | .pub => 'p'
  | .data => 't'

theorem ModKind.mark_facts : ∀ kind needle : ModKind,
    needle.mark ∈ needle.name.toList ∧ needle.mark ≠ '/' ∧
      (∀ d < 16, Nat.digitChar d ≠ needle.mark) ∧ (kind ≠ needle → needle.mark ∉ kind.name.toList) := by
  intro kind needle
  cases kind <;> cases needle <;> decide

theorem strstr_modPath (vnd : Bool) (elemIdx modIdx : UInt8) (kind needle : ModKind) :
    strstr (modPath vnd elemIdx modIdx kind.name) needle.name.toList = decide (kind = needle) := by
  by_cases h : kind = needle
  · subst h
    have hne : kind.name.toList ≠ [] := by cases kind <;> decide
    have happ := strstr_append_self
      ((if vnd then 'v' else 's') :: '/' :: hex (elemIdx.toNat * 256 + modIdx.toNat) ++ ['/']) hne
    simp only [List.append_assoc, List.cons_append, List.singleton_append] at happ
    rw [decide_eq_true rfl]
    exact happ
  · obtain ⟨hmem, hslash, hdigit, hother⟩ := ModKind.mark_facts kind needle
    have htail : needle.mark ∉
        '/' :: (hex (elemIdx.toNat * 256 + modIdx.toNat) ++ '/' :: kind.name.toList) := by
      simp only [List.mem_cons, List.mem_append, not_or]
      refine ⟨hslash, fun hc => ?_, hslash, hother h⟩
      obtain ⟨d, hd, heq⟩ := mem_hex hc
      exact hdigit d hd heq.symm
    rw [show modPath vnd elemIdx modIdx kind.name = (if vnd then 'v' else 's') ::
      ('/' :: (hex (elemIdx.toNat * 256 + modIdx.toNat) ++ '/' :: kind.name.toList)) from rfl,
      strstr, strstr_eq_false hmem htail, decide_eq_false h]
    cases vnd <;> cases needle <;> rfl

def ModKind.load : ModKind → Model → Bytes → Model × Bytes × Int
  | .bind, mod, value => modSetBindBin mod value
  | .sub, mod, value => modSetSubBin mod value
  | .pub, mod, value => ((modSetPubBin mod value).1, [], (modSetPubBin mod value).2)
  | .data, mod, value =>
      let mod := { mod with flags := { mod.flags with dataPresent := true } }
      if mod.hasSettingsSet then (mod, if value.length < modDataSize then [] else [0], 0)
      else (mod, [], eNoent)

/-- `assert(value_len <= sizeof(mod_data))` fails: a data record too long for `mod_data`, for
a model with a `settings_set` callback. -/
def ModKind.aborts : ModKind → Model → Bytes → Bool
  | .data, mod, value => mod.hasSettingsSet && decide (modDataSize < value.length)
  | _, _, _ => false

theorem modSetBin_modPath (vnd : Bool) (elemIdx modIdx : UInt8) (kind : ModKind) (value : Bytes)
    (l : LoadState) :
    modSetBin vnd (modPath vnd elemIdx modIdx kind.name) value l =
      match modelGet l.mesh vnd elemIdx modIdx with
      | none => (l, eNoent)
      | some (i, mod) =>
          let (mod', past, err) := kind.load mod value
          let mesh := { l.mesh with models := l.mesh.models.set i mod' }
          if kind.aborts mod value then ({ l with mesh, aborted := true }, 0)
          else ({ l with mesh, outside := l.outside ++ past }, err) := by
  obtain ⟨hel, hmi⟩ := keyIndex_encodeModPath ⟨vnd, elemIdx, modIdx, [], [], none,
    ⟨false, false, false, false⟩, false⟩ vnd kind.name
  rw [← encodeModPath_eq ⟨vnd, elemIdx, modIdx, [], [], none, ⟨false, false, false, false⟩, false⟩]
  simp only [modSetBin, hel, hmi]
  rcases modelGet l.mesh vnd elemIdx modIdx with _ | ⟨i, mod⟩
  · rfl
  · have hs := strstr_modPath vnd elemIdx modIdx kind
    rw [← encodeModPath_eq ⟨vnd, elemIdx, modIdx, [], [], none,
      ⟨false, false, false, false⟩, false⟩] at hs
    simp only [show "bind".toList = ModKind.bind.name.toList from rfl,
      show "sub".toList = ModKind.sub.name.toList from rfl,
      show "pub".toList = ModKind.pub.name.toList from rfl,
      show "data".toList = ModKind.data.name.toList from rfl, hs]
    cases kind
    case data =>
      cases h : mod.hasSettingsSet
      · simp [ModKind.load, ModKind.aborts, h]
      · by_cases hlen : modDataSize < value.length <;> simp [ModKind.load, ModKind.aborts, h, hlen]
    all_goals simp [ModKind.load, ModKind.aborts]

/-! ## Every key is read back -/

/-- The part of a key up to its first `/`: the name `mesh_set_bin` looks up in `settings[]`. -/
def RecordKey.name : RecordKey → List Char
  | .net => "Net".toList
  | .iv => "IV".toList
  | .seq => "Seq".toList
  | .role => "Role".toList
  | .hbPub => "HBPub".toList
  | .cfg => "Cfg".toList
  | .rpl _ => "RPL".toList
  | .netKey _ => "NetKey".toList
  | .appKey _ => "AppKey".toList
  | .va _ => "Va".toList
  | .node _ => "Node".toList
  | .mod vnd _ _ _ => [if vnd then 'v' else 's']

theorem RecordKey.takeWhile_path (k : RecordKey) : k.path.takeWhile (· ≠ '/') = k.name := by
  cases k with
  | mod vnd _ _ _ => cases vnd <;> rfl
  | rpl _ | netKey _ | appKey _ | va _ | node _ => exact takeWhile_append_slash _ (by decide)
  | _ => rfl

theorem keyIndex_modPath (vnd : Bool) (elemIdx modIdx : UInt8) (key : String) :
    UInt8.ofNat ((keyIndex (modPath vnd elemIdx modIdx key) 2).toNat / 256) = elemIdx ∧
      UInt8.ofNat (keyIndex (modPath vnd elemIdx modIdx key) 2).toNat = modIdx :=
  keyIndex_encodeModPath ⟨vnd, elemIdx, modIdx, [], [], none, ⟨false, false, false, false⟩, false⟩
    vnd key

theorem modPath_injective {vnd : Bool} {e e' m m' : UInt8} {kind kind' : ModKind}
    (h : modPath vnd e m kind.name = modPath vnd e' m' kind'.name) :
    e = e' ∧ m = m' ∧ kind = kind' := by
  obtain ⟨he, hm⟩ := keyIndex_modPath vnd e m kind.name
  obtain ⟨he', hm'⟩ := keyIndex_modPath vnd e' m' kind'.name
  have hk := strstr_modPath vnd e m kind kind
  have hk' := strstr_modPath vnd e' m' kind' kind
  rw [h] at he hm hk
  rw [hk, decide_eq_true rfl, eq_comm, decide_eq_true_iff] at hk'
  exact ⟨he.symm.trans he', hm.symm.trans hm', hk'.symm⟩

theorem modKey_path_inj {vnd vnd' : Bool} {e e' m m' : UInt8} {kind kind' : ModKind}
    (h : (RecordKey.mod vnd e m kind).path = (RecordKey.mod vnd' e' m' kind').path) :
    vnd = vnd' ∧ e = e' ∧ m = m' ∧ kind = kind' := by
  have hname := congrArg (List.takeWhile (· ≠ '/')) h
  rw [RecordKey.takeWhile_path, RecordKey.takeWhile_path] at hname
  obtain rfl : vnd = vnd' := by
    cases vnd <;> cases vnd' <;> first | rfl | simp [RecordKey.name] at hname
  obtain ⟨rfl, rfl, rfl⟩ := modPath_injective h
  exact ⟨rfl, rfl, rfl, rfl⟩

theorem RecordKey.eq_mod_of_path {k : RecordKey} {vnd : Bool} {e m : UInt8} {kind : ModKind}
    (h : k.path = (RecordKey.mod vnd e m kind).path) : k = .mod vnd e m kind := by
  have hname : k.name = (RecordKey.mod vnd e m kind).name := by
    rw [← k.takeWhile_path, ← RecordKey.takeWhile_path, h]
  cases k
  case mod =>
    obtain ⟨rfl, rfl, rfl, rfl⟩ := modKey_path_inj h
    rfl
  all_goals cases vnd <;> simp [RecordKey.name] at hname

end MeshSettings
