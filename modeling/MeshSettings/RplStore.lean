import MeshSettings.Footprint
import MeshSettings.LoadView

/-!
# The replay list and its records

The replay protection list is persisted one record `RPL/<src>` per entry in
use.  A caller that accepts a message writes the entry for its source (a newer
sequence number in the source's own slot, or a free slot taking a source no
slot has) and calls `bt_mesh_store_rpl`, which marks the entry; `store_pending`
writes every marked entry when the state is valid and otherwise deletes every
record with `clear_rpl`, as `bt_mesh_clear_rpl` does at once.

`RplSynced` says that sources are unique, that marks sit on entries in use under
the RPL bit, and that every entry in use without a mark has its record.  Every
accepted message, every flush and every clear keeps it (`rplStep_synced`), and
after a final flush no entry is marked, so every entry in use has its record
(`storePending_rplSynced`).  The stages of `store_pending` other than the RPL
one write under other names and leave the table alone (`laterStages_rplFrame`).
-/

namespace MeshSettings

/-! ## The other stages -/

def RplNamed (p : Path) : Prop := pathName p = "RPL".toList

theorem rplNamed_indexPath (n : Nat) : RplNamed (indexPath "RPL" n) :=
  pathName_indexPath _ _ (by decide)

def RplFrame (write : Settings → Settings) : Prop :=
  ∀ s, (write s).mesh.rpl = s.mesh.rpl ∧ ∀ q, RplNamed q → (write s).store q = s.store q

theorem rplFrame_runStages (stages : List (Flag × (Settings → Settings)))
    (h : ∀ st ∈ stages, RplFrame st.2) : RplFrame (runStages stages) :=
  runStages_frame
    (R := fun s s' => s'.mesh.rpl = s.mesh.rpl ∧ ∀ q, RplNamed q → s'.store q = s.store q)
    (fun _ => ⟨rfl, fun _ _ => rfl⟩)
    (fun h1 h2 => ⟨h2.1.trans h1.1, fun q hq => (h2.2 q hq).trans (h1.2 q hq)⟩)
    (fun _ _ => ⟨rfl, fun _ _ => rfl⟩) stages h

theorem laterStages_rplFrame : ∀ st ∈ pendingStages.tail, RplFrame st.2 := by
  intro st hst
  have hw := pendingStages_writesUnder st (List.mem_of_mem_tail hst)
  simp only [pendingStages, List.tail, List.mem_cons, List.mem_singleton, List.not_mem_nil,
    or_false] at hst
  rcases hst with rfl | rfl | rfl | rfl | rfl | rfl | rfl | rfl | rfl | rfl <;>
    exact fun s => ⟨rfl, fun q hq => hw s q (by rw [hq]; decide)⟩

/-! ## The invariant -/

/--
A record as `store_rpl` writes it for an entry: the entry's sequence number and
IV flag, over whatever unnamed bits the stack held.
-/
def RplRecord (e : Rpl) (v : Option Bytes) : Prop := ∃ pad, v = some (rplValOf e pad).encode

/--
The replay list agrees with its records: sources are unique, a mark sits only
on an entry in use, and an entry in use without a mark has its record.
-/
structure RplAgrees (s : Settings) : Prop where
  unique : KeysUnique Rpl.used Rpl.src s.mesh.rpl
  marksUsed : ∀ e ∈ s.mesh.rpl, e.store = true → e.src ≠ 0
  stored : ∀ e ∈ s.mesh.rpl, e.src ≠ 0 → e.store = false →
    RplRecord e (s.store (indexPath "RPL" e.src.toNat))

structure RplSynced (s : Settings) extends RplAgrees s : Prop where
  bit : ∀ e ∈ s.mesh.rpl, e.store = true → s.mesh.flags .rplPending = true

def btMeshClearRpl (s : Settings) : Settings := clearRpl s

theorem clearRpl_empty {s : Settings} (h : ∀ e ∈ s.mesh.rpl, e.store = true → e.src ≠ 0) :
    ∀ e ∈ (clearRpl s).mesh.rpl, e.src = 0 ∧ e.store = false := by
  simp only [clearRpl, List.mem_map]
  rintro _ ⟨e, he, rfl⟩
  by_cases hsrc : e.src ≠ 0
  · simp [hsrc, Rpl.empty]
  · rw [if_neg hsrc]
    exact ⟨not_not.mp hsrc, Bool.eq_false_iff.mpr fun hst => hsrc (h e he hst)⟩

theorem RplSynced.of_clean {s : Settings} (hu : KeysUnique Rpl.used Rpl.src s.mesh.rpl)
    (hc : ∀ e ∈ s.mesh.rpl, e.store = false)
    (hst : ∀ e ∈ s.mesh.rpl, e.src ≠ 0 → RplRecord e (s.store (indexPath "RPL" e.src.toNat))) :
    RplSynced s :=
  ⟨⟨hu, fun e he h => by simp [hc e he] at h, fun e he hsrc _ => hst e he hsrc⟩,
    fun e he h => by simp [hc e he] at h⟩

theorem RplSynced.of_empty {s : Settings}
    (h : ∀ e ∈ s.mesh.rpl, e.src = 0 ∧ e.store = false) : RplSynced s :=
  .of_clean (keysUnique_of_free fun e he => by simp [Rpl.used, (h e he).1])
    (fun e he => (h e he).2) fun e he hsrc => absurd (h e he).1 hsrc

theorem clearRpl_synced {s : Settings} (h : RplAgrees s) : RplSynced (clearRpl s) :=
  .of_empty (clearRpl_empty h.marksUsed)

def Rpl.path (e : Rpl) : Path := indexPath "RPL" e.src.toNat

theorem Rpl.path_inj {e e' : Rpl} (h : e.path = e'.path) : e.src = e'.src :=
  UInt16.toNat.inj (indexPath_injective _ h)

theorem RplAgrees.marks_unique {s : Settings} (h : RplAgrees s) :
    KeysUnique (·.store) Rpl.path s.mesh.rpl :=
  List.Pairwise.imp_of_mem (fun {e e'} he he' hne hst hst' hp => hne
    (by simpa [Rpl.used] using h.marksUsed e he hst)
    (by simpa [Rpl.used] using h.marksUsed e' he' hst')
    (Rpl.path_inj hp)) h.unique

theorem storeRpl_apply (stack : Path → Nat) (st : Store) (e : Rpl) (p : Path) :
    (if e.store then storeRpl stack st e else st) p =
      if e.store = true ∧ e.path = p then some (rplValOf e (stack e.path)).encode else st p := by
  by_cases hst : e.store = true
  · unfold Rpl.path
    have hlen : ¬(rplValOf e (stack (indexPath "RPL" e.src.toNat))).encode.length = 0 := by simp
    dsimp only [storeRpl]
    rw [if_pos hst, settingsSaveOne_apply, if_neg hlen]
    simp only [hst, true_and, eq_comm]
  · simp [hst]

theorem storePendingRpl_synced {s : Settings} (h : RplAgrees s) :
    RplSynced (storePendingRpl s) ∧ ∀ e ∈ (storePendingRpl s).mesh.rpl, e.store = false := by
  have hfold : ∀ p, (storePendingRpl s).store p = _ := fun p =>
    foldl_apply_of_keysUnique (w := fun u _ => some (rplValOf u (s.stack u.path)).encode)
      (storeRpl_apply s.stack)
      h.marks_unique s.store p
  have hclean : ∀ e ∈ (storePendingRpl s).mesh.rpl, e.store = false := by simp [storePendingRpl]
  refine ⟨.of_clean (List.Pairwise.map _ (fun _ _ => id) h.unique) hclean ?_, hclean⟩
  simp only [storePendingRpl, List.mem_map]
  rintro _ ⟨e, he, rfl⟩ hsrc
  show RplRecord _ ((storePendingRpl s).store e.path)
  rw [hfold]
  cases hst : e.store
  · have hnone : entryFor (·.store) Rpl.path s.mesh.rpl e.path = none :=
      entryFor_eq_none_iff.mpr fun u hu hust hp => by
        have heq : u = e := h.unique.eq_of_key_eq hu he
          (by simpa [Rpl.used] using h.marksUsed u hu hust) (by simpa [Rpl.used] using hsrc)
          (Rpl.path_inj hp)
        rw [heq, hst] at hust
        cases hust
    rw [hnone]
    exact h.stored e he hsrc hst
  · rw [(entryFor_eq_some_iff h.marks_unique).mpr ⟨he, hst, rfl⟩]
    exact ⟨_, rfl⟩

/-! ## Runs -/

/--
A caller's change to slot `i` before it calls `bt_mesh_store_rpl` on it: the
source, sequence number and IV flag of the message it accepted.
-/
def rplAccept (i : Nat) (src : UInt16) (seq : UInt32) (oldIv : Bool) (s : Settings) : Settings :=
  { s with
    mesh := { s.mesh with rpl := s.mesh.rpl.modify (fun e => { e with src, seq, oldIv }) i } }

inductive RplEvent
  | accept (i : Nat) (src : UInt16) (seq : UInt32) (oldIv : Bool)
  | flush
  | clear

def rplStep (cfg : Config) (s : Settings) : RplEvent → Settings
  | .accept i src seq oldIv => btMeshStoreRpl cfg i (rplAccept i src seq oldIv s)
  | .flush => storePending s
  | .clear => btMeshClearRpl s

def runRpl (cfg : Config) : Settings → List RplEvent → Settings
  | s, [] => s
  | s, e :: es => runRpl cfg (rplStep cfg s e) es

/--
How callers use a slot: a slot keeps its own source, or a free slot takes a
source that no slot has.
-/
def RplEvent.allowed (s : Settings) : RplEvent → Bool
  | .accept i src _ _ =>
      src != 0 &&
        match s.mesh.rpl[i]? with
        | some e => e.src == src || (e.src == 0 && !s.mesh.rpl.any (·.src == src))
        | none => false
  | _ => true

def RplAllowed (cfg : Config) : Settings → List RplEvent → Prop
  | _, [] => True
  | s, e :: es => e.allowed s = true ∧ RplAllowed cfg (rplStep cfg s e) es

instance RplAllowed.decidable (cfg : Config) : ∀ s es, Decidable (RplAllowed cfg s es)
  | _, [] => isTrue trivial
  | s, e :: es =>
      haveI := RplAllowed.decidable cfg (rplStep cfg s e) es
      inferInstanceAs (Decidable (_ ∧ _))

theorem accept_synced (cfg : Config) {s : Settings} (h : RplSynced s) {i : Nat} {src : UInt16}
    {seq : UInt32} {oldIv : Bool} (ha : (RplEvent.accept i src seq oldIv).allowed s = true) :
    RplSynced (rplStep cfg s (.accept i src seq oldIv)) := by
  simp only [RplEvent.allowed, Bool.and_eq_true, bne_iff_ne] at ha
  obtain ⟨hsrc, hslot⟩ := ha
  have hi : i < s.mesh.rpl.length := by
    by_contra hi
    rw [List.getElem?_eq_none (by omega)] at hslot
    cases hslot
  rw [List.getElem?_eq_getElem hi] at hslot
  simp only [Bool.or_eq_true, beq_iff_eq, Bool.and_eq_true, Bool.not_eq_true', List.any_eq_false,
    beq_iff_eq] at hslot
  set e' : Rpl := { s.mesh.rpl[i] with src, seq, oldIv, store := true } with he'
  have htable : (rplStep cfg s (.accept i src seq oldIv)).mesh.rpl = s.mesh.rpl.set i e' := by
    simp only [rplStep, btMeshStoreRpl, rplAccept, scheduleStore_mesh, List.modify_modify_eq]
    exact modify_eq_set _ _ hi
  have hflag : (rplStep cfg s (.accept i src seq oldIv)).mesh.flags .rplPending = true := by
    simp [rplStep, btMeshStoreRpl]
  have hstore : (rplStep cfg s (.accept i src seq oldIv)).store = s.store := rfl
  have hothers : ∀ j (hj : j < s.mesh.rpl.length), j ≠ i → Rpl.used s.mesh.rpl[j] = true →
      s.mesh.rpl[j].src ≠ src := fun j hj hji hu hjs => by
    rcases hslot with hown | ⟨-, hnew⟩
    · exact h.unique.others hi (by simp [Rpl.used, hown, hsrc]) j hj hji hu (hjs.trans hown.symm)
    · exact hnew _ (List.getElem_mem _) hjs
  refine ⟨⟨?_, ?_, ?_⟩, fun _ _ _ => hflag⟩
  · rw [htable]
    exact h.unique.set fun _ => hothers
  · rw [htable]
    intro e he hst
    rcases List.mem_or_eq_of_mem_set he with hold | rfl
    · exact h.marksUsed e hold hst
    · exact hsrc
  · rw [htable, hstore]
    intro e he hsrc' hst
    rcases List.mem_or_eq_of_mem_set he with hold | rfl
    · exact h.stored e hold hsrc' hst
    · cases hst

theorem rplStage_synced {s : Settings} (h : RplSynced s) :
    RplSynced (pendingStage .rplPending
      (fun s => if s.mesh.flags .valid then storePendingRpl s else clearRpl s) s) ∧
    ∀ e ∈ (pendingStage .rplPending
      (fun s => if s.mesh.flags .valid then storePendingRpl s else clearRpl s) s).mesh.rpl,
      e.store = false := by
  unfold pendingStage
  split
  · have h1 : RplAgrees (s.setFlag .rplPending false) := ⟨h.unique, h.marksUsed, h.stored⟩
    beta_reduce
    split
    · exact storePendingRpl_synced h1
    · exact ⟨clearRpl_synced h1, fun e he => (clearRpl_empty h1.marksUsed e he).2⟩
  · rename_i hbit
    exact ⟨h, fun e he => Bool.eq_false_iff.mpr fun hst => hbit (h.bit e he hst)⟩

theorem RplFrame.keeps_clean {w : Settings → Settings} (hw : RplFrame w) {s : Settings}
    (h : RplSynced s) (hc : ∀ e ∈ s.mesh.rpl, e.store = false) :
    RplSynced (w s) ∧ ∀ e ∈ (w s).mesh.rpl, e.store = false := by
  obtain ⟨htab, hrec⟩ := hw s
  have hc' : ∀ e ∈ (w s).mesh.rpl, e.store = false := fun e he => hc e (htab ▸ he)
  refine ⟨.of_clean (htab ▸ h.unique) hc' fun e he hsrc => ?_, hc'⟩
  rw [hrec _ (rplNamed_indexPath _)]
  exact h.stored e (htab ▸ he) hsrc (hc' e he)

theorem storePending_eq (s : Settings) :
    storePending s = runStages pendingStages.tail (pendingStage .rplPending
      (fun s => if s.mesh.flags .valid then storePendingRpl s else clearRpl s)
      { s with deadline := none }) := rfl

/-- A flush writes the marked entries and leaves none marked. -/
theorem storePending_rplSynced {s : Settings} (h : RplSynced s) :
    RplSynced (storePending s) ∧ ∀ e ∈ (storePending s).mesh.rpl, e.store = false := by
  have h0 : RplSynced { s with deadline := none } :=
    ⟨⟨h.unique, h.marksUsed, h.stored⟩, h.bit⟩
  rw [storePending_eq]
  exact (rplFrame_runStages _ laterStages_rplFrame).keeps_clean (rplStage_synced h0).1
    (rplStage_synced h0).2

theorem rplStep_synced (cfg : Config) {s : Settings} (h : RplSynced s) (ev : RplEvent)
    (ha : ev.allowed s = true) : RplSynced (rplStep cfg s ev) := by
  cases ev with
  | accept i src seq oldIv => exact accept_synced cfg h ha
  | flush => exact (storePending_rplSynced h).1
  | clear => exact clearRpl_synced h.toRplAgrees

theorem runRpl_synced (cfg : Config) :
    ∀ (es : List RplEvent) {s : Settings}, RplSynced s → RplAllowed cfg s es →
      RplSynced (runRpl cfg s es)
  | [], _, h, _ => h
  | e :: es, _, h, ⟨ha, hrest⟩ => runRpl_synced cfg es (rplStep_synced cfg h e ha) hrest

/--
Over every run of accepted messages, flushes and clears that uses the slots as
callers do, from a state whose replay list agrees with its records, every entry
in use without a mark keeps its record at every state; after a final
`store_pending` every entry in use has its record `RPL/<src>`, holding its
sequence number (24 bits) and IV flag over unnamed bits of any value.
-/
theorem rpl_records_follow_live (cfg : Config) {s : Settings} (h : RplSynced s)
    (es : List RplEvent) (hes : RplAllowed cfg s es) :
    RplSynced (runRpl cfg s es) ∧
      ∀ e ∈ (storePending (runRpl cfg s es)).mesh.rpl, e.src ≠ 0 →
        ∃ pad, (storePending (runRpl cfg s es)).store (indexPath "RPL" e.src.toNat) =
          some (rplValOf e pad).encode := by
  have hrun := runRpl_synced cfg es h hes
  obtain ⟨hflush, hclean⟩ := storePending_rplSynced hrun
  exact ⟨hrun, fun e he hsrc => hflush.stored e he hsrc (hclean e he)⟩

def twoFreeRpl : Settings :=
  Settings.boot { Mesh.empty with rpl := [Rpl.empty, Rpl.empty] } (fun _ => none) 0 0

def rplMessages : List RplEvent :=
  [.accept 0 5 7 false, .flush, .accept 1 9 3 true, .accept 0 5 8 false]

theorem rpl_records_follow_live_twoFreeRpl :
    RplSynced twoFreeRpl ∧ RplAllowed ⟨2, 1, 16⟩ twoFreeRpl rplMessages ∧
      RplSynced (runRpl ⟨2, 1, 16⟩ twoFreeRpl rplMessages) ∧
      ∀ e ∈ (storePending (runRpl ⟨2, 1, 16⟩ twoFreeRpl rplMessages)).mesh.rpl, e.src ≠ 0 →
        ∃ pad, (storePending (runRpl ⟨2, 1, 16⟩ twoFreeRpl rplMessages)).store
          (indexPath "RPL" e.src.toNat) = some (rplValOf e pad).encode := by
  have h0 : RplSynced twoFreeRpl := .of_empty (by decide)
  have hrun := rpl_records_follow_live ⟨2, 1, 16⟩ h0 rplMessages (by decide)
  exact ⟨h0, by decide, hrun.1, hrun.2⟩

end MeshSettings
