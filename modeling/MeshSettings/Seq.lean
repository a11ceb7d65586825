import MeshSettings.Pending
import MeshSettings.Load

/-!
# The sequence number across a power loss

Each transmission uses the live sequence number, advances it and calls
`bt_mesh_store_seq`, which marks the `Seq` record only when the new number is
a multiple of the store rate `R`.  The mark is deferred to the next
`store_pending`, which writes the live number of that moment; at boot
`seq_set_bin` rounds the persisted number up to the next multiple of `R`, less
one.

While no `Seq` store is pending, the restored number is at least the live one,
so it exceeds every number already used (`SeqCovered`).  The transmission
that marks the record is the exception: `BT_MESH_SEQ_PENDING` waits for the
generic store timeout, and until the flush runs a power loss restores the
number that transmission has just used (`seqSetBin_reuses_after_mark`).
-/

namespace MeshSettings

/-! ## The restore formula -/

section Restore

variable {R : Nat} (hR : 0 < R)

include hR

theorem le_seqRestore (P : Nat) : P ≤ seqRestore R P := by
  have := Nat.mod_lt P hR
  simp only [seqRestore, hR, if_true]
  omega

theorem seqRestore_succ_mod (P : Nat) : (seqRestore R P + 1) % R = 0 := by
  have hmod := Nat.mod_lt P hR
  have hdiv := Nat.div_add_mod P R
  simp only [seqRestore, hR, if_true]
  have : P + (R - P % R) - 1 + 1 = R * (P / R + 1) := by
    rw [Nat.mul_add, Nat.mul_one]
    omega
  rw [this, Nat.mul_mod_right]

theorem seqRestore_lt (P : Nat) : seqRestore R P < P + R := by
  simp only [seqRestore, hR, if_true]
  omega

end Restore

theorem seqSetBin_encode (rate : Nat) (v : SeqVal) (l : LoadState) :
    (seqSetBin rate seqPath v.encode l).1.mesh.seq = UInt32.ofNat (seqRestore rate v.val.toNat) := by
  simp [seqSetBin]

/-! ## Runs -/

inductive SeqEvent
  | transmit
  | expire

/-- A transmission as the network layer makes it: use the number, advance it, store it. -/
def transmit (cfg : Config) (s : Settings) : Settings :=
  btMeshStoreSeq cfg { s with mesh := { s.mesh with seq := s.mesh.seq + 1 } }

def expire (s : Settings) : Settings :=
  match s.deadline with
  | some d => storePending { s with now := max s.now d }
  | none => s

def runSeq (cfg : Config) : Settings → List SeqEvent → Settings
  | s, [] => s
  | s, .transmit :: es => runSeq cfg (transmit cfg s) es
  | s, .expire :: es => runSeq cfg (expire s) es

theorem transmit_seq (cfg : Config) (s : Settings) :
    (transmit cfg s).mesh.seq = s.mesh.seq + 1 ∧ (transmit cfg s).store = s.store ∧
      ((transmit cfg s).mesh.flags .seqPending = false →
        s.mesh.flags .seqPending = false ∧ (s.mesh.seq + 1).toNat % cfg.seqStoreRate ≠ 0) := by
  unfold transmit btMeshStoreSeq
  split_ifs with h
  · exact ⟨rfl, rfl, fun hf => ⟨hf, h.2⟩⟩
  · refine ⟨rfl, rfl, fun hf => ?_⟩
    simp [scheduleStore, Settings.setFlag] at hf

theorem expire_seq (s : Settings) :
    expire s = s ∨
      (expire s).mesh.seq = s.mesh.seq ∧ (expire s).mesh.flags .seqPending = false ∧
        (expire s).store seqPath =
          if s.mesh.flags .seqPending then some (SeqVal.encode ⟨BitVec.ofNat 24 s.mesh.seq.toNat⟩)
          else s.store seqPath := by
  unfold expire
  split
  · exact .inr (storePending_seq _)
  · exact .inl rfl

/--
The invariant: the `Seq` record holds a 24-bit number `P`, and while no store
is pending the live number is at most what `seq_set_bin` restores from `P`.
-/
def SeqCovered (R : Nat) (s : Settings) : Prop :=
  ∃ P < 2 ^ 24, s.store seqPath = some (SeqVal.encode ⟨BitVec.ofNat 24 P⟩) ∧
    (s.mesh.flags .seqPending = false → s.mesh.seq.toNat ≤ seqRestore R P)

theorem transmit_seqCovered (cfg : Config) (hR : 0 < cfg.seqStoreRate) {s : Settings}
    (hfit : s.mesh.seq.toNat + 1 < 2 ^ 32) (h : SeqCovered cfg.seqStoreRate s) :
    SeqCovered cfg.seqStoreRate (transmit cfg s) := by
  obtain ⟨P, hP, hst, hcov⟩ := h
  obtain ⟨hseq, hstore, hflag⟩ := transmit_seq cfg s
  refine ⟨P, hP, hstore ▸ hst, fun hf => ?_⟩
  obtain ⟨hf0, hmod⟩ := hflag hf
  have hsucc := u32_toNat_add_one _ hfit
  have hle := hcov hf0
  have hne : s.mesh.seq.toNat ≠ seqRestore cfg.seqStoreRate P := fun heq =>
    hmod (by rw [hsucc, heq]; exact seqRestore_succ_mod hR P)
  rw [hseq, hsucc]
  omega

theorem expire_seqCovered (hR : 0 < R) {s : Settings} (hfit : s.mesh.seq.toNat < 2 ^ 24)
    (h : SeqCovered R s) : SeqCovered R (expire s) := by
  obtain ⟨P, hP, hst, hcov⟩ := h
  rcases expire_seq s with hnone | ⟨hseq, hflag, hstore⟩
  · rw [hnone]
    exact ⟨P, hP, hst, hcov⟩
  · cases hpend : s.mesh.flags .seqPending
    · refine ⟨P, hP, ?_, fun _ => by rw [hseq]; exact hcov hpend⟩
      rw [hstore, hpend]
      simpa using hst
    · refine ⟨s.mesh.seq.toNat, hfit, ?_, fun _ => by rw [hseq]; exact le_seqRestore hR _⟩
      rw [hstore, hpend]
      rfl

theorem runSeq_seqCovered (cfg : Config) (hR : 0 < cfg.seqStoreRate) (es : List SeqEvent) :
    ∀ s : Settings, s.mesh.seq.toNat + es.length < 2 ^ 24 → SeqCovered cfg.seqStoreRate s →
      SeqCovered cfg.seqStoreRate (runSeq cfg s es) := by
  induction es with
  | nil => exact fun _ _ h => h
  | cons e es ih =>
      intro s hfit h
      simp only [List.length_cons] at hfit
      cases e with
      | transmit =>
          refine ih _ ?_ (transmit_seqCovered cfg hR (by omega) h)
          rw [(transmit_seq cfg s).1, u32_toNat_add_one _ (by omega)]
          omega
      | expire =>
          refine ih _ ?_ (expire_seqCovered hR (by omega) h)
          rcases expire_seq s with hnone | ⟨hseq, -⟩ <;> simp only [*] <;> omega

/--
From a state whose number `seq_set_bin` restored from the `Seq` record, with store rate
`R > 0`, through any interleaving of transmissions and expiries that keeps the
number within 24 bits: whenever no `Seq` store is pending, `seq_set_bin`
applied to the record in the store restores at least the live number, so more
than every number used so far.
-/
theorem seq_restore_covers_live (cfg : Config) (hR : 0 < cfg.seqStoreRate) (s : Settings)
    (P : SeqVal) (hstore : s.store seqPath = some P.encode)
    (hrestored : s.mesh.seq = (seqSetBin cfg.seqStoreRate seqPath P.encode LoadState.boot).1.mesh.seq)
    (es : List SeqEvent)
    (hfit : P.val.toNat + cfg.seqStoreRate + es.length ≤ 2 ^ 24) (n : Nat)
    (hquiet : (runSeq cfg s (es.take n)).mesh.flags .seqPending = false) :
    ∃ v, (runSeq cfg s (es.take n)).store seqPath = some v ∧
      (runSeq cfg s (es.take n)).mesh.seq.toNat ≤
        (seqSetBin cfg.seqStoreRate seqPath v LoadState.boot).1.mesh.seq.toNat := by
  have hlt := seqRestore_lt hR P.val.toNat
  have hP := P.val.isLt
  have hseq0 : s.mesh.seq.toNat = seqRestore cfg.seqStoreRate P.val.toNat := by
    rw [hrestored, seqSetBin_encode, u32_toNat_ofNat, Nat.mod_eq_of_lt (by omega)]
  have hinit : SeqCovered cfg.seqStoreRate s :=
    ⟨P.val.toNat, hP, by simp [hstore], fun _ => hseq0.le⟩
  have hlen : (es.take n).length ≤ es.length := List.length_take_le' _ _
  obtain ⟨P', hP', hst, hcov⟩ :=
    runSeq_seqCovered cfg hR (es.take n) s (by omega) hinit
  refine ⟨_, hst, ?_⟩
  rw [seqSetBin_encode, u32_toNat_ofNat, BitVec.toNat_ofNat, Nat.mod_eq_of_lt hP',
    Nat.mod_eq_of_lt (by have := seqRestore_lt hR P'; omega)]
  exact hcov hquiet

def bootedAt100 : Settings :=
  Settings.boot { Mesh.empty with seq := (seqSetBin 16 seqPath (SeqVal.encode ⟨100⟩)
      LoadState.boot).1.mesh.seq }
    (Function.update (fun _ => none) seqPath (some (SeqVal.encode ⟨100⟩))) 0 0

theorem seq_restore_covers_live_bootedAt100 :
    0 < 16 ∧ bootedAt100.store seqPath = some (SeqVal.encode ⟨100⟩) ∧
      bootedAt100.mesh.seq =
        (seqSetBin 16 seqPath (SeqVal.encode ⟨100⟩) LoadState.boot).1.mesh.seq ∧
      100 + 16 + 3 ≤ 2 ^ 24 ∧
      (runSeq ⟨2, 1, 16⟩ bootedAt100 ([.transmit, .expire, .transmit].take 2)).mesh.flags
        .seqPending = false ∧
      ∃ v, (runSeq ⟨2, 1, 16⟩ bootedAt100 ([.transmit, .expire, .transmit].take 2)).store seqPath =
          some v ∧
        (runSeq ⟨2, 1, 16⟩ bootedAt100 ([.transmit, .expire, .transmit].take 2)).mesh.seq.toNat ≤
          (seqSetBin 16 seqPath v LoadState.boot).1.mesh.seq.toNat :=
  ⟨by decide, by decide, rfl, by decide, by decide,
    seq_restore_covers_live ⟨2, 1, 16⟩ (by decide) bootedAt100 ⟨100⟩ (by decide) rfl
      [.transmit, .expire, .transmit] (by decide) 2 (by decide)⟩

/--
The restored state uses 111 for its first transmission, which brings the
number to 112, a multiple of 16, and only marks the `Seq` record.  A power
loss before the flush restores 111 from the record still holding 100: the
number just used is used again.
-/
theorem seqSetBin_reuses_after_mark :
    bootedAt100.mesh.seq = 111 ∧
      (runSeq ⟨2, 1, 16⟩ bootedAt100 [.transmit]).mesh.seq = 112 ∧
      (runSeq ⟨2, 1, 16⟩ bootedAt100 [.transmit]).store seqPath = some (SeqVal.encode ⟨100⟩) ∧
      (seqSetBin 16 seqPath (SeqVal.encode ⟨100⟩) LoadState.boot).1.mesh.seq = 111 := by
  decide

end MeshSettings
