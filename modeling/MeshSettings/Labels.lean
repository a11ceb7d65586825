import MeshSettings.Pending
import MeshSettings.Load

/-!
# Virtual address labels

A label change sets the label's `BT_MESH_VA_CHANGED` and calls
`bt_mesh_store_label`; `store_pending_va` then writes `Va/<i>` for every
changed label.  A label still in use has its record once flushed, and a
flush leaves no label marked (`LabelsStored`).  A label whose reference count dropped to
zero is only skipped: its record stays in the store, and loading it brings
the label back (`vaSetBin_resurrects_deleted_label`).
-/

namespace MeshSettings

theorem storePendingVa_store_va (s : Settings) {i : Nat} (hi : i < s.mesh.labels.length) :
    (storePendingVa s).store (indexPath "Va" i) =
      (vaWrite s.mesh i).or (s.store (indexPath "Va" i)) := by
  have hu : KeysUnique (fun j => (vaWrite s.mesh j).isSome) (indexPath "Va")
      (List.range s.mesh.labels.length) :=
    (List.nodup_range _).imp fun hne _ _ h => hne (indexPath_injective _ h)
  rw [storePendingVa_store, foldl_apply_of_keysUnique (storePendingVaStep_apply s.mesh) hu]
  cases hw : vaWrite s.mesh i with
  | none =>
      rw [entryFor_eq_none_iff.mpr fun j _ hj hji => by
        cases indexPath_injective _ hji
        simp [hw] at hj]
      rfl
  | some r =>
      have hmem : i ∈ List.range s.mesh.labels.length := List.mem_range.mpr hi
      cases he : entryFor (fun j => (vaWrite s.mesh j).isSome) (indexPath "Va")
          (List.range s.mesh.labels.length) (indexPath "Va" i) with
      | none => exact absurd (entryFor_eq_none_iff.mp he i hmem (by simp [hw]) rfl) (by simp)
      | some j =>
          obtain ⟨-, -, hj⟩ := entryFor_some he
          cases indexPath_injective _ hj
          simp [hw]

/-- A record matches every label in use whose last change has been flushed. -/
def LabelsStored (s : Settings) : Prop :=
  ∀ i (hi : i < s.mesh.labels.length), s.mesh.labels[i].changed = false →
    s.mesh.labels[i].ref ≠ 0 → s.store (indexPath "Va" i) = some (vaValOf s.mesh.labels[i]).encode

theorem storePendingVa_labelsStored {s : Settings} (h : LabelsStored s) :
    LabelsStored (storePendingVa s) := by
  intro i hi _ href
  have hi' : i < s.mesh.labels.length := by simpa [storePendingVa] using hi
  have hlab : (storePendingVa s).mesh.labels[i] = { s.mesh.labels[i] with changed := false } := by
    simp [storePendingVa]
  rw [hlab] at href ⊢
  rw [storePendingVa_store_va s hi']
  cases hc : s.mesh.labels[i].changed
  · have hw : vaWrite s.mesh i = none := by simp [vaWrite, getLabel, hi', hc]
    rw [hw, Option.none_or, h i hi' hc href]
    rfl
  · have hw : vaWrite s.mesh i = some (vaValOf s.mesh.labels[i]).encode := by
      simp [vaWrite, getLabel, hi', hc, href]
    rw [hw]
    rfl

/-! ## Runs -/

inductive LabelEvent
  | change (i : Nat) (lab : Label)
  | flush

/-- A change as the stack makes it: set the label with `BT_MESH_VA_CHANGED`, then `bt_mesh_store_label`. -/
def changeLabel (cfg : Config) (i : Nat) (lab : Label) (s : Settings) : Settings :=
  btMeshStoreLabel cfg
    { s with mesh := { s.mesh with labels := s.mesh.labels.set i { lab with changed := true } } }

def runLabels (cfg : Config) : Settings → List LabelEvent → Settings
  | s, [] => s
  | s, .change i lab :: es => runLabels cfg (changeLabel cfg i lab s) es
  | s, .flush :: es => runLabels cfg (storePendingVa s) es

theorem changeLabel_labelsStored (cfg : Config) (i : Nat) (lab : Label) {s : Settings}
    (h : LabelsStored s) : LabelsStored (changeLabel cfg i lab s) := by
  intro j hj hc href
  simp only [changeLabel, btMeshStoreLabel, scheduleStore_store, scheduleStore_mesh,
    List.length_set, List.getElem_set] at hj hc href ⊢
  split_ifs at hc href ⊢
  exact h j hj hc href

theorem runLabels_keeps_labelsStored (cfg : Config) (es : List LabelEvent) :
    ∀ s, LabelsStored s → LabelsStored (runLabels cfg s es) := by
  induction es with
  | nil => exact fun _ h => h
  | cons e es ih =>
      intro s h
      cases e with
      | change i lab => exact ih _ (changeLabel_labelsStored cfg i lab h)
      | flush => exact ih _ (storePendingVa_labelsStored h)

/--
Over every run of label changes and flushes, from a state where every flushed
label in use has its record, every flushed label in use keeps a record of its
current value; after a final `store_pending_va` no label is left marked, so
every label in use has its record `Va/<i>`.
-/
theorem runLabels_labelsStored (cfg : Config) (es : List LabelEvent) (s : Settings)
    (h : LabelsStored s) :
    LabelsStored (runLabels cfg s es) ∧
      ∀ i (hi : i < (storePendingVa (runLabels cfg s es)).mesh.labels.length),
        (storePendingVa (runLabels cfg s es)).mesh.labels[i].changed = false ∧
          ((storePendingVa (runLabels cfg s es)).mesh.labels[i].ref ≠ 0 →
            (storePendingVa (runLabels cfg s es)).store (indexPath "Va" i) =
              some (vaValOf (storePendingVa (runLabels cfg s es)).mesh.labels[i]).encode) := by
  have hrun := runLabels_keeps_labelsStored cfg es s h
  have hclear : ∀ i (hi : i < (storePendingVa (runLabels cfg s es)).mesh.labels.length),
      (storePendingVa (runLabels cfg s es)).mesh.labels[i].changed = false := by
    simp [storePendingVa_labels]
  exact ⟨hrun, fun i hi => ⟨hclear i hi, storePendingVa_labelsStored hrun i hi (hclear i hi)⟩⟩

/-! ## A deleted label comes back -/

def loadVa (st : Store) (i : Nat) (l : LoadState) : LoadState :=
  match st (indexPath "Va" i) with
  | some value => (vaSetBin (indexPath "Va" i) value l).1
  | none => l

def labelInUse : Label := ⟨1, 0x8000, fun _ => 0, false⟩

def labelUnused : Label := ⟨0, 0, fun _ => 0, false⟩

def oneLabelMesh : Mesh := { Mesh.empty with labels := [labelUnused] }

def labelRun : List LabelEvent := [.change 0 labelInUse, .flush, .change 0 labelInUse]

theorem runLabels_labelsStored_oneLabel :
    LabelsStored (Settings.boot oneLabelMesh (fun _ => none) 0 0) ∧
      LabelsStored (runLabels ⟨2, 1, 8⟩ (Settings.boot oneLabelMesh (fun _ => none) 0 0) labelRun) ∧
      ∀ i (hi : i < (storePendingVa (runLabels ⟨2, 1, 8⟩
          (Settings.boot oneLabelMesh (fun _ => none) 0 0) labelRun)).mesh.labels.length),
        (storePendingVa (runLabels ⟨2, 1, 8⟩
            (Settings.boot oneLabelMesh (fun _ => none) 0 0) labelRun)).mesh.labels[i].changed =
          false ∧
        ((storePendingVa (runLabels ⟨2, 1, 8⟩
            (Settings.boot oneLabelMesh (fun _ => none) 0 0) labelRun)).mesh.labels[i].ref ≠ 0 →
          (storePendingVa (runLabels ⟨2, 1, 8⟩
              (Settings.boot oneLabelMesh (fun _ => none) 0 0) labelRun)).store (indexPath "Va" i) =
            some (vaValOf (storePendingVa (runLabels ⟨2, 1, 8⟩
              (Settings.boot oneLabelMesh (fun _ => none) 0 0) labelRun)).mesh.labels[i]).encode) :=
  have h : LabelsStored (Settings.boot oneLabelMesh (fun _ => none) 0 0) := by
    intro i hi _ href
    obtain rfl : i = 0 := by simpa [Settings.boot, oneLabelMesh] using hi
    exact absurd rfl href
  ⟨h, runLabels_labelsStored ⟨2, 1, 8⟩ labelRun _ h⟩

/--
Label 0 is put in use and flushed, then dropped to reference count 0.  After
the final flush the live label is unused, yet `Va/0` still holds the earlier
record and loading it into an unused table brings the label back.
-/
theorem vaSetBin_resurrects_deleted_label :
    (storePendingVa (runLabels ⟨2, 1, 8⟩ (Settings.boot oneLabelMesh (fun _ => none) 0 0)
        [.change 0 labelInUse, .flush, .change 0 labelUnused])).mesh.labels.map (·.ref) = [0] ∧
      (loadVa (storePendingVa (runLabels ⟨2, 1, 8⟩ (Settings.boot oneLabelMesh (fun _ => none) 0 0)
          [.change 0 labelInUse, .flush, .change 0 labelUnused])).store 0
        ⟨oneLabelMesh, ⟨false, ⟨0, 0, 0, 0, 0, 0, 0⟩⟩, [], false⟩).mesh.labels.map (·.ref) = [1] := by
  decide

end MeshSettings
