import MeshSettings.RoundTrip

/-!
# Records of the wrong size

`conf_load` hands every record to its handler, whatever its length.  Nine
handlers compare the length with their record's size before they touch
anything, and refuse any other nonzero length with the state unchanged, so
that such a record is as if the store did not hold it (`RecordKey.refuses`).
Three do not:

* `rpl_set_bin` finds or allocates the entry first, so a record it then refuses
  still leaves a free entry taken by the key's source
  (`rplSetBin_allocates_before_refusing`);
* `mod_set_bind_bin` and `mod_set_sub_bin` copy a record of any length, and
  what exceeds the array lands past it (`modSetBindBin_sub_past`);
* `role_set_bin` reads the first byte of a value of any length.
-/

namespace MeshSettings

/-! ## Replay protection -/

theorem rplSetBin_wrong_size (key : Path) (value : Bytes) (l : LoadState) (h0 : value.length ≠ 0)
    (h4 : value.length ≠ 4) {i : Nat} {e : Rpl}
    (hslot : (rplFind l.mesh (keyIndex key 4)).or (firstSlot (·.src == 0) l.mesh.rpl) = some (i, e)) :
    rplSetBin key value l =
      ({ l with mesh := { l.mesh with rpl := l.mesh.rpl.set i { e with src := keyIndex key 4 } } },
        eInval) := by
  simp [rplSetBin, h0, h4, hslot]

def oneFreeRpl : LoadState := { LoadState.boot with mesh := { Mesh.empty with rpl := [Rpl.empty] } }

/--
A three-byte record under `RPL/5` is refused with `-EINVAL`, yet the only RPL
entry, free before, now belongs to source 5.
-/
theorem rplSetBin_allocates_before_refusing :
    (meshSetBin ⟨2, 1, 16⟩ (indexPath "RPL" 5) [0, 0, 0] oneFreeRpl).2 = eInval ∧
      oneFreeRpl.mesh.rpl = [Rpl.empty] ∧
      (meshSetBin ⟨2, 1, 16⟩ (indexPath "RPL" 5) [0, 0, 0] oneFreeRpl).1.mesh.rpl =
        [{ Rpl.empty with src := 5 }] := by
  have hkey : keyIndex (indexPath "RPL" 5) 4 = 5 := keyIndex_indexPath "RPL" 4 rfl 5
  rw [meshSetBin_indexPath _ "RPL" rplSetBin _ _ _ (by decide) rfl,
    rplSetBin_wrong_size _ _ _ (by decide) (by decide) (i := 0) (e := Rpl.empty)
      (by rw [hkey]; rfl), hkey]
  exact ⟨rfl, rfl, rfl⟩

/-! ## Bindings and subscriptions -/

/--
`mod_set_bind_bin` and `mod_set_sub_bin` accept a record of every length, and
every byte past twice the array's length is written past the array.
-/
theorem modSetBindBin_sub_past (mod : Model) (val : Bytes) :
    (modSetBindBin mod val).2 = (val.drop (2 * mod.keys.length), 0) ∧
      (modSetSubBin mod val).2 = (val.drop (2 * mod.groups.length), 0) := by
  constructor
  · unfold modSetBindBin
    split_ifs with h
    · simp [List.eq_nil_of_length_eq_zero h]
    · simp [memcpyU16_past]
  · unfold modSetSubBin
    split_ifs with h
    · simp [List.eq_nil_of_length_eq_zero h]
    · simp [memcpyU16_past]

end MeshSettings
