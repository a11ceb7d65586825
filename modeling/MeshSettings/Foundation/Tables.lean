import Mathlib.Data.List.Pairwise
import Mathlib.Data.List.Perm.Basic
import MeshSettings.Foundation.Slots

/-!
# Slot arrays seen as tables

The runtime keeps subnets, application keys, RPL entries and nodes in
fixed-size arrays.  An entry is used or free; a used entry stands for one key
(an index or an address), and a free entry is the zeroed entry the stack's
`*_del` leaves.  Seen from its keys such an array is the partial map
`entryFor used key`.  Two well-formed arrays of one size with the same map
hold the same entries in some order (`TableWF.perm`), and writing the slot a
lookup found for key `k` changes the map at `k` alone (`TableWF.set`).
-/

namespace MeshSettings

section Table

variable {α β : Type} {used : α → Bool} {key : α → β} {free : α}

/-- Every free entry is the zeroed entry, and no two used entries hold one key. -/
structure TableWF (used : α → Bool) (key : α → β) (free : α) (l : List α) : Prop where
  free_eq : ∀ x ∈ l, used x = false → x = free
  keys : KeysUnique used key l

theorem TableWF.replicate (hfree : used free = false) (n : Nat) :
    TableWF used key free (List.replicate n free) where
  free_eq _ hx _ := List.eq_of_mem_replicate hx
  keys := keysUnique_of_free fun _ hx => List.eq_of_mem_replicate hx ▸ hfree

theorem KeysUnique.eq_of_key_eq {l : List α} (hl : KeysUnique used key l) {x y : α}
    (hx : x ∈ l) (hy : y ∈ l) (ux : used x = true) (uy : used y = true) (hk : key x = key y) :
    x = y := by
  by_contra hne
  have hsymm : Symmetric fun u v : α => used u = true → used v = true → key u ≠ key v :=
    fun _ _ h hv hu hk => h hu hv hk.symm
  exact hl.forall hsymm hx hy hne ux uy hk

theorem KeysUnique.set_of_found {l : List α} (hl : KeysUnique used key l) {i : Nat}
    (hi : i < l.length) {y : α}
    (hy : used y = true →
      (used l[i] = true ∧ key l[i] = key y) ∨ ∀ x ∈ l, used x = true → key x ≠ key y) :
    KeysUnique used key (l.set i y) :=
  hl.set fun hu j hj hji hj' => by
    rcases hy hu with ⟨hui, hk⟩ | hnone
    · rw [← hk]
      exact hl.others hi hui j hj hji hj'
    · exact hnone _ (List.getElem_mem _) hj'

theorem firstSlot_or_found {p q : α → Bool} {l : List α} {i : Nat} {x : α}
    (h : (firstSlot p l).or (firstSlot q l) = some (i, x)) :
    ∃ hi : i < l.length, l[i] = x ∧ (p l[i] = true ∨ ∀ y ∈ l, p y = false) := by
  obtain ⟨hi, hx, -⟩ := firstSlot_or_spec h
  refine ⟨hi, hx, ?_⟩
  cases hp : firstSlot p l with
  | none => exact .inr (firstSlot_eq_none_iff.mp hp)
  | some r =>
      rw [hp] at h
      obtain ⟨-, -, hpx, -⟩ := firstSlot_spec (hp.trans h)
      exact .inl (hx ▸ hpx)

theorem TableWF.firstFree {l : List α} (hwf : TableWF used key free l)
    (hroom : ∃ x ∈ l, used x = false) :
    ∃ i, ∃ hi : i < l.length, firstSlot (fun x => !used x) l = some (i, l[i]) ∧ l[i] = free := by
  obtain ⟨y, hy, uy⟩ := hroom
  have hne : firstSlot (fun x => !used x) l ≠ none := fun h => by
    simpa [uy] using firstSlot_eq_none_iff.mp h y hy
  obtain ⟨⟨i, x⟩, hfirst⟩ := Option.ne_none_iff_exists'.mp hne
  obtain ⟨hi, hx, hfx, -⟩ := firstSlot_spec hfirst
  exact ⟨i, hi, hx ▸ hfirst, hx.trans (hwf.free_eq x (hx ▸ List.getElem_mem hi) (by simpa using hfx))⟩

variable [DecidableEq β]

theorem entryFor_eq_some_iff {l : List α} (hl : KeysUnique used key l) {k : β} {x : α} :
    entryFor used key l k = some x ↔ x ∈ l ∧ used x = true ∧ key x = k := by
  refine ⟨entryFor_some, fun ⟨hx, ux, hk⟩ => ?_⟩
  cases h : entryFor used key l k with
  | none => exact absurd hk (entryFor_eq_none_iff.mp h x hx ux)
  | some y =>
      obtain ⟨hy, uy, hky⟩ := entryFor_some h
      rw [hl.eq_of_key_eq hx hy ux uy (hk.trans hky.symm)]

theorem TableWF.perm {a b : List α} (ha : TableWF used key free a) (hb : TableWF used key free b)
    (hlen : a.length = b.length) (hv : entryFor used key a = entryFor used key b) : a.Perm b := by
  have hmem : ∀ x, x ∈ a.filter used ↔ x ∈ b.filter used := fun x => by
    simp only [List.mem_filter]
    constructor
    · rintro ⟨hx, ux⟩
      have := (entryFor_eq_some_iff ha.keys).mpr ⟨hx, ux, rfl⟩
      rw [hv, entryFor_eq_some_iff hb.keys] at this
      exact ⟨this.1, ux⟩
    · rintro ⟨hx, ux⟩
      have := (entryFor_eq_some_iff hb.keys).mpr ⟨hx, ux, rfl⟩
      rw [← hv, entryFor_eq_some_iff ha.keys] at this
      exact ⟨this.1, ux⟩
  have hnodup : ∀ {l : List α}, KeysUnique used key l → (l.filter used).Nodup := fun hl =>
    (hl.filter used).imp_of_mem fun hu hv h heq => by
      subst heq
      exact h (List.mem_filter.mp hu).2 (List.mem_filter.mp hu).2 rfl
  have hused : (a.filter used).Perm (b.filter used) :=
    (List.perm_ext_iff_of_nodup (hnodup ha.keys) (hnodup hb.keys)).mpr hmem
  have hfree : ∀ {l : List α}, TableWF used key free l →
      l.filter (fun x => !used x) = List.replicate (l.filter fun x => !used x).length free :=
    fun hl => List.eq_replicate_iff.mpr ⟨rfl, fun x hx => by
      obtain ⟨hx, ux⟩ := List.mem_filter.mp hx
      exact hl.free_eq x hx (by simpa using ux)⟩
  have hca := (List.filter_append_perm used a).length_eq
  have hcb := (List.filter_append_perm used b).length_eq
  simp only [List.length_append] at hca hcb
  have hcount : (a.filter fun x => !used x).length = (b.filter fun x => !used x).length := by
    have := hused.length_eq
    omega
  refine (List.filter_append_perm used a).symm.trans ?_
  refine List.Perm.trans ?_ (List.filter_append_perm used b)
  rw [hfree ha, hfree hb, hcount]
  exact hused.append_right _

theorem TableWF.set {l : List α} (hwf : TableWF used key free l) (hfree : used free = false)
    {i : Nat} (hi : i < l.length) {k : β}
    (hslot : (used l[i] = true ∧ key l[i] = k) ∨ (l[i] = free ∧ entryFor used key l k = none))
    {y : α} (hy : y = free ∨ (used y = true ∧ key y = k)) :
    TableWF used key free (l.set i y) ∧
      entryFor used key (l.set i y) =
        Function.update (entryFor used key l) k (if used y then some y else none) := by
  have hothers : ∀ j (hj : j < l.length), j ≠ i → used l[j] = true → key l[j] ≠ k := by
    rcases hslot with ⟨ui, rfl⟩ | ⟨-, hnone⟩
    · exact hwf.keys.others hi ui
    · exact fun j hj _ uj => entryFor_eq_none_iff.mp hnone _ (List.getElem_mem hj) uj
  have hyk : used y = true → key y = k := fun uy =>
    (hy.resolve_left fun h => by simp [h, hfree] at uy).2
  have hmiss : ∀ j (hj : j < l.length), j ≠ i → (used l[j] && key l[j] == k) = false :=
    fun j hj hji => by
      cases uj : used l[j]
      · rfl
      · simpa using hothers j hj hji uj
  refine ⟨⟨fun x hx ux => ?_, hwf.keys.set fun uy j hj hji uj => hyk uy ▸ hothers j hj hji uj⟩,
    funext fun p => ?_⟩
  · rcases List.mem_or_eq_of_mem_set hx with hx | rfl
    · exact hwf.free_eq x hx ux
    · exact hy.resolve_right fun h => by simp [h.1] at ux
  · by_cases hp : p = k
    · subst hp
      rw [Function.update_same]
      cases uy : used y
      · rw [if_neg (by simp)]
        refine List.find?_eq_none.mpr fun x hx => ?_
        obtain ⟨j, hj, rfl⟩ := List.getElem_of_mem hx
        rw [List.getElem_set]
        split_ifs with hij
        · simp [uy]
        · simpa using hmiss j (by simpa using hj) (Ne.symm hij)
      · rw [if_pos rfl]
        exact find?_set_of_only (by simp [uy, hyk uy]) l i hi hmiss
    · rw [Function.update_noteq hp]
      refine find?_set_of_false ?_ l i fun _ => ?_
      · cases uy : used y
        · rfl
        · simpa [hyk uy] using Ne.symm hp
      · rcases hslot with ⟨ui, hki⟩ | ⟨hf, -⟩
        · simpa [ui, hki] using Ne.symm hp
        · simp [hf, hfree]

/--
The first slot of `l` is in use exactly when that of `l0` was, or when more
slots of `l` are in use than of `l0`: what filling first-free slots, and never
freeing one, does to an array.
-/
def HeadFills (used : α → Bool) (l0 l : List α) : Prop :=
  l.length = l0.length ∧ l0.countP used ≤ l.countP used ∧
    l.head?.map used = l0.head?.map fun x0 => used x0 || decide (l0.countP used < l.countP used)

theorem HeadFills.refl (l : List α) : HeadFills used l l :=
  ⟨rfl, le_rfl, by simp⟩

theorem head?_map_set {l : List α} {i : Nat} (hi : i < l.length) {y : α} (hy : used y = used l[i]) :
    (l.set i y).head?.map used = l.head?.map used := by
  cases l with
  | nil => simp at hi
  | cons x xs =>
      cases i with
      | zero => simpa using hy
      | succ i => rfl

theorem HeadFills.set_of_used_eq {l0 l : List α} (h : HeadFills used l0 l) {i : Nat}
    (hi : i < l.length) {y : α} (hy : used y = used l[i]) : HeadFills used l0 (l.set i y) := by
  have hc : (l.set i y).countP used = l.countP used := by
    rw [List.countP_set _ _ _ _ hi, hy]
    cases hu : used l[i]
    · simp
    · have := List.countP_pos_iff.mpr ⟨l[i], List.getElem_mem hi, hu⟩
      simp only [if_true]
      omega
  obtain ⟨hlen, hle, hhead⟩ := h
  exact ⟨by simpa using hlen, hc ▸ hle, by rw [head?_map_set hi hy, hhead, hc]⟩

theorem HeadFills.set_first_free {l0 l : List α} (h : HeadFills used l0 l) {i : Nat}
    (hi : i < l.length) (hfree : used l[i] = false)
    (hbefore : ∀ j (hj : j < l.length), j < i → used l[j] = true) {y : α} (hy : used y = true) :
    HeadFills used l0 (l.set i y) := by
  have hc : (l.set i y).countP used = l.countP used + 1 := by
    rw [List.countP_set _ _ _ _ hi, hfree, hy]
    simp
  have hhead : (l.set i y).head?.map used = l.head?.map fun _ => true := by
    cases l with
    | nil => simp at hi
    | cons x xs =>
        cases i with
        | zero => simpa using hy
        | succ i => simpa using hbefore 0 (by simp) (by omega)
  obtain ⟨hlen, hle, -⟩ := h
  have hlt : decide (l0.countP used < (l.set i y).countP used) = true := decide_eq_true (by omega)
  refine ⟨by simpa using hlen, by omega, ?_⟩
  simp only [hhead, hlt, Bool.or_true]
  cases l0 <;> cases l <;> simp_all

theorem HeadFills.head?_map_eq {l0 a b : List α} (ha : HeadFills used l0 a)
    (hb : HeadFills used l0 b) (hp : a.Perm b) : a.head?.map used = b.head?.map used := by
  rw [ha.2.2, hb.2.2, List.Perm.countP_eq used hp]

def freeSlots (used : α → Bool) (l : List α) : Nat := l.countP fun x => !used x

theorem freeSlots_le_set (l : List α) {i : Nat} (hi : i < l.length) (y : α) :
    freeSlots used l ≤ freeSlots used (l.set i y) + 1 := by
  rw [freeSlots, freeSlots, List.countP_set _ _ _ _ hi]
  split_ifs <;> omega

theorem exists_free_of_freeSlots_pos {l : List α} (h : 0 < freeSlots used l) :
    ∃ x ∈ l, used x = false := by
  obtain ⟨x, hx, hfree⟩ := List.countP_pos_iff.mp h
  exact ⟨x, hx, by simpa using hfree⟩

theorem firstSlot_entryFor (u : α → Bool) (kf : α → β) (l : List α) (k : β) :
    (firstSlot (fun x => u x && kf x == k) l).map Prod.snd = entryFor u kf l k :=
  (find?_eq_map_firstSlot _ _).symm

theorem TableWF.alloc {l : List α} (hwf : TableWF used key free l) (k : β)
    (hroom : ∃ x ∈ l, used x = false) :
    ∃ i, ∃ hi : i < l.length,
      (firstSlot (fun x => used x && key x == k) l).or (firstSlot (fun x => !used x) l) =
        some (i, l[i]) ∧
      ((used l[i] = true ∧ key l[i] = k) ∨ (l[i] = free ∧ entryFor used key l k = none)) ∧
      (entryFor used key l k).getD free = l[i] := by
  cases hf : firstSlot (fun x => used x && key x == k) l with
  | some p =>
      obtain ⟨i, x⟩ := p
      obtain ⟨hi, hx, hmatch, -⟩ := firstSlot_spec hf
      have hentry := firstSlot_entryFor used key l k
      rw [hf] at hentry
      simp only [Bool.and_eq_true, beq_iff_eq] at hmatch
      exact ⟨i, hi, by rw [hx]; rfl, .inl (hx ▸ hmatch), by rw [← hentry, hx]; rfl⟩
  | none =>
      have hentry := firstSlot_entryFor used key l k
      rw [hf] at hentry
      obtain ⟨i, hi, hfirst, hfree⟩ := hwf.firstFree hroom
      refine ⟨i, hi, by rw [hfirst]; rfl, .inr ⟨hfree, hentry.symm⟩, ?_⟩
      rw [← hentry, hfree]
      rfl

theorem firstSlot_match_some {l : List α} {k : β} {i : Nat} {x : α}
    (h : firstSlot (fun x => used x && key x == k) l = some (i, x)) :
    ∃ hi : i < l.length, l[i] = x ∧ used x = true ∧ key x = k ∧ entryFor used key l k = some x := by
  obtain ⟨hi, hx, hmatch, -⟩ := firstSlot_spec h
  simp only [Bool.and_eq_true, beq_iff_eq] at hmatch
  have hentry := firstSlot_entryFor used key l k
  rw [h] at hentry
  exact ⟨hi, hx, hmatch.1, hmatch.2, hentry.symm⟩

end Table

end MeshSettings
