import Mathlib.Data.List.Basic

/-!
# Linear slot scans

`key_update_find` and `node_update_find` walk their table once and remember
two positions: the last free entry, and the last used entry naming the key
looked for.  `slotFind` is that loop, and `slotFind_eq` says what it returns
in terms of `lastIndex`, the last position whose entry a predicate accepts.
-/

namespace MeshSettings

variable {α : Type}

def lastIndex (p : α → Bool) : List α → Option Nat
  | [] => none
  | x :: xs =>
      match lastIndex p xs with
      | some i => some (i + 1)
      | none => if p x then some 0 else none

/--
The scan of `key_update_find` and `node_update_find` from position `i` on: a
free entry (`isFree`) becomes the free slot and is skipped, any other entry
that `isMatch` accepts becomes the match.
-/
def slotFind (isFree isMatch : α → Bool) :
    List α → Nat → Option Nat × Option Nat → Option Nat × Option Nat
  | [], _, acc => acc
  | x :: xs, i, (found, free) =>
      if isFree x then slotFind isFree isMatch xs (i + 1) (found, some i)
      else if isMatch x then slotFind isFree isMatch xs (i + 1) (some i, free)
      else slotFind isFree isMatch xs (i + 1) (found, free)

theorem lastIndex_eq_none_iff {p : α → Bool} {l : List α} :
    lastIndex p l = none ↔ ∀ x ∈ l, p x = false := by
  induction l with
  | nil => simp [lastIndex]
  | cons x xs ih =>
      simp only [lastIndex, List.mem_cons, forall_eq_or_imp]
      split
      · rename_i i hi
        simp only [reduceCtorEq, false_iff, not_and]
        intro _ hall
        simp [ih.mpr hall] at hi
      · rename_i hnone
        rw [← ih, hnone]
        cases p x <;> simp

theorem lastIndex_spec {p : α → Bool} {l : List α} {i : Nat} (h : lastIndex p l = some i) :
    ∃ hi : i < l.length, p l[i] = true := by
  induction l generalizing i with
  | nil => simp [lastIndex] at h
  | cons x xs ih =>
      simp only [lastIndex] at h
      split at h
      · rename_i k hk
        obtain rfl := (Option.some.inj h).symm
        obtain ⟨hk', hp⟩ := ih hk
        exact ⟨by simp; omega, by simpa using hp⟩
      · split at h
        · obtain rfl := (Option.some.inj h).symm
          exact ⟨by simp, by simpa⟩
        · simp at h

theorem slotFind_eq (isFree isMatch : α → Bool) (l : List α) (i : Nat)
    (found free : Option Nat) :
    slotFind isFree isMatch l i (found, free) =
      (((lastIndex (fun x => !isFree x && isMatch x) l).map (i + ·)).or found,
        ((lastIndex isFree l).map (i + ·)).or free) := by
  induction l generalizing i found free with
  | nil => rfl
  | cons x xs ih =>
      simp only [slotFind, lastIndex, ih]
      generalize lastIndex (fun x => !isFree x && isMatch x) xs = a
      generalize lastIndex isFree xs = b
      by_cases hf : isFree x = true <;> by_cases hm : isMatch x = true <;>
        cases a <;> cases b <;> simp [hf, hm, Nat.add_assoc, Nat.add_comm 1]

def firstSlot (p : α → Bool) : List α → Option (Nat × α)
  | [] => none
  | x :: xs => if p x then some (0, x) else (firstSlot p xs).map fun (i, y) => (i + 1, y)

theorem firstSlot_eq_none_iff {p : α → Bool} {l : List α} :
    firstSlot p l = none ↔ ∀ x ∈ l, p x = false := by
  induction l with
  | nil => simp [firstSlot]
  | cons x xs ih =>
      cases h : p x <;> simp [firstSlot, h, ih]

theorem firstSlot_spec {p : α → Bool} {l : List α} {i : Nat} {x : α}
    (h : firstSlot p l = some (i, x)) :
    ∃ hi : i < l.length, l[i] = x ∧ p x = true ∧
      ∀ j (hj : j < l.length), j < i → p l[j] = false := by
  induction l generalizing i with
  | nil => simp [firstSlot] at h
  | cons y ys ih =>
      by_cases hy : p y = true
      · simp only [firstSlot, hy, if_true, Option.some.injEq, Prod.mk.injEq] at h
        obtain ⟨rfl, rfl⟩ := h
        exact ⟨by simp, rfl, hy, fun _ _ hj => absurd hj (Nat.not_lt_zero _)⟩
      · simp only [firstSlot, hy, Bool.false_eq_true, if_false, Option.map_eq_some',
          Prod.exists, Prod.mk.injEq] at h
        obtain ⟨k, z, hk, rfl, rfl⟩ := h
        obtain ⟨hlt, hx, hp, hbefore⟩ := ih hk
        refine ⟨by simpa using hlt, by simpa using hx, hp, fun j hj hjk => ?_⟩
        cases j with
        | zero => simpa using hy
        | succ j => simpa using hbefore j (by simpa using hj) (by omega)

theorem firstSlot_congr {p q : α → Bool} {l : List α} (h : ∀ x ∈ l, p x = q x) :
    firstSlot p l = firstSlot q l := by
  induction l with
  | nil => rfl
  | cons x xs ih =>
      simp only [firstSlot, h x (List.mem_cons_self x xs),
        ih fun y hy => h y (List.mem_cons_of_mem x hy)]

theorem firstSlot_map {β : Type} (p : β → Bool) (f : α → β) (l : List α) :
    firstSlot p (l.map f) = (firstSlot (p ∘ f) l).map fun jx => (jx.1, f jx.2) := by
  induction l with
  | nil => rfl
  | cons x xs ih =>
      cases h : p (f x)
      · simp only [List.map_cons, firstSlot, Function.comp_apply, h, ih, Option.map_map,
          Bool.false_eq_true, if_false]
        rfl
      · simp [firstSlot, h]

theorem find?_eq_map_firstSlot (p : α → Bool) (l : List α) :
    l.find? p = (firstSlot p l).map Prod.snd := by
  induction l with
  | nil => rfl
  | cons x xs ih =>
      cases h : p x
      · simp only [List.find?_cons, h, firstSlot, ih, Option.map_map, if_false, Bool.false_eq_true]
        rfl
      · simp [List.find?_cons, h, firstSlot]

theorem firstSlot_or_spec {p q : α → Bool} {l : List α} {i : Nat} {x : α}
    (h : (firstSlot p l).or (firstSlot q l) = some (i, x)) :
    ∃ hi : i < l.length, l[i] = x ∧ ∀ j (hj : j < l.length), j < i → p l[j] = false := by
  cases hp : firstSlot p l with
  | some r =>
      rw [hp] at h
      obtain ⟨hi, hx, -, hbefore⟩ := firstSlot_spec (hp.trans h)
      exact ⟨hi, hx, hbefore⟩
  | none =>
      rw [hp, Option.none_or] at h
      obtain ⟨hi, hx, -, -⟩ := firstSlot_spec h
      exact ⟨hi, hx, fun j hj _ => firstSlot_eq_none_iff.mp hp _ (List.getElem_mem hj)⟩

theorem firstSlot_or_ne_none {p q : α → Bool} {l : List α} {x : α} (hx : x ∈ l)
    (h : p x = true ∨ q x = true) : (firstSlot p l).or (firstSlot q l) ≠ none := by
  rw [Ne, Option.or_eq_none, firstSlot_eq_none_iff, firstSlot_eq_none_iff]
  rintro ⟨hp, hq⟩
  rcases h with h | h
  · simp [hp x hx] at h
  · simp [hq x hx] at h

/-! ## Updating one slot -/

theorem modify_eq_set (f : α → α) (l : List α) {i : Nat} (hi : i < l.length) :
    l.modify f i = l.set i (f l[i]) :=
  List.ext_getElem (by simp) fun j h1 h2 => by
    rw [List.getElem_modify, List.getElem_set]
    split <;> simp_all

theorem firstSlot_set {p : α → Bool} {y : α} (hy : p y = true) :
    ∀ (l : List α) (i : Nat), i < l.length →
      (∀ j (hj : j < l.length), j < i → p l[j] = false) → firstSlot p (l.set i y) = some (i, y)
  | [], _, hi, _ => by simp at hi
  | x :: xs, 0, _, _ => by simp [firstSlot, hy]
  | x :: xs, i + 1, hi, hbefore => by
      have hx : p x = false := hbefore 0 (by simp) (by omega)
      rw [List.set_cons_succ, firstSlot, hx, firstSlot_set hy xs i (by simpa using hi)
        fun j hj hji => by simpa using hbefore (j + 1) (by simpa using hj) (by omega)]
      rfl

theorem firstSlot_of_first {p : α → Bool} :
    ∀ (l : List α) (i : Nat) (hi : i < l.length), p l[i] = true →
      (∀ j (hj : j < l.length), j < i → p l[j] = false) → firstSlot p l = some (i, l[i])
  | [], _, hi, _, _ => by simp at hi
  | x :: xs, 0, _, hp, _ => by simp_all [firstSlot]
  | x :: xs, i + 1, hi, hp, hbefore => by
      have hx : p x = false := hbefore 0 (by simp) (by omega)
      rw [firstSlot, hx, firstSlot_of_first xs i (by simpa using hi) (by simpa using hp)
        fun j hj hji => by simpa using hbefore (j + 1) (by simpa using hj) (by omega)]
      rfl

theorem firstSlot_set_of_eq {p : α → Bool} {y : α} :
    ∀ (l : List α) (i : Nat) (hi : i < l.length), p y = p l[i] →
      firstSlot p (l.set i y) = (firstSlot p l).map fun jx => if jx.1 = i then (i, y) else jx
  | [], _, hi, _ => by simp at hi
  | x :: xs, 0, _, hp => by
      simp only [List.getElem_cons_zero] at hp
      cases h : p x
      · simp only [List.set_cons_zero, firstSlot, hp, h, Option.map_map, Bool.false_eq_true,
          if_false]
        rfl
      · simp [firstSlot, hp, h]
  | x :: xs, i + 1, hi, hp => by
      cases h : p x
      · simp only [List.set_cons_succ, firstSlot, h, Bool.false_eq_true, if_false,
          firstSlot_set_of_eq xs i (by simpa using hi) (by simpa using hp), Option.map_map]
        congr 1
        funext jx
        by_cases hj : jx.1 = i <;> simp [hj]
      · simp [firstSlot, h]

theorem map_set_of_eq {β : Type} {f : α → β} {y : α} :
    ∀ (l : List α) (i : Nat) (hi : i < l.length), f y = f l[i] → (l.set i y).map f = l.map f
  | [], _, hi, _ => by simp at hi
  | x :: xs, 0, _, h => by
      simp only [List.getElem_cons_zero] at h
      simp only [List.set_cons_zero, List.map_cons, h]
  | x :: xs, i + 1, hi, h => by
      simp only [List.set_cons_succ, List.map_cons,
        map_set_of_eq xs i (by simpa using hi) (by simpa using h)]

theorem find?_set_of_false {q : α → Bool} {x : α} (hx : q x = false) :
    ∀ (l : List α) (i : Nat), (∀ hi : i < l.length, q l[i] = false) →
      (l.set i x).find? q = l.find? q
  | [], _, _ => rfl
  | y :: ys, 0, hy => by
      have : q y = false := hy (by simp)
      simp [List.find?_cons, hx, this]
  | y :: ys, i + 1, hy => by
      simp only [List.set_cons_succ, List.find?_cons]
      rw [find?_set_of_false hx ys i fun hi => by simpa using hy (by simpa using hi)]

theorem find?_set_of_only {q : α → Bool} {x : α} (hx : q x = true) :
    ∀ (l : List α) (i : Nat), i < l.length →
      (∀ j (hj : j < l.length), j ≠ i → q l[j] = false) → (l.set i x).find? q = some x
  | [], _, hi, _ => by simp at hi
  | y :: ys, 0, _, _ => by simp [List.find?_cons, hx]
  | y :: ys, i + 1, hi, hothers => by
      have hy : q y = false := hothers 0 (by simp) (by omega)
      simp only [List.set_cons_succ, List.find?_cons, hy]
      exact find?_set_of_only hx ys i (by simpa using hi) fun j hj hji =>
        by simpa using hothers (j + 1) (by simpa using hj) (by omega)

/-! ## Tables of entries standing for keys

In both pending tables an entry is live or free, and a live entry stands for
one key of the store.  The flush acts on the first live entry for each key,
which is the only one while no two live entries share a key.
-/

section Keyed

variable {β γ : Type}

def KeysUnique (live : α → Bool) (key : α → β) (l : List α) : Prop :=
  l.Pairwise fun u v => live u = true → live v = true → key u ≠ key v

variable {live : α → Bool} {key : α → β}

theorem keysUnique_of_free {l : List α} (h : ∀ u ∈ l, live u = false) : KeysUnique live key l :=
  List.Pairwise.imp_of_mem (R := fun _ _ => True)
    (fun hu _ _ hv => by simp [h _ hu] at hv) (List.pairwise_of_forall fun _ _ => trivial)

theorem KeysUnique.set {l : List α} {i : Nat} {x : α} (hl : KeysUnique live key l)
    (hothers : live x = true →
      ∀ j (hj : j < l.length), j ≠ i → live l[j] = true → key l[j] ≠ key x) :
    KeysUnique live key (l.set i x) := by
  rw [KeysUnique, List.pairwise_iff_getElem] at hl ⊢
  intro j k hj hk hjk
  simp only [List.length_set] at hj hk
  simp only [List.getElem_set]
  split_ifs with h1 h2 h2
  · omega
  · subst h1
    exact fun hx hv => (hothers hx k hk (by omega) hv).symm
  · subst h2
    exact fun hv hx => hothers hx j hj (by omega) hv
  · exact hl j k hj hk hjk

theorem KeysUnique.others {l : List α} (hl : KeysUnique live key l) {i : Nat}
    (hi : i < l.length) (hlive : live l[i] = true) :
    ∀ j (hj : j < l.length), j ≠ i → live l[j] = true → key l[j] ≠ key l[i] := by
  intro j hj hji hv hp
  have hu := List.pairwise_iff_getElem.mp hl
  rcases Nat.lt_or_gt_of_ne hji with hlt | hlt
  · exact hu j i hj hi hlt hv hlive hp
  · exact hu i j hi hj hlt hlive hv hp.symm

variable [DecidableEq β]

def entryFor (live : α → Bool) (key : α → β) (l : List α) (p : β) : Option α :=
  l.find? fun u => live u && key u == p

theorem entryFor_eq_none_iff {l : List α} {p : β} :
    entryFor live key l p = none ↔ ∀ u ∈ l, live u = true → key u ≠ p := by
  simp [entryFor, List.find?_eq_none]

theorem entryFor_some {l : List α} {p : β} {u : α} (h : entryFor live key l p = some u) :
    u ∈ l ∧ live u = true ∧ key u = p := by
  have hu := List.find?_some h
  simp only [Bool.and_eq_true, beq_iff_eq] at hu
  exact ⟨List.mem_of_find?_eq_some h, hu⟩

theorem foldl_apply_of_keysUnique {step : (β → γ) → α → β → γ} {w : α → γ → γ}
    (hstep : ∀ st u p, step st u p = if live u = true ∧ key u = p then w u (st p) else st p)
    {l : List α} (hl : KeysUnique live key l) (st : β → γ) (p : β) :
    l.foldl step st p =
      match entryFor live key l p with
      | some u => w u (st p)
      | none => st p := by
  induction l generalizing st with
  | nil => rfl
  | cons u l ih =>
      obtain ⟨hu, hl⟩ := List.pairwise_cons.mp hl
      rw [List.foldl_cons, ih hl, hstep]
      by_cases h : live u = true ∧ key u = p
      · have hnone : entryFor live key l p = none :=
          entryFor_eq_none_iff.mpr fun v hv hvv hvp => hu v hv h.1 hvv (h.2.trans hvp.symm)
        rw [hnone]
        simp [entryFor, List.find?_cons, h]
      · have hu' : (live u && key u == p) = false := by simpa using h
        simp only [h, if_false, entryFor, List.find?_cons, hu']

theorem entryFor_set_self {l : List α} {i : Nat} {x : α} (hi : i < l.length) (hx : live x = true)
    (hothers : ∀ j (hj : j < l.length), j ≠ i → live l[j] = true → key l[j] ≠ key x) :
    entryFor live key (l.set i x) (key x) = some x :=
  find?_set_of_only (by simp [hx]) l i hi fun j hj hji => by
    have := hothers j hj hji
    cases h : live l[j] <;> simp_all

theorem entryFor_set_other {l : List α} {i : Nat} {x : α} {p : β} (hp : key x ≠ p)
    (hold : ∀ hi : i < l.length, live l[i] = false ∨ key l[i] ≠ p) :
    entryFor live key (l.set i x) p = entryFor live key l p :=
  find?_set_of_false (by simp [hp]) l i fun hi => by
    rcases hold hi with h | h <;> simp [h]

end Keyed

end MeshSettings
