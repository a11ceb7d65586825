import MeshSettings.Foundation.Bytes
import Mathlib.Data.Nat.Digits

/-!
# The key-value store and its keys

`settings.c` talks to flash through `tls_mesh_store_*`: `conf_save_one` (bound
to `settings_save_one`) updates one key, and `conf_load` walks every live key
once.  The store keeps the last value written under each key, and a write of
length zero deletes the key.

Keys are the C strings `snprintk` builds: a category name, and for indexed
categories `/` and the index in `%x`.  On load the index is read back with
`strtol(key + k, NULL, 16)` at the fixed offset `k` of the category name.  The
main lemma of this file, `strtol16_hex_append`, says that this reads back the
printed index.
-/

namespace MeshSettings

/-- A settings key: the characters of the C string, without its NUL. -/
abbrev Path := List Char

/-- The store: the value last written under each key, `none` once deleted. -/
abbrev Store := Path → Option Bytes

/--
`settings_save_one`, that is `conf_save_one`: `tls_mesh_store_update` with the
write flag set for a non-empty value, and cleared (delete) for an empty one.
-/
def settingsSaveOne (st : Store) (path : Path) (value : Bytes) : Store :=
  Function.update st path (if value.length = 0 then none else some value)

@[simp] theorem settingsSaveOne_same (st : Store) (path : Path) (value : Bytes) :
    settingsSaveOne st path value path =
      if value.length = 0 then none else some value :=
  Function.update_same _ _ _

theorem settingsSaveOne_apply (st : Store) (path : Path) (value : Bytes) (other : Path) :
    settingsSaveOne st path value other =
      if other = path then (if value.length = 0 then none else some value) else st other :=
  Function.update_apply _ _ _ _

theorem settingsSaveOne_other (st : Store) {path other : Path} (value : Bytes)
    (h : other ≠ path) : settingsSaveOne st path value other = st other :=
  Function.update_noteq h _ _

theorem eq_of_settingsSaveOne_same {st : Store} {path : Path} {value v : Bytes}
    (h : settingsSaveOne st path value path = some v) : v = value := by
  rw [settingsSaveOne_same] at h
  split_ifs at h
  exact (Option.some.inj h).symm

theorem foldl_apply_of_forall {α : Type} {step : Store → α → Store} {p : Path}
    (h : ∀ st a, step st a p = st p) (l : List α) (st : Store) : l.foldl step st p = st p := by
  induction l generalizing st with
  | nil => rfl
  | cons a l ih => rw [List.foldl_cons, ih, h]

/-! ## Printing an index -/

/-- `%x` of an unsigned value: lowercase hex digits, most significant first. -/
def hex (n : Nat) : List Char := Nat.toDigits 16 n

def hexDigit? (c : Char) : Option Nat :=
  if '0' ≤ c ∧ c ≤ '9' then some (c.toNat - '0'.toNat)
  else if 'a' ≤ c ∧ c ≤ 'f' then some (c.toNat - 'a'.toNat + 10)
  else if 'A' ≤ c ∧ c ≤ 'F' then some (c.toNat - 'A'.toNat + 10)
  else none

def hexAccum (acc : Nat) : List Char → Nat
  | [] => acc
  | c :: cs =>
      match hexDigit? c with
      | some d => hexAccum (16 * acc + d) cs
      | none => acc

def isSpace (c : Char) : Bool :=
  c = ' ' || c = '\t' || c = '\n' || c = '\x0b' || c = '\x0c' || c = '\r'

def takeSign : List Char → Bool × List Char
  | '-' :: t => (true, t)
  | '+' :: t => (false, t)
  | t => (false, t)

def skipHexPrefix : List Char → List Char
  | '0' :: c :: t => if c = 'x' ∨ c = 'X' then t else '0' :: c :: t
  | t => t

/--
`strtol(s, NULL, 16)` with a 32-bit `long`: leading white space, an optional
sign, an optional `0x`, then hex digits.  A value out of range saturates at
`LONG_MAX` or `LONG_MIN`.
-/
def strtol16 (s : List Char) : Int :=
  let (neg, digits) := takeSign (s.dropWhile isSpace)
  let v : Int := hexAccum 0 (skipHexPrefix digits)
  if neg then max (-v) (-2 ^ 31) else min v (2 ^ 31 - 1)

def toU16 (v : Int) : UInt16 := UInt16.ofNat (v % 2 ^ 16).toNat

/-! ## Reading back a printed index -/

private theorem hexDigit?_digitChar {d : Nat} (h : d < 16) :
    hexDigit? (Nat.digitChar d) = some d := by
  revert d; decide

private theorem toDigitsCore_append (f n : Nat) (ds : List Char) :
    Nat.toDigitsCore 16 f n ds = Nat.toDigitsCore 16 f n [] ++ ds := by
  induction f generalizing n ds with
  | zero => rfl
  | succ f ih =>
      simp only [Nat.toDigitsCore]
      split
      · rfl
      · rw [ih _ (_ :: ds), ih _ [_]]
        simp

private theorem hexAccum_toDigitsCore (f n : Nat) (hn : n < f) (ds : List Char)
    (acc : Nat) :
    ∃ k, hexAccum acc (Nat.toDigitsCore 16 f n [] ++ ds) =
      hexAccum (16 ^ k * acc + n) ds := by
  induction f generalizing n acc ds with
  | zero => omega
  | succ f ih =>
      have hd := hexDigit?_digitChar (Nat.mod_lt n (show 16 > 0 by decide))
      simp only [Nat.toDigitsCore]
      split
      · refine ⟨1, ?_⟩
        simp only [List.singleton_append, hexAccum, hd]
        congr 1
        omega
      · rw [toDigitsCore_append, List.append_assoc]
        obtain ⟨k, hk⟩ := ih (n / 16) (by omega) _ acc
        refine ⟨k + 1, ?_⟩
        rw [hk]
        simp only [List.singleton_append, hexAccum, hd]
        congr 1
        rw [pow_succ, Nat.mul_comm (16 ^ k) 16, Nat.mul_assoc]
        generalize 16 ^ k * acc = x
        omega

private theorem mem_toDigitsCore (f n : Nat) (ds : List Char) (c : Char)
    (hc : c ∈ Nat.toDigitsCore 16 f n ds) : c ∈ ds ∨ ∃ d < 16, c = Nat.digitChar d := by
  induction f generalizing n ds with
  | zero => exact .inl hc
  | succ f ih =>
      simp only [Nat.toDigitsCore] at hc
      have hd : n % 16 < 16 := Nat.mod_lt n (by decide)
      split at hc
      · rcases List.mem_cons.mp hc with rfl | h
        · exact .inr ⟨_, hd, rfl⟩
        · exact .inl h
      · rcases ih _ _ hc with h | h
        · rcases List.mem_cons.mp h with rfl | h
          · exact .inr ⟨_, hd, rfl⟩
          · exact .inl h
        · exact .inr h

private theorem digitChar_facts : ∀ d < 16,
    isSpace (Nat.digitChar d) = false ∧ Nat.digitChar d ≠ '-' ∧ Nat.digitChar d ≠ '+' ∧
      Nat.digitChar d ≠ 'x' ∧ Nat.digitChar d ≠ 'X' := by
  decide

theorem hexAccum_hex_append (n : Nat) (rest : List Char) (hrest : ∀ c ∈ rest.head?, c = '/') :
    hexAccum 0 (hex n ++ rest) = n := by
  obtain ⟨k, hk⟩ := hexAccum_toDigitsCore (n + 1) n (Nat.lt_succ_self n) rest 0
  rw [hex, Nat.toDigits, hk, Nat.mul_zero, Nat.zero_add]
  cases rest with
  | nil => rfl
  | cons c t =>
      obtain rfl : c = '/' := hrest c rfl
      rfl

theorem strtol16_hex_append (n : Nat) (rest : List Char) (hrest : ∀ c ∈ rest.head?, c = '/') :
    strtol16 (hex n ++ rest) = min (n : Int) (2 ^ 31 - 1) := by
  have hne : hex n ≠ [] := by
    simp only [hex, Nat.toDigits, Nat.toDigitsCore]
    split
    · simp
    · rw [toDigitsCore_append]; simp
  obtain ⟨c, cs, hcs⟩ := List.exists_cons_of_ne_nil hne
  have hdig : ∀ x ∈ hex n, ∃ d < 16, x = Nat.digitChar d := fun x hx =>
    (mem_toDigitsCore _ n [] x hx).resolve_left (List.not_mem_nil x)
  obtain ⟨d, hd, rfl⟩ := hdig c (hcs ▸ List.mem_cons_self c cs)
  obtain ⟨hsp, hm, hp, -, -⟩ := digitChar_facts d hd
  have hnext : ∀ x ∈ (cs ++ rest).head?, x ≠ 'x' ∧ x ≠ 'X' := by
    intro x hx
    cases cs with
    | nil =>
        obtain rfl := hrest x (by simpa using hx)
        decide
    | cons e es =>
        obtain rfl : e = x := by simpa using hx
        obtain ⟨d', hd', rfl⟩ := hdig e (by simp [hcs])
        exact (digitChar_facts d' hd').2.2.2
  have hsign : takeSign (Nat.digitChar d :: (cs ++ rest)) =
      (false, Nat.digitChar d :: (cs ++ rest)) := by
    unfold takeSign; split <;> simp_all
  have hprefix : skipHexPrefix (Nat.digitChar d :: (cs ++ rest)) =
      Nat.digitChar d :: (cs ++ rest) := by
    unfold skipHexPrefix; split
    · rename_i c t heq
      simp only [List.cons.injEq] at heq
      have := hnext c (by simp [heq.2])
      simp_all
    · rfl
  have hval := hexAccum_hex_append n rest hrest
  rw [hcs, List.cons_append] at hval
  simp only [strtol16, hcs, List.cons_append, List.dropWhile_cons, hsp, Bool.false_eq_true,
    if_false, hsign, hprefix, hval]

theorem mem_hex {n : Nat} {c : Char} (hc : c ∈ hex n) : ∃ d < 16, c = Nat.digitChar d :=
  (mem_toDigitsCore _ n [] c hc).resolve_left (List.not_mem_nil c)

theorem hex_injective : Function.Injective hex := fun i j h => by
  have hi := hexAccum_hex_append i [] (by simp)
  have hj := hexAccum_hex_append j [] (by simp)
  rw [h] at hi
  exact hi.symm.trans hj

theorem toU16_strtol16_hex_append (v : UInt16) (rest : List Char)
    (hrest : ∀ c ∈ rest.head?, c = '/') : toU16 (strtol16 (hex v.toNat ++ rest)) = v := by
  have hv := v.toNat_lt_size
  rw [strtol16_hex_append _ _ hrest, min_eq_left (by simp [UInt16.size] at hv ⊢; omega)]
  apply UInt16.toNat.inj
  simp [toU16, u16_toNat_ofNat, UInt16.size] at hv ⊢
  omega

end MeshSettings
