import LayeredTags.Cache.Key
import LayeredTags.Proofs.Json.Lexeme

/-!
# Which identities the key keeps apart

Every step of the hash can be undone: the exclusive or with a byte by itself, and the product with
the odd factor by its inverse modulo `2 ^ 64`. So a common tail merges no hashes that differ, and
neither do the digits that a hash is written with.

* `hashByte_left_injective`, `hashByte_injective`: one step determines the hash before it, given the
  byte, and the byte, given the hash.
* `hashBytes_injective`: the same for a list of bytes.
* `hexWord_injective`: a word can be read back from its digits.
* `cacheKey_keeps_apart`: keys of identities with a common tail, and of identities that differ in a
  single byte.
-/

namespace LayeredTags

/-! ## The hash -/

/-- The factor that undoes the factor of every step. -/
def hashPrimeInverse : UInt64 := 0xce965057aff6957b

theorem hashPrime_mul_inverse : hashPrime * hashPrimeInverse = 1 := by decide

theorem mul_hashPrime_injective : Function.Injective (· * hashPrime) := by
  intro a b h
  have hback : a * hashPrime * hashPrimeInverse = b * hashPrime * hashPrimeInverse :=
    congrArg (· * hashPrimeInverse) h
  rwa [UInt64.mul_assoc, UInt64.mul_assoc, hashPrime_mul_inverse, UInt64.mul_one,
    UInt64.mul_one] at hback

theorem hashByte_left_injective (byte : UInt8) : Function.Injective (hashByte · byte) := by
  intro a b h
  exact (UInt64.xor_left_inj _).mp (mul_hashPrime_injective h)

theorem hashByte_injective (hash : UInt64) : Function.Injective (hashByte hash) := by
  intro a b h
  exact UInt8.toUInt64_inj.mp ((UInt64.xor_right_inj _).mp (mul_hashPrime_injective h))

theorem hashBytes_append (hash : UInt64) (front back : List UInt8) :
    hashBytes hash (front ++ back) = hashBytes (hashBytes hash front) back :=
  List.foldl_append

theorem hashBytes_injective (bytes : List UInt8) : Function.Injective (hashBytes · bytes) := by
  induction bytes with
  | nil => exact fun _ _ h => h
  | cons byte rest ih => exact ih.comp (hashByte_left_injective byte)

theorem hashBytes_ne_of_byte_ne (hash : UInt64) (front back : List UInt8) {a b : UInt8}
    (hne : a ≠ b) : hashBytes hash (front ++ a :: back) ≠ hashBytes hash (front ++ b :: back) := by
  rw [hashBytes_append, hashBytes_append]
  intro h
  exact hne (hashByte_injective _ (hashBytes_injective back h))

/-! ## The digits -/

/-- The number that hexadecimal digits spell, behind digits that spell `value`. -/
def hexValue (value : Nat) (digits : List Char) : Nat :=
  digits.foldl (fun value c => 16 * value + (Json.Lexeme.hexDigit? c).getD 0) value

theorem hexValue_append (value : Nat) (front back : List Char) :
    hexValue value (front ++ back) = hexValue (hexValue value front) back :=
  List.foldl_append

theorem hexValue_digitChar (value : Nat) {d : Nat} (h : d < 16) :
    hexValue value [d.digitChar] = 16 * value + d := by
  have hdigit := (Json.Lexeme.hexDigit?_digitChar d h).1
  rw [hexValue, List.foldl_cons, List.foldl_nil, hdigit, Option.getD_some]

theorem hexValue_replicate_zero (count : Nat) : hexValue 0 (List.replicate count '0') = 0 := by
  induction count with
  | zero => rfl
  | succ count ih => exact ih

theorem hexValue_toDigits (n : Nat) : hexValue 0 (Nat.toDigits 16 n) = n := by
  induction n using Nat.strongRecOn with
  | ind n ih =>
    by_cases hsmall : n < 16
    · rw [Nat.toDigits_of_lt_base hsmall, hexValue_digitChar 0 hsmall]
      omega
    · have hlast : n % 16 < 16 := Nat.mod_lt n (by decide)
      rw [Nat.toDigits_of_base_le (by decide) (by omega), hexValue_append, ih (n / 16) (by omega),
        hexValue_digitChar _ hlast]
      omega

theorem hexValue_hexWord (n : UInt64) : hexValue 0 (hexWord n).toList = n.toNat := by
  rw [hexWord, String.toList_ofList, hexValue_append, hexValue_replicate_zero, hexValue_toDigits]

theorem hexWord_injective : Function.Injective hexWord := by
  intro m n h
  rw [← UInt64.toNat_inj, ← hexValue_hexWord, ← hexValue_hexWord, h]

/-! ## The key -/

variable {xs ys : List Path}

theorem cacheKey_eq_iff : cacheKey xs = cacheKey ys ↔
    hashBytes hashOffset (identityBytes xs) = hashBytes hashOffset (identityBytes ys) :=
  hexWord_injective.eq_iff

theorem identityBytes_append (xs ys : List Path) :
    identityBytes (xs ++ ys) = identityBytes xs ++ identityBytes ys :=
  List.flatMap_append

theorem exists_append_cons_of_existsUnique_ne {α : Type} {as bs : List α}
    (hlength : as.length = bs.length) (hone : ∃! i : Nat, as[i]? ≠ bs[i]?) :
    ∃ front a b back, as = front ++ a :: back ∧ bs = front ++ b :: back ∧ a ≠ b := by
  obtain ⟨i, hi, honly⟩ := hone
  have hsame : ∀ j, j ≠ i → as[j]? = bs[j]? := by
    intro j hj
    by_contra hne
    exact hj (honly j hne)
  have hlt : i < as.length := by
    by_contra hge
    exact hi (by rw [List.getElem?_eq_none (by omega), List.getElem?_eq_none (by omega)])
  have hlt' : i < bs.length := hlength ▸ hlt
  have hfront : as.take i = bs.take i := by
    refine List.ext_getElem? fun j => ?_
    rw [List.getElem?_take, List.getElem?_take]
    split
    · exact hsame j (by omega)
    · rfl
  have hback : as.drop (i + 1) = bs.drop (i + 1) := by
    refine List.ext_getElem? fun j => ?_
    rw [List.getElem?_drop, List.getElem?_drop]
    exact hsame (i + 1 + j) (by omega)
  refine ⟨as.take i, as[i], bs[i], as.drop (i + 1), ?_, ?_, ?_⟩
  · rw [← List.drop_eq_getElem_cons hlt, List.take_append_drop]
  · rw [hfront, hback, ← List.drop_eq_getElem_cons hlt', List.take_append_drop]
  · intro heq
    exact hi (by rw [List.getElem?_eq_getElem hlt, List.getElem?_eq_getElem hlt', heq])

/-- **Identities that the key keeps apart.** With a common tail two identities have the same key if
and only if they have the same key without it. Two identities whose bytes are equally many and
differ in exactly one place have different keys. -/
theorem cacheKey_keeps_apart (xs ys zs : List Path) :
    (cacheKey (xs ++ zs) = cacheKey (ys ++ zs) ↔ cacheKey xs = cacheKey ys) ∧
      ((identityBytes xs).length = (identityBytes ys).length →
        (∃! i : Nat, (identityBytes xs)[i]? ≠ (identityBytes ys)[i]?) →
          cacheKey xs ≠ cacheKey ys) := by
  constructor
  · rw [cacheKey_eq_iff, cacheKey_eq_iff, identityBytes_append, identityBytes_append,
      hashBytes_append, hashBytes_append, (hashBytes_injective _).eq_iff]
  · intro hlength hone
    obtain ⟨front, a, b, back, hxs, hys, hne⟩ :=
      exists_append_cons_of_existsUnique_ne hlength hone
    rw [ne_eq, cacheKey_eq_iff, hxs, hys]
    exact hashBytes_ne_of_byte_ne hashOffset front back hne

/-- The end of a path in place of a slash is one byte of difference. -/
theorem cacheKey_keeps_apart_boundary :
    (identityBytes [⟨"a"⟩, ⟨"b"⟩]).length = (identityBytes [⟨"a/b"⟩]).length ∧
      (∃! i : Nat, (identityBytes [⟨"a"⟩, ⟨"b"⟩])[i]? ≠ (identityBytes [⟨"a/b"⟩])[i]?) ∧
      cacheKey [⟨"a"⟩, ⟨"b"⟩] ≠ cacheKey [⟨"a/b"⟩] ∧
      cacheKey [⟨"a"⟩, ⟨"b"⟩, ⟨"c"⟩] ≠ cacheKey [⟨"a/b"⟩, ⟨"c"⟩] := by
  have hpair : identityBytes [⟨"a"⟩, ⟨"b"⟩] = [97, 0, 98, 0] := by decide
  have hone : identityBytes [⟨"a/b"⟩] = [97, 47, 98, 0] := by decide
  have hlength : (identityBytes [⟨"a"⟩, ⟨"b"⟩]).length = (identityBytes [⟨"a/b"⟩]).length := by
    rw [hpair, hone]
    rfl
  have hplace : ∃! i : Nat, (identityBytes [⟨"a"⟩, ⟨"b"⟩])[i]? ≠ (identityBytes [⟨"a/b"⟩])[i]? := by
    rw [hpair, hone]
    refine ⟨1, by decide, fun i hi => ?_⟩
    rcases i with _ | _ | _ | _ | i
    · exact absurd rfl hi
    · rfl
    · exact absurd rfl hi
    · exact absurd rfl hi
    · exact absurd rfl hi
  have hkeys := cacheKey_keeps_apart [⟨"a"⟩, ⟨"b"⟩] [⟨"a/b"⟩] [⟨"c"⟩]
  exact ⟨hlength, hplace, hkeys.2 hlength hplace, mt hkeys.1.mp (hkeys.2 hlength hplace)⟩

end LayeredTags
