import LayeredTags.Attributes.Reader
import LayeredTags.Proofs.Token.Spelling
import Mathlib.Data.List.Induction

/-!
# The attributes of a row of pieces

A raw text with balanced quotes is a row of pieces with blanks between them. What counts of it are
the pieces that spell a pair, and nothing else has an effect.

* `IsPiece`, `Spaced`: a piece, and the pieces that a text consists of.
* `SpellsPair`, `SpellsPairs`: the pair that a piece spells, and those of a list of pieces.
* `attributePieces_of_spaced`: a text is cut into its pieces.
* `attributePair?_eq_some_iff`: the reader knows exactly the pieces that spell a pair.
* `Attributes.keys_ofList`, `Attributes.get?_ofList`: pairs inserted one after the other.
* `Attributes.read_of_spaced`: the attributes of a text.
-/

namespace LayeredTags

open Text

/-- A text that is not empty, has balanced quotes, and holds no blank outside them. -/
structure IsPiece (piece : List Char) : Prop where
  nonempty : piece ≠ []
  balanced : Even (piece.count '"')
  unbroken : ∀ n, ∀ h : n < piece.length, isBlank piece[n] = true →
    ¬ Even ((piece.take n).count '"')

/-- A text consists of pieces: there may be blanks anywhere between them and at the ends, and
behind every piece there is a blank or the end. -/
inductive Spaced : List (List Char) → List Char → Prop where
  | nil : Spaced [] []
  | blank {c : Char} {pieces : List (List Char)} {text : List Char} (hblank : isBlank c = true)
      (hrest : Spaced pieces text) : Spaced pieces (c :: text)
  | piece {piece text : List Char} {pieces : List (List Char)} (hpiece : IsPiece piece)
      (hstop : ∀ c ∈ text.head?, isBlank c = true) (hrest : Spaced pieces text) :
      Spaced (piece :: pieces) (piece ++ text)

theorem Spaced.piece_blank {piece text : List Char} {c : Char} {pieces : List (List Char)}
    (hpiece : IsPiece piece) (hblank : isBlank c = true) (hrest : Spaced pieces text) :
    Spaced (piece :: pieces) (piece ++ c :: text) := by
  refine .piece hpiece ?_ (.blank hblank hrest)
  rintro _ ⟨⟩
  exact hblank

/-- A piece is a key, an equals sign and a value between double quotes. -/
structure SpellsPair (piece : List Char) (pair : String × String) : Prop where
  nonempty : pair.1.toList ≠ []
  keyChars : ∀ c ∈ pair.1.toList, isKeyChar c = true
  unquoted : '"' ∉ pair.2.toList
  spelling : piece = pair.1.toList ++ '=' :: '"' :: (pair.2.toList ++ ['"'])

/-- The pairs that the pieces of a list spell, in order. Pieces that spell none are malformed and
are left out. -/
inductive SpellsPairs : List (List Char) → List (String × String) → Prop where
  | nil : SpellsPairs [] []
  | pair {piece : List Char} {pieces : List (List Char)} {pair : String × String}
      {pairs : List (String × String)} (hpair : SpellsPair piece pair)
      (hrest : SpellsPairs pieces pairs) : SpellsPairs (piece :: pieces) (pair :: pairs)
  | malformed {piece : List Char} {pieces : List (List Char)} {pairs : List (String × String)}
      (hnone : ∀ pair, ¬ SpellsPair piece pair) (hrest : SpellsPairs pieces pairs) :
      SpellsPairs (piece :: pieces) pairs

/-! ## Cutting a text -/

theorem isBlank_quote : isBlank '"' = false := by decide

theorem attributePiecesFrom_append {inQuotes : Bool} {piece chars rest : List Char}
    (hbalanced : Even (inQuotes.toNat + chars.count '"'))
    (hunbroken : ∀ n, ∀ h : n < chars.length, isBlank chars[n] = true →
      ¬ Even (inQuotes.toNat + (chars.take n).count '"')) :
    attributePiecesFrom inQuotes piece (chars ++ rest) =
      attributePiecesFrom false (chars.reverse ++ piece) rest := by
  induction chars generalizing inQuotes piece with
  | nil =>
    cases inQuotes with
    | false => rfl
    | true => simp at hbalanced
  | cons c chars ih =>
    have hstays : (isBlank c && !(if c = '"' then !inQuotes else inQuotes)) = false := by
      by_cases hblank : isBlank c = true
      · have hquote : c ≠ '"' := by
          rintro rfl
          rw [isBlank_quote] at hblank
          cases hblank
        have hinside := hunbroken 0 (Nat.zero_lt_succ _) hblank
        rw [if_neg hquote]
        cases inQuotes with
        | false => simp at hinside
        | true => simp
      · simp [hblank]
    rw [List.cons_append, attributePiecesFrom, hstays, if_neg Bool.false_ne_true,
      ih (even_quotes_cons.mp hbalanced), List.reverse_cons, List.append_assoc]
    · rfl
    · intro n hn hblank
      rw [← even_quotes_cons]
      exact hunbroken (n + 1) (Nat.succ_lt_succ hn) hblank

theorem attributePiecesFrom_blank {piece rest : List Char} {c : Char} (h : isBlank c = true) :
    attributePiecesFrom false piece (c :: rest) =
      flushPiece piece ++ attributePiecesFrom false [] rest := by
  have hquote : c ≠ '"' := by
    rintro rfl
    rw [isBlank_quote] at h
    cases h
  rw [attributePiecesFrom, if_neg hquote, h]
  rfl

theorem flushPiece_reverse {piece : List Char} (h : piece ≠ []) :
    flushPiece piece.reverse = [piece] := by
  rw [flushPiece, if_neg (mt List.reverse_eq_nil_iff.mp h), List.reverse_reverse]

theorem attributePieces_of_spaced {pieces : List (List Char)} {text : List Char}
    (h : Spaced pieces text) : attributePieces text = pieces := by
  rw [attributePieces]
  induction h with
  | nil => rfl
  | blank hblank hrest ih => rw [attributePiecesFrom_blank hblank, ih, flushPiece]; rfl
  | @piece piece text pieces hpiece hstop hrest ih =>
    have hwhole : attributePiecesFrom false [] (piece ++ text) =
        attributePiecesFrom false piece.reverse text := by
      rw [attributePiecesFrom_append, List.append_nil]
      · simpa using hpiece.balanced
      · simpa using hpiece.unbroken
    rw [hwhole]
    cases text with
    | nil =>
      obtain rfl : [] = pieces := ih
      exact flushPiece_reverse hpiece.nonempty
    | cons c rest =>
      have hblank : isBlank c = true := hstop c rfl
      rw [attributePiecesFrom_blank hblank] at ih
      rw [attributePiecesFrom_blank hblank, flushPiece_reverse hpiece.nonempty]
      exact congrArg (piece :: ·) ih

/-! ## Reading a piece -/

theorem attributePair?_eq_some_iff {piece : List Char} {pair : String × String} :
    attributePair? piece = some pair ↔ SpellsPair piece pair := by
  constructor
  · intro h
    unfold attributePair? at h
    dsimp only at h
    split at h
    · cases h
    · rename_i hkey
      split at h
      · rename_i rest htail
        split at h
        · rename_i hclose
          obtain rfl := Option.some.inj h
          refine ⟨by simpa using hkey, fun c hc => ?_, fun hmem => ?_, ?_⟩
          · exact List.mem_takeWhile_imp (by simpa using hc)
          · have htaken : '"' ∈ rest.takeWhile (· ≠ '"') := by simpa using hmem
            simpa using List.mem_takeWhile_imp htaken
          · rw [String.toList_ofList, String.toList_ofList, ← hclose,
              List.takeWhile_append_dropWhile, ← htail, List.takeWhile_append_dropWhile]
        · cases h
      · cases h
  · rintro ⟨hkey, hchars, hvalue, rfl⟩
    have hstop : ∀ c ∈ ('=' :: '"' :: (pair.2.toList ++ ['"'])).head?, isKeyChar c = false := by
      intro c hc
      cases hc
      decide
    obtain ⟨htake, hdrop⟩ := takeWhile_append_stop hchars hstop
    have hvalueChars : ∀ c ∈ pair.2.toList, decide (c ≠ '"') = true := by
      intro c hc
      simp only [ne_eq, decide_eq_true_eq]
      rintro rfl
      exact hvalue hc
    have hclose : ∀ c ∈ ['"'].head?, decide (c ≠ '"') = false := by
      intro c hc
      cases hc
      rfl
    obtain ⟨htakeValue, hdropValue⟩ := takeWhile_append_stop hvalueChars hclose
    rw [attributePair?]
    simp only [htake, hdrop, if_neg hkey, htakeValue, hdropValue, String.ofList_toList]

theorem spellsPairs_iff {pieces : List (List Char)} {pairs : List (String × String)} :
    SpellsPairs pieces pairs ↔ pairs = pieces.filterMap attributePair? := by
  constructor
  · intro h
    induction h with
    | nil => rfl
    | pair hpair hrest ih =>
      rw [List.filterMap_cons_some (attributePair?_eq_some_iff.mpr hpair), ih]
    | malformed hnone hrest ih =>
      rw [List.filterMap_cons_none, ih]
      rw [Option.eq_none_iff_forall_ne_some]
      exact fun pair hpair => hnone pair (attributePair?_eq_some_iff.mp hpair)
  · rintro rfl
    induction pieces with
    | nil => exact .nil
    | cons piece pieces ih =>
      cases hpair : attributePair? piece with
      | none =>
        rw [List.filterMap_cons_none hpair]
        refine .malformed (fun pair hspells => ?_) ih
        rw [attributePair?_eq_some_iff.mpr hspells] at hpair
        cases hpair
      | some pair =>
        rw [List.filterMap_cons_some hpair]
        exact .pair (attributePair?_eq_some_iff.mp hpair) ih

/-! ## Inserting pairs -/

theorem keys_insertPair (key value : String) (pairs : List (String × String)) :
    (insertPair key value pairs).map Prod.fst =
      if key ∈ pairs.map Prod.fst then pairs.map Prod.fst else pairs.map Prod.fst ++ [key] := by
  induction pairs with
  | nil => rfl
  | cons pair rest ih =>
    obtain ⟨k, v⟩ := pair
    rw [insertPair]
    by_cases hk : k = key
    · simp [hk]
    · rw [if_neg hk, List.map_cons, ih, List.map_cons]
      simp only [List.mem_cons, Ne.symm hk, false_or]
      split <;> rfl

theorem lookup_insertPair (key value k : String) (pairs : List (String × String)) :
    (insertPair key value pairs).lookup k = if k = key then some value else pairs.lookup k := by
  induction pairs with
  | nil =>
    by_cases hk : k = key
    · simp [insertPair, hk]
    · simp [insertPair, hk, List.lookup_cons, beq_eq_false_iff_ne.mpr hk]
  | cons pair rest ih =>
    obtain ⟨m, v⟩ := pair
    rw [insertPair]
    by_cases hm : m = key
    · subst hm
      by_cases hk : k = m
      · simp [hk]
      · simp [hk, List.lookup_cons, beq_eq_false_iff_ne.mpr hk]
    · by_cases hk : k = m
      · subst hk
        simp [hm]
      · simp [hm, List.lookup_cons, beq_eq_false_iff_ne.mpr hk, ih]

namespace Attributes

theorem ofList_concat (pairs : List (String × String)) (pair : String × String) :
    ofList (pairs ++ [pair]) = (ofList pairs).insert pair.1 pair.2 :=
  List.foldl_append ..

theorem keys_ofList (pairs : List (String × String)) :
    (ofList pairs).keys = (pairs.map Prod.fst).eraseDups := by
  induction pairs using List.reverseRecOn with
  | nil => rfl
  | append_singleton pairs pair ih =>
    have hkeys : (ofList (pairs ++ [pair])).keys =
        if pair.1 ∈ (ofList pairs).keys then (ofList pairs).keys
        else (ofList pairs).keys ++ [pair.1] := by
      rw [ofList_concat]
      exact keys_insertPair pair.1 pair.2 (ofList pairs).pairs
    rw [hkeys, ih, List.map_append, List.eraseDups_append]
    simp only [List.mem_eraseDups]
    split
    · rename_i hknown
      simp [List.removeAll, hknown]
    · rename_i hnew
      simp [List.removeAll, hnew, List.eraseDups_cons]

theorem get?_ofList (pairs : List (String × String)) (key : String) :
    (ofList pairs).get? key = pairs.reverse.lookup key := by
  induction pairs using List.reverseRecOn with
  | nil => rfl
  | append_singleton pairs pair ih =>
    obtain ⟨k, v⟩ := pair
    rw [ofList_concat, get?, pairs_insert, lookup_insertPair, List.reverse_append, ← get?, ih]
    by_cases hk : key = k
    · simp [hk]
    · simp [hk, List.lookup_cons, beq_eq_false_iff_ne.mpr hk]

/-- **Attributes of a row of pieces.** A text that consists of pieces has the keys of the pairs that
they spell, in the order in which they first occur, and the last value of each. Malformed pieces
have no effect: another text whose pieces spell the same pairs has the same attributes. -/
theorem read_of_spaced {pieces : List (List Char)} {raw : String} (h : Spaced pieces raw.toList) :
    ∃ pairs, (∀ others, SpellsPairs pieces others ↔ others = pairs) ∧
      (read raw).keys = (pairs.map Prod.fst).eraseDups ∧
      (∀ key, (read raw).get? key = pairs.reverse.lookup key) ∧
      ∀ (others : List (List Char)) (text : String), Spaced others text.toList →
        SpellsPairs others pairs → read text = read raw := by
  have hread : ∀ {others : List (List Char)} {text : String}, Spaced others text.toList →
      read text = ofList (others.filterMap attributePair?) := by
    intro others text hothers
    rw [read, attributePieces_of_spaced hothers]
  refine ⟨pieces.filterMap attributePair?, fun others => spellsPairs_iff, ?_, ?_, ?_⟩
  · rw [hread h, keys_ofList]
  · intro key
    rw [hread h, get?_ofList]
  · intro others text hothers hpairs
    rw [hread hothers, hread h, spellsPairs_iff.mp hpairs]

/-- A word, a key with two values, two pairs without a blank between them, and unusual blanks. -/
def mixedRow : String :=
  "bare a=\"x  y\"\u2003d=\"x\"e=\"y\"  a=\"z\"\u00a0"

theorem read_of_spaced_mixedRow :
    Spaced ["bare".toList, "a=\"x  y\"".toList, "d=\"x\"e=\"y\"".toList, "a=\"z\"".toList]
        mixedRow.toList ∧
      (read mixedRow).keys = ["a"] ∧ (read mixedRow).get? "a" = some "z" := by
  have htext : mixedRow.toList = "bare".toList ++ ' ' :: ("a=\"x  y\"".toList ++ '\u2003' ::
      ("d=\"x\"e=\"y\"".toList ++ ' ' :: ' ' :: ("a=\"z\"".toList ++ ['\u00a0']))) := by decide
  have hspaced : Spaced ["bare".toList, "a=\"x  y\"".toList, "d=\"x\"e=\"y\"".toList,
      "a=\"z\"".toList] mixedRow.toList := by
    rw [htext]
    refine .piece_blank ⟨by decide, by decide, by decide⟩ (by decide) ?_
    refine .piece_blank ⟨by decide, by decide, by decide⟩ (by decide) ?_
    refine .piece_blank ⟨by decide, by decide, by decide⟩ (by decide) (.blank (by decide) ?_)
    exact .piece_blank ⟨by decide, by decide, by decide⟩ (by decide) .nil
  obtain ⟨pairs, hpairs, hkeys, hvalues, -⟩ := read_of_spaced hspaced
  have hspelled : SpellsPairs ["bare".toList, "a=\"x  y\"".toList, "d=\"x\"e=\"y\"".toList,
      "a=\"z\"".toList] [("a", "x  y"), ("a", "z")] := by
    rw [spellsPairs_iff]
    rfl
  obtain rfl := (hpairs _).mp hspelled
  exact ⟨hspaced, hkeys, hvalues "a"⟩

end Attributes

end LayeredTags
