import LayeredTags.Token.Lexer
import Mathlib.Algebra.Group.Nat.Even
import Mathlib.Data.List.TakeWhile

/-!
# Where an attribute text ends

The lexer takes an attribute text piece by piece: text in double quotes, characters that are neither
quotes nor the start of a closer, and in a value marker single braces. Where no further piece is
there, the closer must follow.

* `ClosesFirst`: the closer behind a text is the first one outside double quotes.
* `attributesUntil`: the text in front of that closer, found character by character.
* `PiecesUpTo`: pieces in which no closer stands outside quotes, and which only a closer, the end of
  the text or a quote that is never closed can end.
* `piecesUpTo_openPiece?`, `piecesUpTo_valuePiece?`: the pieces of both markers are such pieces.
* `PiecesUpTo.takePieces_iff`: a closer follows the pieces exactly if they are the text in front of
  the first closer outside quotes.
-/

namespace LayeredTags

/-- A closer behind `raw` stands outside double quotes, and no closer in front of it does. -/
structure ClosesFirst (closer raw : List Char) : Prop where
  outside : Even (raw.count '"')
  first : ∀ u, u ++ closer <+: raw ++ closer → Even (u.count '"') → raw.length ≤ u.length

/-- The text before the first closer outside double quotes, given whether it starts inside. -/
def attributesUntil (closer : List Char) (inQuotes : Bool) : List Char → Option (List Char)
  | [] => none
  | c :: rest =>
    if inQuotes = false ∧ closer <+: c :: rest then some []
    else (attributesUntil closer (if c = '"' then !inQuotes else inQuotes) rest).map (c :: ·)

/-! ## The parity of quotes -/

theorem even_quotes_cons {inQuotes : Bool} {c : Char} {u : List Char} :
    Even (inQuotes.toNat + (c :: u).count '"') ↔
      Even ((if c = '"' then !inQuotes else inQuotes).toNat + u.count '"') := by
  by_cases hc : c = '"'
  · rw [if_pos hc, hc, List.count_cons_self, Nat.even_iff, Nat.even_iff]
    cases inQuotes
    · rw [Bool.not_false, Bool.toNat_false, Bool.toNat_true]
      omega
    · rw [Bool.not_true, Bool.toNat_false, Bool.toNat_true]
      omega
  · rw [if_neg hc, List.count_cons_of_ne hc]

theorem attributesUntil_eq_some_iff {closer : List Char} (hcloser : closer ≠ []) {inQuotes : Bool}
    {cs raw : List Char} :
    attributesUntil closer inQuotes cs = some raw ↔
      raw ++ closer <+: cs ∧ Even (inQuotes.toNat + raw.count '"') ∧
        ∀ u, u ++ closer <+: cs → Even (inQuotes.toNat + u.count '"') → raw.length ≤ u.length := by
  induction cs generalizing inQuotes raw with
  | nil =>
    rw [attributesUntil]
    constructor
    · intro h
      cases h
    · rintro ⟨h, -⟩
      exact absurd (List.append_eq_nil_iff.mp (List.prefix_nil.mp h)).2 hcloser
  | cons c rest ih =>
    rw [attributesUntil]
    by_cases hhere : inQuotes = false ∧ closer <+: c :: rest
    · obtain ⟨rfl, hat⟩ := hhere
      rw [if_pos ⟨rfl, hat⟩]
      constructor
      · intro h
        cases h
        exact ⟨hat, by simp, fun _ _ _ => Nat.zero_le _⟩
      · rintro ⟨-, -, hfirst⟩
        have hlength := hfirst [] hat (by simp)
        rw [List.length_eq_zero_iff.mp (Nat.le_zero.mp hlength)]
    · -- no closer counts here, so the text and every earlier closer start with `c`
      have hne : ∀ u : List Char, u ++ closer <+: c :: rest →
          Even (inQuotes.toNat + u.count '"') → ∃ v, u = c :: v ∧ v ++ closer <+: rest := by
        intro u hu heven
        cases u with
        | nil =>
          refine absurd ⟨?_, hu⟩ hhere
          cases inQuotes
          · rfl
          · simp at heven
        | cons d v =>
          rw [List.cons_append, List.cons_prefix_cons] at hu
          exact ⟨v, by rw [hu.1], hu.2⟩
      rw [if_neg hhere, Option.map_eq_some_iff]
      constructor
      · rintro ⟨raw, hraw, rfl⟩
        obtain ⟨hat, heven, hfirst⟩ := ih.mp hraw
        refine ⟨List.cons_prefix_cons.mpr ⟨rfl, hat⟩, even_quotes_cons.mpr heven, ?_⟩
        intro u hu hueven
        obtain ⟨v, rfl, hv⟩ := hne u hu hueven
        exact Nat.succ_le_succ (hfirst v hv (even_quotes_cons.mp hueven))
      · rintro ⟨hat, heven, hfirst⟩
        obtain ⟨v, rfl, hv⟩ := hne raw hat heven
        refine ⟨v, ih.mpr ⟨hv, even_quotes_cons.mp heven, ?_⟩, rfl⟩
        intro u hu hueven
        have hlength := hfirst (c :: u) (List.cons_prefix_cons.mpr ⟨rfl, hu⟩)
          (even_quotes_cons.mpr hueven)
        exact Nat.le_of_succ_le_succ hlength

theorem attributesUntil_false_eq_some_iff {closer : List Char} (hcloser : closer ≠ [])
    {cs raw : List Char} :
    attributesUntil closer false cs = some raw ↔
      raw ++ closer <+: cs ∧ ClosesFirst closer raw := by
  rw [attributesUntil_eq_some_iff hcloser]
  simp only [Bool.toNat_false, Nat.zero_add]
  constructor
  · rintro ⟨hat, heven, hfirst⟩
    exact ⟨hat, heven, fun u hu => hfirst u (hu.trans hat)⟩
  · rintro ⟨hat, heven, hfirst⟩
    refine ⟨hat, heven, fun u hu hueven => ?_⟩
    by_contra hlt
    have hshort : (u ++ closer).length ≤ (raw ++ closer).length := by
      simp only [List.length_append]
      omega
    exact hlt (hfirst u (List.prefix_of_prefix_length_le hu hat hshort) hueven)

/-! ## Pieces -/

/-- The text starts with a piece that is not empty and in which no closer counts. -/
def Passes (closer cs piece : List Char) : Prop :=
  piece ≠ [] ∧ ∃ rest, cs = piece ++ rest ∧
    attributesUntil closer false cs = (attributesUntil closer false rest).map (piece ++ ·)

/-- No closer counts in a piece. Where there is no piece, a closer follows, or none counts any
more. -/
structure PiecesUpTo (piece? : List Char → Option (List Char)) (closer : List Char) : Prop where
  passes : ∀ {cs piece : List Char}, piece? cs = some piece → Passes closer cs piece
  stop : ∀ {cs : List Char}, piece? cs = none →
    attributesUntil closer false cs = if closer <+: cs then some [] else none

variable {piece? : List Char → Option (List Char)} {closer cs raw piece : List Char} {c d : Char}

theorem takePieces_of_eq_none (h : piece? cs = none) : takePieces piece? cs = [] := by
  cases cs with
  | nil => rfl
  | cons c rest => rw [takePieces, takePiecesFrom, h]

theorem takePiecesFrom_length (run rest : List Char) :
    takePiecesFrom piece? run.length (run ++ rest) = run ++ takePieces piece? rest := by
  induction run with
  | nil => rfl
  | cons c run ih => exact congrArg (c :: ·) ih

theorem takePieces_append {rest : List Char} (h : piece? (piece ++ rest) = some piece)
    (hne : piece ≠ []) :
    takePieces piece? (piece ++ rest) = piece ++ takePieces piece? rest := by
  obtain ⟨c, run, rfl⟩ := List.exists_cons_of_ne_nil hne
  rw [List.cons_append] at h
  rw [List.cons_append, takePieces, takePiecesFrom, h]
  exact congrArg (c :: ·) (takePiecesFrom_length run rest)

theorem PiecesUpTo.attributesUntil_eq (h : PiecesUpTo piece? closer) (cs : List Char) :
    attributesUntil closer false cs =
      if closer <+: cs.drop (takePieces piece? cs).length then some (takePieces piece? cs)
      else none := by
  induction hlength : cs.length using Nat.strong_induction_on generalizing cs with
  | h n ih =>
    subst hlength
    cases hfirst : piece? cs with
    | none =>
      rw [takePieces_of_eq_none hfirst]
      exact h.stop hfirst
    | some piece =>
      obtain ⟨hne, rest, rfl, hrest⟩ := h.passes hfirst
      have hshorter : rest.length < (piece ++ rest).length := by
        have hpos := List.length_pos_iff.mpr hne
        rw [List.length_append]
        omega
      rw [takePieces_append hfirst hne, hrest, ih _ hshorter rest rfl, List.length_append,
        ← List.drop_drop, List.drop_left]
      split <;> rfl

/-- The pieces stop in front of the first closer outside quotes, if there is one. -/
theorem PiecesUpTo.takePieces_iff (h : PiecesUpTo piece? closer) (hcloser : closer ≠ []) :
    takePieces piece? cs = raw ∧ closer <+: cs.drop raw.length ↔
      raw ++ closer <+: cs ∧ ClosesFirst closer raw := by
  rw [← attributesUntil_false_eq_some_iff hcloser, h.attributesUntil_eq]
  constructor
  · rintro ⟨rfl, hcloser⟩
    rw [if_pos hcloser]
  · intro hraw
    split at hraw
    · obtain rfl := Option.some.inj hraw
      exact ⟨rfl, ‹_›⟩
    · cases hraw

/-! ## The pieces of both markers -/

theorem takeWhile_append_stop {p : Char → Bool} {run rest : List Char}
    (hrun : ∀ c ∈ run, p c = true) (hstop : ∀ c ∈ rest.head?, p c = false) :
    (run ++ rest).takeWhile p = run ∧ (run ++ rest).dropWhile p = rest := by
  have hrest : rest.takeWhile p = [] ∧ rest.dropWhile p = rest := by
    cases rest with
    | nil => exact ⟨rfl, rfl⟩
    | cons c rest =>
      have hc := hstop c rfl
      exact ⟨List.takeWhile_cons_of_neg (by simp [hc]), List.dropWhile_cons_of_neg (by simp [hc])⟩
  rw [List.takeWhile_append_of_pos hrun, List.dropWhile_append_of_pos hrun, hrest.1, hrest.2]
  exact ⟨List.append_nil run, rfl⟩

theorem attributesUntil_append {inQuotes : Bool} {run : List Char} (hcloser : closer ≠ [])
    (hquote : '"' ∉ run) (hrun : inQuotes = true ∨ ∀ c ∈ run, closer.head? ≠ some c)
    (rest : List Char) :
    attributesUntil closer inQuotes (run ++ rest) =
      (attributesUntil closer inQuotes rest).map (run ++ ·) := by
  induction run with
  | nil => simp
  | cons c run ih =>
    have hpassed : ¬ (inQuotes = false ∧ closer <+: c :: (run ++ rest)) := by
      rintro ⟨houtside, hcloses⟩
      obtain ⟨d, closer, rfl⟩ := List.exists_cons_of_ne_nil hcloser
      rcases hrun with hinside | hrun
      · rw [hinside] at houtside
        cases houtside
      · exact hrun c (.head _) (congrArg some (List.cons_prefix_cons.mp hcloses).1)
    have hne : c ≠ '"' := fun hc => hquote (hc ▸ List.mem_cons_self)
    rw [List.cons_append, attributesUntil, if_neg hpassed, if_neg hne,
      ih (fun hmem => hquote (.tail _ hmem)) (hrun.imp_right fun h c hc => h c (.tail _ hc)),
      Option.map_map]
    rfl

/-- A quote leads into quotes, and one that is never closed hides every closer. -/
theorem attributesUntil_quote (hcloser : closer ≠ []) (hhead : closer.head? ≠ some '"')
    (rest : List Char) :
    attributesUntil closer false ('"' :: rest) =
      (attributesUntil closer true rest).map ('"' :: ·) := by
  rw [attributesUntil, if_neg, if_pos rfl]
  · rfl
  · rintro ⟨-, hcloses⟩
    obtain ⟨d, closer, rfl⟩ := List.exists_cons_of_ne_nil hcloser
    exact hhead (congrArg some (List.cons_prefix_cons.mp hcloses).1)

theorem passes_quotedRun (hcloser : closer ≠ []) (hhead : closer.head? ≠ some '"')
    (h : quotedRun? cs = some piece) : Passes closer cs piece := by
  unfold quotedRun? at h
  split at h
  · split at h
    · rename_i rest hmem
      obtain ⟨inner, behind, rfl, hinner⟩ := List.eq_append_cons_of_mem hmem
      have hinside : ∀ c ∈ inner, decide (c ≠ '"') = true := by
        intro c hc
        exact decide_eq_true fun heq => hinner (heq ▸ hc)
      have htake : (inner ++ '"' :: behind).takeWhile (· ≠ '"') = inner :=
        (takeWhile_append_stop hinside (by simp)).1
      rw [htake] at h
      obtain rfl := Option.some.inj h
      refine ⟨List.cons_ne_nil _ _, behind, by simp, ?_⟩
      have hclosing : attributesUntil closer true ('"' :: behind) =
          (attributesUntil closer false behind).map ('"' :: ·) := by
        rw [attributesUntil, if_neg (by simp), if_pos rfl]
        rfl
      rw [attributesUntil_quote hcloser hhead, attributesUntil_append hcloser hinner (.inl rfl),
        hclosing, Option.map_map, Option.map_map]
      congr 1
      funext text
      simp
    · cases h
  · cases h

theorem attributesUntil_of_quotedRun?_eq_none {rest : List Char} (hcloser : closer ≠ [])
    (hhead : closer.head? ≠ some '"') (h : quotedRun? ('"' :: rest) = none) :
    attributesUntil closer false ('"' :: rest) = none := by
  have hopen : '"' ∉ rest := by
    intro hmem
    rw [quotedRun?, if_pos hmem] at h
    cases h
  have hhidden := attributesUntil_append hcloser hopen (.inl (rfl : true = true)) []
  rw [List.append_nil] at hhidden
  rw [attributesUntil_quote hcloser hhead, hhidden]
  rfl

theorem runWithout?_eq_some {others : List Char} (h : runWithout? others cs = some piece) :
    piece ≠ [] ∧ (∀ c ∈ piece, c ∉ others) ∧ ∃ rest, cs = piece ++ rest := by
  unfold runWithout? at h
  simp only at h
  split at h
  · cases h
  · rename_i hne
    obtain rfl := Option.some.inj h
    refine ⟨hne, fun c hc => ?_, _, List.takeWhile_append_dropWhile.symm⟩
    have hpassed := List.mem_takeWhile_imp hc
    exact of_decide_eq_true hpassed

theorem mem_of_runWithout?_eq_none {others rest : List Char}
    (h : runWithout? others (c :: rest) = none) : c ∈ others := by
  by_contra hc
  simp [runWithout?, hc] at h

theorem passes_runWithout (hcloser : closer ≠ []) (hhead : closer.head? = some d)
    (h : runWithout? ['"', d] cs = some piece) : Passes closer cs piece := by
  obtain ⟨hne, hothers, rest, rfl⟩ := runWithout?_eq_some h
  refine ⟨hne, rest, rfl, attributesUntil_append hcloser ?_ (.inr ?_) rest⟩
  · exact fun hquote => hothers _ hquote (by simp)
  · rintro c hc heq
    exact hothers c hc (by simp [Option.some.inj (hhead.symm.trans heq)])

theorem singleBrace?_eq_some (h : singleBrace? cs = some piece) :
    piece = ['}'] ∧ (∃ rest, cs = '}' :: rest) ∧ ¬ ['}', '}'] <+: cs := by
  unfold singleBrace? at h
  split at h
  · cases h
  · rename_i rest hsingle
    refine ⟨(Option.some.inj h).symm, ⟨rest, rfl⟩, ?_⟩
    rintro ⟨tail, htail⟩
    exact hsingle tail (List.cons.inj htail).2.symm
  · cases h

theorem prefix_of_singleBrace?_eq_none {rest : List Char} (h : singleBrace? ('}' :: rest) = none) :
    ['}', '}'] <+: '}' :: rest := by
  cases rest with
  | nil => cases h
  | cons c rest =>
    by_cases hc : c = '}'
    · exact ⟨rest, by rw [hc]; rfl⟩
    · simp [singleBrace?, hc] at h

theorem passes_singleBrace (h : singleBrace? cs = some piece) : Passes ['}', '}'] cs piece := by
  obtain ⟨rfl, ⟨rest, rfl⟩, hpassed⟩ := singleBrace?_eq_some h
  refine ⟨List.cons_ne_nil _ _, rest, rfl, ?_⟩
  rw [attributesUntil, if_neg fun hcloses => hpassed hcloses.2, if_neg (by decide)]
  rfl

theorem piecesUpTo_openPiece? : PiecesUpTo openPiece? ['>'] where
  passes h := by
    rcases Option.or_eq_some_iff.mp h with hquoted | ⟨-, hrun⟩
    · exact passes_quotedRun (by decide) (by decide) hquoted
    · exact passes_runWithout (by decide) rfl hrun
  stop {cs} h := by
    obtain ⟨hquoted, hrun⟩ := Option.or_eq_none_iff.mp h
    cases cs with
    | nil => rfl
    | cons c rest =>
      have hc := mem_of_runWithout?_eq_none hrun
      simp only [List.mem_cons, List.not_mem_nil, or_false] at hc
      rcases hc with rfl | rfl
      · rw [attributesUntil_of_quotedRun?_eq_none (by decide) (by decide) hquoted, if_neg (by simp)]
      · simp [attributesUntil]

theorem piecesUpTo_valuePiece? : PiecesUpTo valuePiece? ['}', '}'] where
  passes h := by
    rcases Option.or_eq_some_iff.mp h with hquoted | ⟨-, h⟩
    · exact passes_quotedRun (by decide) (by decide) hquoted
    · rcases Option.or_eq_some_iff.mp h with hrun | ⟨-, hbrace⟩
      · exact passes_runWithout (by decide) rfl hrun
      · exact passes_singleBrace hbrace
  stop {cs} h := by
    obtain ⟨hquoted, h⟩ := Option.or_eq_none_iff.mp h
    obtain ⟨hrun, hbrace⟩ := Option.or_eq_none_iff.mp h
    cases cs with
    | nil => rfl
    | cons c rest =>
      have hc := mem_of_runWithout?_eq_none hrun
      simp only [List.mem_cons, List.not_mem_nil, or_false] at hc
      rcases hc with rfl | rfl
      · rw [attributesUntil_of_quotedRun?_eq_none (by decide) (by decide) hquoted, if_neg (by simp)]
      · have hcloses := prefix_of_singleBrace?_eq_none hbrace
        rw [attributesUntil, if_pos ⟨rfl, hcloses⟩, if_pos hcloses]

end LayeredTags
