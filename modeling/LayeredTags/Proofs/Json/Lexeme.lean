import LayeredTags.Json.Value
import Mathlib.Tactic.IntervalCases

/-!
# Lexemes of printed values

The split of a printed string or natural number, whatever follows it.

* `Lexeme.splitFrom_quote`: a printed string is one lexeme with its text.
* `Lexeme.exists_splitFrom_toDigits`: the digits of a number are one lexeme that spells the number,
  unless what follows continues it.
-/

namespace LayeredTags.Json

/-- The content of characters. -/
def glyphs (cs : List Char) : Content := cs.map .char

@[simp] theorem glyphs_nil : glyphs [] = [] := rfl

@[simp] theorem glyphs_cons (c : Char) (cs : List Char) : glyphs (c :: cs) = .char c :: glyphs cs :=
  rfl

@[simp] theorem glyphs_append (cs ds : List Char) : glyphs (cs ++ ds) = glyphs cs ++ glyphs ds :=
  List.map_append

/-- A numeral without sign, fraction and exponent that spells a natural number. -/
structure Numeral.Spells (n : Numeral) (value : Nat) : Prop where
  positive : n.negative = false
  noFraction : n.fraction = none
  noExponent : n.exponent = none
  digits : Numeral.ofDigits n.integer = value

namespace Lexeme

/-! ## Strings -/

theorem Quote.pushUnit_of_lt (q : Quote) {unit : Nat} (h : unit < 0xD800) :
    q.pushUnit unit = q.push (Char.ofNat unit) := by
  rw [pushUnit, if_neg (by omega), if_neg (by omega)]

theorem hexUnit_of_lt : ∀ n < 0x20,
    hexUnit n = ['0', '0', (n / 16).digitChar, (n % 16).digitChar] := by
  decide

theorem hexDigit?_digitChar :
    ∀ n < 16, hexDigit? n.digitChar = some n ∧ n.digitChar.utf8Size = 1 := by
  decide

theorem splitFrom_hexUnit (q : Quote) {n : Nat} (h : n < 0x20) (rest : Content) :
    splitFrom (.escape q) (glyphs ('u' :: hexUnit n) ++ rest) =
      splitFrom (.string (q.push (Char.ofNat n))) rest := by
  obtain ⟨hhigh, hhighSize⟩ := hexDigit?_digitChar (n / 16) (by omega)
  obtain ⟨hlow, hlowSize⟩ := hexDigit?_digitChar (n % 16) (by omega)
  have hlong : isShorter 4 (.char '0' :: .char '0' :: .char (n / 16).digitChar ::
      .char (n % 16).digitChar :: rest) = false := by
    have hzero : ('0' : Char).utf8Size = 1 := rfl
    simp [isShorter, Glyph.byteSize, hhighSize, hlowSize, hzero]
  have hvalue : ((0 * 16 + 0) * 16 + n / 16) * 16 + n % 16 = n := by omega
  have hzero : hexDigit? '0' = some 0 := rfl
  rw [hexUnit_of_lt n h]
  simp only [glyphs_cons, glyphs_nil, List.cons_append, List.nil_append, splitFrom, if_true, hlong,
    Bool.false_eq_true, if_false, hzero, hhigh, hlow, hvalue]
  simp [Quote.pushUnit_of_lt q (by omega : n < 0xD800)]

theorem splitFrom_escapeChar (q : Quote) (c : Char) (rest : Content) :
    splitFrom (.string q) (glyphs (escapeChar c) ++ rest) =
      splitFrom (.string (q.push c)) rest := by
  unfold escapeChar
  split
  · rfl
  · rfl
  · rfl
  · rfl
  · rfl
  · rfl
  · rfl
  · rename_i hquote hbackslash _ _ _ _ _
    split
    · rename_i hcontrol
      show splitFrom (.escape q) (glyphs ('u' :: hexUnit c.toNat) ++ rest) = _
      rw [splitFrom_hexUnit q hcontrol, Char.ofNat_toNat]
    · rename_i hplain
      show splitFrom (.string q) (.char c :: rest) = _
      rw [splitFrom, if_neg hquote, if_neg hbackslash, if_neg hplain]

theorem splitFrom_flatMap_escapeChar (q : Quote) (cs : List Char) (rest : Content) :
    splitFrom (.string q) (glyphs (cs.flatMap escapeChar) ++ rest) =
      splitFrom (.string (cs.foldl Quote.push q)) rest := by
  induction cs generalizing q with
  | nil => rfl
  | cons c cs ih =>
    rw [List.flatMap_cons, glyphs_append, List.append_assoc, splitFrom_escapeChar, ih,
      List.foldl_cons]

theorem Quote.text_foldl_push (cs : List Char) :
    (cs.foldl push .empty).text = .ok (String.ofList cs) := by
  have hfold : ∀ reversed, cs.foldl push ⟨reversed, none, false, false⟩ =
      ⟨cs.reverse ++ reversed, none, false, false⟩ := by
    induction cs with
    | nil => exact fun _ => rfl
    | cons c cs ih =>
      intro reversed
      rw [List.foldl_cons]
      show cs.foldl push ⟨c :: reversed, none, false, false⟩ = _
      rw [ih, List.reverse_cons, List.append_assoc, List.singleton_append]
  rw [empty, hfold, List.append_nil, text, List.reverse_reverse]
  rfl

theorem splitFrom_quote (s : String) (rest : Content) :
    splitFrom .between (glyphs (quote s) ++ rest) =
      .string (.ok s) :: splitFrom .between rest := by
  rw [quote, List.cons_append, glyphs_cons, List.cons_append, glyphs_append, List.append_assoc]
  show splitFrom (.string .empty) _ = _
  rw [splitFrom_flatMap_escapeChar]
  show Lexeme.string _ :: splitFrom .between rest = _
  rw [Quote.text_foldl_push, String.ofList_toList]

/-! ## Numbers -/

/-- What may follow a number: the end, or a character that ends an item or a container. -/
def Ends (rest : Content) : Prop :=
  rest = [] ∨ ∃ c ∈ [',', ']', '\x7d'], ∃ tail, rest = .char c :: tail

theorem start_digitChar {d : Nat} (h : d < 10) :
    start d.digitChar = some ([], .number (.ofDigit d)) := by
  interval_cases d <;> rfl

theorem next_digitChar (draft : NumberDraft) {d : Nat} (h : d < 10) :
    draft.next d.digitChar = draft.digit d := by
  have hdigit : ∀ d < 10, ('0' ≤ d.digitChar ∧ d.digitChar ≤ '9') ∧
      d.digitChar.toNat - '0'.toNat = d := by decide
  obtain ⟨hrange, hvalue⟩ := hdigit d h
  rw [NumberDraft.next, if_pos hrange, hvalue]

theorem exists_splitFrom_toDigits_of_pos {n : Nat} (h : 0 < n) :
    ∃ digits, Numeral.ofDigits digits.reverse = n ∧ ∀ rest,
      splitFrom .between (glyphs (Nat.toDigits 10 n) ++ rest) =
        splitFrom (.number ⟨.integer, ⟨false, digits, none, none⟩⟩) rest := by
  induction n using Nat.strongRecOn with
  | ind n ih =>
    by_cases hsmall : n < 10
    · refine ⟨[n], by simp [Numeral.ofDigits], fun rest => ?_⟩
      rw [Nat.toDigits_of_lt_base hsmall]
      show splitFrom .between (.char n.digitChar :: rest) = _
      rw [splitFrom, start_digitChar hsmall, NumberDraft.ofDigit, if_neg (by omega)]
      rfl
    · obtain ⟨digits, hvalue, hsplit⟩ := ih (n / 10) (by omega) (by omega)
      refine ⟨n % 10 :: digits, ?_, fun rest => ?_⟩
      · rw [List.reverse_cons, Numeral.ofDigits, List.foldl_append, ← Numeral.ofDigits, hvalue]
        show n / 10 * 10 + n % 10 = n
        omega
      · have hlast : n % 10 < 10 := Nat.mod_lt n (by decide)
        rw [Nat.toDigits_of_base_le (by decide) (by omega), glyphs_append, List.append_assoc,
          hsplit]
        show splitFrom _ (.char (n % 10).digitChar :: rest) = _
        rw [splitFrom, next_digitChar _ hlast]
        rfl

theorem splitFrom_number_of_ends {part : NumberPart} (hpart : part = .zero ∨ part = .integer)
    (n : Numeral) {rest : Content} (h : Ends rest) :
    splitFrom (.number ⟨part, n⟩) rest =
      .number (NumberDraft.finish ⟨part, n⟩) :: splitFrom .between rest := by
  rcases h with rfl | ⟨c, hc, tail, rfl⟩
  · rcases hpart with rfl | rfl <;> rfl
  · simp only [List.mem_cons, List.not_mem_nil, or_false] at hc
    rcases hc with rfl | rfl | rfl <;> rcases hpart with rfl | rfl <;> rfl

theorem exists_splitFrom_toDigits (n : Nat) :
    ∃ numeral : Numeral, numeral.Spells n ∧ ∀ rest, Ends rest →
      splitFrom .between (glyphs (Nat.toDigits 10 n) ++ rest) =
        .number numeral :: splitFrom .between rest := by
  by_cases hzero : n = 0
  · subst hzero
    refine ⟨⟨false, [0], none, none⟩, ⟨rfl, rfl, rfl, rfl⟩, fun rest hends => ?_⟩
    exact splitFrom_number_of_ends (.inl rfl) ⟨false, [0], none, none⟩ hends
  · obtain ⟨digits, hvalue, hsplit⟩ := exists_splitFrom_toDigits_of_pos (by omega : 0 < n)
    refine ⟨⟨false, digits.reverse, none, none⟩, ⟨rfl, rfl, rfl, hvalue⟩, fun rest hends => ?_⟩
    rw [hsplit, splitFrom_number_of_ends (.inr rfl) _ hends]
    rfl

end Lexeme

end LayeredTags.Json
